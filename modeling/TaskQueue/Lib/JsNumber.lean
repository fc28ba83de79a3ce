import TaskQueue.Lib.JsString

/-!
# `Number(string)`

String-to-number coercion as the language defines it: trimming, the radix
prefixes, the decimal grammar with its exponent, and rounding to the nearest
double.  A caller's text reaches validated settings only through this function,
so its odd corners (`' 7 '`, `0x10`, `1e1`, `0.99999999999999999999`) decide
which settings are recognised.
-/

namespace Ecma

/-- A double: not a number, an infinity, or `± mantissa * 2 ^ exponent`. -/
inductive JsNumber
  | nan
  | infinity (negative : Bool)
  | finite (negative : Bool) (mantissa : Nat) (exponent : Int)
  deriving DecidableEq, Repr

/-! ## Rounding -/

def powLeRatio (num den : Nat) : Int → Bool
  | .ofNat k => den * 2 ^ k ≤ num
  | .negSucc k => den ≤ num * 2 ^ (k + 1)

/-- The exponent `k` with `2 ^ k ≤ num / den < 2 ^ (k + 1)`. -/
def ratioLog2 (num den : Nat) : Int :=
  let k : Int := (Nat.log2 num : Int) - (Nat.log2 den : Int)
  if powLeRatio num den k then k else k - 1

/-- `num / (den * 2 ^ unit)` rounded to an integer, ties to even. -/
def roundRatio (num den : Nat) (unit : Int) : Nat :=
  let (n, d) := match unit with
    | .ofNat k => (num, den * 2 ^ k)
    | .negSucc k => (num * 2 ^ (k + 1), den)
  let q := n / d
  let r := n % d
  if d < 2 * r ∨ (d = 2 * r ∧ q % 2 = 1) then q + 1 else q

def roundToDouble (negative : Bool) (num den : Nat) : JsNumber :=
  if num = 0 then .finite negative 0 0
  else
    let k := ratioLog2 num den
    if 1024 ≤ k then .infinity negative
    else
      let unit := max (k - 52) (-1074)
      let q := roundRatio num den unit
      if unit = 971 ∧ q = 2 ^ 53 then .infinity negative else .finite negative q unit

/-! ## The grammar -/

/-- White space and line terminators, which `trim` and `Number` strip. -/
def isWhiteSpace (u : UInt16) : Bool :=
  (0x09 ≤ u && u ≤ 0x0D) || u == 0x20 || u == 0xA0 || u == 0x1680 ||
    (0x2000 ≤ u && u ≤ 0x200A) || u == 0x2028 || u == 0x2029 || u == 0x202F ||
    u == 0x205F || u == 0x3000 || u == 0xFEFF

def trim (s : JsString) : JsString :=
  ((s.dropWhile isWhiteSpace).reverse.dropWhile isWhiteSpace).reverse

def digitValue (u : UInt16) : Option Nat :=
  let n := u.toNat
  if 0x30 ≤ n ∧ n ≤ 0x39 then some (n - 0x30)
  else if 0x41 ≤ n ∧ n ≤ 0x5A then some (n - 0x41 + 10)
  else if 0x61 ≤ n ∧ n ≤ 0x7A then some (n - 0x61 + 10)
  else none

def digitsValue (radix : Nat) : Nat → JsString → Option Nat
  | acc, [] => some acc
  | acc, u :: us =>
      match digitValue u with
      | some d => if d < radix then digitsValue radix (acc * radix + d) us else none
      | none => none

def parseDigits (radix : Nat) (s : JsString) : Option Nat :=
  if s.isEmpty then none else digitsValue radix 0 s

def takeSign : JsString → Bool × JsString
  | 0x2B :: s => (false, s)
  | 0x2D :: s => (true, s)
  | s => (false, s)

def parseExponent : JsString → Option Int
  | [] => some 0
  | u :: s =>
      if u = 0x65 ∨ u = 0x45 then
        let (negative, digits) := takeSign s
        (parseDigits 10 digits).map fun e => if negative then -(e : Int) else e
      else none

/-- `digits . digits exponent`, where the point and either side of it may be
missing but not every digit. -/
def parseDecimal (negative : Bool) (s : JsString) : JsNumber :=
  let whole := s.takeWhile isDigit
  let afterWhole := s.dropWhile isDigit
  let (fraction, rest) := match afterWhole with
    | 0x2E :: t => (t.takeWhile isDigit, t.dropWhile isDigit)
    | t => ([], t)
  match parseDigits 10 (whole ++ fraction), parseExponent rest with
  | some m, some e =>
      match e - fraction.length with
      | .ofNat k => roundToDouble negative (m * 10 ^ k) 1
      | .negSucc k => roundToDouble negative m (10 ^ (k + 1))
  | _, _ => .nan

def parseRadix (radix : Nat) (s : JsString) : JsNumber :=
  match parseDigits radix s with
  | some n => roundToDouble false n 1
  | none => .nan

def toNumber (s : JsString) : JsNumber :=
  match trim s with
  | [] => .finite false 0 0
  | 0x30 :: 0x78 :: t | 0x30 :: 0x58 :: t => parseRadix 16 t
  | 0x30 :: 0x6F :: t | 0x30 :: 0x4F :: t => parseRadix 8 t
  | 0x30 :: 0x62 :: t | 0x30 :: 0x42 :: t => parseRadix 2 t
  | t =>
      let (negative, u) := takeSign t
      if u = js "Infinity" then .infinity negative else parseDecimal negative u

/-- `Number(value)` of a string that may be `undefined`. -/
def toNumber? : Option JsString → JsNumber
  | none => .nan
  | some s => toNumber s

def JsNumber.toInteger? : JsNumber → Option Int
  | .finite negative m (.ofNat e) =>
      let n : Int := m * 2 ^ e
      some (if negative then -n else n)
  | .finite negative m (.negSucc e) =>
      if m % 2 ^ (e + 1) = 0 then
        let n : Int := (m / 2 ^ (e + 1) : Nat)
        some (if negative then -n else n)
      else none
  | _ => none

example : (toNumber (js " 0x10 ")).toInteger? = some 16 ∧
    (toNumber (js "1e1")).toInteger? = some 10 ∧
    (toNumber (js "0.99999999999999999999")).toInteger? = some 1 ∧
    (toNumber (js "1.5")).toInteger? = none ∧ (toNumber (js "7a")).toInteger? = none := by
  decide

end Ecma

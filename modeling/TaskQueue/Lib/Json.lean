import Mathlib.Data.List.TakeWhile
import TaskQueue.Lib.JsNumber

/-!
# JSON values and their text

`JSON.stringify` and `JSON.parse` on UTF-16 text.  Numbers are never computed
with once they are inside a JSON value, so a number is its literal.  A property
list may repeat a key, in which case the last occurrence counts, as it does for
`JSON.parse` and for object spread.
-/

namespace Ecma

/-! ## Number literals -/

/-- The units a number literal or one of the three names is made of. -/
def isTokenUnit (u : UInt16) : Bool :=
  isDigit u || u == 0x2B || u == 0x2D || u == 0x2E ||
    (0x41 ≤ u && u ≤ 0x5A) || (0x61 ≤ u && u ≤ 0x7A)

def isIntegerPart : JsString → Bool
  | [] => false
  | 0x30 :: s => s.isEmpty
  | s => s.all isDigit

def isFractionAndExponent (s : JsString) : Bool :=
  let (fraction, rest) := match s with
    | 0x2E :: t => (some (t.takeWhile isDigit), t.dropWhile isDigit)
    | t => (none, t)
  fraction != some [] && (parseExponent rest).isSome

/-- `-? int frac? exp?` of the JSON grammar. -/
def isNumberLiteral (s : JsString) : Bool :=
  let t := (if s.head? = some 0x2D then s.tail else s)
  s.all isTokenUnit && isIntegerPart (t.takeWhile isDigit) &&
    isFractionAndExponent (t.dropWhile isDigit)

/-- A number, as the literal `JSON.stringify` prints for it. -/
structure NumberLiteral where
  text : JsString
  isLiteral : isNumberLiteral text = true
  deriving DecidableEq

theorem isIntegerPart_decimal (n : Nat) : isIntegerPart (decimal n) = true := by
  have hdigits : (decimal n).all isDigit = true :=
    List.all_eq_true.2 fun u hu => isDigit_of_mem_decimal hu
  by_cases hn : n = 0
  · subst hn
    decide
  · obtain ⟨u, s, hus⟩ := List.exists_cons_of_ne_nil (decimal_ne_nil n)
    have hne := head_decimal_ne_zero hn hus
    rw [hus] at hdigits ⊢
    unfold isIntegerPart
    split
    · rename_i h
      cases h
    · rename_i h
      exact absurd (List.cons.inj h).1 hne
    · exact hdigits

theorem isNumberLiteral_decimal (n : Nat) : isNumberLiteral (decimal n) = true := by
  have hdigits : ∀ u ∈ decimal n, isDigit u = true := fun u hu => isDigit_of_mem_decimal hu
  have htoken : (decimal n).all isTokenUnit = true :=
    List.all_eq_true.2 fun u hu => by simp [isTokenUnit, hdigits u hu]
  have hsign : (decimal n).head? ≠ some 0x2D := fun h =>
    absurd (hdigits 0x2D (List.mem_of_mem_head? h)) (by decide)
  have htake := List.takeWhile_eq_self_iff.2 hdigits
  have hdrop := List.dropWhile_eq_nil_iff.2 hdigits
  simp only [isNumberLiteral, if_neg hsign, htoken, htake, hdrop, isIntegerPart_decimal,
    Bool.true_and]
  decide

def NumberLiteral.ofNat (n : Nat) : NumberLiteral := ⟨decimal n, isNumberLiteral_decimal n⟩

/-! ## Values -/

inductive Json
  | null
  | bool (b : Bool)
  | number (n : NumberLiteral)
  | string (s : JsString)
  | array (elems : List Json)
  | object (props : List (JsString × Json))

/-- `value[key]`; `none` is `undefined`. -/
def Json.get? (key : JsString) : Json → Option Json
  | .object props => props.reverse.lookup key
  | _ => none

def Json.string? : Json → Option JsString
  | .string s => some s
  | _ => none

/-! ## Strings in quotes -/

def isLeadSurrogate (u : UInt16) : Bool := 0xD800 ≤ u && u ≤ 0xDBFF

def isTrailSurrogate (u : UInt16) : Bool := 0xDC00 ≤ u && u ≤ 0xDFFF

def hexUnit (d : Nat) : UInt16 := UInt16.ofNat (if d < 10 then 0x30 + d else 0x57 + d)

def escapeHex (u : UInt16) : JsString :=
  let n := u.toNat
  [0x5C, 0x75, hexUnit (n / 4096), hexUnit (n / 256 % 16), hexUnit (n / 16 % 16),
    hexUnit (n % 16)]

def quoteUnit (u : UInt16) : JsString :=
  if u = 0x22 ∨ u = 0x5C then [0x5C, u]
  else if u = 0x08 then js "\\b"
  else if u = 0x09 then js "\\t"
  else if u = 0x0A then js "\\n"
  else if u = 0x0C then js "\\f"
  else if u = 0x0D then js "\\r"
  else if u < 0x20 then escapeHex u
  else [u]

/-- The units between the quotes.  A surrogate without its partner is escaped. -/
def quoteUnits : JsString → JsString
  | [] => []
  | [u] =>
      if isLeadSurrogate u || isTrailSurrogate u then escapeHex u else quoteUnit u
  | u :: v :: s =>
      if isLeadSurrogate u && isTrailSurrogate v then u :: v :: quoteUnits s
      else if isLeadSurrogate u || isTrailSurrogate u then escapeHex u ++ quoteUnits (v :: s)
      else quoteUnit u ++ quoteUnits (v :: s)

def quote (s : JsString) : JsString := 0x22 :: (quoteUnits s ++ [0x22])

def unescape (e : UInt16) : Option UInt16 :=
  if e = 0x22 ∨ e = 0x5C ∨ e = 0x2F then some e
  else if e = 0x62 then some 0x08
  else if e = 0x74 then some 0x09
  else if e = 0x6E then some 0x0A
  else if e = 0x66 then some 0x0C
  else if e = 0x72 then some 0x0D
  else none

def hexValue (a b c d : UInt16) : Option UInt16 :=
  (parseDigits 16 [a, b, c, d]).map UInt16.ofNat

/-- The contents of a string up to its closing quote, and what follows it. -/
def unquote : JsString → Option (JsString × JsString)
  | [] => none
  | u :: s =>
      if u = 0x22 then some ([], s)
      else if u = 0x5C then
        match s with
        | [] => none
        | e :: t =>
            if e = 0x75 then
              match t with
              | a :: b :: c :: d :: r =>
                  match hexValue a b c d, unquote r with
                  | some v, some (w, rest) => some (v :: w, rest)
                  | _, _ => none
              | _ => none
            else
              match unescape e, unquote t with
              | some v, some (w, rest) => some (v :: w, rest)
              | _, _ => none
      else if u < 0x20 then none
      else (unquote s).map fun p => (u :: p.1, p.2)

/-! ## Printing -/

mutual

def Json.stringify : Json → JsString
  | .null => js "null"
  | .bool true => js "true"
  | .bool false => js "false"
  | .number n => n.text
  | .string s => quote s
  | .array elems => 0x5B :: (stringifyElems elems ++ [0x5D])
  | .object props => 0x7B :: (stringifyProps props ++ [0x7D])

def stringifyElems : List Json → JsString
  | [] => []
  | [v] => v.stringify
  | v :: w :: vs => v.stringify ++ 0x2C :: stringifyElems (w :: vs)

def stringifyProps : List (JsString × Json) → JsString
  | [] => []
  | [(k, v)] => quote k ++ 0x3A :: v.stringify
  | (k, v) :: p :: ps => quote k ++ 0x3A :: (v.stringify ++ 0x2C :: stringifyProps (p :: ps))

end

/-! ## Parsing -/

def isJsonSpace (u : UInt16) : Bool := u == 0x20 || u == 0x09 || u == 0x0A || u == 0x0D

def skipSpace (s : JsString) : JsString := s.dropWhile isJsonSpace

/-- `null`, `true`, `false` or a number: the longest run of token units. -/
def parseToken (s : JsString) : Option (Json × JsString) :=
  let token := s.takeWhile isTokenUnit
  let rest := s.dropWhile isTokenUnit
  if token = js "null" then some (.null, rest)
  else if token = js "true" then some (.bool true, rest)
  else if token = js "false" then some (.bool false, rest)
  else if h : isNumberLiteral token = true then some (.number ⟨token, h⟩, rest)
  else none

mutual

/-- A value and the text after it.  The fuel bounds the nesting; every level
consumes a bracket, so the length of the text is always enough. -/
def parseValue : Nat → JsString → Option (Json × JsString)
  | 0, _ => none
  | fuel + 1, s =>
      match skipSpace s with
      | [] => none
      | u :: t =>
          if u = 0x22 then (unquote t).map fun p => (.string p.1, p.2)
          else if u = 0x5B then
            match skipSpace t with
            | 0x5D :: rest => some (.array [], rest)
            | _ => (parseElems fuel t).map fun p => (.array p.1, p.2)
          else if u = 0x7B then
            match skipSpace t with
            | 0x7D :: rest => some (.object [], rest)
            | _ => (parseProps fuel t).map fun p => (.object p.1, p.2)
          else parseToken (u :: t)

def parseElems : Nat → JsString → Option (List Json × JsString)
  | 0, _ => none
  | fuel + 1, s =>
      match parseValue fuel s with
      | none => none
      | some (v, t) =>
          match skipSpace t with
          | 0x2C :: r => (parseElems fuel r).map fun p => (v :: p.1, p.2)
          | 0x5D :: r => some ([v], r)
          | _ => none

def parseProps : Nat → JsString → Option (List (JsString × Json) × JsString)
  | 0, _ => none
  | fuel + 1, s =>
      match parseProp fuel s with
      | none => none
      | some (p, t) =>
          match skipSpace t with
          | 0x2C :: r => (parseProps fuel r).map fun q => (p :: q.1, q.2)
          | 0x7D :: r => some ([p], r)
          | _ => none

def parseProp : Nat → JsString → Option ((JsString × Json) × JsString)
  | 0, _ => none
  | fuel + 1, s =>
      match skipSpace s with
      | 0x22 :: t =>
          match unquote t with
          | none => none
          | some (k, r) =>
              match skipSpace r with
              | 0x3A :: w => (parseValue fuel w).map fun p => ((k, p.1), p.2)
              | _ => none
      | _ => none

end

/-- `JSON.parse(text)`; `none` is the thrown `SyntaxError`.  The value stands for the one that
JavaScript makes of the text: a number for the double its literal rounds to, and a property list
for the object that has each key once, with its last value, and its array indices first. -/
def Json.parse (s : JsString) : Option Json :=
  match parseValue (s.length + 1) s with
  | some (v, rest) => if (skipSpace rest).isEmpty then some v else none
  | none => none

end Ecma

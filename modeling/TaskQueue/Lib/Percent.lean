import TaskQueue.Lib.Unicode

/-!
# Percent-encoding

UTF-8 percent-encoding with a set of code points to escape, as the URL standard has
it, and `decodeURIComponent`, which is strict: an escape without two hexadecimal
digits, or escaped bytes that are not well-formed UTF-8, have no decoding.
-/

namespace Percent

open Ecma Unicode

/-! ## Escapes -/

def hexDigit (n : Nat) : UInt16 := UInt16.ofNat (if n < 10 then 0x30 + n else 0x37 + n)

def hexDigitValue (u : UInt16) : Option Nat :=
  let n := u.toNat
  if 0x30 ≤ n ∧ n ≤ 0x39 then some (n - 0x30)
  else if 0x41 ≤ n ∧ n ≤ 0x46 then some (n - 0x37)
  else if 0x61 ≤ n ∧ n ≤ 0x66 then some (n - 0x57)
  else none

def escape (b : UInt8) : JsString := [0x25, hexDigit (b.toNat / 16), hexDigit (b.toNat % 16)]

def unescape (a b : UInt16) : Option UInt8 :=
  (hexDigitValue a).bind fun x => (hexDigitValue b).map fun y => UInt8.ofNat (16 * x + y)

/-! ## Encoding -/

def encodePoint (set : Nat → Bool) (c : Nat) : JsString :=
  if set c then (encodeScalar c).flatMap escape else utf16 c

def encode (set : Nat → Bool) (s : JsString) : JsString := (scalars s).flatMap (encodePoint set)

theorem encodePoint_ne_nil (set : Nat → Bool) (c : Nat) : encodePoint set c ≠ [] := by
  unfold encodePoint encodeScalar utf16 escape
  split
  · split
    · simp
    · split
      · simp
      · split <;> simp
  · split <;> simp

theorem encode_append_cons {u : UInt16} (h : isSurrogate u = false) (set : Nat → Bool)
    (s t : JsString) :
    encode set (s ++ u :: t) = encode set s ++ encodePoint set u.toNat ++ encode set t := by
  unfold encode
  rw [scalars_append_cons h, List.flatMap_append, List.flatMap_cons, List.append_assoc]

theorem encode_ne_nil {set : Nat → Bool} {s : JsString} (h : s ≠ []) : encode set s ≠ [] := by
  have hscalars : scalars s ≠ [] := by
    fun_cases scalars s with
    | case1 => exact absurd rfl h
    | case2 => simp
    | case3 => simp
    | case4 => simp
  obtain ⟨c, cs, hcs⟩ := List.exists_cons_of_ne_nil hscalars
  rw [encode, hcs, List.flatMap_cons]
  intro hnil
  exact encodePoint_ne_nil set c (List.append_eq_nil_iff.1 hnil).1

theorem encode_append_cons_ne {u : UInt16} (h : isSurrogate u = false) (set : Nat → Bool)
    (s t : JsString) : encode set (s ++ u :: t) ≠ encode set s := by
  rw [encode_append_cons h, List.append_assoc]
  intro heq
  have hnil := List.append_right_eq_self.1 heq
  exact encodePoint_ne_nil set _ (List.append_eq_nil_iff.1 hnil).1

theorem encode_append {set : Nat → Bool} {front : JsString}
    (h : ∀ u ∈ front, u.toNat < 0x80 ∧ set u.toNat = false) (s : JsString) :
    encode set (front ++ s) = front ++ encode set s := by
  induction front with
  | nil => rfl
  | cons u front ih =>
      obtain ⟨hascii, hset⟩ := h u List.mem_cons_self
      have hplain : isSurrogate u = false := by
        simp only [isSurrogate, Bool.and_eq_false_iff, decide_eq_false_iff_not]
        omega
      have hpoint : encodePoint set u.toNat = [u] := by
        rw [encodePoint, hset, if_neg (by simp), utf16, if_pos (by omega), UInt16.ofNat_toNat]
      have hstep := encode_append_cons hplain set [] (front ++ s)
      rw [List.nil_append, hpoint, ih fun v hv => h v (List.mem_cons_of_mem _ hv)] at hstep
      rw [List.cons_append, hstep]
      rfl

/-! ## Decoding -/

/-- Units outside escapes stand for themselves, and escaped bytes go to the decoder. -/
def scan : State → JsString → Option (JsString × State)
  | state, [] => some ([], state)
  | state, u :: s =>
      if u = 0x25 then
        match s with
        | a :: b :: s =>
            (unescape a b).bind fun byte =>
              (next state byte).bind fun r =>
                (scan r.2 s).map fun q => (r.1.flatMap utf16 ++ q.1, q.2)
        | _ => none
      else
        match state with
        | .start => (scan .start s).map fun q => (u :: q.1, q.2)
        | .within .. => none

/-- `decodeURIComponent(s)`; `none` where it throws. -/
def decodeURIComponent (s : JsString) : Option JsString :=
  match scan .start s with
  | some (text, .start) => some text
  | _ => none

theorem decodeURIComponent_eq_some {s text : JsString} :
    decodeURIComponent s = some text ↔ scan .start s = some (text, .start) := by
  unfold decodeURIComponent
  split
  · rename_i h
    simp [h]
  · rename_i h
    constructor
    · intro hnone
      cases hnone
    · intro hscan
      exact absurd hscan (h text)

theorem scan_cons {u : UInt16} (h : u ≠ 0x25) (s : JsString) :
    scan .start (u :: s) = (scan .start s).map fun q => (u :: q.1, q.2) := by
  rw [scan.eq_def]
  exact if_neg h

theorem scan_within_cons {u : UInt16} (h : u ≠ 0x25) {more lower upper value : Nat}
    (s : JsString) : scan (.within more lower upper value) (u :: s) = none := by
  rw [scan.eq_def]
  exact if_neg h

theorem scan_escape_cut (state : State) : scan state [0x25] = none := by
  rw [scan.eq_def]
  exact if_pos rfl

theorem scan_escape (state : State) (a b : UInt16) (s : JsString) :
    scan state (0x25 :: a :: b :: s) =
      (unescape a b).bind fun byte =>
        (next state byte).bind fun r =>
          (scan r.2 s).map fun q => (r.1.flatMap utf16 ++ q.1, q.2) := by
  rw [scan.eq_def]
  exact if_pos rfl

/-- Reading breaks off before a unit that is no digit of an escape. -/
theorem scan_append_cons {u : UInt16} (hu : hexDigitValue u = none) (state : State)
    (s t : JsString) :
    scan state (s ++ u :: t) =
      (scan state s).bind fun r => (scan r.2 (u :: t)).map fun q => (r.1 ++ q.1, q.2) := by
  fun_induction scan state s with
  | case1 state => simp
  | case2 state a b s ih =>
      rw [List.cons_append, List.cons_append, List.cons_append, scan_escape]
      cases hbyte : unescape a b with
      | none => rfl
      | some byte =>
          rw [Option.bind_some, Option.bind_some]
          cases hnext : next state byte with
          | none => rfl
          | some r =>
              rw [Option.bind_some, Option.bind_some, ih r, Option.bind_map, Option.map_bind]
              congr 1
              funext q
              simp [Function.comp_def]
  | case3 state s hs =>
      -- an escape cut short
      rw [Option.bind_none, List.cons_append]
      match s, hs with
      | [], _ =>
          cases t with
          | nil => exact scan_escape_cut state
          | cons b t =>
              rw [List.nil_append, scan_escape, unescape, hu]
              rfl
      | [a], _ =>
          have hcut : unescape a u = none := by
            unfold unescape
            rw [hu]
            cases hexDigitValue a <;> rfl
          rw [List.singleton_append, scan_escape, hcut]
          rfl
      | a :: b :: s, hs => exact absurd rfl (hs a b s)
  | case4 v s hv ih =>
      rw [List.cons_append, scan_cons hv, ih, Option.bind_map, Option.map_bind]
      congr 1
      funext q
      simp [Function.comp_def]
  | case5 v s hv more lower upper value =>
      rw [List.cons_append, scan_within_cons hv]
      rfl

/-- Inside a scalar value only bytes from 0x80 on go on. -/
def Late : State → Prop
  | .start => True
  | .within _ lower _ _ => 0x80 ≤ lower

theorem late_next {state : State} {b : UInt8} {r : List Nat × State} (h : next state b = some r) :
    Late r.2 := by
  cases state with
  | start =>
      simp only [next, lead] at h
      generalize b.toNat = n at h
      split at h
      · obtain rfl := Option.some.inj h
        trivial
      split at h
      · cases h
      split at h
      · obtain rfl := Option.some.inj h
        exact Nat.le_refl _
      split at h
      · obtain rfl := Option.some.inj h
        simp only [Late]
        split <;> omega
      split at h
      · obtain rfl := Option.some.inj h
        simp only [Late]
        split <;> omega
      · cases h
  | within more lower upper value =>
      simp only [next, trail] at h
      split at h
      · cases more with
        | zero =>
            obtain rfl := Option.some.inj h
            trivial
        | succ more =>
            obtain rfl := Option.some.inj h
            exact Nat.le_refl _
      · cases h

theorem late_scan {state : State} {s : JsString} {r : JsString × State} (hstate : Late state)
    (h : scan state s = some r) : Late r.2 := by
  fun_induction scan state s generalizing r with
  | case1 state =>
      obtain rfl := Option.some.inj h
      exact hstate
  | case2 state a b s ih =>
      obtain ⟨byte, -, h⟩ := Option.bind_eq_some_iff.1 h
      obtain ⟨step, hnext, h⟩ := Option.bind_eq_some_iff.1 h
      obtain ⟨q, hq, rfl⟩ := Option.map_eq_some_iff.1 h
      have hrest := ih step (late_next hnext) hq
      exact hrest
  | case3 => cases h
  | case4 u s hu ih =>
      obtain ⟨q, hq, rfl⟩ := Option.map_eq_some_iff.1 h
      have hrest := ih hstate hq
      exact hrest
  | case5 => cases h

/-! ## Decoding piece by piece -/

theorem decodeURIComponent_cons {u : UInt16} (h : u ≠ 0x25) (s : JsString) :
    decodeURIComponent (u :: s) = (decodeURIComponent s).map (u :: ·) := by
  unfold decodeURIComponent
  rw [scan_cons h]
  cases hscan : scan .start s with
  | none => rfl
  | some r =>
      obtain ⟨text, state⟩ := r
      cases state <;> rfl

theorem decodeURIComponent_append {front : JsString} (h : (0x25 : UInt16) ∉ front) (s : JsString) :
    decodeURIComponent (front ++ s) = (decodeURIComponent s).map (front ++ ·) := by
  induction front with
  | nil => simp
  | cons u front ih =>
      have hu : u ≠ 0x25 := fun heq => h (by rw [heq]; exact List.mem_cons_self)
      rw [List.cons_append, decodeURIComponent_cons hu,
        ih fun hmem => h (List.mem_cons_of_mem _ hmem), Option.map_map]
      rfl

/-- A text is decoded on both sides of a unit that no escape contains. -/
theorem decodeURIComponent_append_cons {u : UInt16} (hhex : hexDigitValue u = none) (hu : u ≠ 0x25)
    {s t text : JsString} (h : decodeURIComponent (s ++ u :: t) = some text) :
    ∃ x y, decodeURIComponent s = some x ∧ decodeURIComponent t = some y ∧ text = x ++ u :: y := by
  rw [decodeURIComponent_eq_some, scan_append_cons hhex] at h
  obtain ⟨⟨x, state⟩, hs, h⟩ := Option.bind_eq_some_iff.1 h
  obtain ⟨q, hq, heq⟩ := Option.map_eq_some_iff.1 h
  cases state with
  | within more lower upper value =>
      rw [scan_within_cons hu] at hq
      cases hq
  | start =>
      rw [scan_cons hu] at hq
      obtain ⟨r, hr, rfl⟩ := Option.map_eq_some_iff.1 hq
      obtain ⟨y, state⟩ := r
      obtain ⟨rfl, rfl⟩ := Prod.mk.inj heq
      exact ⟨x, y, decodeURIComponent_eq_some.2 hs, decodeURIComponent_eq_some.2 hr, rfl⟩

def colon : JsString := escape 0x3A

theorem scan_colon {state : State} (hstate : Late state) (s : JsString) :
    scan state (colon ++ s) =
      match state with
      | .start => (scan .start s).map fun q => (0x3A :: q.1, q.2)
      | .within .. => none := by
  have hbyte : unescape (hexDigit 3) (hexDigit 10) = some 0x3A := by decide
  have hcolon : colon ++ s = 0x25 :: hexDigit 3 :: hexDigit 10 :: s := rfl
  rw [hcolon, scan_escape, hbyte, Option.bind_some]
  cases state with
  | start => rfl
  | within more lower upper value =>
      have hlow : ¬(lower ≤ (0x3A : UInt8).toNat ∧ (0x3A : UInt8).toNat ≤ upper) := by
        unfold Late at hstate
        intro hrange
        have hsmall : (0x3A : UInt8).toNat = 0x3A := rfl
        omega
      simp only [next, trail]
      rw [if_neg hlow]
      rfl

theorem decodeURIComponent_colon (s : JsString) :
    decodeURIComponent (colon ++ s) = (decodeURIComponent s).map (0x3A :: ·) := by
  have hstart : Late .start := trivial
  unfold decodeURIComponent
  rw [scan_colon hstart]
  cases hscan : scan .start s with
  | none => rfl
  | some r =>
      obtain ⟨text, state⟩ := r
      cases state <;> rfl

theorem decodeURIComponent_append_colon {s t text : JsString}
    (h : decodeURIComponent (s ++ colon ++ t) = some text) :
    ∃ x y, decodeURIComponent s = some x ∧ decodeURIComponent t = some y ∧
      text = x ++ 0x3A :: y := by
  have hpercent : hexDigitValue 0x25 = none := by decide
  have hsplit : s ++ colon ++ t = s ++ 0x25 :: (hexDigit 3 :: hexDigit 10 :: t) := by
    rw [List.append_assoc]
    rfl
  rw [decodeURIComponent_eq_some, hsplit, scan_append_cons hpercent] at h
  obtain ⟨⟨x, state⟩, hs, h⟩ := Option.bind_eq_some_iff.1 h
  obtain ⟨q, hq, heq⟩ := Option.map_eq_some_iff.1 h
  have hstart : Late .start := trivial
  have hlate := late_scan hstart hs
  have hcolon : (0x25 : UInt16) :: hexDigit 3 :: hexDigit 10 :: t = colon ++ t := rfl
  rw [hcolon, scan_colon hlate] at hq
  cases state with
  | within more lower upper value => cases hq
  | start =>
      obtain ⟨r, hr, rfl⟩ := Option.map_eq_some_iff.1 hq
      obtain ⟨y, state⟩ := r
      obtain ⟨rfl, rfl⟩ := Prod.mk.inj heq
      exact ⟨x, y, decodeURIComponent_eq_some.2 hs, decodeURIComponent_eq_some.2 hr, rfl⟩

end Percent

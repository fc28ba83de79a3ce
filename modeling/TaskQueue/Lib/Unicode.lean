import TaskQueue.Lib.JsString

/-!
# Code points, UTF-16 and UTF-8

JavaScript strings are sequences of 16-bit units, and every encoding of one goes
through its scalar values: a pair of surrogates is one, and a surrogate without
its partner is read as U+FFFD.  The decoder is the byte-at-a-time machine of the
Encoding standard, with a strict reading and one that replaces what is ill-formed.
-/

namespace Unicode

open Ecma

/-! ## Scalar values -/

def Scalar (c : Nat) : Prop := c < 0xD800 ∨ (0xDFFF < c ∧ c < 0x110000)

instance (c : Nat) : Decidable (Scalar c) := inferInstanceAs (Decidable (_ ∨ _))

def replacement : Nat := 0xFFFD

theorem scalar_replacement : Scalar replacement := by decide

/-! ## UTF-16 -/

def isHighSurrogate (u : UInt16) : Bool := 0xD800 ≤ u.toNat && u.toNat < 0xDC00

def isLowSurrogate (u : UInt16) : Bool := 0xDC00 ≤ u.toNat && u.toNat < 0xE000

def isSurrogate (u : UInt16) : Bool := 0xD800 ≤ u.toNat && u.toNat < 0xE000

def ofPair (high low : UInt16) : Nat :=
  0x10000 + (high.toNat - 0xD800) * 0x400 + (low.toNat - 0xDC00)

def ofUnit (u : UInt16) : Nat := if isSurrogate u then replacement else u.toNat

def scalars : JsString → List Nat
  | [] => []
  | [u] => [ofUnit u]
  | u :: v :: s =>
      if isHighSurrogate u && isLowSurrogate v then ofPair u v :: scalars s
      else ofUnit u :: scalars (v :: s)

/-- No surrogate is without its partner. -/
def isWellFormed : JsString → Bool
  | [] => true
  | [u] => !isSurrogate u
  | u :: v :: s =>
      if isHighSurrogate u && isLowSurrogate v then isWellFormed s
      else !isSurrogate u && isWellFormed (v :: s)

theorem toNat_unit {n : Nat} (h : n < 0x10000) : (UInt16.ofNat n).toNat = n := by
  rw [UInt16.toNat_ofNat']
  exact Nat.mod_eq_of_lt h

def highUnit (c : Nat) : UInt16 := UInt16.ofNat (0xD800 + (c - 0x10000) / 0x400)

def lowUnit (c : Nat) : UInt16 := UInt16.ofNat (0xDC00 + (c - 0x10000) % 0x400)

def utf16 (c : Nat) : JsString :=
  if c < 0x10000 then [UInt16.ofNat c] else [highUnit c, lowUnit c]

/-- The text with its unpaired surrogates replaced. -/
def toWellFormed (s : JsString) : JsString := (scalars s).flatMap utf16

theorem scalar_ofPair {u v : UInt16} (hu : isHighSurrogate u = true)
    (hv : isLowSurrogate v = true) : Scalar (ofPair u v) := by
  simp only [isHighSurrogate, isLowSurrogate, Bool.and_eq_true, decide_eq_true_eq] at hu hv
  unfold Scalar ofPair
  omega

theorem scalar_ofUnit (u : UInt16) : Scalar (ofUnit u) := by
  have hlt := u.toNat_lt
  unfold ofUnit
  split
  · exact scalar_replacement
  · rename_i h
    simp only [isSurrogate, Bool.and_eq_true, decide_eq_true_eq] at h
    unfold Scalar
    omega

theorem scalar_of_mem_scalars {s : JsString} : ∀ c ∈ scalars s, Scalar c := by
  fun_induction scalars s with
  | case1 => simp
  | case2 u =>
      intro c hc
      rw [List.mem_singleton.1 hc]
      exact scalar_ofUnit u
  | case3 u v s hpair ih =>
      intro c hc
      rw [Bool.and_eq_true] at hpair
      rcases List.mem_cons.1 hc with hc | hc
      · rw [hc]
        exact scalar_ofPair hpair.1 hpair.2
      · exact ih c hc
  | case4 u v s _ ih =>
      intro c hc
      rcases List.mem_cons.1 hc with hc | hc
      · rw [hc]
        exact scalar_ofUnit u
      · exact ih c hc

theorem ofUnit_of_not_surrogate {u : UInt16} (h : isSurrogate u = false) : ofUnit u = u.toNat :=
  if_neg (by simp [h])

theorem utf16_ofUnit {u : UInt16} (h : isSurrogate u = false) : utf16 (ofUnit u) = [u] := by
  have hlt := u.toNat_lt
  rw [ofUnit_of_not_surrogate h, utf16, if_pos (by omega), UInt16.ofNat_toNat]

theorem utf16_ofPair {u v : UInt16} (hu : isHighSurrogate u = true)
    (hv : isLowSurrogate v = true) : utf16 (ofPair u v) = [u, v] := by
  simp only [isHighSurrogate, isLowSurrogate, Bool.and_eq_true, decide_eq_true_eq] at hu hv
  have hhigh : 0xD800 + (ofPair u v - 0x10000) / 0x400 = u.toNat := by
    unfold ofPair
    omega
  have hlow : 0xDC00 + (ofPair u v - 0x10000) % 0x400 = v.toNat := by
    unfold ofPair
    omega
  have hbig : ¬ofPair u v < 0x10000 := by
    unfold ofPair
    omega
  rw [utf16, if_neg hbig, highUnit, lowUnit, hhigh, hlow, UInt16.ofNat_toNat, UInt16.ofNat_toNat]

theorem surrogates_utf16 {c : Nat} (hbig : ¬c < 0x10000) (hc : Scalar c) :
    isHighSurrogate (highUnit c) = true ∧ isLowSurrogate (lowUnit c) = true ∧
      ofPair (highUnit c) (lowUnit c) = c := by
  unfold Scalar at hc
  obtain ⟨x, hx⟩ : ∃ x, (c - 0x10000) / 0x400 = x := ⟨_, rfl⟩
  obtain ⟨y, hy⟩ : ∃ y, (c - 0x10000) % 0x400 = y := ⟨_, rfl⟩
  have hhigh : (highUnit c).toNat = 0xD800 + x := by
    rw [highUnit, hx, toNat_unit (by omega)]
  have hlow : (lowUnit c).toNat = 0xDC00 + y := by
    rw [lowUnit, hy, toNat_unit (by omega)]
  refine ⟨?_, ?_, ?_⟩
  · simp only [isHighSurrogate, hhigh, Bool.and_eq_true, decide_eq_true_eq]
    omega
  · simp only [isLowSurrogate, hlow, Bool.and_eq_true, decide_eq_true_eq]
    omega
  · unfold ofPair
    omega

theorem scalars_cons_of_not_high {u : UInt16} (h : isHighSurrogate u = false) (s : JsString) :
    scalars (u :: s) = ofUnit u :: scalars s := by
  cases s with
  | nil => rfl
  | cons v s => rw [scalars, h, Bool.false_and, if_neg (by decide)]

theorem isHighSurrogate_of_not_surrogate {u : UInt16} (h : isSurrogate u = false) :
    isHighSurrogate u = false ∧ isLowSurrogate u = false := by
  simp only [isSurrogate, isHighSurrogate, isLowSurrogate, Bool.and_eq_false_iff,
    decide_eq_false_iff_not] at h ⊢
  omega

theorem scalars_utf16_append {c : Nat} (hc : Scalar c) (s : JsString) :
    scalars (utf16 c ++ s) = c :: scalars s := by
  unfold utf16
  by_cases hsmall : c < 0x10000
  · have htoNat : (UInt16.ofNat c).toNat = c := toNat_unit (by omega)
    have hplain : isSurrogate (UInt16.ofNat c) = false := by
      unfold Scalar at hc
      simp only [isSurrogate, htoNat, Bool.and_eq_false_iff, decide_eq_false_iff_not]
      omega
    rw [if_pos hsmall, List.singleton_append,
      scalars_cons_of_not_high (isHighSurrogate_of_not_surrogate hplain).1,
      ofUnit_of_not_surrogate hplain, htoNat]
  · obtain ⟨hhigh, hlow, hpair⟩ := surrogates_utf16 hsmall hc
    rw [if_neg hsmall, List.cons_append, List.cons_append, List.nil_append, scalars, hhigh, hlow,
      Bool.and_self, if_pos rfl, hpair]

theorem scalars_flatMap_utf16 {cs : List Nat} (h : ∀ c ∈ cs, Scalar c) :
    scalars (cs.flatMap utf16) = cs := by
  induction cs with
  | nil => rfl
  | cons c cs ih =>
      rw [List.flatMap_cons, scalars_utf16_append (h c List.mem_cons_self),
        ih fun d hd => h d (List.mem_cons_of_mem _ hd)]

@[simp] theorem scalars_toWellFormed (s : JsString) : scalars (toWellFormed s) = scalars s :=
  scalars_flatMap_utf16 scalar_of_mem_scalars

theorem toWellFormed_of_isWellFormed {s : JsString} (h : isWellFormed s = true) :
    toWellFormed s = s := by
  unfold toWellFormed
  fun_induction scalars s with
  | case1 => rfl
  | case2 u =>
      have hplain : isSurrogate u = false := by simpa [isWellFormed] using h
      rw [List.flatMap_cons, utf16_ofUnit hplain]
      rfl
  | case3 u v s hpair ih =>
      rw [isWellFormed, if_pos hpair] at h
      rw [Bool.and_eq_true] at hpair
      rw [List.flatMap_cons, utf16_ofPair hpair.1 hpair.2, ih h]
      rfl
  | case4 u v s hpair ih =>
      rw [isWellFormed, if_neg hpair, Bool.and_eq_true, Bool.not_eq_true'] at h
      rw [List.flatMap_cons, utf16_ofUnit h.1, ih h.2]
      rfl

theorem isWellFormed_utf16_append {c : Nat} (hc : Scalar c) (s : JsString) :
    isWellFormed (utf16 c ++ s) = isWellFormed s := by
  unfold utf16
  by_cases hsmall : c < 0x10000
  · have htoNat : (UInt16.ofNat c).toNat = c := toNat_unit (by omega)
    have hplain : isSurrogate (UInt16.ofNat c) = false := by
      unfold Scalar at hc
      simp only [isSurrogate, htoNat, Bool.and_eq_false_iff, decide_eq_false_iff_not]
      omega
    rw [if_pos hsmall]
    cases s with
    | nil => simp only [List.append_nil, isWellFormed, hplain, Bool.not_false]
    | cons v s =>
        rw [List.singleton_append, isWellFormed, (isHighSurrogate_of_not_surrogate hplain).1,
          Bool.false_and, if_neg (by decide), hplain, Bool.not_false, Bool.true_and]
  · obtain ⟨hhigh, hlow, -⟩ := surrogates_utf16 hsmall hc
    rw [if_neg hsmall, List.cons_append, List.cons_append, List.nil_append, isWellFormed, hhigh,
      hlow, Bool.and_self, if_pos rfl]

theorem isWellFormed_flatMap_utf16 {cs : List Nat} (h : ∀ c ∈ cs, Scalar c) :
    isWellFormed (cs.flatMap utf16) = true := by
  induction cs with
  | nil => rfl
  | cons c cs ih =>
      rw [List.flatMap_cons, isWellFormed_utf16_append (h c List.mem_cons_self),
        ih fun d hd => h d (List.mem_cons_of_mem _ hd)]

/-- Replacing changes nothing exactly about a well-formed text. -/
theorem toWellFormed_eq_self_iff {s : JsString} : toWellFormed s = s ↔ isWellFormed s = true := by
  refine ⟨fun h => ?_, toWellFormed_of_isWellFormed⟩
  rw [← h]
  exact isWellFormed_flatMap_utf16 scalar_of_mem_scalars

/-! ## Texts cut at a unit that is no surrogate -/

theorem scalars_append_cons {u : UInt16} (h : isSurrogate u = false) (s t : JsString) :
    scalars (s ++ u :: t) = scalars s ++ u.toNat :: scalars t := by
  have hu := isHighSurrogate_of_not_surrogate h
  fun_induction scalars s with
  | case1 => rw [List.nil_append, scalars_cons_of_not_high hu.1, ofUnit_of_not_surrogate h]; rfl
  | case2 v =>
      rw [List.singleton_append, scalars, hu.2, Bool.and_false, if_neg (by decide),
        scalars_cons_of_not_high hu.1, ofUnit_of_not_surrogate h]
      rfl
  | case3 v w s hpair ih => rw [List.cons_append, List.cons_append, scalars, if_pos hpair, ih]; rfl
  | case4 v w s hpair ih =>
      rw [List.cons_append, List.cons_append, scalars, if_neg hpair, ← List.cons_append, ih]
      rfl

theorem toWellFormed_append_cons {u : UInt16} (h : isSurrogate u = false) (s t : JsString) :
    toWellFormed (s ++ u :: t) = toWellFormed s ++ u :: toWellFormed t := by
  have hunit := utf16_ofUnit h
  rw [ofUnit_of_not_surrogate h] at hunit
  rw [toWellFormed, scalars_append_cons h, List.flatMap_append, List.flatMap_cons, hunit]
  rfl

/-- Units that are no surrogates are kept, and keep the texts around them apart. -/
theorem toWellFormed_append {mid : JsString} (hmid : ∀ u ∈ mid, isSurrogate u = false)
    (hne : mid ≠ []) (s t : JsString) :
    toWellFormed (s ++ mid ++ t) = toWellFormed s ++ mid ++ toWellFormed t := by
  induction mid generalizing s with
  | nil => exact absurd rfl hne
  | cons u mid ih =>
      have hu := hmid u List.mem_cons_self
      cases mid with
      | nil =>
          rw [List.append_assoc, List.singleton_append, toWellFormed_append_cons hu]
          simp
      | cons v mid =>
          have hrest := ih (fun w hw => hmid w (List.mem_cons_of_mem _ hw)) (by simp) (s ++ [u])
          have hfront : toWellFormed (s ++ [u]) = toWellFormed s ++ [u] :=
            toWellFormed_append_cons hu s []
          rw [hfront] at hrest
          simpa using hrest

theorem isWellFormed_append_cons {u : UInt16} (h : isSurrogate u = false) (s t : JsString) :
    isWellFormed (s ++ u :: t) = (isWellFormed s && isWellFormed t) := by
  have hu := isHighSurrogate_of_not_surrogate h
  have hcons : isWellFormed (u :: t) = isWellFormed t := by
    cases t with
    | nil => simp [isWellFormed, h]
    | cons v t => rw [isWellFormed, hu.1, Bool.false_and, if_neg (by decide), h]; rfl
  fun_induction isWellFormed s with
  | case1 => rw [List.nil_append, hcons, Bool.true_and]
  | case2 v =>
      rw [List.singleton_append, isWellFormed, hu.2, Bool.and_false, if_neg (by decide), hcons]
  | case3 v w s hpair ih => rw [List.cons_append, List.cons_append, isWellFormed, if_pos hpair, ih]
  | case4 v w s hpair ih =>
      rw [List.cons_append, List.cons_append, isWellFormed, if_neg hpair, ← List.cons_append, ih,
        Bool.and_assoc]

/-- Replacing brings in no other unit than U+FFFD. -/
theorem mem_of_mem_toWellFormed {u : UInt16} (h : u ≠ 0xFFFD) {s : JsString}
    (hmem : u ∈ toWellFormed s) : u ∈ s := by
  have hunit : ∀ v, u ∈ utf16 (ofUnit v) → u = v := by
    intro v hv
    by_cases hsurrogate : isSurrogate v = true
    · rw [ofUnit, if_pos hsurrogate] at hv
      exact absurd (List.mem_singleton.1 hv) h
    · rw [utf16_ofUnit (by simpa using hsurrogate)] at hv
      exact List.mem_singleton.1 hv
  unfold toWellFormed at hmem
  fun_induction scalars s with
  | case1 => cases hmem
  | case2 v =>
      rw [List.flatMap_singleton] at hmem
      exact List.mem_singleton.2 (hunit v hmem)
  | case3 v w s hpair ih =>
      rw [Bool.and_eq_true] at hpair
      rw [List.flatMap_cons, utf16_ofPair hpair.1 hpair.2, List.mem_append] at hmem
      rcases hmem with hhead | hrest
      · rcases List.mem_pair.1 hhead with rfl | rfl
        · exact List.mem_cons_self
        · exact List.mem_cons_of_mem _ List.mem_cons_self
      · exact List.mem_cons_of_mem _ (List.mem_cons_of_mem _ (ih hrest))
  | case4 v w s _ ih =>
      rw [List.flatMap_cons, List.mem_append] at hmem
      rcases hmem with hhead | hrest
      · rw [hunit v hhead]
        exact List.mem_cons_self
      · exact List.mem_cons_of_mem _ (ih hrest)

/-! ## UTF-8 -/

def encodeScalar (c : Nat) : List UInt8 :=
  if c < 0x80 then [UInt8.ofNat c]
  else if c < 0x800 then [UInt8.ofNat (0xC0 + c / 0x40), UInt8.ofNat (0x80 + c % 0x40)]
  else if c < 0x10000 then
    [UInt8.ofNat (0xE0 + c / 0x1000), UInt8.ofNat (0x80 + c / 0x40 % 0x40),
      UInt8.ofNat (0x80 + c % 0x40)]
  else
    [UInt8.ofNat (0xF0 + c / 0x40000), UInt8.ofNat (0x80 + c / 0x1000 % 0x40),
      UInt8.ofNat (0x80 + c / 0x40 % 0x40), UInt8.ofNat (0x80 + c % 0x40)]

/-- The bytes of a text, an unpaired surrogate as U+FFFD. -/
def utf8Encode (s : JsString) : List UInt8 := (scalars s).flatMap encodeScalar

/-- Where the decoder stands between bytes: before a scalar value, or in one, with
the bounds of the next byte and how many more follow it. -/
inductive State
  | start
  | within (more lower upper value : Nat)

def lead (b : UInt8) : Option (List Nat × State) :=
  let n := b.toNat
  if n < 0x80 then some ([n], .start)
  else if n < 0xC2 then none
  else if n < 0xE0 then some ([], .within 0 0x80 0xBF (n - 0xC0))
  else if n < 0xF0 then
    some ([], .within 1 (if n = 0xE0 then 0xA0 else 0x80) (if n = 0xED then 0x9F else 0xBF)
      (n - 0xE0))
  else if n < 0xF5 then
    some ([], .within 2 (if n = 0xF0 then 0x90 else 0x80) (if n = 0xF4 then 0x8F else 0xBF)
      (n - 0xF0))
  else none

def trail (more lower upper value : Nat) (b : UInt8) : Option (List Nat × State) :=
  let n := b.toNat
  if lower ≤ n ∧ n ≤ upper then
    match more with
    | 0 => some ([value * 0x40 + (n - 0x80)], .start)
    | more + 1 => some ([], .within more 0x80 0xBF (value * 0x40 + (n - 0x80)))
  else none

/-- The next byte: the scalar value it ends, if any; `none` if it is ill-formed there. -/
def next : State → UInt8 → Option (List Nat × State)
  | .start, b => lead b
  | .within more lower upper value, b => trail more lower upper value b

def feed : State → List UInt8 → Option (List Nat × State)
  | state, [] => some ([], state)
  | state, b :: bytes =>
      (next state b).bind fun r => (feed r.2 bytes).map fun q => (r.1 ++ q.1, q.2)

/-- The next byte, with a replacement for what is ill-formed before it, or in it. -/
def resume (state : State) (b : UInt8) : List Nat × State :=
  match next state b, state with
  | some r, _ => r
  | none, .start => ([replacement], .start)
  | none, .within .. =>
      match lead b with
      | some r => (replacement :: r.1, r.2)
      | none => ([replacement, replacement], .start)

def decodeFrom : State → List UInt8 → List Nat
  | .start, [] => []
  | .within .., [] => [replacement]
  | state, b :: bytes => (resume state b).1 ++ decodeFrom (resume state b).2 bytes

def utf8Decode (bytes : List UInt8) : JsString := (decodeFrom .start bytes).flatMap utf16

/-! ## What is encoded is decoded -/

theorem toNat_byte {n : Nat} (h : n < 0x100) : (UInt8.ofNat n).toNat = n := by
  rw [UInt8.toNat_ofNat']
  exact Nat.mod_eq_of_lt h

theorem feed_cons_of_next {state state' : State} {b : UInt8} {out : List Nat}
    (h : next state b = some (out, state')) (bytes : List UInt8) :
    feed state (b :: bytes) = (feed state' bytes).map fun q => (out ++ q.1, q.2) := by
  rw [feed, h]
  rfl

/-- What a later byte in its range comes to. -/
theorem next_within {more lower upper value x : Nat} (hx : x < 0x40) (hlower : lower ≤ 0x80 + x)
    (hupper : 0x80 + x ≤ upper) :
    next (.within more lower upper value) (UInt8.ofNat (0x80 + x)) =
      match more with
      | 0 => some ([value * 0x40 + x], .start)
      | more + 1 => some ([], .within more 0x80 0xBF (value * 0x40 + x)) := by
  have hbyte : (UInt8.ofNat (0x80 + x)).toNat = 0x80 + x := toNat_byte (by omega)
  simp only [next, trail, hbyte]
  rw [if_pos ⟨hlower, hupper⟩, Nat.add_sub_cancel_left]

theorem lead_one {c : Nat} (h : c < 0x80) : next .start (UInt8.ofNat c) = some ([c], .start) := by
  have hbyte : (UInt8.ofNat c).toNat = c := toNat_byte (by omega)
  simp only [next, lead, hbyte]
  rw [if_pos h]

theorem lead_two {x : Nat} (hlower : 2 ≤ x) (hupper : x < 0x20) :
    next .start (UInt8.ofNat (0xC0 + x)) = some ([], .within 0 0x80 0xBF x) := by
  have hbyte : (UInt8.ofNat (0xC0 + x)).toNat = 0xC0 + x := toNat_byte (by omega)
  simp only [next, lead, hbyte]
  rw [if_neg (by omega), if_neg (by omega), if_pos (by omega), Nat.add_sub_cancel_left]

theorem lead_three {x : Nat} (h : x < 0x10) :
    next .start (UInt8.ofNat (0xE0 + x)) = some ([], .within 1 (if x = 0 then 0xA0 else 0x80)
      (if x = 0xD then 0x9F else 0xBF) x) := by
  have hbyte : (UInt8.ofNat (0xE0 + x)).toNat = 0xE0 + x := toNat_byte (by omega)
  simp only [next, lead, hbyte]
  rw [if_neg (by omega), if_neg (by omega), if_neg (by omega), if_pos (by omega),
    Nat.add_sub_cancel_left]
  simp only [Nat.add_eq_left, show (0xE0 + x = 0xED) = (x = 0xD) by simp only [eq_iff_iff]; omega]

theorem lead_four {x : Nat} (h : x < 5) :
    next .start (UInt8.ofNat (0xF0 + x)) = some ([], .within 2 (if x = 0 then 0x90 else 0x80)
      (if x = 4 then 0x8F else 0xBF) x) := by
  have hbyte : (UInt8.ofNat (0xF0 + x)).toNat = 0xF0 + x := toNat_byte (by omega)
  simp only [next, lead, hbyte]
  rw [if_neg (by omega), if_neg (by omega), if_neg (by omega), if_neg (by omega),
    if_pos (by omega), Nat.add_sub_cancel_left]
  simp only [Nat.add_eq_left, show (0xF0 + x = 0xF4) = (x = 4) by simp only [eq_iff_iff]; omega]

theorem feed_encodeScalar {c : Nat} (hc : Scalar c) :
    feed .start (encodeScalar c) = some ([c], .start) := by
  unfold Scalar at hc
  unfold encodeScalar
  by_cases h1 : c < 0x80
  · rw [if_pos h1, feed_cons_of_next (lead_one h1)]
    rfl
  by_cases h2 : c < 0x800
  · rw [if_neg h1, if_pos h2, feed_cons_of_next (lead_two (by omega) (by omega)),
      feed_cons_of_next (next_within (by omega) (by omega) (by omega))]
    simp only [feed, Option.map_some, List.nil_append, List.append_nil]
    rw [Nat.div_add_mod']
  by_cases h3 : c < 0x10000
  · have hmid : c / 0x1000 * 0x40 + c / 0x40 % 0x40 = c / 0x40 := by omega
    rw [if_neg h1, if_neg h2, if_pos h3, feed_cons_of_next (lead_three (by omega)),
      feed_cons_of_next (next_within (by omega) (by split <;> omega) (by split <;> omega)), hmid,
      feed_cons_of_next (next_within (by omega) (by omega) (by omega))]
    simp only [feed, Option.map_some, List.nil_append, List.append_nil]
    rw [Nat.div_add_mod']
  · have hmid : c / 0x40000 * 0x40 + c / 0x1000 % 0x40 = c / 0x1000 := by omega
    have hlow : c / 0x1000 * 0x40 + c / 0x40 % 0x40 = c / 0x40 := by omega
    rw [if_neg h1, if_neg h2, if_neg h3, feed_cons_of_next (lead_four (by omega)),
      feed_cons_of_next (next_within (by omega) (by split <;> omega) (by split <;> omega)), hmid,
      feed_cons_of_next (next_within (by omega) (by omega) (by omega)), hlow,
      feed_cons_of_next (next_within (by omega) (by omega) (by omega))]
    simp only [feed, Option.map_some, List.nil_append, List.append_nil]
    rw [Nat.div_add_mod']

theorem feed_append {state state' : State} {front : List UInt8} {out : List Nat}
    (h : feed state front = some (out, state')) (bytes : List UInt8) :
    feed state (front ++ bytes) = (feed state' bytes).map fun q => (out ++ q.1, q.2) := by
  induction front generalizing state out with
  | nil =>
      rw [feed, Option.some.injEq, Prod.mk.injEq] at h
      rw [← h.1, ← h.2, List.nil_append]
      simp
  | cons b front ih =>
      rw [feed, Option.bind_eq_some_iff] at h
      obtain ⟨r, hr, hrest⟩ := h
      obtain ⟨q, hq, hout⟩ := Option.map_eq_some_iff.1 hrest
      obtain ⟨rfl, rfl⟩ := Prod.mk.inj hout
      have hstep : next state b = some (r.1, r.2) := hr
      rw [List.cons_append, feed_cons_of_next hstep, ih hq]
      simp [Function.comp_def]

theorem resume_of_next {state : State} {b : UInt8} {r : List Nat × State}
    (h : next state b = some r) : resume state b = r := by
  unfold resume
  rw [h]

theorem decodeFrom_of_feed {state state' : State} {front : List UInt8} {out : List Nat}
    (h : feed state front = some (out, state')) (bytes : List UInt8) :
    decodeFrom state (front ++ bytes) = out ++ decodeFrom state' bytes := by
  induction front generalizing state out with
  | nil =>
      rw [feed, Option.some.injEq, Prod.mk.injEq] at h
      rw [← h.1, ← h.2]
      rfl
  | cons b front ih =>
      rw [feed, Option.bind_eq_some_iff] at h
      obtain ⟨r, hr, hrest⟩ := h
      obtain ⟨q, hq, hout⟩ := Option.map_eq_some_iff.1 hrest
      obtain ⟨rfl, rfl⟩ := Prod.mk.inj hout
      rw [List.cons_append, decodeFrom, resume_of_next hr, ih hq, List.append_assoc]

theorem feed_flatMap_encodeScalar {cs : List Nat} (h : ∀ c ∈ cs, Scalar c) :
    feed .start (cs.flatMap encodeScalar) = some (cs, .start) := by
  induction cs with
  | nil => rfl
  | cons c cs ih =>
      rw [List.flatMap_cons, feed_append (feed_encodeScalar (h c List.mem_cons_self)),
        ih fun d hd => h d (List.mem_cons_of_mem _ hd)]
      rfl

/-- Decoding inverts encoding, up to the surrogates that were replaced. -/
theorem utf8Decode_utf8Encode (s : JsString) : utf8Decode (utf8Encode s) = toWellFormed s := by
  have hfeed : feed .start (utf8Encode s) = some (scalars s, .start) :=
    feed_flatMap_encodeScalar scalar_of_mem_scalars
  have hdecode := decodeFrom_of_feed hfeed []
  rw [List.append_nil] at hdecode
  rw [utf8Decode, hdecode]
  simp [decodeFrom, toWellFormed]

/-- Two texts have the same bytes when they differ only in surrogates that are replaced. -/
theorem utf8Encode_eq_iff {s t : JsString} :
    utf8Encode s = utf8Encode t ↔ toWellFormed s = toWellFormed t := by
  constructor
  · intro h
    rw [← utf8Decode_utf8Encode, h, utf8Decode_utf8Encode]
  · intro h
    have hscalars := congrArg scalars h
    rw [scalars_toWellFormed, scalars_toWellFormed] at hscalars
    rw [utf8Encode, hscalars, utf8Encode]

/-! ## What is decoded is well-formed -/

def Completes : Nat → Nat → Nat → Nat → Prop
  | 0, lower, upper, value =>
      ∀ n, lower ≤ n → n ≤ upper → Scalar (value * 0x40 + (n - 0x80))
  | more + 1, lower, upper, value =>
      ∀ n, lower ≤ n → n ≤ upper → Completes more 0x80 0xBF (value * 0x40 + (n - 0x80))

def State.Valid : State → Prop
  | .start => True
  | .within more lower upper value => Completes more lower upper value

theorem lead_valid {b : UInt8} {r : List Nat × State} (h : lead b = some r) :
    (∀ c ∈ r.1, Scalar c) ∧ r.2.Valid := by
  simp only [lead] at h
  generalize b.toNat = n at h
  split at h
  · obtain rfl := Option.some.inj h
    refine ⟨fun c hc => ?_, trivial⟩
    rw [List.mem_singleton.1 hc]
    exact Or.inl (by omega)
  split at h
  · cases h
  split at h
  · obtain rfl := Option.some.inj h
    refine ⟨by simp, fun m hlower hupper => ?_⟩
    exact Or.inl (by omega)
  split at h
  · obtain rfl := Option.some.inj h
    refine ⟨by simp, fun m hlower hupper k hk hk' => ?_⟩
    unfold Scalar
    split at hlower <;> split at hupper <;> omega
  split at h
  · obtain rfl := Option.some.inj h
    refine ⟨by simp, fun m hlower hupper k hk hk' j hj hj' => ?_⟩
    unfold Scalar
    split at hlower <;> split at hupper <;> omega
  · cases h

theorem next_valid {state : State} (hstate : state.Valid) {b : UInt8} {r : List Nat × State}
    (h : next state b = some r) : (∀ c ∈ r.1, Scalar c) ∧ r.2.Valid := by
  cases state with
  | start => exact lead_valid h
  | within more lower upper value =>
      simp only [next, trail] at h
      split at h
      · rename_i hrange
        cases more with
        | zero =>
            obtain rfl := Option.some.inj h
            refine ⟨fun c hc => ?_, trivial⟩
            rw [List.mem_singleton.1 hc]
            exact hstate _ hrange.1 hrange.2
        | succ more =>
            obtain rfl := Option.some.inj h
            exact ⟨by simp, hstate _ hrange.1 hrange.2⟩
      · cases h

theorem resume_valid {state : State} (hstate : state.Valid) (b : UInt8) :
    (∀ c ∈ (resume state b).1, Scalar c) ∧ (resume state b).2.Valid := by
  have hreplaced : ∀ cs : List Nat, (∀ c ∈ cs, Scalar c) → ∀ c ∈ replacement :: cs, Scalar c := by
    intro cs hcs c hc
    rcases List.mem_cons.1 hc with hc | hc
    · rw [hc]
      exact scalar_replacement
    · exact hcs c hc
  cases hnext : next state b with
  | some r =>
      rw [resume_of_next hnext]
      exact next_valid hstate hnext
  | none =>
      unfold resume
      rw [hnext]
      cases state with
      | start => exact ⟨hreplaced [] (by simp), trivial⟩
      | within more lower upper value =>
          cases hlead : lead b with
          | some r =>
              exact ⟨hreplaced _ (lead_valid hlead).1, (lead_valid hlead).2⟩
          | none =>
              exact ⟨hreplaced _ (hreplaced [] (by simp)), trivial⟩

theorem scalar_of_mem_decodeFrom {state : State} (hstate : state.Valid) (bytes : List UInt8) :
    ∀ c ∈ decodeFrom state bytes, Scalar c := by
  induction bytes generalizing state with
  | nil =>
      cases state with
      | start => simp [decodeFrom]
      | within more lower upper value =>
          intro c hc
          rw [List.mem_singleton.1 hc]
          exact scalar_replacement
  | cons b bytes ih =>
      have hresume := resume_valid hstate b
      intro c hc
      rw [decodeFrom, List.mem_append] at hc
      rcases hc with hc | hc
      · exact hresume.1 c hc
      · exact ih hresume.2 c hc

theorem isWellFormed_utf8Decode (bytes : List UInt8) : isWellFormed (utf8Decode bytes) = true := by
  have hstart : State.start.Valid := trivial
  exact isWellFormed_flatMap_utf16 (scalar_of_mem_decodeFrom hstart bytes)

end Unicode

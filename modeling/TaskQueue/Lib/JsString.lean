import Mathlib.Data.Nat.Digits.Lemmas
import Mathlib.Data.UInt

/-!
# JavaScript strings

A JavaScript string is a sequence of 16-bit code units.  Nothing forces the
surrogates among them to be paired, so neither `String` nor `List Char` can
hold every value a client can send; a list of units can.
-/

namespace Ecma

/-- A string as the language sees it: its UTF-16 code units. -/
abbrev JsString := List UInt16

/-- A literal.  Only characters of the basic plane are ever written as such. -/
def js (s : String) : JsString :=
  s.toList.map fun c => UInt16.ofNat c.toNat

/-! ## Decimal numerals -/

def digitUnit (d : Nat) : UInt16 := UInt16.ofNat (0x30 + d)

/-- `String(n)` of a natural number. -/
def decimal (n : Nat) : JsString :=
  if n = 0 then [digitUnit 0] else (Nat.digits 10 n).reverse.map digitUnit

def decimalInt : Int → JsString
  | .ofNat n => decimal n
  | .negSucc n => js "-" ++ decimal (n + 1)

def isDigit (u : UInt16) : Bool := 0x30 ≤ u && u ≤ 0x39

theorem digitUnit_toNat {d : Nat} (hd : d < 10) : (digitUnit d).toNat = 0x30 + d := by
  have hsmall : 0x30 + d < 2 ^ 16 := by omega
  simpa [digitUnit] using hsmall

theorem isDigit_digitUnit {d : Nat} (hd : d < 10) : isDigit (digitUnit d) = true := by
  have h := digitUnit_toNat hd
  simp only [isDigit, Bool.and_eq_true, decide_eq_true_eq, UInt16.le_iff_toNat_le, h]
  exact ⟨by simp, by simp; omega⟩

theorem digitUnit_injOn {c d : Nat} (hc : c < 10) (hd : d < 10)
    (h : digitUnit c = digitUnit d) : c = d := by
  have := congrArg UInt16.toNat h
  rw [digitUnit_toNat hc, digitUnit_toNat hd] at this
  omega

theorem map_digitUnit_injOn {xs ys : List Nat} (hxs : ∀ d ∈ xs, d < 10)
    (hys : ∀ d ∈ ys, d < 10) (h : xs.map digitUnit = ys.map digitUnit) : xs = ys := by
  induction xs generalizing ys with
  | nil => simpa using h.symm
  | cons x xs ih =>
      cases ys with
      | nil => simp at h
      | cons y ys =>
          rw [List.map_cons, List.map_cons, List.cons.injEq] at h
          have hhead := digitUnit_injOn (hxs x (by simp)) (hys y (by simp)) h.1
          have htail := ih (fun d hd => hxs d (by simp [hd]))
            (fun d hd => hys d (by simp [hd])) h.2
          rw [hhead, htail]

theorem isDigit_of_mem_decimal {n : Nat} {u : UInt16} (hu : u ∈ decimal n) :
    isDigit u = true := by
  unfold decimal at hu
  split at hu
  · obtain rfl := List.mem_singleton.1 hu
    exact isDigit_digitUnit (by omega)
  · obtain ⟨d, hd, rfl⟩ := List.mem_map.1 hu
    exact isDigit_digitUnit (Nat.digits_lt_base (by omega) (List.mem_reverse.1 hd))

theorem decimal_ne_nil (n : Nat) : decimal n ≠ [] := by
  unfold decimal
  split
  · simp
  · rename_i hn
    simpa [Nat.digits_eq_nil_iff_eq_zero] using hn

theorem decimal_injective : Function.Injective decimal := by
  have hzero : ∀ n, n ≠ 0 → decimal n ≠ [digitUnit 0] := by
    intro n hn h
    rw [decimal, if_neg hn, List.map_eq_singleton_iff] at h
    obtain ⟨d, hd, h0⟩ := h
    have hdigits : Nat.digits 10 n = [d] := by simpa using congrArg List.reverse hd
    have hlt : d < 10 := Nat.digits_lt_base (b := 10) (m := n) (by omega) (by simp [hdigits])
    obtain rfl := digitUnit_injOn hlt (by omega) h0
    have hval := Nat.ofDigits_digits 10 n
    rw [hdigits] at hval
    simp at hval
    omega
  intro m n h
  by_cases hm : m = 0
  · by_cases hn : n = 0
    · omega
    · exact absurd (by rw [← h, hm]; rfl) (hzero n hn)
  · by_cases hn : n = 0
    · exact absurd (by rw [h, hn]; rfl) (hzero m hm)
    · rw [decimal, decimal, if_neg hm, if_neg hn] at h
      have hdigits : (Nat.digits 10 m).reverse = (Nat.digits 10 n).reverse := by
        refine map_digitUnit_injOn (fun d hd => ?_) (fun d hd => ?_) h
        · exact Nat.digits_lt_base (by omega) (List.mem_reverse.1 hd)
        · exact Nat.digits_lt_base (by omega) (List.mem_reverse.1 hd)
      exact Nat.digits_inj_iff.1 (List.reverse_injective hdigits)

theorem head_decimal_ne_zero {n : Nat} (hn : n ≠ 0) {u : UInt16} {s : JsString}
    (h : decimal n = u :: s) : u ≠ 0x30 := by
  rw [decimal, if_neg hn] at h
  have hne : Nat.digits 10 n ≠ [] := Nat.digits_ne_nil_iff_ne_zero.2 hn
  have hu : u = digitUnit ((Nat.digits 10 n).getLast hne) := by
    have hhead := congrArg List.head? h
    rw [List.head?_map, List.head?_reverse, List.getLast?_eq_getLast_of_ne_nil hne] at hhead
    simpa using hhead.symm
  rintro rfl
  have hlt := Nat.digits_lt_base (by omega) (List.getLast_mem hne)
  exact Nat.getLast_digit_ne_zero 10 hn (digitUnit_injOn hlt (by omega) hu.symm)

def includes (s part : JsString) : Bool := decide (part <:+: s)

/-! ## Splitting at a separator -/

theorem append_cons_inj_right {α : Type*} {sep : α} {x x' y y' : List α}
    (hy : sep ∉ y) (hy' : sep ∉ y')
    (h : x ++ sep :: y = x' ++ sep :: y') : x = x' ∧ y = y' := by
  -- One prefix extends the other by some `c`; a non-empty `c` would put `sep` in a tail.
  rcases List.append_eq_append_iff.1 h with ⟨c, hx, hc⟩ | ⟨c, hx, hc⟩
  · cases c with
    | nil => simp_all
    | cons d c =>
        rw [List.cons_append, List.cons.injEq] at hc
        exact absurd (by rw [hc.2]; simp) hy
  · cases c with
    | nil => simp_all
    | cons d c =>
        rw [List.cons_append, List.cons.injEq] at hc
        exact absurd (by rw [hc.2]; simp) hy'

theorem idxOf?_eq_some_iff_cut {α : Type*} [BEq α] [LawfulBEq α] {text : List α} {sep : α}
    {i : Nat} :
    text.idxOf? sep = some i ↔ ∃ x y, text = x ++ sep :: y ∧ sep ∉ x ∧ x.length = i := by
  induction text generalizing i with
  | nil => simp
  | cons u text ih =>
      rw [List.idxOf?_cons]
      by_cases hu : u = sep
      · subst hu
        simp only [BEq.rfl, if_true, Option.some.injEq]
        constructor
        · rintro rfl
          exact ⟨[], text, rfl, List.not_mem_nil, rfl⟩
        · rintro ⟨x, y, htext, hx, rfl⟩
          cases x with
          | nil => rfl
          | cons v x => exact absurd ((List.cons.inj htext).1 ▸ List.mem_cons_self) hx
      · rw [if_neg (by simpa using hu), Option.map_eq_some_iff]
        simp only [ih]
        constructor
        · rintro ⟨_, ⟨x, y, rfl, hx, rfl⟩, rfl⟩
          exact ⟨u :: x, y, rfl, by simp [hx, Ne.symm hu], rfl⟩
        · rintro ⟨x, y, htext, hx, rfl⟩
          cases x with
          | nil => exact absurd (List.cons.inj htext).1 hu
          | cons v x =>
              obtain ⟨rfl, rfl⟩ := List.cons.inj htext
              exact ⟨x.length, ⟨x, y, rfl, fun h => hx (List.mem_cons_of_mem _ h), rfl⟩, rfl⟩

/-- `s.split(sep)` for a separator of one unit. -/
def split (sep : UInt16) : JsString → List JsString
  | [] => [[]]
  | u :: s =>
      if u = sep then [] :: split sep s
      else match split sep s with
        | part :: parts => (u :: part) :: parts
        | [] => [[u]]

theorem length_split (sep : UInt16) (s : JsString) : (split sep s).length = s.count sep + 1 := by
  induction s with
  | nil => rfl
  | cons u s ih =>
      by_cases hu : u = sep
      · rw [split, if_pos hu, List.length_cons, ih, hu, List.count_cons_self]
      · rw [split, if_neg hu, List.count_cons_of_ne hu]
        cases hparts : split sep s with
        | nil =>
            rw [hparts, List.length_nil] at ih
            omega
        | cons part parts =>
            rw [hparts, List.length_cons] at ih
            rw [List.length_cons]
            omega

theorem split_of_notMem {sep : UInt16} {s : JsString} (h : sep ∉ s) : split sep s = [s] := by
  induction s with
  | nil => rfl
  | cons u s ih =>
      have hu : u ≠ sep := fun hu => h (by rw [hu]; exact List.mem_cons_self)
      rw [split, if_neg hu, ih fun hmem => h (List.mem_cons_of_mem u hmem)]

theorem split_append_cons {sep : UInt16} {x : JsString} (h : sep ∉ x) (y : JsString) :
    split sep (x ++ sep :: y) = x :: split sep y := by
  induction x with
  | nil => rw [List.nil_append, split, if_pos rfl]
  | cons u x ih =>
      have hu : u ≠ sep := fun hu => h (by rw [hu]; exact List.mem_cons_self)
      rw [List.cons_append, split, if_neg hu, ih fun hmem => h (List.mem_cons_of_mem u hmem)]

theorem split_cases (sep : UInt16) (s : JsString) :
    (sep ∉ s ∧ split sep s = [s]) ∨
      ∃ x y, s = x ++ sep :: y ∧ sep ∉ x ∧ split sep s = x :: split sep y := by
  by_cases h : sep ∈ s
  · obtain ⟨x, y, rfl, hx⟩ := List.eq_append_cons_of_mem h
    exact Or.inr ⟨x, y, rfl, hx, split_append_cons hx y⟩
  · exact Or.inl ⟨h, split_of_notMem h⟩

theorem split_ne_nil (sep : UInt16) (s : JsString) : split sep s ≠ [] := by
  intro h
  have hlength := length_split sep s
  rw [h, List.length_nil] at hlength
  omega

theorem split_append_sep (sep : UInt16) (s t : JsString) :
    split sep (s ++ sep :: t) = split sep s ++ split sep t := by
  induction s with
  | nil => simp [split]
  | cons u s ih =>
      by_cases hu : u = sep
      · rw [List.cons_append, split, if_pos hu, ih, split, if_pos hu, List.cons_append]
      · rw [List.cons_append, split, if_neg hu, ih, split, if_neg hu]
        cases hparts : split sep s with
        | nil => exact absurd hparts (split_ne_nil sep s)
        | cons part parts => rfl

theorem split_injective (sep : UInt16) : Function.Injective (split sep) := by
  intro s t h
  induction hlength : s.length using Nat.strong_induction_on generalizing s t with
  | _ n ih =>
  rcases split_cases sep s with ⟨-, hs⟩ | ⟨x, y, rfl, -, hs⟩
  · rcases split_cases sep t with ⟨-, ht⟩ | ⟨x', y', rfl, -, ht⟩
    · rw [hs, ht] at h
      exact (List.cons.inj h).1
    · rw [hs, ht] at h
      exact absurd (List.cons.inj h).2.symm (split_ne_nil sep y')
  · rcases split_cases sep t with ⟨-, ht⟩ | ⟨x', y', rfl, -, ht⟩
    · rw [hs, ht] at h
      exact absurd (List.cons.inj h).2 (split_ne_nil sep y)
    · rw [hs, ht] at h
      obtain ⟨rfl, hy⟩ := List.cons.inj h
      have hshorter : y.length < n := by
        rw [← hlength, List.length_append, List.length_cons]
        omega
      rw [ih y.length hshorter hy rfl]

/-- Where there is no separator in front, the first part only gets longer. -/
theorem split_append {sep : UInt16} {x : JsString} (h : sep ∉ x) (s : JsString) :
    ∃ part parts, split sep s = part :: parts ∧ split sep (x ++ s) = (x ++ part) :: parts := by
  rcases split_cases sep s with ⟨hnone, hs⟩ | ⟨y, z, rfl, hy, hs⟩
  · exact ⟨s, [], hs, split_of_notMem (by simp [h, hnone])⟩
  · refine ⟨y, split sep z, hs, ?_⟩
    rw [← List.append_assoc, split_append_cons (by simp [h, hy])]

theorem of_mem_split {sep u : UInt16} {s part : JsString} (hpart : part ∈ split sep s)
    (hu : u ∈ part) : u ∈ s ∧ u ≠ sep := by
  induction hlength : s.length using Nat.strong_induction_on generalizing s with
  | _ n ih =>
  rcases split_cases sep s with ⟨hnone, hs⟩ | ⟨x, y, rfl, hx, hs⟩
  · rw [hs, List.mem_singleton] at hpart
    subst hpart
    exact ⟨hu, fun h => hnone (h ▸ hu)⟩
  · rw [hs] at hpart
    rcases List.mem_cons.1 hpart with rfl | hpart
    · exact ⟨List.mem_append_left _ hu, fun h => hx (h ▸ hu)⟩
    · have hshorter : y.length < n := by
        rw [← hlength, List.length_append, List.length_cons]
        omega
      obtain ⟨hmem, hne⟩ := ih y.length hshorter hpart rfl
      exact ⟨List.mem_append_right _ (List.mem_cons_of_mem _ hmem), hne⟩

end Ecma

import Mathlib.Data.List.TakeWhile
import Mathlib.Data.List.Infix

/-!
# Cutting texts

Cutting a list at its last separator, cutting it around the first occurrence of a
pattern, replacing that occurrence, and stripping what a test rejects from both
ends.  Each comes with the lemmas that say how it acts on a concatenation.
-/

namespace Cutting

variable {α : Type*}

/-! ## Stripping -/

def strip (p : α → Bool) (s : List α) : List α :=
  ((s.dropWhile p).reverse.dropWhile p).reverse

def stripRight (p : α → Bool) (s : List α) : List α := (s.reverse.dropWhile p).reverse

theorem strip_eq (p : α → Bool) (s : List α) : strip p s = stripRight p (s.dropWhile p) := rfl

theorem dropWhile_append_cons {p : α → Bool} {u : α} (h : p u = false) (s t : List α) :
    (s ++ u :: t).dropWhile p = s.dropWhile p ++ u :: t := by
  induction s with
  | nil => rw [List.nil_append, List.dropWhile_cons_of_neg (by simp [h]), List.dropWhile_nil]; rfl
  | cons v s ih =>
      by_cases hv : p v = true
      · rw [List.cons_append, List.dropWhile_cons_of_pos hv, List.dropWhile_cons_of_pos hv, ih]
      · rw [List.cons_append, List.dropWhile_cons_of_neg hv, List.dropWhile_cons_of_neg hv]
        rfl

theorem stripRight_append_cons {p : α → Bool} {u : α} (h : p u = false) (s t : List α) :
    stripRight p (s ++ u :: t) = s ++ u :: stripRight p t := by
  unfold stripRight
  have hreverse : (s ++ u :: t).reverse = t.reverse ++ u :: s.reverse := by simp
  rw [hreverse, dropWhile_append_cons h]
  simp

theorem strip_append {p : α → Bool} {mid : List α} (hne : mid ≠ [])
    (hfirst : ∀ u ∈ mid.head?, p u = false) (hlast : ∀ u ∈ mid.getLast?, p u = false)
    (s t : List α) : strip p (s ++ mid ++ t) = s.dropWhile p ++ mid ++ stripRight p t := by
  obtain ⟨u, rest, rfl⟩ := List.exists_cons_of_ne_nil hne
  have hu := hfirst u rfl
  obtain ⟨front, v, hfront⟩ := List.eq_nil_or_concat' (u :: rest) |>.resolve_left hne
  have hv := hlast v (by rw [hfront]; simp)
  rw [strip_eq, List.append_assoc, List.cons_append, dropWhile_append_cons hu, ← List.cons_append,
    hfront]
  have hassoc : s.dropWhile p ++ (front ++ [v] ++ t) = (s.dropWhile p ++ front) ++ v :: t := by simp
  rw [hassoc, stripRight_append_cons hv]
  simp

theorem stripRight_prefix (p : α → Bool) (s : List α) :
    ∃ t, s = stripRight p s ++ t ∧ ∀ u ∈ t, p u = true := by
  refine ⟨(s.reverse.takeWhile p).reverse, ?_, fun u hu => ?_⟩
  · rw [stripRight, ← List.reverse_append, List.takeWhile_append_dropWhile, List.reverse_reverse]
  · exact List.mem_takeWhile_imp (List.mem_reverse.1 hu)

theorem mem_of_mem_stripRight {p : α → Bool} {u : α} {s : List α} (h : u ∈ stripRight p s) :
    u ∈ s := by
  obtain ⟨t, ht, -⟩ := stripRight_prefix p s
  rw [ht]
  exact List.mem_append_left _ h

theorem stripRight_append (p : α → Bool) (s t : List α) :
    ∃ w, stripRight p (s ++ t) = stripRight p s ++ w ∧ ∀ u ∈ w, p u = true ∨ u ∈ t := by
  by_cases ht : t.reverse.dropWhile p = []
  · refine ⟨[], ?_, by simp⟩
    rw [stripRight, List.reverse_append, List.dropWhile_append, ht, List.append_nil]
    rfl
  · obtain ⟨z, hz, hp⟩ := stripRight_prefix p s
    have hkept : stripRight p (s ++ t) = s ++ stripRight p t := by
      rw [stripRight, List.reverse_append, List.dropWhile_append, if_neg (by simpa using ht),
        List.reverse_append, List.reverse_reverse]
      rfl
    refine ⟨z ++ stripRight p t, ?_, fun u hu => ?_⟩
    · rw [hkept, ← List.append_assoc, ← hz]
    · rcases List.mem_append.1 hu with hu | hu
      · exact Or.inl (hp u hu)
      · exact Or.inr (mem_of_mem_stripRight hu)

theorem strip_append_right (p : α → Bool) (s t : List α) :
    ∃ w, strip p (s ++ t) = strip p s ++ w ∧ ∀ u ∈ w, p u = true ∨ u ∈ t := by
  rw [strip_eq, strip_eq, List.dropWhile_append]
  by_cases hs : s.dropWhile p = []
  · rw [hs]
    refine ⟨stripRight p (t.dropWhile p), rfl, fun u hu => Or.inr ?_⟩
    exact (List.dropWhile_suffix p).subset (mem_of_mem_stripRight hu)
  · rw [if_neg (by simpa using hs)]
    exact stripRight_append p _ t

/-- Stripping takes what passes the test off both ends, and nothing else. -/
theorem strip_spec (p : α → Bool) (s : List α) :
    ∃ l r, s = l ++ strip p s ++ r ∧ (∀ u ∈ l, p u = true) ∧ ∀ u ∈ r, p u = true := by
  obtain ⟨r, hr, hpr⟩ := stripRight_prefix p (s.dropWhile p)
  refine ⟨s.takeWhile p, r, ?_, fun u hu => List.mem_takeWhile_imp hu, hpr⟩
  rw [strip_eq, List.append_assoc, ← hr, List.takeWhile_append_dropWhile]

/-! ## Two cuts of one text -/

theorem append_eq_front {x w front more : List α} {z : α} (h : x ++ w = front ++ z :: more)
    (hz : z ∉ w) : ∃ m, x = front ++ z :: m ∧ more = m ++ w := by
  rcases List.append_eq_append_iff.1 h with ⟨d, -, hw⟩ | ⟨d, hx, hd⟩
  · exact absurd (by rw [hw]; simp) hz
  · cases d with
    | nil => exact absurd (by rw [← List.nil_append w, ← hd]; exact List.mem_cons_self) hz
    | cons v d =>
        obtain ⟨rfl, rfl⟩ := List.cons.inj hd
        exact ⟨d, hx, rfl⟩

theorem append_cons_eq_front {x w front more : List α} {u : α} (h : x ++ u :: w = front ++ more)
    (hu : u ∉ front) : ∃ c, x = front ++ c ∧ more = c ++ u :: w := by
  rcases List.append_eq_append_iff.1 h with ⟨d, hfront, hd⟩ | ⟨d, hx, hd⟩
  · cases d with
    | nil => exact ⟨[], by simpa using hfront.symm, by simpa using hd.symm⟩
    | cons v d =>
        obtain ⟨rfl, -⟩ := List.cons.inj hd
        exact absurd (by rw [hfront]; simp) hu
  · exact ⟨d, hx, hd⟩

/-- A text is cut at its first separator in one way. -/
theorem append_cons_inj_left {x x' y y' : List α} {sep : α} (hx : sep ∉ x) (hx' : sep ∉ x')
    (h : x ++ sep :: y = x' ++ sep :: y') : x = x' ∧ y = y' := by
  obtain ⟨c, rfl, hc⟩ := append_cons_eq_front h hx'
  cases c with
  | nil => exact ⟨by simp, (List.cons.inj hc).2.symm⟩
  | cons v c =>
      obtain ⟨rfl, -⟩ := List.cons.inj hc
      exact absurd (by simp) hx

/-! ## The last separator -/

section

variable [DecidableEq α]

def cutLast (sep : α) : List α → Option (List α × List α)
  | [] => none
  | u :: s =>
      match cutLast sep s with
      | some (x, y) => some (u :: x, y)
      | none => if u = sep then some ([], s) else none

theorem cutLast_of_notMem {sep : α} {s : List α} (h : sep ∉ s) : cutLast sep s = none := by
  induction s with
  | nil => rfl
  | cons u s ih =>
      have hne : u ≠ sep := fun hu => h (by rw [hu]; exact List.mem_cons_self)
      rw [cutLast, ih fun hmem => h (List.mem_cons_of_mem _ hmem)]
      exact if_neg hne

theorem cutLast_append_cons {sep : α} (x : List α) {y : List α} (hy : sep ∉ y) :
    cutLast sep (x ++ sep :: y) = some (x, y) := by
  induction x with
  | nil =>
      rw [List.nil_append, cutLast, cutLast_of_notMem hy]
      exact if_pos rfl
  | cons u x ih => rw [List.cons_append, cutLast, ih]

theorem cutLast_cases (sep : α) (s : List α) :
    (sep ∉ s ∧ cutLast sep s = none) ∨
      ∃ x y, s = x ++ sep :: y ∧ sep ∉ y ∧ cutLast sep s = some (x, y) := by
  induction s with
  | nil => exact Or.inl ⟨List.not_mem_nil, rfl⟩
  | cons u s ih =>
      rcases ih with ⟨hs, hnone⟩ | ⟨x, y, rfl, hy, hsome⟩
      · by_cases hu : u = sep
        · subst hu
          refine Or.inr ⟨[], s, rfl, hs, ?_⟩
          rw [cutLast, hnone]
          exact if_pos rfl
        · refine Or.inl ⟨by simp [hs, Ne.symm hu], ?_⟩
          rw [cutLast, hnone]
          exact if_neg hu
      · exact Or.inr ⟨u :: x, y, rfl, hy, by rw [cutLast, hsome]⟩

/-- What stands after the last separator, or the whole text. -/
def afterLast (sep : α) (s : List α) : List α :=
  match cutLast sep s with
  | some (_, y) => y
  | none => s

theorem afterLast_append {sep : α} {t : List α} (h : sep ∉ t) (s : List α) :
    afterLast sep (s ++ t) = afterLast sep s ++ t := by
  unfold afterLast
  rcases cutLast_cases sep s with ⟨hs, hnone⟩ | ⟨x, y, rfl, hy, hsome⟩
  · rw [hnone, cutLast_of_notMem (by simp [hs, h])]
  · rw [hsome, List.append_assoc, List.cons_append, cutLast_append_cons x (by simp [hy, h])]

/-! ## The first occurrence of a pattern -/

def cutFirst (pat : List α) : List α → Option (List α × List α)
  | [] => if pat = [] then some ([], []) else none
  | u :: s =>
      if pat.isPrefixOf (u :: s) then some ([], (u :: s).drop pat.length)
      else (cutFirst pat s).map fun cut => (u :: cut.1, cut.2)

/-- `s.replace(pat, rep)` for a pattern that is a string. -/
def replaceFirst (pat rep s : List α) : List α :=
  match cutFirst pat s with
  | some (before, after) => before ++ rep ++ after
  | none => s

theorem cutFirst_eq_some {pat s before after : List α} (h : cutFirst pat s = some (before, after)) :
    s = before ++ pat ++ after := by
  induction s generalizing before with
  | nil =>
      rw [cutFirst] at h
      split at h
      · rename_i hpat
        obtain ⟨rfl, rfl⟩ := Prod.mk.inj (Option.some.inj h)
        rw [hpat]
        rfl
      · cases h
  | cons u s ih =>
      rw [cutFirst] at h
      split at h
      · rename_i hprefix
        obtain ⟨rfl, rfl⟩ := Prod.mk.inj (Option.some.inj h)
        exact (List.prefix_iff_eq_append.1 (List.isPrefixOf_iff_prefix.1 hprefix)).symm
      · obtain ⟨⟨x, y⟩, hcut, heq⟩ := Option.map_eq_some_iff.1 h
        obtain ⟨rfl, rfl⟩ := Prod.mk.inj heq
        rw [ih hcut]
        rfl

theorem cutFirst_prefix {pat : List α} (hne : pat ≠ []) (s : List α) :
    cutFirst pat (pat ++ s) = some ([], s) := by
  obtain ⟨u, rest, rfl⟩ := List.exists_cons_of_ne_nil hne
  have hprefix : (u :: rest).isPrefixOf (u :: (rest ++ s)) = true :=
    List.isPrefixOf_iff_prefix.2 ⟨s, rfl⟩
  have hdrop : (u :: (rest ++ s)).drop (u :: rest).length = s := by simp
  rw [List.cons_append, cutFirst, if_pos hprefix, hdrop]

theorem replaceFirst_prefix {pat : List α} (hne : pat ≠ []) (rep s : List α) :
    replaceFirst pat rep (pat ++ s) = rep ++ s := by
  rw [replaceFirst, cutFirst_prefix hne]
  simp

theorem cutFirst_append {u : α} {pat front : List α} (h : u ∉ front) (s : List α) :
    cutFirst (u :: pat) (front ++ s) =
      (cutFirst (u :: pat) s).map fun cut => (front ++ cut.1, cut.2) := by
  induction front with
  | nil => simp
  | cons v front ih =>
      have hne : u ≠ v := fun huv => h (huv ▸ List.mem_cons_self)
      have hnot : ¬(u :: pat).isPrefixOf (v :: (front ++ s)) = true := by
        rw [List.isPrefixOf_cons_cons]
        simp [hne]
      rw [List.cons_append, cutFirst, if_neg hnot, ih fun hmem => h (List.mem_cons_of_mem _ hmem),
        Option.map_map]
      rfl

omit [DecidableEq α] in
theorem infix_append_cons_iff {u : α} {part : List α} (h : u ∉ part) (s t : List α) :
    part <:+: s ++ u :: t ↔ part <:+: s ∨ part <:+: t := by
  constructor
  · rintro ⟨x, y, hxy⟩
    rcases List.append_eq_append_iff.1 hxy with ⟨c, hs, -⟩ | ⟨c, hx, hc⟩
    · exact Or.inl ⟨x, c, hs.symm⟩
    · cases c with
      | nil => exact Or.inl ⟨x, [], by simpa using hx⟩
      | cons v c =>
          obtain ⟨rfl, rfl⟩ := List.cons.inj hc
          rcases List.append_eq_append_iff.1 hx with ⟨d, hs, hd⟩ | ⟨d, -, hd⟩
          · exact absurd (by rw [hd]; simp) h
          · cases d with
            | nil => exact absurd (by rw [← List.nil_append part, ← hd]; simp) h
            | cons w d =>
                obtain ⟨rfl, rfl⟩ := List.cons.inj hd
                exact Or.inr ⟨d, y, rfl⟩
  · rintro (⟨x, y, rfl⟩ | ⟨x, y, rfl⟩)
    · exact ⟨x, y ++ u :: t, by simp⟩
    · exact ⟨s ++ u :: x, y, by simp⟩

end

end Cutting

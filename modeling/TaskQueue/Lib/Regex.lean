import Mathlib.Data.List.Forall2
import Mathlib.Data.List.TakeWhile
import Mathlib.Data.List.Infix

/-!
# Regular expressions as they are run

A backtracking matcher tries its choices in a fixed order and takes the first that
succeeds.  Here it lists every way a pattern matches at a place, in that order, so its
answer is the first of the list; and a global replacement copies a text up to the next
place that matches, puts in the replacement, and goes on behind the match.
-/

namespace Regex

variable {α : Type*}

/-! ## Patterns -/

inductive Pattern (α : Type*)
  /-- One element of a class. -/
  | one (accepts : α → Bool)
  /-- As many elements of a class as there are, or fewer. -/
  | many (accepts : α → Bool)
  /-- An element of a class, or nothing. -/
  | optional (accepts : α → Bool)
  | seq (p q : Pattern α)
  /-- The first choice, or the second. -/
  | alt (p q : Pattern α)
  /-- What it matches is kept. -/
  | capture (p : Pattern α)
  /-- Between an element of a word and one that is none. -/
  | boundary
  /-- Nothing at all. -/
  | empty

/-- A way to match: what is taken, what was kept of it, and what is left. -/
structure Match (α : Type*) where
  taken : List α
  captures : List (List α)
  rest : List α

/-- The runs of a class at the start of a text, the longest first. -/
def runs (accepts : α → Bool) : List α → List (Match α)
  | [] => [⟨[], [], []⟩]
  | u :: text =>
      if accepts u then
        (runs accepts text).map (fun m => ⟨u :: m.taken, m.captures, m.rest⟩) ++
          [⟨[], [], u :: text⟩]
      else [⟨[], [], u :: text⟩]

/-- An element that may be missing belongs to no word. -/
def isWord (word : α → Bool) : Option α → Bool
  | some u => word u
  | none => false

def before (taken : List α) (prev : Option α) : Option α := taken.getLast?.or prev

/-- Every way to match at the start of a text that follows `prev`, in the order in which
they are tried. -/
def matchesAt (word : α → Bool) : Pattern α → Option α → List α → List (Match α)
  | .one accepts, _, text =>
      match text with
      | [] => []
      | u :: rest => if accepts u then [⟨[u], [], rest⟩] else []
  | .many accepts, _, text => runs accepts text
  | .optional accepts, _, text =>
      match text with
      | [] => [⟨[], [], []⟩]
      | u :: rest => (if accepts u then [⟨[u], [], rest⟩] else []) ++ [⟨[], [], u :: rest⟩]
  | .seq p q, prev, text =>
      (matchesAt word p prev text).flatMap fun m =>
        (matchesAt word q (before m.taken prev) m.rest).map fun n =>
          ⟨m.taken ++ n.taken, m.captures ++ n.captures, n.rest⟩
  | .alt p q, prev, text => matchesAt word p prev text ++ matchesAt word q prev text
  | .capture p, prev, text =>
      (matchesAt word p prev text).map fun m => ⟨m.taken, m.taken :: m.captures, m.rest⟩
  | .boundary, prev, text =>
      if isWord word prev = isWord word text.head? then [] else [⟨[], [], text⟩]
  | .empty, _, text => [⟨[], [], text⟩]

def literal (accepts : List (α → Bool)) : Pattern α :=
  accepts.foldr (fun accept p => .seq (.one accept) p) .empty

def firstMatch (word : α → Bool) (p : Pattern α) (prev : Option α) (text : List α) :
    Option (Match α) := (matchesAt word p prev text).head?

/-! ## Replacing every match -/

/-- The text with every match replaced, `skip` elements of the last one still ahead. -/
def replaceFrom (word : α → Bool) (p : Pattern α) (template : List (List α) → List α) :
    Nat → Option α → List α → List α
  | 0, prev, [] =>
      match firstMatch word p prev [] with
      | some m => template m.captures
      | none => []
  | 0, prev, u :: text =>
      match firstMatch word p prev (u :: text) with
      | some m =>
          match m.taken with
          | [] => template m.captures ++ u :: replaceFrom word p template 0 (some u) text
          | _ :: taken =>
              template m.captures ++ replaceFrom word p template taken.length (some u) text
      | none => u :: replaceFrom word p template 0 (some u) text
  | _ + 1, _, [] => []
  | skip + 1, _, u :: text => replaceFrom word p template skip (some u) text

/-- `text.replace(p, template)` for a global pattern. -/
def replaceAll (word : α → Bool) (p : Pattern α) (template : List (List α) → List α)
    (text : List α) : List α := replaceFrom word p template 0 none text

/-! ## What a pattern matches -/

section

variable {word : α → Bool} {prev : Option α} {text : List α} {m : Match α}

theorem runs_nil (accepts : α → Bool) : runs accepts [] = [⟨[], [], []⟩] := rfl

theorem runs_cons (accepts : α → Bool) (u : α) (text : List α) :
    runs accepts (u :: text) =
      if accepts u then
        (runs accepts text).map (fun m => ⟨u :: m.taken, m.captures, m.rest⟩) ++
          [⟨[], [], u :: text⟩]
      else [⟨[], [], u :: text⟩] := rfl

theorem matchesAt_one_nil (accepts : α → Bool) :
    matchesAt word (.one accepts) prev [] = [] := rfl

theorem matchesAt_one_cons (accepts : α → Bool) (u : α) (rest : List α) :
    matchesAt word (.one accepts) prev (u :: rest) =
      if accepts u then [⟨[u], [], rest⟩] else [] := rfl

theorem matchesAt_many (accepts : α → Bool) :
    matchesAt word (.many accepts) prev text = runs accepts text := rfl

theorem matchesAt_optional_nil (accepts : α → Bool) :
    matchesAt word (.optional accepts) prev [] = [⟨[], [], []⟩] := rfl

theorem matchesAt_optional_cons (accepts : α → Bool) (u : α) (rest : List α) :
    matchesAt word (.optional accepts) prev (u :: rest) =
      (if accepts u then [⟨[u], [], rest⟩] else []) ++ [⟨[], [], u :: rest⟩] := rfl

theorem matchesAt_seq (p q : Pattern α) :
    matchesAt word (.seq p q) prev text =
      (matchesAt word p prev text).flatMap fun m =>
        (matchesAt word q (before m.taken prev) m.rest).map fun n =>
          ⟨m.taken ++ n.taken, m.captures ++ n.captures, n.rest⟩ := rfl

theorem matchesAt_alt (p q : Pattern α) :
    matchesAt word (.alt p q) prev text =
      matchesAt word p prev text ++ matchesAt word q prev text := rfl

theorem matchesAt_capture (p : Pattern α) :
    matchesAt word (.capture p) prev text =
      (matchesAt word p prev text).map fun m => ⟨m.taken, m.taken :: m.captures, m.rest⟩ := rfl

theorem matchesAt_boundary :
    matchesAt word .boundary prev text =
      if isWord word prev = isWord word text.head? then [] else [⟨[], [], text⟩] := rfl

theorem matchesAt_empty : matchesAt word .empty prev text = [⟨[], [], text⟩] := rfl

theorem mem_runs {accepts : α → Bool} :
    m ∈ runs accepts text ↔
      text = m.taken ++ m.rest ∧ m.captures = [] ∧ ∀ u ∈ m.taken, accepts u = true := by
  induction text generalizing m with
  | nil =>
      rw [runs_nil, List.mem_singleton]
      constructor
      · rintro rfl
        simp
      · rintro ⟨htext, hcaptures, -⟩
        obtain ⟨taken, captures, rest⟩ := m
        obtain ⟨rfl, rfl⟩ := List.append_eq_nil_iff.1 htext.symm
        rw [show captures = [] from hcaptures]
  | cons v text ih =>
      obtain ⟨taken, captures, rest⟩ := m
      have hnone : (⟨taken, captures, rest⟩ : Match α) = ⟨[], [], v :: text⟩ ↔
          taken = [] ∧ captures = [] ∧ rest = v :: text := by simp
      rw [runs_cons]
      by_cases hv : accepts v = true
      · rw [if_pos hv, List.mem_append, List.mem_map, List.mem_singleton, hnone]
        constructor
        · rintro (⟨n, hn, heq⟩ | ⟨rfl, rfl, rfl⟩)
          · obtain ⟨htext, hcaptures, hall⟩ := ih.1 hn
            obtain ⟨rfl, rfl, rfl⟩ :
                v :: n.taken = taken ∧ n.captures = captures ∧ n.rest = rest := by simpa using heq
            refine ⟨by rw [htext]; rfl, hcaptures, fun u hu => ?_⟩
            rcases List.mem_cons.1 hu with hu | hu
            · rw [hu]
              exact hv
            · exact hall u hu
          · simp
        · rintro ⟨htext, hcaptures, hall⟩
          cases taken with
          | nil => exact Or.inr ⟨rfl, hcaptures, htext.symm⟩
          | cons w taken =>
              obtain ⟨rfl, hrest⟩ := List.cons.inj htext
              have hcaptures' : captures = [] := hcaptures
              refine Or.inl ⟨⟨taken, [], rest⟩, ih.2 ⟨hrest, rfl, fun u hu => ?_⟩, ?_⟩
              · exact hall u (List.mem_cons_of_mem _ hu)
              · rw [hcaptures']
      · rw [if_neg hv, List.mem_singleton, hnone]
        constructor
        · rintro ⟨rfl, rfl, rfl⟩
          simp
        · rintro ⟨htext, hcaptures, hall⟩
          cases taken with
          | nil => exact ⟨rfl, hcaptures, htext.symm⟩
          | cons w taken =>
              obtain ⟨rfl, -⟩ := List.cons.inj htext
              exact absurd (hall v List.mem_cons_self) hv

theorem mem_one {accepts : α → Bool} :
    m ∈ matchesAt word (.one accepts) prev text ↔
      ∃ u, accepts u = true ∧ text = u :: m.rest ∧ m.taken = [u] ∧ m.captures = [] := by
  obtain ⟨taken, captures, rest⟩ := m
  cases text with
  | nil => simp [matchesAt_one_nil]
  | cons v text =>
      rw [matchesAt_one_cons]
      by_cases hv : accepts v = true
      · rw [if_pos hv]
        simp only [List.mem_singleton, Match.mk.injEq, List.cons.injEq]
        constructor
        · rintro ⟨rfl, rfl, rfl⟩
          exact ⟨v, hv, ⟨rfl, rfl⟩, rfl, rfl⟩
        · rintro ⟨u, -, ⟨rfl, rfl⟩, rfl, rfl⟩
          exact ⟨rfl, rfl, rfl⟩
      · rw [if_neg hv]
        simp only [List.not_mem_nil, List.cons.injEq, false_iff]
        rintro ⟨u, hu, ⟨rfl, -⟩, -⟩
        exact hv hu

theorem mem_seq {p q : Pattern α} :
    m ∈ matchesAt word (.seq p q) prev text ↔
      ∃ x ∈ matchesAt word p prev text, ∃ y ∈ matchesAt word q (before x.taken prev) x.rest,
        m = ⟨x.taken ++ y.taken, x.captures ++ y.captures, y.rest⟩ := by
  simp only [matchesAt_seq, List.mem_flatMap, List.mem_map]
  constructor
  · rintro ⟨x, hx, y, hy, rfl⟩
    exact ⟨x, hx, y, hy, rfl⟩
  · rintro ⟨x, hx, y, hy, rfl⟩
    exact ⟨x, hx, y, hy, rfl⟩

theorem mem_capture {p : Pattern α} :
    m ∈ matchesAt word (.capture p) prev text ↔
      ∃ x ∈ matchesAt word p prev text, m = ⟨x.taken, x.taken :: x.captures, x.rest⟩ := by
  simp only [matchesAt_capture, List.mem_map]
  constructor
  · rintro ⟨x, hx, rfl⟩
    exact ⟨x, hx, rfl⟩
  · rintro ⟨x, hx, rfl⟩
    exact ⟨x, hx, rfl⟩

theorem mem_alt {p q : Pattern α} :
    m ∈ matchesAt word (.alt p q) prev text ↔
      m ∈ matchesAt word p prev text ∨ m ∈ matchesAt word q prev text := List.mem_append

theorem mem_optional {accepts : α → Bool} :
    m ∈ matchesAt word (.optional accepts) prev text ↔
      (∃ u, accepts u = true ∧ text = u :: m.rest ∧ m.taken = [u] ∧ m.captures = []) ∨
        (text = m.rest ∧ m.taken = [] ∧ m.captures = []) := by
  obtain ⟨taken, captures, rest⟩ := m
  cases text with
  | nil =>
      simp only [matchesAt_optional_nil, List.mem_singleton, Match.mk.injEq]
      constructor
      · rintro ⟨rfl, rfl, rfl⟩
        exact Or.inr ⟨rfl, rfl, rfl⟩
      · rintro (⟨u, -, htext, -⟩ | ⟨rfl, rfl, rfl⟩)
        · cases htext
        · exact ⟨rfl, rfl, rfl⟩
  | cons v text =>
      have hone : (⟨taken, captures, rest⟩ : Match α) ∈
          matchesAt word (.one accepts) prev (v :: text) ↔ _ := mem_one
      rw [matchesAt_optional_cons, List.mem_append]
      refine or_congr hone ?_
      · simp only [List.mem_singleton, Match.mk.injEq]
        constructor
        · rintro ⟨rfl, rfl, rfl⟩
          exact ⟨rfl, rfl, rfl⟩
        · rintro ⟨rfl, rfl, rfl⟩
          exact ⟨rfl, rfl, rfl⟩

theorem mem_many {accepts : α → Bool} :
    m ∈ matchesAt word (.many accepts) prev text ↔
      text = m.taken ++ m.rest ∧ m.captures = [] ∧ ∀ u ∈ m.taken, accepts u = true := mem_runs

theorem mem_boundary :
    m ∈ matchesAt word .boundary prev text ↔
      isWord word prev ≠ isWord word text.head? ∧ m = ⟨[], [], text⟩ := by
  rw [matchesAt_boundary]
  split
  · rename_i hsame
    simp [hsame]
  · rename_i hdiffer
    simp [hdiffer]

theorem mem_literal {accepts : List (α → Bool)} :
    m ∈ matchesAt word (literal accepts) prev text ↔
      text = m.taken ++ m.rest ∧ m.captures = [] ∧
        List.Forall₂ (fun accept u => accept u = true) accepts m.taken := by
  induction accepts generalizing prev text m with
  | nil =>
      obtain ⟨taken, captures, rest⟩ := m
      simp only [literal, List.foldr_nil, matchesAt_empty, List.mem_singleton, Match.mk.injEq,
        List.forall₂_nil_left_iff]
      constructor
      · rintro ⟨rfl, rfl, rfl⟩
        exact ⟨rfl, rfl, rfl⟩
      · rintro ⟨htext, rfl, rfl⟩
        exact ⟨rfl, rfl, htext.symm⟩
  | cons accept accepts ih =>
      have hcons : literal (accept :: accepts) = .seq (.one accept) (literal accepts) := rfl
      rw [hcons, mem_seq]
      constructor
      · rintro ⟨x, hx, y, hy, rfl⟩
        obtain ⟨u, hu, htext, htaken, hcaptures⟩ := mem_one.1 hx
        obtain ⟨hrest, hcaptures', hall⟩ := ih.1 hy
        refine ⟨?_, by rw [hcaptures, hcaptures']; rfl, ?_⟩
        · rw [htext, hrest, htaken]
          rfl
        · rw [htaken]
          exact List.Forall₂.cons hu hall
      · obtain ⟨taken, captures, rest⟩ := m
        rintro ⟨htext, hcaptures, hall⟩
        obtain ⟨u, taken', hu, hall', rfl⟩ := List.forall₂_cons_left_iff.1 hall
        refine ⟨⟨[u], [], taken' ++ rest⟩, mem_one.2 ⟨u, hu, htext, rfl, rfl⟩,
          ⟨taken', [], rest⟩, ih.2 ⟨rfl, rfl, hall'⟩, ?_⟩
        rw [show captures = [] from hcaptures]
        rfl

theorem taken_append_rest {p : Pattern α} (h : m ∈ matchesAt word p prev text) :
    text = m.taken ++ m.rest := by
  induction p generalizing prev text m with
  | one accepts =>
      obtain ⟨u, -, htext, htaken, -⟩ := mem_one.1 h
      rw [htext, htaken]
      rfl
  | many accepts => exact (mem_many.1 h).1
  | optional accepts =>
      rcases mem_optional.1 h with ⟨u, -, htext, htaken, -⟩ | ⟨htext, htaken, -⟩
      · rw [htext, htaken]
        rfl
      · rw [htext, htaken]
        rfl
  | seq p q ihp ihq =>
      obtain ⟨x, hx, y, hy, rfl⟩ := mem_seq.1 h
      rw [ihp hx, ihq hy, List.append_assoc]
  | alt p q ihp ihq =>
      rcases mem_alt.1 h with h | h
      · exact ihp h
      · exact ihq h
  | capture p ih =>
      obtain ⟨x, hx, rfl⟩ := mem_capture.1 h
      have htext := ih hx
      exact htext
  | boundary =>
      obtain ⟨-, rfl⟩ := mem_boundary.1 h
      rfl
  | empty =>
      obtain rfl := List.mem_singleton.1 h
      rfl

/-! ## Which match is found -/

theorem firstMatch_eq_none {p : Pattern α} :
    firstMatch word p prev text = none ↔ ∀ m, m ∉ matchesAt word p prev text := by
  rw [firstMatch, List.head?_eq_none_iff]
  exact List.eq_nil_iff_forall_not_mem

theorem mem_of_firstMatch {p : Pattern α} (h : firstMatch word p prev text = some m) :
    m ∈ matchesAt word p prev text := List.mem_of_mem_head? h

theorem firstMatch_of_unique {p : Pattern α} (h : m ∈ matchesAt word p prev text)
    (hunique : ∀ n ∈ matchesAt word p prev text, n = m) :
    firstMatch word p prev text = some m := by
  cases hfirst : firstMatch word p prev text with
  | none => exact absurd h (firstMatch_eq_none.1 hfirst m)
  | some n => rw [hunique n (mem_of_firstMatch hfirst)]

theorem firstMatch_seq {p q : Pattern α} {x y : Match α}
    (hx : firstMatch word p prev text = some x)
    (hy : firstMatch word q (before x.taken prev) x.rest = some y) :
    firstMatch word (.seq p q) prev text =
      some ⟨x.taken ++ y.taken, x.captures ++ y.captures, y.rest⟩ := by
  obtain ⟨xs, hxs⟩ := List.head?_eq_some_iff.1 hx
  obtain ⟨ys, hys⟩ := List.head?_eq_some_iff.1 hy
  simp only [firstMatch, matchesAt_seq, hxs, List.flatMap_cons, hys, List.map_cons,
    List.cons_append, List.head?_cons]

theorem firstMatch_capture {p : Pattern α} (h : firstMatch word p prev text = some m) :
    firstMatch word (.capture p) prev text = some ⟨m.taken, m.taken :: m.captures, m.rest⟩ := by
  obtain ⟨ms, hms⟩ := List.head?_eq_some_iff.1 h
  simp only [firstMatch, matchesAt_capture, hms, List.map_cons, List.head?_cons]

theorem firstMatch_many (accepts : α → Bool) :
    firstMatch word (.many accepts) prev text =
      some ⟨text.takeWhile accepts, [], text.dropWhile accepts⟩ := by
  rw [firstMatch, matchesAt_many]
  induction text with
  | nil => rfl
  | cons v text ih =>
      rw [runs_cons]
      by_cases hv : accepts v = true
      · obtain ⟨ms, hms⟩ := List.head?_eq_some_iff.1 ih
        rw [if_pos hv, hms, List.takeWhile_cons_of_pos hv, List.dropWhile_cons_of_pos hv]
        rfl
      · rw [if_neg hv, List.takeWhile_cons_of_neg hv, List.dropWhile_cons_of_neg hv]
        rfl

/-! ## What a replacement does -/

variable {p : Pattern α} {template : List (List α) → List α}

theorem replaceFrom_skip (taken rest : List α) :
    replaceFrom word p template taken.length prev (taken ++ rest) =
      replaceFrom word p template 0 (before taken prev) rest := by
  induction taken generalizing prev with
  | nil => rfl
  | cons u taken ih =>
      rw [List.length_cons, List.cons_append, replaceFrom, ih]
      congr 1
      unfold before
      cases taken with
      | nil => rfl
      | cons v taken => rw [List.getLast?_cons_cons]; simp [List.getLast?_eq_some_getLast]

theorem replaceFrom_match (h : firstMatch word p prev text = some m) (hne : m.taken ≠ []) :
    replaceFrom word p template 0 prev text =
      template m.captures ++ replaceFrom word p template 0 (before m.taken prev) m.rest := by
  obtain ⟨u, taken, htaken⟩ := List.exists_cons_of_ne_nil hne
  have htext := taken_append_rest (mem_of_firstMatch h)
  rw [htaken, List.cons_append] at htext
  subst htext
  have hskip : replaceFrom word p template taken.length (some u) (taken ++ m.rest) =
      replaceFrom word p template 0 (before taken (some u)) m.rest := replaceFrom_skip taken m.rest
  have hbefore : before taken (some u) = before m.taken prev := by
    rw [htaken]
    unfold before
    cases taken with
    | nil => rfl
    | cons v taken => rw [List.getLast?_cons_cons]; simp [List.getLast?_eq_some_getLast]
  rw [replaceFrom, h]
  simp only [htaken]
  rw [hskip, hbefore, htaken]

theorem replaceFrom_cons {u : α} (h : firstMatch word p prev (u :: text) = none) :
    replaceFrom word p template 0 prev (u :: text) =
      u :: replaceFrom word p template 0 (some u) text := by
  rw [replaceFrom, h]

/-- A pattern that looks at no boundary does not look back. -/
def looksBack : Pattern α → Bool
  | .seq p q => looksBack p || looksBack q
  | .alt p q => looksBack p || looksBack q
  | .capture p => looksBack p
  | .boundary => true
  | _ => false

theorem matchesAt_prev (h : looksBack p = false) (prev prev' : Option α) :
    matchesAt word p prev text = matchesAt word p prev' text := by
  induction p generalizing prev prev' text with
  | one | many | optional | empty => rfl
  | seq p q ihp ihq =>
      rw [looksBack, Bool.or_eq_false_iff] at h
      rw [matchesAt_seq, matchesAt_seq, ihp h.1 prev prev']
      refine List.flatMap_congr fun m _ => ?_
      rw [ihq h.2 (before m.taken prev) (before m.taken prev')]
  | alt p q ihp ihq =>
      rw [looksBack, Bool.or_eq_false_iff] at h
      rw [matchesAt_alt, matchesAt_alt, ihp h.1 prev prev', ihq h.2 prev prev']
  | capture p ih =>
      rw [looksBack] at h
      rw [matchesAt_capture, matchesAt_capture, ih h prev prev']
  | boundary => cases h

theorem replaceFrom_congr {prev prev' : Option α}
    (h : ∀ text, matchesAt word p prev text = matchesAt word p prev' text) (skip : Nat) :
    replaceFrom word p template skip prev text = replaceFrom word p template skip prev' text := by
  have hfirst : ∀ text, firstMatch word p prev text = firstMatch word p prev' text := fun text => by
    rw [firstMatch, h, ← firstMatch]
  cases skip with
  | zero =>
      cases text with
      | nil => rw [replaceFrom, replaceFrom, hfirst]
      | cons u text => rw [replaceFrom, replaceFrom, hfirst]
  | succ skip =>
      cases text with
      | nil => rfl
      | cons u text => rfl

theorem replaceFrom_prev (h : looksBack p = false) (skip : Nat) (prev prev' : Option α) :
    replaceFrom word p template skip prev text = replaceFrom word p template skip prev' text :=
  replaceFrom_congr (fun _ => matchesAt_prev h prev prev') skip

/-! ## Separators -/

def Match.extend (more : List α) (m : Match α) : Match α := ⟨m.taken, m.captures, m.rest ++ more⟩

def rejects (z : α) : Pattern α → Bool
  | .one accepts | .many accepts | .optional accepts => !accepts z
  | .seq p q | .alt p q => rejects z p && rejects z q
  | .capture p => rejects z p
  | .boundary | .empty => true

theorem rejects_literal {z : α} {accepts : List (α → Bool)}
    (h : ∀ accept ∈ accepts, accept z = false) : rejects z (literal accepts) = true := by
  induction accepts with
  | nil => rfl
  | cons accept accepts ih =>
      have hcons : literal (accept :: accepts) = .seq (.one accept) (literal accepts) := rfl
      rw [hcons, rejects, ih fun a ha => h a (List.mem_cons_of_mem accept ha), rejects,
        h accept List.mem_cons_self]
      rfl

theorem isWord_before {taken : List α} {prev prev' : Option α}
    (h : isWord word prev = isWord word prev') :
    isWord word (before taken prev) = isWord word (before taken prev') := by
  unfold before
  cases taken.getLast? with
  | none => exact h
  | some u => rfl

/-- All that is seen of the element before is whether it belongs to a word. -/
theorem matchesAt_isWord {prev prev' : Option α} (h : isWord word prev = isWord word prev') :
    matchesAt word p prev text = matchesAt word p prev' text := by
  induction p generalizing prev prev' text with
  | one | many | optional | empty => rfl
  | seq p q ihp ihq =>
      rw [matchesAt_seq, matchesAt_seq, ihp h]
      refine List.flatMap_congr fun m _ => ?_
      rw [ihq (isWord_before h)]
  | alt p q ihp ihq =>
      rw [matchesAt_alt, matchesAt_alt, ihp h, ihq h]
  | capture p ih =>
      rw [matchesAt_capture, matchesAt_capture, ih h]
  | boundary =>
      rw [matchesAt_boundary, matchesAt_boundary, h]

theorem replaceFrom_isWord {prev prev' : Option α} (h : isWord word prev = isWord word prev')
    (skip : Nat) :
    replaceFrom word p template skip prev text = replaceFrom word p template skip prev' text :=
  replaceFrom_congr (fun _ => matchesAt_isWord h) skip

variable {z : α}

theorem runs_append_cons {accepts : α → Bool} (h : accepts z = false) (s r : List α) :
    runs accepts (s ++ z :: r) = (runs accepts s).map (Match.extend (z :: r)) := by
  induction s with
  | nil =>
      have hnot : ¬accepts z = true := by simp [h]
      rw [List.nil_append, runs_cons, runs_nil, if_neg hnot]
      rfl
  | cons v s ih =>
      rw [List.cons_append, runs_cons, runs_cons]
      by_cases hv : accepts v = true
      · rw [if_pos hv, if_pos hv, ih, List.map_append, List.map_map, List.map_map]
        rfl
      · rw [if_neg hv, if_neg hv]
        rfl

/-- A pattern matches in front of a separator as if the text ended there. -/
theorem matchesAt_append_cons (h : rejects z p = true) (hz : word z = false) (s r : List α) :
    matchesAt word p prev (s ++ z :: r) =
      (matchesAt word p prev s).map (Match.extend (z :: r)) := by
  induction p generalizing prev s with
  | one accepts =>
      have hnot : ¬accepts z = true := by simpa [rejects] using h
      cases s with
      | nil =>
          rw [List.nil_append, matchesAt_one_cons, matchesAt_one_nil, if_neg hnot]
          rfl
      | cons v s =>
          rw [List.cons_append, matchesAt_one_cons, matchesAt_one_cons]
          by_cases hv : accepts v = true
          · rw [if_pos hv, if_pos hv]
            rfl
          · rw [if_neg hv, if_neg hv]
            rfl
  | many accepts =>
      exact runs_append_cons (by simpa [rejects] using h) s r
  | optional accepts =>
      have hnot : ¬accepts z = true := by simpa [rejects] using h
      cases s with
      | nil =>
          rw [List.nil_append, matchesAt_optional_cons, matchesAt_optional_nil, if_neg hnot]
          rfl
      | cons v s =>
          rw [List.cons_append, matchesAt_optional_cons, matchesAt_optional_cons]
          by_cases hv : accepts v = true
          · rw [if_pos hv, if_pos hv]
            rfl
          · rw [if_neg hv, if_neg hv]
            rfl
  | seq p q ihp ihq =>
      rw [rejects, Bool.and_eq_true] at h
      rw [matchesAt_seq, matchesAt_seq, ihp h.1, List.flatMap_map, List.map_flatMap]
      refine List.flatMap_congr fun m _ => ?_
      have hrest : (m.extend (z :: r)).rest = m.rest ++ z :: r := rfl
      rw [hrest, ihq h.2, List.map_map, List.map_map]
      rfl
  | alt p q ihp ihq =>
      rw [rejects, Bool.and_eq_true] at h
      rw [matchesAt_alt, matchesAt_alt, ihp h.1, ihq h.2, List.map_append]
  | capture p ih =>
      rw [rejects] at h
      rw [matchesAt_capture, matchesAt_capture, ih h, List.map_map, List.map_map]
      rfl
  | boundary =>
      have hhead : isWord word (s ++ z :: r).head? = isWord word s.head? := by
        cases s with
        | nil => exact hz
        | cons v s => rfl
      rw [matchesAt_boundary, matchesAt_boundary, hhead]
      split
      · rfl
      · rfl
  | empty => rfl

theorem firstMatch_append_cons (h : rejects z p = true) (hz : word z = false) (s r : List α) :
    firstMatch word p prev (s ++ z :: r) =
      (firstMatch word p prev s).map (Match.extend (z :: r)) := by
  rw [firstMatch, matchesAt_append_cons h hz, List.head?_map, ← firstMatch]

/-- A replacement works on both sides of a separator apart. -/
theorem replaceFrom_append_cons (h : rejects z p = true) (hz : word z = false)
    (hne : ∀ prev text, ∀ m ∈ matchesAt word p prev text, m.taken ≠ [])
    {skip : Nat} (s r : List α) (hskip : skip ≤ s.length) :
    replaceFrom word p template skip prev (s ++ z :: r) =
      replaceFrom word p template skip prev s ++ z :: replaceFrom word p template 0 none r := by
  have hnil : ∀ prev, firstMatch word p prev [] = none := fun prev =>
    firstMatch_eq_none.2 fun m hm =>
      hne prev [] m hm (List.append_eq_nil_iff.1 (taken_append_rest hm).symm).1
  induction s generalizing skip prev with
  | nil =>
      obtain rfl : skip = 0 := Nat.le_zero.1 hskip
      have hnone : firstMatch word p prev ([] ++ z :: r) = none := by
        rw [firstMatch_append_cons h hz, hnil]
        rfl
      have hword : isWord word (some z) = isWord word none := hz
      rw [List.nil_append, replaceFrom_cons hnone, replaceFrom_isWord hword, replaceFrom, hnil]
      rfl
  | cons u s ih =>
      cases skip with
      | succ skip =>
          rw [List.cons_append, replaceFrom, replaceFrom, ih (Nat.le_of_succ_le_succ hskip)]
      | zero =>
          have hfirst : firstMatch word p prev (u :: (s ++ z :: r)) =
              (firstMatch word p prev (u :: s)).map (Match.extend (z :: r)) :=
            firstMatch_append_cons h hz (u :: s) r
          cases hm : firstMatch word p prev (u :: s) with
          | none =>
              rw [hm] at hfirst
              rw [List.cons_append, replaceFrom_cons hfirst, replaceFrom_cons hm,
                ih (Nat.zero_le _)]
              rfl
          | some m =>
              rw [hm] at hfirst
              have hmem := mem_of_firstMatch hm
              obtain ⟨v, taken, htaken⟩ := List.exists_cons_of_ne_nil (hne _ _ m hmem)
              have hlength : taken.length ≤ s.length := by
                have htext := congrArg List.length (taken_append_rest hmem)
                rw [htaken, List.cons_append, List.length_cons, List.length_cons,
                  List.length_append] at htext
                omega
              rw [List.cons_append, replaceFrom, hfirst, replaceFrom, hm]
              simp only [Option.map_some, Match.extend, htaken]
              rw [ih hlength, List.append_assoc]

end

end Regex

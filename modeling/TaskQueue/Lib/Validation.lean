import Mathlib.Data.List.Nodup

/-!
# Records whose fields are checked together

Every field of a record is read, and every failure of every field is reported, in the
order of the fields.  The record is there exactly when each field has a value, and the
fields that are named in the report, without repetition, are those that have none.
-/

namespace Validation

/-- What reading a field gives: a value, or the checks that failed, of which there is one. -/
inductive Checked (ε α : Type*)
  | valid (value : α)
  | invalid (first : ε) (rest : List ε)

namespace Checked

variable {ε α : Type*}

def failures : Checked ε α → List ε
  | valid _ => []
  | invalid first rest => first :: rest

def get : (c : Checked ε α) → c.failures = [] → α
  | valid value, _ => value

def isInvalid : Checked ε α → Bool
  | valid _ => false
  | invalid _ _ => true

def mapFailures {ε' : Type*} (f : ε → ε') : Checked ε α → Checked ε' α
  | valid value => valid value
  | invalid first rest => invalid (f first) (rest.map f)

theorem mapFailures_eq_valid {ε' : Type*} {f : ε → ε'} {c : Checked ε α} {a : α} :
    c.mapFailures f = valid a ↔ c = valid a := by
  cases c <;> simp [mapFailures]

theorem failures_mapFailures {ε' : Type*} (f : ε → ε') (c : Checked ε α) :
    (c.mapFailures f).failures = c.failures.map f := by
  cases c with
  | valid value => rfl
  | invalid first rest => rfl

theorem failures_eq_nil {c : Checked ε α} : c.failures = [] ↔ c.isInvalid = false := by
  cases c with
  | valid value => simp [failures, isInvalid]
  | invalid first rest => simp [failures, isInvalid]

theorem isInvalid_eq_false {c : Checked ε α} : c.isInvalid = false ↔ ∃ a, c = valid a := by
  cases c with
  | valid value => simp [isInvalid]
  | invalid first rest => simp [isInvalid]

theorem valid_get {c : Checked ε α} (h : c.failures = []) : valid (c.get h) = c := by
  cases c with
  | valid value => rfl
  | invalid first rest => cases h

end Checked

variable {ι : Type*} {ε : Type*} {Value : ι → Type*} {fields : List ι}

/-- The record, or all failures in the order of the fields. -/
def collect (fields : List ι) (hall : ∀ i, i ∈ fields) (read : ∀ i, Checked ε (Value i)) :
    Except (List ε) (∀ i, Value i) :=
  if h : ∀ i ∈ fields, (read i).failures = [] then .ok fun i => (read i).get (h i (hall i))
  else .error (fields.flatMap fun i => (read i).failures)

variable {hall : ∀ i, i ∈ fields} {read : ∀ i, Checked ε (Value i)}

theorem collect_eq_ok {record : ∀ i, Value i} :
    collect fields hall read = .ok record ↔ ∀ i, read i = .valid (record i) := by
  unfold collect
  constructor
  · intro h i
    split at h
    · rename_i hvalid
      obtain rfl := Except.ok.inj h
      exact (Checked.valid_get (hvalid i (hall i))).symm
    · cases h
  · intro h
    have hvalid : ∀ i ∈ fields, (read i).failures = [] := fun i _ => by rw [h i]; rfl
    rw [dif_pos hvalid]
    apply congrArg Except.ok
    funext i
    have hget := Checked.valid_get (hvalid i (hall i))
    exact Checked.valid.inj (hget.trans (h i))

theorem collect_eq_error {failures : List ε} :
    collect fields hall read = .error failures ↔
      failures = fields.flatMap (fun i => (read i).failures) ∧ ∃ i, (read i).isInvalid = true := by
  unfold collect
  constructor
  · intro h
    split at h
    · cases h
    · rename_i hinvalid
      refine ⟨(Except.error.inj h).symm, ?_⟩
      by_contra hnone
      apply hinvalid
      intro i _
      rw [Checked.failures_eq_nil]
      exact Bool.eq_false_iff.2 fun hi => hnone ⟨i, hi⟩
  · rintro ⟨rfl, i, hi⟩
    rw [dif_neg]
    intro hvalid
    rw [Checked.failures_eq_nil.1 (hvalid i (hall i))] at hi
    cases hi

/-! ## The fields a report names -/

section Names

variable {ν : Type*} [BEq ν] [LawfulBEq ν]

theorem eraseDups_of_forall_eq {names : List ν} {n : ν} (h : ∀ m ∈ names, m = n) :
    names.eraseDups = if names = [] then [] else [n] := by
  cases names with
  | nil => rfl
  | cons m names =>
      obtain rfl := h m List.mem_cons_self
      have hrest : names.filter (fun b => !b == m) = [] := by
        rw [List.filter_eq_nil_iff]
        intro k hk
        simp [h k (List.mem_cons_of_mem _ hk)]
      rw [List.eraseDups_cons, hrest, if_neg (List.cons_ne_nil _ _)]
      rfl

/-- Without repetitions the report names the fields that have failures, in their order. -/
theorem eraseDups_report (read : ∀ i, Checked ε (Value i)) (nameOf : ε → ν) {name : ι → ν}
    (hnames : (fields.map name).Nodup)
    (hown : ∀ i, ∀ e ∈ (read i).failures, nameOf e = name i) :
    ((fields.flatMap fun i => (read i).failures).map nameOf).eraseDups =
      (fields.filter fun i => (read i).isInvalid).map name := by
  induction fields with
  | nil => rfl
  | cons i fields ih =>
      rw [List.map_cons, List.nodup_cons] at hnames
      have hfirst : ∀ n ∈ (read i).failures.map nameOf, n = name i := by
        intro n hn
        obtain ⟨e, he, rfl⟩ := List.mem_map.1 hn
        exact hown i e he
      have hlater : ((fields.flatMap fun j => (read j).failures).map nameOf).removeAll
          ((read i).failures.map nameOf) =
            (fields.flatMap fun j => (read j).failures).map nameOf := by
        apply List.filter_eq_self.2
        intro n hn
        obtain ⟨e, he, rfl⟩ := List.mem_map.1 hn
        obtain ⟨j, hj, he⟩ := List.mem_flatMap.1 he
        rw [Bool.not_eq_true', Bool.eq_false_iff]
        intro hmem
        have hsame : nameOf e = name i := hfirst _ (List.elem_iff.1 hmem)
        exact hnames.1 (hsame ▸ hown j e he ▸ List.mem_map_of_mem hj)
      rw [List.flatMap_cons, List.map_append, List.eraseDups_append, hlater,
        ih hnames.2, eraseDups_of_forall_eq hfirst, List.filter_cons]
      cases hi : (read i).isInvalid with
      | false =>
          rw [Checked.failures_eq_nil.2 hi]
          rfl
      | true =>
          have hne : (read i).failures ≠ [] := fun hnil => by
            rw [Checked.failures_eq_nil.1 hnil] at hi
            cases hi
          rw [if_neg (by simpa using hne)]
          rfl

end Names

end Validation

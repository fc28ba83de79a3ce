import TaskQueue.Lib.Json

/-!
# Object schemas

Validation in the manner of zod: every field is checked and every failure is an
issue with the path of the field and a code, in the order of the schema; a
strict object also refuses the keys it does not declare.
-/

namespace Schema

open Ecma

inductive IssueCode
  | invalidType
  | tooSmall
  | tooBig
  | invalidString
  | invalidEnumValue
  | unrecognizedKeys
  deriving DecidableEq

structure Issue where
  path : List JsString
  code : IssueCode
  deriving DecidableEq

/-- A check of a string: the code reported unless the predicate holds. -/
structure Check where
  code : IssueCode
  passes : JsString → Bool

/-- `.min(n)`, on code units. -/
def Check.min (n : Nat) : Check := ⟨.tooSmall, fun s => n ≤ s.length⟩

def Check.max (n : Nat) : Check := ⟨.tooBig, fun s => s.length ≤ n⟩

/-- `z.string()` with checks, under a name.  A failed type check is the only
issue; failed checks are all reported. -/
def stringField (name : JsString) (checks : List Check) : Option Json → List Issue
  | some (.string s) => (checks.filter fun c => !c.passes s).map fun c => ⟨[name], c.code⟩
  | _ => [⟨[name], .invalidType⟩]

/-- `z.string()….optional()`. -/
def optionalStringField (name : JsString) (checks : List Check) : Option Json → List Issue
  | none => []
  | some v => stringField name checks (some v)

def enumField (name : JsString) (values : List JsString) : Option Json → List Issue
  | some (.string s) => if values.contains s then [] else [⟨[name], .invalidEnumValue⟩]
  | _ => [⟨[name], .invalidType⟩]

def optionalRecordField (name : JsString) : Option Json → List Issue
  | none => []
  | some (.object _) => []
  | some _ => [⟨[name], .invalidType⟩]

/-- The refusal of undeclared keys by `.strict()`. -/
def strictIssues (declared : List JsString) (props : List (JsString × Json)) : List Issue :=
  if props.all fun p => declared.contains p.1 then [] else [⟨[], .unrecognizedKeys⟩]

/-- `z.object({…}).strict().parse`: the value that `read` makes of the fields, unless a field
has an issue or a key is not declared. -/
def parseStrict {α : Type} (fieldIssues : Json → List Issue) (declared : List JsString)
    (read : Json → α) : Json → Except (List Issue) α
  | .object props =>
      match fieldIssues (.object props) ++ strictIssues declared props with
      | [] => .ok (read (.object props))
      | issues => .error issues
  | _ => .error [⟨[], .invalidType⟩]

section

variable {α : Type} {fieldIssues : Json → List Issue} {declared : List JsString} {read : Json → α}

theorem parseStrict_eq_ok {v : Json} {a : α}
    (h : parseStrict fieldIssues declared read v = .ok a) : a = read v ∧ fieldIssues v = [] := by
  unfold parseStrict at h
  split at h
  · split at h
    · rename_i hissues
      exact ⟨(Except.ok.inj h).symm, (List.append_eq_nil_iff.1 hissues).1⟩
    · cases h
  · cases h

theorem parseStrict_of_declared {props : List (JsString × Json)}
    (hfields : fieldIssues (.object props) = []) (hdeclared : strictIssues declared props = []) :
    parseStrict fieldIssues declared read (.object props) = .ok (read (.object props)) := by
  rw [parseStrict, hfields, hdeclared]
  rfl

theorem parseStrict_of_undeclared {props : List (JsString × Json)}
    (h : ∃ p ∈ props, p.1 ∉ declared) :
    ∃ issues, parseStrict fieldIssues declared read (.object props) = .error issues := by
  obtain ⟨p, hp, hkey⟩ := h
  have hstrict : strictIssues declared props ≠ [] := by
    have hall : ¬(props.all fun p => declared.contains p.1) = true := by
      rw [List.all_eq_true]
      intro hall
      exact hkey (List.contains_iff_mem.1 (hall p hp))
    rw [strictIssues, if_neg hall]
    simp
  rw [parseStrict]
  split
  · rename_i hissues
    exact absurd (List.append_eq_nil_iff.1 hissues).2 hstrict
  · exact ⟨_, rfl⟩

end

def text (v : Option Json) : JsString := (v.bind Json.string?).getD []

theorem stringField_eq_nil {name : JsString} {checks : List Check} {v : Option Json} :
    stringField name checks v = [] ↔
      ∃ s, v = some (.string s) ∧ ∀ c ∈ checks, c.passes s = true := by
  unfold stringField
  split
  · rename_i s
    simp [List.filter_eq_nil_iff]
  · rename_i h
    simp only [reduceCtorEq, false_iff]
    rintro ⟨s, hs, -⟩
    exact h s hs

theorem text_of_stringField {name : JsString} {checks : List Check} {v : Option Json}
    (h : stringField name checks v = []) : v = some (.string (text v)) := by
  obtain ⟨s, rfl, -⟩ := stringField_eq_nil.1 h
  rfl

end Schema

import Mathlib.Data.List.Basic

/-!
# Journals

A journal lists the events of a run, newest first, so the events before an
event are its tail.  Claims about order in time are claims about tails: an
event is justified when a property of the events before it holds.
-/

namespace Journal

variable {ε : Type*}

/-- Every event is justified by the events before it. -/
def Justified (P : ε → List ε → Prop) : List ε → Prop
  | [] => True
  | e :: older => P e older ∧ Justified P older

variable {P Q : ε → List ε → Prop}

theorem Justified.suffix {newer older : List ε} (h : Justified P (newer ++ older)) :
    Justified P older := by
  induction newer with
  | nil => exact h
  | cons _ newer ih => exact ih h.2

theorem Justified.at {newer older : List ε} {e : ε} (h : Justified P (newer ++ e :: older)) :
    P e older :=
  h.suffix.1

end Journal

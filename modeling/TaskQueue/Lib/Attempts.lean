import TaskQueue.Lib.Journal

/-!
# Attempts over time

A log of attempts, latest event first: when one was started, and when one
failed.  If an attempt that did not fail is followed by the next one only after
a gap, then every interval shorter than the gap and free of failures holds at
most one start.
-/

namespace Attempts

open Journal

inductive Attempt
  | started (time : Nat)
  | failed (time : Nat)
  deriving DecidableEq

def Attempt.time : Attempt → Nat
  | .started time => time
  | .failed time => time

def Attempt.startedDuring (first last : Nat) : Attempt → Bool
  | .started time => first ≤ time && time ≤ last
  | .failed _ => false

def Ordered (log : List Attempt) : Prop :=
  log.Pairwise fun later earlier => earlier.time ≤ later.time

/-- A start right after another one comes at least the gap later. -/
def Spaced (gap : Nat) : Attempt → List Attempt → Prop
  | .started time, .started before :: _ => before + gap ≤ time
  | _, _ => True

/-- No interval shorter than the gap and free of failures holds two starts. -/
def Sparse (gap : Nat) (log : List Attempt) : Prop :=
  ∀ first last, last < first + gap → (∀ time, .failed time ∈ log → ¬(first ≤ time ∧ time ≤ last)) →
    log.countP (Attempt.startedDuring first last) ≤ 1

variable {gap : Nat} {log : List Attempt}

theorem startedDuring_eq_true {first last : Nat} {e : Attempt} :
    e.startedDuring first last = true ↔ ∃ time, e = .started time ∧ first ≤ time ∧ time ≤ last := by
  cases e with
  | started time => simp [Attempt.startedDuring]
  | failed time => simp [Attempt.startedDuring]

theorem Ordered.cons (h : Ordered log) {e : Attempt} (hlast : ∀ d ∈ log, d.time ≤ e.time) :
    Ordered (e :: log) :=
  List.pairwise_cons.2 ⟨hlast, h⟩

theorem Ordered.time_le_head {e : Attempt} (h : Ordered (e :: log)) :
    ∀ d ∈ e :: log, d.time ≤ e.time := by
  intro d hd
  rcases List.mem_cons.1 hd with rfl | hd
  · exact Nat.le_refl _
  · exact List.rel_of_pairwise_cons h hd

/-- The event right before a start would lie in the interval as well. -/
theorem countP_eq_zero_of_spaced {first last time : Nat} (hordered : Ordered (.started time :: log))
    (hspaced : Spaced gap (.started time) log) (hlast : time ≤ last) (hshort : last < first + gap)
    (hclean : ∀ t, .failed t ∈ log → ¬(first ≤ t ∧ t ≤ last)) :
    log.countP (Attempt.startedDuring first last) = 0 := by
  rw [List.countP_eq_zero]
  intro d hd hstarted
  obtain ⟨t, rfl, hfirst, -⟩ := startedDuring_eq_true.1 hstarted
  cases log with
  | nil => cases hd
  | cons before older =>
      have hbefore : before.time ≤ time := List.rel_of_pairwise_cons hordered List.mem_cons_self
      have hhead : t ≤ before.time :=
        Ordered.time_le_head (List.Pairwise.of_cons hordered) _ hd
      cases before with
      | started t' =>
          simp only [Attempt.time] at hhead
          simp only [Spaced] at hspaced
          omega
      | failed t' =>
          simp only [Attempt.time] at hhead hbefore
          exact hclean t' List.mem_cons_self ⟨by omega, by omega⟩

theorem sparse_of_spaced (hordered : Ordered log) (hspaced : Justified (Spaced gap) log) :
    Sparse gap log := by
  intro first last hshort hclean
  induction log with
  | nil => exact Nat.zero_le _
  | cons e older ih =>
      have hclean' : ∀ t, .failed t ∈ older → ¬(first ≤ t ∧ t ≤ last) :=
        fun t ht => hclean t (List.mem_cons_of_mem _ ht)
      have hrest := ih (List.Pairwise.of_cons hordered) hspaced.2 hclean'
      rw [List.countP_cons]
      by_cases hstarted : e.startedDuring first last = true
      · obtain ⟨time, rfl, -, hlast⟩ := startedDuring_eq_true.1 hstarted
        have hzero := countP_eq_zero_of_spaced hordered hspaced.1 hlast hshort hclean'
        rw [if_pos hstarted]
        omega
      · rw [if_neg hstarted]
        omega

end Attempts

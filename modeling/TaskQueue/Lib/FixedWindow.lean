import Mathlib.Data.List.Count
import Mathlib.Tactic.Common

/-!
# Budgets over lazily opened windows

A budget that is refilled when a window opens, where a window opens at the first
charge after the last one has lapsed.  A log of the charges tells when each was
made and which window it was made to.  No window takes more than the budget;
the main result is what follows for an interval that is not aligned with the
windows: it takes at most twice the budget.
-/

namespace FixedWindow

/-- A charge, and the start of the window it was made to. -/
structure Charge where
  time : Nat
  window : Nat
  deriving DecidableEq

def spent (log : List Charge) (window : Nat) : Nat :=
  log.countP fun c => c.window = window

def spentDuring (log : List Charge) (start length : Nat) : Nat :=
  log.countP fun c => start ≤ c.time ∧ c.time < start + length

/-- Charges are made within their windows, and windows do not overlap. -/
structure Windowed (length : Nat) (log : List Charge) : Prop where
  inside : ∀ c ∈ log, c.window ≤ c.time ∧ c.time < c.window + length
  apart : ∀ c ∈ log, ∀ d ∈ log, c.window < d.window → c.window + length ≤ d.window

structure Placed (length budget : Nat) (log : List Charge) : Prop extends Windowed length log where
  within : ∀ window, spent log window ≤ budget

variable {length budget : Nat} {log : List Charge}

theorem windowed_nil (length : Nat) : Windowed length [] where
  inside := by simp
  apart := by simp

theorem placed_nil (length budget : Nat) : Placed length budget [] where
  toWindowed := windowed_nil length
  within := fun _ => Nat.zero_le _

theorem spent_cons_self (log : List Charge) (c : Charge) :
    spent (c :: log) c.window = spent log c.window + 1 := by
  simp [spent]

theorem spent_cons_of_ne (log : List Charge) {c : Charge} {window : Nat}
    (h : c.window ≠ window) : spent (c :: log) window = spent log window := by
  simp [spent, h]

theorem spent_eq_zero {window : Nat} (h : ∀ c ∈ log, c.window ≠ window) :
    spent log window = 0 := by
  rw [spent, List.countP_eq_zero]
  intro c hc
  simpa using h c hc

theorem spentDuring_cons (log : List Charge) (c : Charge) (start length : Nat) :
    spentDuring (c :: log) start length =
      spentDuring log start length +
        if start ≤ c.time ∧ c.time < start + length then 1 else 0 := by
  simp only [spentDuring, List.countP_cons, decide_eq_true_eq]

/-- A charge to the latest window, or to one opened after it lapsed. -/
theorem Windowed.charge (h : Windowed length log) {c : Charge}
    (hlatest : ∀ d ∈ log, d.window = c.window ∨ d.window + length ≤ c.window)
    (hinside : c.window ≤ c.time ∧ c.time < c.window + length) : Windowed length (c :: log) where
  inside := by
    intro d hd
    rcases List.mem_cons.1 hd with rfl | hd
    · exact hinside
    · exact h.inside d hd
  apart := by
    intro d hd e he hlt
    rcases List.mem_cons.1 hd with hdc | hdlog
    · rcases List.mem_cons.1 he with hec | helog
      · rw [hdc, hec] at hlt
        omega
      · have := hlatest e helog
        rw [hdc] at hlt
        omega
    · rcases List.mem_cons.1 he with hec | helog
      · have := hlatest d hdlog
        rw [hec] at hlt ⊢
        omega
      · exact h.apart d hdlog e helog hlt

theorem Placed.charge (h : Placed length budget log) {c : Charge}
    (hlatest : ∀ d ∈ log, d.window = c.window ∨ d.window + length ≤ c.window)
    (hinside : c.window ≤ c.time ∧ c.time < c.window + length)
    (hleft : spent log c.window < budget) : Placed length budget (c :: log) where
  toWindowed := h.toWindowed.charge hlatest hinside
  within := by
    intro window
    by_cases hw : c.window = window
    · subst hw
      rw [spent_cons_self]
      omega
    · rw [spent_cons_of_ne log hw]
      exact h.within window

/-- Windows that meet an interval of their length are at most two. -/
theorem Windowed.two_windows (h : Windowed length log) (start : Nat) :
    ∃ a b, ∀ c ∈ log, start ≤ c.time → c.time < start + length →
      c.window = a ∨ c.window = b := by
  by_cases hnone : ∃ c ∈ log, start ≤ c.time ∧ c.time < start + length
  · obtain ⟨c, hc, hcs, hce⟩ := hnone
    by_cases hone : ∃ d ∈ log, (start ≤ d.time ∧ d.time < start + length) ∧ d.window ≠ c.window
    · obtain ⟨d, hd, ⟨hds, hde⟩, hne⟩ := hone
      refine ⟨c.window, d.window, fun e he hes hee => ?_⟩
      by_contra hthird
      -- Three windows start a length apart, so the outer two are two lengths apart.
      have hcin := h.inside c hc
      have hdin := h.inside d hd
      have hein := h.inside e he
      have hcd := h.apart c hc d hd
      have hdc := h.apart d hd c hc
      have hce' := h.apart c hc e he
      have hec := h.apart e he c hc
      have hde' := h.apart d hd e he
      have hed := h.apart e he d hd
      omega
    · refine ⟨c.window, c.window, fun e he hes hee => ?_⟩
      by_contra hother
      exact hone ⟨e, he, ⟨hes, hee⟩, by omega⟩
  · refine ⟨0, 0, fun e he hes hee => ?_⟩
    exact absurd ⟨e, he, hes, hee⟩ hnone

/-- An interval of a window's length takes at most two budgets. -/
theorem Placed.spentDuring_le (h : Placed length budget log) (start : Nat) :
    spentDuring log start length ≤ 2 * budget := by
  obtain ⟨a, b, hab⟩ := h.two_windows start
  have hsplit : spentDuring log start length ≤ spent log a + spent log b := by
    clear h
    induction log with
    | nil => exact Nat.zero_le _
    | cons c log ih =>
        have hrest := ih fun d hd => hab d (List.mem_cons_of_mem _ hd)
        have hnow := hab c List.mem_cons_self
        simp only [spentDuring, spent, List.countP_cons, decide_eq_true_eq] at hrest ⊢
        by_cases hin : start ≤ c.time ∧ c.time < start + length
        · have hwindow := hnow hin.1 hin.2
          rw [if_pos hin]
          rcases hwindow with ha | hb
          · rw [if_pos ha]
            omega
          · rw [if_pos hb]
            omega
        · rw [if_neg hin]
          omega
  have ha := h.within a
  have hb := h.within b
  omega

end FixedWindow

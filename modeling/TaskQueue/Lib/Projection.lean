import TaskQueue.Lib.Automaton

/-!
# Views of a system

A system that is composed of others shows each of them a part of its state: a step of
it is a run of the part, of no steps where the part has no share in it.  What holds of
every reachable state of the part then holds of the part's share in the whole.
-/

/-- A part of the states of `A` moves by runs of `B`. -/
structure Projection {σ α τ β : Type*} (A : Automaton σ α) (B : Automaton τ β) where
  view : σ → τ
  start : view A.start = B.start
  step : ∀ s a t, A.step s a = some t → ∃ bs, B.run (view s) bs = some (view t)

namespace Projection

variable {σ α τ β : Type*} {A : Automaton σ α} {B : Automaton τ β}

theorem run (P : Projection A B) {s t : σ} {as : List α} (h : A.run s as = some t) :
    ∃ bs, B.run (P.view s) bs = some (P.view t) := by
  induction as generalizing s with
  | nil =>
      rw [Automaton.run_nil, Option.some.injEq] at h
      exact ⟨[], by rw [h, Automaton.run_nil]⟩
  | cons a as ih =>
      obtain ⟨u, hsu, hut⟩ := (A.run_cons_eq_some).1 h
      obtain ⟨bs, hbs⟩ := P.step s a u hsu
      obtain ⟨cs, hcs⟩ := ih hut
      exact ⟨bs ++ cs, (B.run_append_eq_some).2 ⟨P.view u, hbs, hcs⟩⟩

theorem reachable (P : Projection A B) {s : σ} (h : A.Reachable s) : B.Reachable (P.view s) := by
  obtain ⟨as, has⟩ := h
  obtain ⟨bs, hbs⟩ := P.run has
  rw [P.start] at hbs
  exact ⟨bs, hbs⟩

end Projection

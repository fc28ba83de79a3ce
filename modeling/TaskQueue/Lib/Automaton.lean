import Mathlib.Data.List.Induction

/-!
# Partial automata and their runs

A deterministic transition system whose step may refuse an action.  Everything
nondeterministic (which party moves, what an outside call answers, when it
fails) is part of the action, so a run is a list of actions and can be
evaluated.  The two rules used throughout are `Reachable.invariant` for
unconditional invariants and `Meets.preserves` for invariants that hold only
along runs whose every step satisfies a side condition.
-/

/-- A start state and a partial step; `none` means the action is not enabled. -/
structure Automaton (σ α : Type*) where
  start : σ
  step : σ → α → Option σ

namespace Automaton

variable {σ α : Type*} (A : Automaton σ α)

/-- Perform the actions in order; `none` as soon as one is not enabled. -/
def run : σ → List α → Option σ
  | s, [] => some s
  | s, a :: as => (A.step s a).bind fun t => run t as

/-- Every step of the run meets `C`, judged in the state it is taken from. -/
def Meets (C : σ → α → Prop) : σ → List α → Prop
  | _, [] => True
  | s, a :: as => C s a ∧ ∀ t ∈ A.step s a, Meets C t as

instance Meets.decidable (C : σ → α → Prop) [∀ s a, Decidable (C s a)] :
    ∀ s as, Decidable (A.Meets C s as)
  | _, [] => isTrue trivial
  | s, a :: as =>
      have : ∀ t, Decidable (A.Meets C t as) := fun t => Meets.decidable C t as
      inferInstanceAs (Decidable (C s a ∧ ∀ t ∈ A.step s a, A.Meets C t as))

/-- The states some run leads to from the start state. -/
def Reachable (s : σ) : Prop := ∃ as, A.run A.start as = some s

@[simp] theorem run_nil (s : σ) : A.run s [] = some s := rfl

theorem run_cons (s : σ) (a : α) (as : List α) :
    A.run s (a :: as) = (A.step s a).bind fun t => A.run t as := rfl

theorem run_cons_eq_some {s u : σ} {a : α} {as : List α} :
    A.run s (a :: as) = some u ↔ ∃ t, A.step s a = some t ∧ A.run t as = some u := by
  rw [run_cons, Option.bind_eq_some_iff]

theorem run_append (s : σ) (as bs : List α) :
    A.run s (as ++ bs) = (A.run s as).bind fun t => A.run t bs := by
  induction as generalizing s with
  | nil => rfl
  | cons a as ih =>
      rw [List.cons_append, run_cons, run_cons]
      cases A.step s a with
      | none => rfl
      | some t => exact ih t

theorem run_append_eq_some {s u : σ} {as bs : List α} :
    A.run s (as ++ bs) = some u ↔ ∃ t, A.run s as = some t ∧ A.run t bs = some u := by
  rw [run_append, Option.bind_eq_some_iff]

variable {A}

theorem Reachable.start : A.Reachable A.start := ⟨[], rfl⟩

theorem Reachable.run {s t : σ} (hs : A.Reachable s) {as : List α}
    (hrun : A.run s as = some t) : A.Reachable t := by
  obtain ⟨bs, hbs⟩ := hs
  exact ⟨bs ++ as, (A.run_append_eq_some).2 ⟨s, hbs, hrun⟩⟩

theorem Reachable.step {s t : σ} (hs : A.Reachable s) {a : α}
    (hstep : A.step s a = some t) : A.Reachable t := by
  have hrun : A.run s [a] = some t := (A.run_cons_eq_some).2 ⟨t, hstep, rfl⟩
  exact hs.run hrun

/-- What no step decreases, no run decreases. -/
theorem run_le {m : σ → Nat} (hmono : ∀ s a t, A.step s a = some t → m s ≤ m t) {s t : σ}
    {as : List α} (hrun : A.run s as = some t) : m s ≤ m t := by
  induction as generalizing s with
  | nil =>
      rw [run_nil, Option.some.injEq] at hrun
      exact Nat.le_of_eq (congrArg m hrun)
  | cons a as ih =>
      obtain ⟨u, hsu, hut⟩ := (A.run_cons_eq_some).1 hrun
      exact Nat.le_trans (hmono s a u hsu) (ih hut)

/-! ## Runs that look alike -/

/-- A map of states and actions that every step commutes with maps runs. -/
theorem run_map {f : σ → σ} {g : α → α}
    (hstep : ∀ s a, A.step (f s) (g a) = (A.step s a).map f) (s : σ) (as : List α) :
    A.run (f s) (as.map g) = (A.run s as).map f := by
  induction as generalizing s with
  | nil => rfl
  | cons a as ih =>
      rw [List.map_cons, run_cons, run_cons, hstep]
      cases A.step s a with
      | none => rfl
      | some t => exact ih t

/-- When the map forgets what two sequences of actions differ in, they have runs from the
same state together, to states that differ in what it forgets. -/
theorem run_alike {f : σ → σ} {g : α → α}
    (hstep : ∀ s a, A.step (f s) (g a) = (A.step s a).map f) {s t : σ} {as bs : List α}
    (hsame : as.map g = bs.map g) (hrun : A.run s as = some t) :
    ∃ u, A.run s bs = some u ∧ f u = f t := by
  have hmap : (A.run s bs).map f = some (f t) := by
    calc (A.run s bs).map f = A.run (f s) (bs.map g) := (run_map hstep s bs).symm
      _ = A.run (f s) (as.map g) := by rw [hsame]
      _ = (A.run s as).map f := run_map hstep s as
      _ = some (f t) := by rw [hrun, Option.map_some]
  obtain ⟨u, hu, hf⟩ := Option.map_eq_some_iff.1 hmap
  exact ⟨u, hu, hf⟩

/-! ## Invariants along guarded runs -/

/-- What each guarded step keeps, a guarded run keeps.  The step may rely on
the state being reachable, so invariants proved earlier are available. -/
theorem Meets.preserves {C : σ → α → Prop} {I : σ → Prop}
    (hstep : ∀ s a t, A.Reachable s → I s → C s a → A.step s a = some t → I t)
    {s t : σ} {as : List α} (hreach : A.Reachable s) (hs : I s)
    (hmeets : A.Meets C s as) (hrun : A.run s as = some t) : I t := by
  induction as generalizing s with
  | nil =>
      rw [run_nil, Option.some.injEq] at hrun
      exact hrun ▸ hs
  | cons a as ih =>
      obtain ⟨u, hsu, hut⟩ := (A.run_cons_eq_some).1 hrun
      exact ih (hreach.step hsu) (hstep s a u hreach hs hmeets.1 hsu)
        (hmeets.2 u hsu) hut

theorem meets_of_forall {C : σ → α → Prop} (h : ∀ s a, C s a) (s : σ)
    (as : List α) : A.Meets C s as := by
  induction as generalizing s with
  | nil => trivial
  | cons a as ih => exact ⟨h s a, fun t _ => ih t⟩

theorem Meets.mono {C D : σ → α → Prop} (h : ∀ s a, C s a → D s a) {s : σ}
    {as : List α} (hmeets : A.Meets C s as) : A.Meets D s as := by
  induction as generalizing s with
  | nil => trivial
  | cons a as ih => exact ⟨h s a hmeets.1, fun t ht => ih (hmeets.2 t ht)⟩

/-- A step condition that follows from another wherever an invariant holds, when
steps meeting the other keep the invariant. -/
theorem Meets.mono_of {C D : σ → α → Prop} {I : σ → Prop}
    (hstep : ∀ s a t, A.Reachable s → I s → C s a → A.step s a = some t → I t)
    (h : ∀ s a, A.Reachable s → I s → C s a → D s a) {s : σ} {as : List α}
    (hreach : A.Reachable s) (hs : I s) (hmeets : A.Meets C s as) : A.Meets D s as := by
  induction as generalizing s with
  | nil => trivial
  | cons a as ih =>
      exact ⟨h s a hreach hs hmeets.1, fun t ht =>
        ih (hreach.step ht) (hstep s a t hreach hs hmeets.1 ht) (hmeets.2 t ht)⟩

/-- Two step conditions that agree wherever an invariant holds have the same
runs, when steps meeting the first keep the invariant. -/
theorem meets_congr {C D : σ → α → Prop} {I : σ → Prop}
    (hstep : ∀ s a t, A.Reachable s → I s → C s a → A.step s a = some t → I t)
    (hiff : ∀ s a, A.Reachable s → I s → (C s a ↔ D s a)) {s : σ}
    (hreach : A.Reachable s) (hs : I s) (as : List α) : A.Meets C s as ↔ A.Meets D s as := by
  constructor
  · exact Meets.mono_of hstep (fun s a hr hI => (hiff s a hr hI).1) hreach hs
  · refine Meets.mono_of (fun s a t hr hI hD => ?_) (fun s a hr hI => (hiff s a hr hI).2) hreach hs
    exact hstep s a t hr hI ((hiff s a hr hI).2 hD)

theorem meets_append {C : σ → α → Prop} {s t : σ} {as bs : List α}
    (hrun : A.run s as = some t) :
    A.Meets C s (as ++ bs) ↔ A.Meets C s as ∧ A.Meets C t bs := by
  induction as generalizing s with
  | nil =>
      rw [run_nil, Option.some.injEq] at hrun
      subst hrun
      exact ⟨fun h => ⟨trivial, h⟩, fun h => h.2⟩
  | cons a as ih =>
      obtain ⟨u, hsu, hut⟩ := (A.run_cons_eq_some).1 hrun
      constructor
      · rintro ⟨hC, hrest⟩
        have hu := (ih hut).1 (hrest u hsu)
        refine ⟨⟨hC, fun v hv => ?_⟩, hu.2⟩
        obtain rfl : u = v := Option.some.inj (hsu.symm.trans hv)
        exact hu.1
      · rintro ⟨⟨hC, hrest⟩, hbs⟩
        refine ⟨hC, fun v hv => ?_⟩
        obtain rfl : u = v := Option.some.inj (hsu.symm.trans hv)
        exact (ih hut).2 ⟨hrest u hsu, hbs⟩

/-- Keeping a growing measure under a bound is a matter of every single step,
when below the bound the condition `C` decides whether a step stays there. -/
theorem measure_le_iff_meets {m : σ → Nat} {n : Nat} {C Q : σ → α → Prop} {I : σ → Prop}
    (hmono : ∀ s a t, A.step s a = some t → m s ≤ m t)
    (hstep : ∀ s a t, I s → Q s a → A.step s a = some t → I t)
    (hiff : ∀ s a t, I s → Q s a → m s ≤ n → A.step s a = some t → (m t ≤ n ↔ C s a))
    {s u : σ} {as : List α} (hs : I s) (hm : m s ≤ n) (hQ : A.Meets Q s as)
    (hrun : A.run s as = some u) : m u ≤ n ↔ A.Meets C s as := by
  induction as generalizing s with
  | nil =>
      rw [run_nil, Option.some.injEq] at hrun
      subst hrun
      exact ⟨fun _ => trivial, fun _ => hm⟩
  | cons a as ih =>
      obtain ⟨t, hst, htu⟩ := (A.run_cons_eq_some).1 hrun
      have hnow := hiff s a t hs hQ.1 hm hst
      have hlater := fun hmt => ih (hstep s a t hs hQ.1 hst) hmt (hQ.2 t hst) htu
      constructor
      · intro hu
        have hmt : m t ≤ n := Nat.le_trans (run_le hmono htu) hu
        refine ⟨hnow.1 hmt, fun v hv => ?_⟩
        obtain rfl : t = v := Option.some.inj (hst.symm.trans hv)
        exact (hlater hmt).1 hu
      · rintro ⟨hC, hrest⟩
        exact (hlater (hnow.2 hC)).2 (hrest t hst)

theorem Meets.count {C : σ → α → Prop} {I : σ → Prop} {m : σ → Nat} {p : α → Bool}
    (hstep : ∀ s a t, A.Reachable s → I s → C s a → A.step s a = some t →
      I t ∧ m t = m s + if p a then 1 else 0) {s t : σ} {as : List α} (hreach : A.Reachable s)
    (hs : I s) (hmeets : A.Meets C s as) (hrun : A.run s as = some t) :
    m t = m s + as.countP p := by
  induction as generalizing s with
  | nil =>
      rw [run_nil, Option.some.injEq] at hrun
      rw [hrun, List.countP_nil, Nat.add_zero]
  | cons a as ih =>
      obtain ⟨u, hsu, hut⟩ := (A.run_cons_eq_some).1 hrun
      have hnow := hstep s a u hreach hs hmeets.1 hsu
      have hlater := ih (hreach.step hsu) hnow.1 (hmeets.2 u hsu) hut
      rw [hlater, hnow.2, List.countP_cons]
      omega

/-! ## Counting steps -/

/-- How many steps of the run meet `c`, judged in the state they are taken from. -/
def tally (A : Automaton σ α) (c : σ → α → Bool) : σ → List α → Nat
  | _, [] => 0
  | s, a :: as => (if c s a then 1 else 0) +
      match A.step s a with
      | some t => tally A c t as
      | none => 0

theorem tally_false (s : σ) (as : List α) : A.tally (fun _ _ => false) s as = 0 := by
  induction as generalizing s with
  | nil => rfl
  | cons a as ih =>
      simp only [tally, Bool.false_eq_true, if_false, Nat.zero_add]
      cases A.step s a with
      | none => rfl
      | some t => exact ih t

theorem tally_or {c d : σ → α → Bool} (hone : ∀ s a, c s a = true → d s a = false) (s : σ)
    (as : List α) :
    A.tally (fun s a => c s a || d s a) s as = A.tally c s as + A.tally d s as := by
  induction as generalizing s with
  | nil => rfl
  | cons a as ih =>
      have hnow : (if (c s a || d s a) then 1 else 0) =
          (if c s a then 1 else 0) + if d s a then 1 else 0 := by
        cases hc : c s a with
        | false => simp
        | true => simp [hone s a hc]
      simp only [tally, hnow]
      cases A.step s a with
      | none =>
          simp only
          omega
      | some t =>
          have hlater := ih t
          simp only
          omega

/-- A measure that only steps meeting `c` increase, and by one, a run increases by no
more than their number. -/
theorem run_le_tally {m : σ → Nat} {c : σ → α → Bool}
    (hstep : ∀ s a t, A.step s a = some t → m t ≤ m s + if c s a then 1 else 0) {s t : σ}
    {as : List α} (hrun : A.run s as = some t) : m t ≤ m s + A.tally c s as := by
  induction as generalizing s with
  | nil =>
      rw [run_nil, Option.some.injEq] at hrun
      rw [hrun]
      exact Nat.le_add_right _ _
  | cons a as ih =>
      obtain ⟨u, hsu, hut⟩ := (A.run_cons_eq_some).1 hrun
      have hnow := hstep s a u hsu
      have hlater := ih hut
      rw [tally, hsu]
      simp only
      omega

/-- A measure that no step decreases and steps meeting `c` increase, a run increases by at
least their number. -/
theorem tally_le_run {m : σ → Nat} {c : σ → α → Bool}
    (hstep : ∀ s a t, A.step s a = some t → m s + (if c s a then 1 else 0) ≤ m t) {s t : σ}
    {as : List α} (hrun : A.run s as = some t) : m s + A.tally c s as ≤ m t := by
  induction as generalizing s with
  | nil =>
      rw [run_nil, Option.some.injEq] at hrun
      rw [hrun, tally]
      exact Nat.le_refl _
  | cons a as ih =>
      obtain ⟨u, hsu, hut⟩ := (A.run_cons_eq_some).1 hrun
      have hnow := hstep s a u hsu
      have hlater := ih hut
      simp only [tally, hsu]
      omega

/-- A stock that steps meeting `c` add one to and steps meeting `d` take one from is
over a run what it was, with as many added and taken. -/
theorem run_balances {m : σ → Nat} {c d : σ → α → Bool}
    (hstep : ∀ s a t, A.step s a = some t →
      m t + (if d s a then 1 else 0) = m s + if c s a then 1 else 0) {s t : σ}
    {as : List α} (hrun : A.run s as = some t) :
    m t + A.tally d s as = m s + A.tally c s as := by
  induction as generalizing s with
  | nil =>
      rw [run_nil, Option.some.injEq] at hrun
      rw [hrun, tally, tally]
  | cons a as ih =>
      obtain ⟨u, hsu, hut⟩ := (A.run_cons_eq_some).1 hrun
      have hnow := hstep s a u hsu
      have hlater := ih hut
      simp only [tally, hsu]
      omega

/-! ## Unconditional invariants -/

/-- What every step keeps, every run keeps. -/
theorem run_preserves {I : σ → Prop}
    (hstep : ∀ s a t, I s → A.step s a = some t → I t) {s t : σ} {as : List α}
    (hs : I s) (hrun : A.run s as = some t) : I t := by
  induction as generalizing s with
  | nil =>
      rw [run_nil, Option.some.injEq] at hrun
      exact hrun ▸ hs
  | cons a as ih =>
      obtain ⟨u, hsu, hut⟩ := (A.run_cons_eq_some).1 hrun
      exact ih (hstep s a u hs hsu) hut

/-- An invariant that holds at the start and is kept by every step holds in
every reachable state. -/
theorem Reachable.invariant {I : σ → Prop} (hstart : I A.start)
    (hstep : ∀ s a t, I s → A.step s a = some t → I t) {s : σ}
    (hs : A.Reachable s) : I s := by
  obtain ⟨as, hrun⟩ := hs
  exact run_preserves hstep hstart hrun

theorem Reachable.invariant_of_reachable {I : σ → Prop} (hstart : I A.start)
    (hstep : ∀ s a t, A.Reachable s → I s → A.step s a = some t → I t) {s : σ}
    (hs : A.Reachable s) : I s := by
  obtain ⟨as, hrun⟩ := hs
  exact Meets.preserves (C := fun _ _ => True)
    (fun s a t hr hI _ hst => hstep s a t hr hI hst) .start hstart
    (meets_of_forall (fun _ _ => trivial) _ _) hrun

/-- What every step keeps of a state and the actions that led to it. -/
theorem run_history {I : List α → σ → Prop} (hstart : I [] A.start)
    (hstep : ∀ as s a t, A.run A.start as = some s → I as s → A.step s a = some t → I (as ++ [a]) t)
    {as : List α} {s : σ} (hrun : A.run A.start as = some s) : I as s := by
  induction as using List.reverseRecOn generalizing s with
  | nil =>
      rw [run_nil, Option.some.injEq] at hrun
      exact hrun ▸ hstart
  | append_singleton as a ih =>
      obtain ⟨u, hu, hlast⟩ := (A.run_append_eq_some).1 hrun
      obtain ⟨t, hut, ht⟩ := (A.run_cons_eq_some).1 hlast
      rw [run_nil, Option.some.injEq] at ht
      exact ht ▸ hstep as u a t hu (ih hu) hut

/-- A reflexive and transitive relation that every step stays inside relates
the two ends of every run. -/
theorem run_relates {R : σ → σ → Prop} (hrefl : ∀ s, R s s)
    (htrans : ∀ s t u, R s t → R t u → R s u)
    (hstep : ∀ s a t, A.step s a = some t → R s t) {s t : σ} {as : List α}
    (hrun : A.run s as = some t) : R s t :=
  run_preserves (I := R s) (fun u a v hu huv => htrans s u v hu (hstep u a v huv))
    (hrefl s) hrun

end Automaton

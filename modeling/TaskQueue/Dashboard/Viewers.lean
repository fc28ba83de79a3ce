import TaskQueue.Dashboard.Integrity

/-!
# What concurrent viewers cost

Any number of polls of one view against an upstream handler that answers later.
Nothing in the cache records that a rebuild of the view is under way, so a poll
that arrives meanwhile is a miss of its own, as long as the budget allows.
-/

namespace TaskQueue.Dashboard

open Ecma Journal

variable {env : Environment} {queueNames : List JsString} {β : Type}

def BoardEvent.isDispatch : BoardEvent queueNames β → Bool
  | .dispatched .. => true
  | _ => false

def Board.upstreamCalls (b : Board queueNames β) : Nat := b.journal.countP BoardEvent.isDispatch

def Board.Rebuilding (since : Nat) (b : Board queueNames β) : Prop :=
  ∃ id ∈ b.inFlight.keys, since ≤ id

instance (since : Nat) (b : Board queueNames β) : Decidable (b.Rebuilding since) :=
  inferInstanceAs (Decidable (∃ id ∈ b.inFlight.keys, since ≤ id))

def Board.HasFresh (view : CanonicalQuery) (now : Nat) (b : Board queueNames β) : Prop :=
  ∃ entry ∈ b.cache.snapshotCache.get (buildSnapshotKey view),
    entry.fresh now b.cache.currentGeneration = true

instance (view : CanonicalQuery) (now : Nat) (b : Board queueNames β) :
    Decidable (b.HasFresh view now) :=
  inferInstanceAs (Decidable (∃ entry ∈ b.cache.snapshotCache.get (buildSnapshotKey view),
    entry.fresh now b.cache.currentGeneration = true))

/-- From `t₀` on: polls of one view and good answers to the rebuilds they start,
those numbered `since` or later, while no entry of the view expires and the
store is not cleared. -/
def Quiet (env : Environment) (since t₀ : Nat) (view : CanonicalQuery)
    (b : Board queueNames β) : BoardAction β → Prop
  | .poll query now => canonicalizeQuery query queueNames = view ∧ t₀ ≤ now ∧
      ∀ entry ∈ b.cache.snapshotCache.get (buildSnapshotKey view),
        t₀ < entry.expiresAt → now < entry.expiresAt
  | .complete id statusCode _ now =>
      since ≤ id ∧ statusCode = 200 ∧ b.atCeiling env = false ∧ t₀ ≤ now
  | .invalidate => False

instance (env : Environment) (since t₀ : Nat) (view : CanonicalQuery) (b : Board queueNames β) :
    ∀ action, Decidable (Quiet env since t₀ view b action)
  | .poll query now => inferInstanceAs (Decidable (canonicalizeQuery query queueNames = view ∧
      t₀ ≤ now ∧ ∀ entry ∈ b.cache.snapshotCache.get (buildSnapshotKey view),
        t₀ < entry.expiresAt → now < entry.expiresAt))
  | .complete id statusCode _ now => inferInstanceAs (Decidable (since ≤ id ∧
      statusCode = 200 ∧ b.atCeiling env = false ∧ t₀ ≤ now))
  | .invalidate => isFalse id

/-- No poll finds its view being rebuilt, no fresh snapshot of it, and budget left. -/
def NoPollMeanwhile (env : Environment) (since : Nat) (b : Board queueNames β) :
    BoardAction β → Prop
  | .poll query now => ¬(b.Rebuilding since ∧
      ¬b.HasFresh (canonicalizeQuery query queueNames) now ∧
      (claimRefreshBudget env b.cache.refreshBudget now).1 = true)
  | _ => True

instance (env : Environment) (since : Nat) (b : Board queueNames β) :
    ∀ action, Decidable (NoPollMeanwhile env since b action)
  | .poll query now => inferInstanceAs (Decidable (¬(b.Rebuilding since ∧
      ¬b.HasFresh (canonicalizeQuery query queueNames) now ∧
      (claimRefreshBudget env b.cache.refreshBudget now).1 = true)))
  | .complete .. => isTrue trivial
  | .invalidate => isTrue trivial

/-! ## Upstream calls are counted by the rebuild numbers -/

theorem Board.step_upstreamCalls {b t : Board queueNames β} {a : BoardAction β}
    (h : b.step env a = some t) :
    t.upstreamCalls + b.started = b.upstreamCalls + t.started ∧ b.started ≤ t.started := by
  unfold Board.upstreamCalls
  cases a with
  | poll query now =>
      obtain rfl := Option.some.inj h
      rcases b.poll_cases env query now with ⟨event, _, ha, -, -, hp⟩ | ⟨_, _, -, -, -, hp⟩
      · have hevent : event.isDispatch = false := by cases ha <;> rfl
        simp [hp, hevent]
      · simp [hp, List.countP_cons, BoardEvent.isDispatch]
        omega
  | complete id statusCode body now =>
      obtain ⟨r, -, rfl⟩ := Board.complete_eq_some.1 h
      simp only [Board.logCompletion]
      split <;> simp [BoardEvent.isDispatch]
  | invalidate =>
      obtain rfl := Option.some.inj h
      simp [Board.invalidate, BoardEvent.isDispatch]

theorem used_claimRefreshBudget_le (env : Environment) (budget : RefreshBudget) (now : Nat) :
    (claimRefreshBudget env budget now).2.used ≤
      budget.used + (claimRefreshBudget env budget now).1.toNat := by
  have hle := used_current_le env budget now
  rcases claimRefreshBudget_cases env budget now with ⟨-, h⟩ | ⟨-, h⟩
  · simp only [h, Bool.toNat_false]
    omega
  · simp only [h, Bool.toNat_true]
    omega

theorem Board.step_used {b t : Board queueNames β} {a : BoardAction β} (h : b.step env a = some t) :
    t.cache.refreshBudget.used + b.started ≤ b.cache.refreshBudget.used + t.started := by
  cases a with
  | poll query now =>
      obtain rfl := Option.some.inj h
      have hle := used_claimRefreshBudget_le env b.cache.refreshBudget now
      rcases b.poll_cases env query now with
        ⟨_, _, -, -, hkept | ⟨hspent, hkept⟩, hp⟩ | ⟨r, _, hmissed, -, hkept, hp⟩
      · simp [hp, hkept]
      · simp only [hspent, Bool.toNat_false] at hle
        simp only [hp, hkept]
        omega
      · simp only [hmissed.claimed, Bool.toNat_true] at hle
        simp only [hp, hkept]
        omega
  | complete id statusCode body now =>
      obtain ⟨r, -, rfl⟩ := Board.complete_eq_some.1 h
      simp
  | invalidate =>
      obtain rfl := Option.some.inj h
      exact le_refl _

/-! ## The quiet stretch -/

section Quiet

variable {since t₀ : Nat} {view : CanonicalQuery}

/-- What holds through a quiet stretch: once a poll was passed on, its rebuild is
in flight or has left a fresh snapshot. -/
structure Board.Watched (since t₀ : Nat) (view : CanonicalQuery) (b : Board queueNames β) :
    Prop where
  flying : ∀ id r, b.inFlight.get id = some r → since ≤ id →
    id < b.started ∧ r.cacheKey = buildSnapshotKey view ∧
      r.generationAtDispatch = b.cache.currentGeneration
  covered : since < b.started → b.Rebuilding since ∨ b.HasFresh view t₀

theorem Board.rebuilding_iff {since : Nat} {b : Board queueNames β} :
    b.Rebuilding since ↔ ∃ id r, b.inFlight.get id = some r ∧ since ≤ id := by
  unfold Board.Rebuilding
  constructor
  · rintro ⟨id, hid, hle⟩
    obtain ⟨r, hr⟩ := Option.isSome_iff_exists.1 (AList.lookup_isSome.2 (AList.mem_keys.2 hid))
    exact ⟨id, r, hr, hle⟩
  · rintro ⟨id, r, hr, hle⟩
    exact ⟨id, AList.mem_keys.1 (AList.lookup_isSome.1 (Option.isSome_iff_exists.2 ⟨r, hr⟩)), hle⟩

theorem hasFresh_iff {b : Board queueNames β} {query : Query} {now : Nat}
    (hquiet : Quiet env since t₀ view b (.poll query now)) :
    b.HasFresh view now ↔ b.HasFresh view t₀ := by
  obtain ⟨-, hnow, hlive⟩ := hquiet
  unfold Board.HasFresh
  refine exists_congr fun entry => and_congr_right fun hentry => ?_
  have hexpiry := hlive entry hentry
  simp only [SnapshotEntry.fresh, Bool.and_eq_true, decide_eq_true_eq, and_congr_left_iff]
  omega

theorem Board.Watched.start {b : Board queueNames β} (hb : b.Intact env) :
    b.Watched b.started t₀ view where
  flying := fun id r hr hle => absurd (hb.flying id r hr).1 (by omega)
  covered := fun h => absurd h (by omega)

theorem Board.Watched.poll {b : Board queueNames β} (hb : b.Watched since t₀ view) {query : Query}
    {now : Nat} (hquiet : Quiet env since t₀ view b (.poll query now)) :
    (b.poll env query now).Watched since t₀ view := by
  rcases b.poll_cases env query now with
    ⟨event, cache, -, hsame, -, hp⟩ | ⟨r, cache, hm, hsame, -, hp⟩
  · rw [hp]
    refine ⟨?_, ?_⟩
    · simpa only [hsame.currentGeneration] using hb.flying
    · simpa only [Board.Rebuilding, Board.HasFresh, hsame.snapshotCache,
        hsame.currentGeneration] using hb.covered
  · rw [hp]
    refine ⟨fun id s hs hle => ?_, fun hlt => ?_⟩
    · simp only [hsame.currentGeneration]
      rcases Table.get_put_eq_some.1 hs with ⟨rfl, rfl⟩ | ⟨-, hold⟩
      · exact ⟨by omega, by rw [hm.cacheKey_eq, viewKey, hquiet.1], hm.generation_eq⟩
      · obtain ⟨hid, hkey, hgen⟩ := hb.flying id s hold hle
        exact ⟨by omega, hkey, hgen⟩
    · refine Or.inl (Board.rebuilding_iff.2 ⟨b.started, r, Table.get_put_self _ _ _, ?_⟩)
      simp only at hlt
      omega

theorem Board.Watched.complete {b t : Board queueNames β} (hb : b.Watched since t₀ view)
    {id statusCode now : Nat} {body : β}
    (hquiet : Quiet env since t₀ view b (.complete id statusCode body now))
    (h : b.complete env id statusCode body now = some t) : t.Watched since t₀ view := by
  obtain ⟨hid, rfl, -, hnow⟩ := hquiet
  obtain ⟨r, hr, rfl⟩ := Board.complete_eq_some.1 h
  obtain ⟨-, hkey, hgen⟩ := hb.flying id r hr hid
  refine ⟨fun i s hs hle => ?_, fun _ => Or.inr ?_⟩
  · have hold := (Table.get_remove_eq_some.1 hs).2
    simpa only [captureJson_currentGeneration] using hb.flying i s hold hle
  · have hstored := get_captureJson_self env r body now b.cache
    rw [hkey] at hstored
    refine ⟨_, hstored, ?_⟩
    have hpos := env.dashboardSnapshotTtlMs_pos
    simp only [SnapshotEntry.fresh, captureJson_currentGeneration, hgen, beq_self_eq_true,
      Bool.and_true, decide_eq_true_eq]
    omega

theorem Board.Watched.step {b t : Board queueNames β} (hb : b.Watched since t₀ view)
    {a : BoardAction β} (hquiet : Quiet env since t₀ view b a) (h : b.step env a = some t) :
    t.Watched since t₀ view := by
  cases a with
  | poll query now =>
      obtain rfl := Option.some.inj h
      exact hb.poll hquiet
  | complete id statusCode body now => exact hb.complete hquiet h
  | invalidate => exact hquiet.elim

/-- While at most one poll was passed on, the next action keeps it so exactly when
it is not a poll that finds the rebuild under way. -/
theorem Board.Watched.started_le_iff {b t : Board queueNames β} (hb : b.Watched since t₀ view)
    {a : BoardAction β} (hquiet : Quiet env since t₀ view b a) (hle : b.started ≤ since + 1)
    (h : b.step env a = some t) : t.started ≤ since + 1 ↔ NoPollMeanwhile env since b a := by
  cases a with
  | poll query now =>
      obtain rfl := Option.some.inj h
      have hfresh := hasFresh_iff hquiet
      obtain ⟨hview, -, -⟩ := hquiet
      simp only [NoPollMeanwhile, hview]
      rcases b.poll_cases env query now with
        ⟨event, cache, hanswered, -, -, hp⟩ | ⟨r, cache, hm, -, -, hp⟩
      · rw [hp]
        refine ⟨fun _ => ?_, fun _ => hle⟩
        rintro ⟨-, hold, hclaim⟩
        cases hanswered with
        | hit get fresh =>
            rw [viewKey, hview] at get
            exact hold ⟨_, get, fresh⟩
        | stale _ _ spent => exact absurd hclaim (by simp [spent])
        | shed _ spent => exact absurd hclaim (by simp [spent])
      · rw [hp]
        have hold : ¬b.HasFresh view now := by
          rintro ⟨entry, hget, hentry⟩
          have := hm.old entry (by rw [viewKey, hview]; exact hget)
          simp [hentry] at this
        constructor
        · rintro hstarted ⟨hrebuilding, -, -⟩
          obtain ⟨id, s, hs, hid⟩ := Board.rebuilding_iff.1 hrebuilding
          have := (hb.flying id s hs hid).1
          simp only at hstarted
          omega
        · intro hnone
          by_contra hmany
          simp only at hmany
          rcases hb.covered (by omega) with hrebuilding | hcovered
          · exact hnone ⟨hrebuilding, hold, hm.claimed⟩
          · exact hold (hfresh.2 hcovered)
  | complete id statusCode body now =>
      obtain ⟨r, -, rfl⟩ := Board.complete_eq_some.1 h
      exact ⟨fun _ => trivial, fun _ => hle⟩
  | invalidate => exact hquiet.elim

end Quiet

theorem Board.run_upstreamCalls {b t : Board queueNames β} {as : List (BoardAction β)}
    (hrun : (board env queueNames β).run b as = some t) :
    t.upstreamCalls + b.started = b.upstreamCalls + t.started :=
  Automaton.run_relates (R := fun b t => t.upstreamCalls + b.started = b.upstreamCalls + t.started)
    (fun _ => rfl) (fun _ _ _ h₁ h₂ => by omega)
    (fun _ _ _ h => (Board.step_upstreamCalls h).1) hrun

theorem Board.run_used {b t : Board queueNames β} {as : List (BoardAction β)}
    (hrun : (board env queueNames β).run b as = some t) :
    t.cache.refreshBudget.used + b.started ≤ b.cache.refreshBudget.used + t.started :=
  Automaton.run_relates (R := fun b t =>
    t.cache.refreshBudget.used + b.started ≤ b.cache.refreshBudget.used + t.started)
    (fun _ => le_refl _) (fun _ _ _ h₁ h₂ => by omega) (fun _ _ _ h => Board.step_used h) hrun

/-- Over any quiet stretch of polls of one view, from any reachable state, at most
one is passed to the upstream handler, and at most one unit of budget consumed,
exactly when no poll finds the rebuild under way with budget left. -/
theorem viewers_cost_one_iff {b₀ b : Board queueNames β}
    (hb₀ : (board env queueNames β).Reachable b₀) (t₀ : Nat) (view : CanonicalQuery)
    {as : List (BoardAction β)} (hrun : (board env queueNames β).run b₀ as = some b)
    (hquiet : (board env queueNames β).Meets (Quiet env b₀.started t₀ view) b₀ as) :
    (b.upstreamCalls ≤ b₀.upstreamCalls + 1 ∧
        b.cache.refreshBudget.used ≤ b₀.cache.refreshBudget.used + 1 ↔
      (board env queueNames β).Meets (NoPollMeanwhile env b₀.started) b₀ as) := by
  have hcalls := Board.run_upstreamCalls hrun
  have hused := Board.run_used hrun
  have hiff : b.started ≤ b₀.started + 1 ↔
      (board env queueNames β).Meets (NoPollMeanwhile env b₀.started) b₀ as :=
    Automaton.measure_le_iff_meets (m := Board.started) (I := Board.Watched b₀.started t₀ view)
      (fun _ _ _ h => (Board.step_upstreamCalls h).2)
      (fun _ _ _ hs hq h => hs.step hq h)
      (fun _ _ _ hs hq hle h => hs.started_le_iff hq hle h)
      (Board.Watched.start (intact_of_reachable hb₀)) (Nat.le_succ _) hquiet hrun
  rw [← hiff]
  omega

def oneByOne : List (BoardAction Nat) :=
  [.poll [] 0, .complete 0 200 7 1, .poll [] 2, .poll [] 3]

theorem viewers_cost_one_iff_oneByOne :
    ∃ b, (board .default [js "q"] Nat).run (.initial [js "q"] Nat) oneByOne = some b ∧
      (b.upstreamCalls ≤ (Board.initial [js "q"] Nat).upstreamCalls + 1 ∧
        b.cache.refreshBudget.used ≤ 0 + 1) := by
  have hrun : ((board .default [js "q"] Nat).run (.initial [js "q"] Nat) oneByOne).isSome = true :=
    rfl
  obtain ⟨b, hb⟩ := Option.isSome_iff_exists.1 hrun
  exact ⟨b, hb, (viewers_cost_one_iff .start 0 (canonicalizeQuery [] [js "q"]) hb (by decide)).2
    (by decide)⟩

/-- Two viewers at the same moment: both polls reach the upstream handler. -/
theorem simultaneous_viewers_cost_two :
    ∃ b, (board .default [js "q"] Nat).run (.initial [js "q"] Nat)
        [.poll [] 0, .poll [] 0, .complete 0 200 7 1, .complete 1 200 7 1] = some b ∧
      (board .default [js "q"] Nat).Meets
        (Quiet .default 0 0 (canonicalizeQuery [] [js "q"])) (.initial [js "q"] Nat)
        [.poll [] 0, .poll [] 0, .complete 0 200 7 1, .complete 1 200 7 1] ∧
      ¬(b.upstreamCalls ≤ (Board.initial [js "q"] Nat).upstreamCalls + 1) ∧
      ¬(b.cache.refreshBudget.used ≤ 0 + 1) := by
  have hrun : ((board .default [js "q"] Nat).run (.initial [js "q"] Nat)
      [.poll [] 0, .poll [] 0, .complete 0 200 7 1, .complete 1 200 7 1]).map
      (fun b => (b.upstreamCalls, b.cache.refreshBudget.used)) = some (2, 2) := rfl
  obtain ⟨b, hb, hcounts⟩ := Option.map_eq_some_iff.1 hrun
  obtain ⟨hcalls, hused⟩ := Prod.mk.inj hcounts
  exact ⟨b, hb, by decide, by rw [hcalls]; decide, by rw [hused]; decide⟩

end TaskQueue.Dashboard

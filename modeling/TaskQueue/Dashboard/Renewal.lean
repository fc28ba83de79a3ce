import TaskQueue.Dashboard.Chain
import TaskQueue.Dashboard.Integrity
import TaskQueue.Lib.Projection

/-!
# What is served after an invalidation

From a state on in which no entry and no rebuild is of the current generation, a body
of that generation is one the upstream handler was asked for, and answered, since then.
The board behind the mounted chain is the board on its own, so this holds of it too.
-/

namespace TaskQueue.Dashboard

open Ecma

variable {env : Environment} {queueNames : List JsString} {β : Type}

/-! ## Since a state of the board -/

/-- The journal since `older` is `newer`, and holds the call for each rebuild, and the call and
the answer for each entry, of the generation `floor` or later. -/
structure Board.Since (older newer : List (BoardEvent queueNames β)) (floor : Nat)
    (b : Board queueNames β) : Prop where
  journal : b.journal = newer ++ older
  floor_le : floor ≤ b.cache.currentGeneration
  flying : ∀ id r, b.inFlight.get id = some r → floor ≤ r.generationAtDispatch →
    ∃ window, .dispatched id r window ∈ newer
  stored : ∀ key entry, b.cache.snapshotCache.get key = some entry → floor ≤ entry.generation →
    ∃ r, r.cacheKey = key ∧ Produced newer r entry.body

/-- An invalidation leaves nothing of the generation it begins. -/
theorem Board.Intact.since {b : Board queueNames β} (hb : b.Intact env) {floor : Nat}
    (hfloor : b.cache.currentGeneration < floor) {t : Board queueNames β}
    (hgeneration : floor ≤ t.cache.currentGeneration) (hflying : t.inFlight = b.inFlight)
    (hstored : t.cache.snapshotCache = b.cache.snapshotCache) :
    t.Since t.journal [] floor where
  journal := rfl
  floor_le := hgeneration
  flying := by
    intro id r hget hle
    rw [hflying] at hget
    obtain ⟨-, hold, -⟩ := hb.flying id r hget
    omega
  stored := by
    intro key entry hget hle
    rw [hstored] at hget
    obtain ⟨_, -, -, hold, -⟩ := hb.stored key entry hget
    omega

section

variable {older newer : List (BoardEvent queueNames β)} {floor : Nat} {b t : Board queueNames β}
  (hb : b.Since older newer floor)

include hb

theorem Board.Since.poll (query : Query) (now : Nat) :
    ∃ events, (b.poll env query now).Since older (events ++ newer) floor := by
  rcases b.poll_cases env query now with
    ⟨event, cache, -, hsame, -, hp⟩ | ⟨r, cache, hmissed, hsame, -, hp⟩
  · rw [hp]
    refine ⟨[event], ?_, ?_, ?_, ?_⟩
    · rw [List.singleton_append, List.cons_append, hb.journal]
    · rw [hsame.currentGeneration]
      exact hb.floor_le
    · intro id r hget hle
      obtain ⟨window, hmem⟩ := hb.flying id r hget hle
      exact ⟨window, List.mem_cons_of_mem _ hmem⟩
    · intro key entry hget hle
      rw [hsame.snapshotCache] at hget
      obtain ⟨r, hkey, hproduced⟩ := hb.stored key entry hget hle
      exact ⟨r, hkey, hproduced.mono fun e he => List.mem_cons_of_mem _ he⟩
  · rw [hp]
    refine ⟨[.dispatched b.started r cache.refreshBudget.windowStart], ?_, ?_, ?_, ?_⟩
    · rw [List.singleton_append, List.cons_append, hb.journal]
    · rw [hsame.currentGeneration]
      exact hb.floor_le
    · intro id s hget hle
      rcases Table.get_put_eq_some.1 hget with ⟨rfl, rfl⟩ | ⟨-, hold⟩
      · exact ⟨_, List.mem_cons_self⟩
      · obtain ⟨window, hmem⟩ := hb.flying id s hold hle
        exact ⟨window, List.mem_cons_of_mem _ hmem⟩
    · intro key entry hget hle
      rw [hsame.snapshotCache] at hget
      obtain ⟨s, hkey, hproduced⟩ := hb.stored key entry hget hle
      exact ⟨s, hkey, hproduced.mono fun e he => List.mem_cons_of_mem _ he⟩

theorem Board.Since.complete {id statusCode now : Nat} {body : β}
    (h : b.complete env id statusCode body now = some t) :
    ∃ events, t.Since older (events ++ newer) floor := by
  obtain ⟨r, hr, rfl⟩ := Board.complete_eq_some.1 h
  -- The journal tells of the answer, and perhaps of a clear before it.
  obtain ⟨events, hevents, hanswer⟩ : ∃ events,
      b.logCompletion env id r statusCode body = events ++ b.journal ∧
        .completed id r statusCode body ∈ events := by
    unfold Board.logCompletion
    split
    · exact ⟨[.completed id r statusCode body, .cleared], rfl, List.mem_cons_self⟩
    · exact ⟨[.completed id r statusCode body], rfl, List.mem_cons_self⟩
  have hsub : ∀ e ∈ newer, e ∈ events ++ newer := fun e he => List.mem_append_right _ he
  refine ⟨events, ?_, ?_, ?_, ?_⟩
  · rw [hevents, hb.journal, List.append_assoc]
  · rw [captureJson_currentGeneration]
    exact hb.floor_le
  · intro i s hget hle
    obtain ⟨window, hmem⟩ := hb.flying i s (Table.get_remove_eq_some.1 hget).2 hle
    exact ⟨window, hsub _ hmem⟩
  · intro key entry hget hle
    have hkept : b.cache.snapshotCache.get key = some entry →
        ∃ s, s.cacheKey = key ∧ Produced (events ++ newer) s entry.body := by
      intro hold
      obtain ⟨s, hkey, hproduced⟩ := hb.stored key entry hold hle
      exact ⟨s, hkey, hproduced.mono hsub⟩
    by_cases hstatus : statusCode = 200
    · subst hstatus
      rw [get_captureJson_200] at hget
      split at hget
      · rename_i hkey
        obtain rfl := Option.some.inj hget
        obtain ⟨window, hmem⟩ := hb.flying id r hr hle
        exact ⟨r, hkey.symm, id, ⟨window, hsub _ hmem⟩, List.mem_append_left _ hanswer⟩
      · split at hget
        · cases hget
        · exact hkept hget
    · rw [captureJson_ne_200 env r body now b.cache hstatus] at hget
      exact hkept hget

theorem Board.Since.invalidate : b.invalidate.Since older (.invalidated :: newer) floor where
  journal := congrArg (BoardEvent.invalidated :: ·) hb.journal
  floor_le := Nat.le_succ_of_le hb.floor_le
  flying := by
    intro id r hget hle
    obtain ⟨window, hmem⟩ := hb.flying id r hget hle
    exact ⟨window, List.mem_cons_of_mem _ hmem⟩
  stored := by
    intro key entry hget hle
    obtain ⟨r, hkey, hproduced⟩ := hb.stored key entry hget hle
    exact ⟨r, hkey, hproduced.mono fun e he => List.mem_cons_of_mem _ he⟩

theorem Board.Since.step {a : BoardAction β} (h : b.step env a = some t) :
    ∃ events, t.Since older (events ++ newer) floor := by
  cases a with
  | poll query now =>
      obtain rfl := Option.some.inj h
      exact hb.poll query now
  | complete id statusCode body now => exact hb.complete h
  | invalidate =>
      obtain rfl := Option.some.inj h
      exact ⟨[.invalidated], hb.invalidate⟩

/-- A hit is of the current generation, so its body was asked for and answered since. -/
theorem Board.Since.hit {query : Query} {now : Nat} {body : β}
    (h : (serveSnapshot env queueNames query now b.cache).1 = .hit body) :
    ∃ r, r.cacheKey = viewKey queueNames query ∧ Produced newer r body := by
  rcases serveSnapshot_cases env queueNames query now b.cache with
    ⟨entry, hget, hfresh, hout⟩ | ⟨-, ⟨-, _, -, -, -, hout⟩ | ⟨-, _, -, hout⟩ | ⟨-, -, hout⟩⟩
  · rw [hout] at h
    cases h
    simp only [SnapshotEntry.fresh, Bool.and_eq_true, beq_iff_eq] at hfresh
    exact hb.stored _ entry hget (hfresh.2 ▸ hb.floor_le)
  · rw [hout] at h
    cases h
  · rw [hout] at h
    cases h
  · rw [hout] at h
    cases h

end

/-- What was asked for and answered in a run stays so in its continuations. -/
theorem Board.Since.run {older newer : List (BoardEvent queueNames β)} {floor : Nat}
    {b t : Board queueNames β} (hb : b.Since older newer floor) {as : List (BoardAction β)}
    (h : (board env queueNames β).run b as = some t) :
    ∃ newer', t.Since older newer' floor :=
  Automaton.run_preserves (I := fun b => ∃ newer, Board.Since older newer floor b)
    (fun _ _ _ hs hstep => hs.elim fun _ hs => (hs.step hstep).elim fun _ ht => ⟨_, ht⟩)
    ⟨newer, hb⟩ h

/-! ## The board of the mounted dashboard -/

theorem Mount.request_board (env : Environment) (router : Router) {dashboardLimiter : Limiter}
    (req : Request) (now : Nat) (m : Mount dashboardLimiter queueNames β) :
    (m.request env router req now).board = m.board ∨
      (m.request env router req now).board = m.board.poll env req.query now := by
  unfold Mount.request
  rcases dashboardChain_cases env queueNames dashboardLimiter req now m.limits m.board.cache with
    ⟨-, ⟨refusal, hout⟩, -⟩ | ⟨-, -, hout, -⟩ | ⟨-, -, hout, hcache⟩
  · simp only [hout, true_or]
  · simp only [hout, true_or]
  · simp only [hout, hcache]
    exact Or.inr rfl

def boardView (env : Environment) (router : Router) (dashboardLimiter : Limiter)
    (queueNames : List JsString) (β : Type) :
    Projection (mounted env router dashboardLimiter queueNames β) (board env queueNames β) where
  view := Mount.board
  start := rfl
  step := by
    intro m a t h
    have hone : ∀ a b, (board env queueNames β).step m.board a = some b →
        ∃ as, (board env queueNames β).run m.board as = some b := fun a b hstep =>
      ⟨[a], (Automaton.run_cons_eq_some _).2 ⟨b, hstep, rfl⟩⟩
    cases a with
    | request req now =>
        obtain rfl := Option.some.inj h
        rcases m.request_board env router req now with hsame | hpoll
        · exact ⟨[], by rw [Automaton.run_nil, hsame]⟩
        · rw [hpoll]
          exact hone (.poll req.query now) _ rfl
    | complete id statusCode body now =>
        obtain ⟨b, hb, rfl⟩ := Option.map_eq_some_iff.1 h
        exact hone (.complete id statusCode body now) b hb
    | invalidate =>
        obtain rfl := Option.some.inj h
        exact hone .invalidate _ rfl

end TaskQueue.Dashboard

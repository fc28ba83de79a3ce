import TaskQueue.Dashboard.Overtaking
import TaskQueue.Lib.FixedWindow

/-!
# The refresh budget over time

The board with a clock that does not go back and a log of its misses: when each
was, and which budget window it was charged to.  The windows open lazily, at the
first miss after the last one lapsed, so the bound for an arbitrary interval of
a window's length is two budgets and not one.
-/

namespace TaskQueue.Dashboard

open Ecma FixedWindow

/-- The board, the latest clock reading, and every miss so far, latest first. -/
structure Metered (queueNames : List JsString) (β : Type) where
  board : Board queueNames β
  clock : Nat
  misses : List Charge

def Metered.initial (queueNames : List JsString) (β : Type) : Metered queueNames β :=
  ⟨.initial queueNames β, 0, []⟩

section Operations

variable {queueNames : List JsString} {β : Type}

def Answer.isMiss : Answer queueNames β → Bool
  | .miss _ => true
  | _ => false

def missOf (now : Nat) (served : Answer queueNames β × CacheState β) : List Charge :=
  if served.1.isMiss then [⟨now, served.2.refreshBudget.windowStart⟩] else []

def BoardAction.now? : BoardAction β → Option Nat
  | .poll _ now => some now
  | .complete _ _ _ now => some now
  | .invalidate => none

def Metered.charges (env : Environment) (m : Metered queueNames β) : BoardAction β → List Charge
  | .poll query now => missOf now (serveSnapshot env queueNames query now m.board.cache)
  | _ => []

def Metered.step (env : Environment) (m : Metered queueNames β) (a : BoardAction β) :
    Option (Metered queueNames β) :=
  if m.clock ≤ a.now?.getD m.clock then
    (m.board.step env a).map fun board =>
      { board, clock := a.now?.getD m.clock, misses := m.charges env a ++ m.misses }
  else none

end Operations

def metered (env : Environment) (queueNames : List JsString) (β : Type) :
    Automaton (Metered queueNames β) (BoardAction β) where
  start := .initial queueNames β
  step := Metered.step env

variable {env : Environment} {queueNames : List JsString} {β : Type}

/-! ## What a poll does to the budget -/

/-- An answer from the cache, stale or not, and a refusal leave the budget as it was. -/
theorem refreshBudget_of_not_miss {query : Query} {now : Nat} {st : CacheState β}
    (h : (serveSnapshot env queueNames query now st).1.isMiss = false) :
    (serveSnapshot env queueNames query now st).2.refreshBudget = st.refreshBudget := by
  rcases serveSnapshot_cases env queueNames query now st with
    ⟨_, -, -, hs⟩ | ⟨-, ⟨-, r, -, -, -, hs⟩ | ⟨hclaim, _, -, hs⟩ | ⟨hclaim, -, hs⟩⟩
  · rw [hs]
    exact count_refreshBudget st .cache
  · rw [hs] at h
    cases h
  · rw [hs, count_refreshBudget]
    exact claimRefreshBudget_eq_of_false hclaim
  · rw [hs, count_refreshBudget]
    exact claimRefreshBudget_eq_of_false hclaim

/-- A miss takes a unit of the window it is made in. -/
theorem refreshBudget_of_miss {query : Query} {now : Nat} {st : CacheState β}
    (h : (serveSnapshot env queueNames query now st).1.isMiss = true) :
    (st.refreshBudget.current env now).used < env.dashboardMaxRefreshesPerWindow ∧
      (serveSnapshot env queueNames query now st).2.refreshBudget =
        ⟨(st.refreshBudget.current env now).windowStart,
          (st.refreshBudget.current env now).used + 1⟩ := by
  rcases serveSnapshot_cases env queueNames query now st with
    ⟨_, -, -, hs⟩ | ⟨-, ⟨hclaim, r, -, -, -, hs⟩ | ⟨-, _, -, hs⟩ | ⟨-, -, hs⟩⟩
  · rw [hs] at h
    cases h
  · rcases claimRefreshBudget_cases env st.refreshBudget now with ⟨-, hcases⟩ | ⟨hleft, hcases⟩
    · rw [hcases] at hclaim
      cases hclaim
    · rw [hs, count_refreshBudget]
      exact ⟨hleft, congrArg Prod.snd hcases⟩
  · rw [hs] at h
    cases h
  · rw [hs] at h
    cases h

/-- A poll is refused a rebuild only in a window that has not lapsed and is spent. -/
theorem spent_of_refused {query : Query} {now : Nat} {st : CacheState β}
    (h : (serveSnapshot env queueNames query now st).1.source = .stale ∨
      (serveSnapshot env queueNames query now st).1.source = .shed) :
    now - st.refreshBudget.windowStart < env.dashboardRefreshWindowMs ∧
      env.dashboardMaxRefreshesPerWindow ≤ st.refreshBudget.used := by
  have hclaim : (claimRefreshBudget env st.refreshBudget now).1 = false := by
    rcases serveSnapshot_cases env queueNames query now st with
      ⟨_, -, -, hs⟩ | ⟨-, ⟨-, r, -, -, -, hs⟩ | ⟨hclaim, _, -, hs⟩ | ⟨hclaim, -, hs⟩⟩
    · simp [hs, Answer.source] at h
    · simp [hs, Answer.source] at h
    · exact hclaim
    · exact hclaim
  rcases claimRefreshBudget_cases env st.refreshBudget now with ⟨hspent, -⟩ | ⟨-, hcases⟩
  · rcases current_cases env st.refreshBudget now with ⟨-, hcurrent⟩ | ⟨hnow, hcurrent⟩
    · have hpos := env.dashboardMaxRefreshesPerWindow_pos
      rw [hcurrent] at hspent
      simp only at hspent
      omega
    · rw [hcurrent] at hspent
      exact ⟨hnow, hspent⟩
  · rw [hcases] at hclaim
    cases hclaim

/-! ## The log agrees with the budget -/

/-- The log of misses tells what the budget has used, and is that of windows
opened one after the other. -/
structure Metered.Accounted (env : Environment) (m : Metered queueNames β) : Prop where
  used : spent m.misses m.board.cache.refreshBudget.windowStart = m.board.cache.refreshBudget.used
  latest : ∀ c ∈ m.misses, c.window = m.board.cache.refreshBudget.windowStart ∨
    c.window + env.dashboardRefreshWindowMs ≤ m.board.cache.refreshBudget.windowStart
  placed : Placed env.dashboardRefreshWindowMs env.dashboardMaxRefreshesPerWindow m.misses
  opened : m.board.cache.refreshBudget.windowStart ≤ m.clock

theorem Metered.initial_accounted : (Metered.initial queueNames β).Accounted env where
  used := rfl
  latest := by simp [Metered.initial]
  placed := placed_nil _ _
  opened := Nat.zero_le _

theorem Metered.Accounted.charge {m : Metered queueNames β} (hm : m.Accounted env) {now : Nat}
    (hnow : m.clock ≤ now)
    (hleft : (m.board.cache.refreshBudget.current env now).used <
      env.dashboardMaxRefreshesPerWindow) {board : Board queueNames β}
    (hbudget : board.cache.refreshBudget =
      ⟨(m.board.cache.refreshBudget.current env now).windowStart,
        (m.board.cache.refreshBudget.current env now).used + 1⟩) :
    Metered.Accounted env
      ⟨board, now, ⟨now, board.cache.refreshBudget.windowStart⟩ :: m.misses⟩ := by
  have hpos := env.dashboardRefreshWindowMs_pos
  have hopened := hm.opened
  have hlatest := hm.latest
  have hused := hm.used
  rcases current_cases env m.board.cache.refreshBudget now with ⟨hlapsed, hcurrent⟩ |
    ⟨hrunning, hcurrent⟩
  · -- A new window: every charge so far was made to one that has lapsed.
    rw [hcurrent] at hbudget hleft
    have hearlier : ∀ c ∈ m.misses, c.window + env.dashboardRefreshWindowMs ≤ now := by
      intro c hc
      have := hlatest c hc
      omega
    have hnone : spent m.misses now = 0 := spent_eq_zero fun c hc => by
      have := hearlier c hc
      omega
    refine ⟨?_, fun c hc => ?_, ?_, ?_⟩
    · rw [hbudget, spent_cons_self, hnone]
    · rw [hbudget]
      rcases List.mem_cons.1 hc with rfl | hc
      · exact Or.inl (by rw [hbudget])
      · exact Or.inr (hearlier c hc)
    · rw [hbudget]
      apply hm.placed.charge
      · exact fun d hd => Or.inr (hearlier d hd)
      · exact ⟨Nat.le_refl _, by simp only; omega⟩
      · simp only
        omega
    · rw [hbudget]
  · rw [hcurrent] at hbudget hleft
    refine ⟨?_, fun c hc => ?_, ?_, ?_⟩
    · rw [hbudget, spent_cons_self, hused]
    · rw [hbudget]
      rcases List.mem_cons.1 hc with rfl | hc
      · exact Or.inl (by rw [hbudget])
      · exact hlatest c hc
    · rw [hbudget]
      apply hm.placed.charge
      · exact hlatest
      · simp only
        omega
      · simp only
        omega
    · rw [hbudget]
      exact Nat.le_trans hopened hnow

/-! ## One step -/

theorem Metered.step_eq_some {m t : Metered queueNames β} {a : BoardAction β}
    (h : m.step env a = some t) :
    m.clock ≤ a.now?.getD m.clock ∧ ∃ board, m.board.step env a = some board ∧
      t = ⟨board, a.now?.getD m.clock, m.charges env a ++ m.misses⟩ := by
  unfold Metered.step at h
  split at h
  · rename_i hclock
    obtain ⟨board, hboard, rfl⟩ := Option.map_eq_some_iff.1 h
    exact ⟨hclock, board, hboard, rfl⟩
  · cases h

theorem Metered.step_cases {m t : Metered queueNames β} {a : BoardAction β}
    (h : m.step env a = some t) :
    m.clock ≤ t.clock ∧
      ((t.misses = m.misses ∧ t.board.cache.refreshBudget = m.board.cache.refreshBudget) ∨
        ((m.board.cache.refreshBudget.current env t.clock).used <
            env.dashboardMaxRefreshesPerWindow ∧
          t.board.cache.refreshBudget =
            ⟨(m.board.cache.refreshBudget.current env t.clock).windowStart,
              (m.board.cache.refreshBudget.current env t.clock).used + 1⟩ ∧
          t.misses = ⟨t.clock, t.board.cache.refreshBudget.windowStart⟩ :: m.misses)) := by
  obtain ⟨hclock, board, hboard, rfl⟩ := Metered.step_eq_some h
  refine ⟨hclock, ?_⟩
  cases a with
  | poll query now =>
      obtain rfl := Option.some.inj hboard
      have hcache : (m.board.poll env query now).cache =
          (serveSnapshot env queueNames query now m.board.cache).2 := record_cache _ _ _
      simp only [Metered.charges, missOf, BoardAction.now?, Option.getD_some, hcache]
      cases hmiss : (serveSnapshot env queueNames query now m.board.cache).1.isMiss with
      | true =>
          obtain ⟨hleft, hbudget⟩ := refreshBudget_of_miss hmiss
          exact Or.inr ⟨hleft, hbudget, rfl⟩
      | false => exact Or.inl ⟨rfl, refreshBudget_of_not_miss hmiss⟩
  | complete id statusCode body now =>
      obtain ⟨r, -, rfl⟩ := Board.complete_eq_some.1 hboard
      exact Or.inl ⟨rfl, captureJson_refreshBudget env r statusCode body now m.board.cache⟩
  | invalidate =>
      obtain rfl := Option.some.inj hboard
      exact Or.inl ⟨rfl, rfl⟩

theorem Metered.Accounted.step {m t : Metered queueNames β} (hm : m.Accounted env)
    {a : BoardAction β} (h : m.step env a = some t) : t.Accounted env := by
  obtain ⟨hclock, ⟨hmisses, hbudget⟩ | ⟨hleft, hbudget, hmisses⟩⟩ := Metered.step_cases h
  · refine ⟨?_, ?_, ?_, ?_⟩
    · rw [hmisses, hbudget]
      exact hm.used
    · rw [hmisses, hbudget]
      exact hm.latest
    · rw [hmisses]
      exact hm.placed
    · rw [hbudget]
      exact Nat.le_trans hm.opened hclock
  · have hcharged := hm.charge hclock hleft hbudget
    rw [← hmisses] at hcharged
    exact hcharged

theorem Metered.accounted_of_reachable {m : Metered queueNames β}
    (hm : (metered env queueNames β).Reachable m) : m.Accounted env :=
  hm.invariant Metered.initial_accounted fun _ _ _ hm h => hm.step h

/-! ## Runs -/

/-- Windows open one after the other, and while none opens the log grows by what
the budget uses. -/
def Metered.Grows (m t : Metered queueNames β) : Prop :=
  m.board.cache.refreshBudget.windowStart ≤ t.board.cache.refreshBudget.windowStart ∧
    (t.board.cache.refreshBudget.windowStart = m.board.cache.refreshBudget.windowStart →
      t.misses.length + m.board.cache.refreshBudget.used =
        m.misses.length + t.board.cache.refreshBudget.used)

theorem Metered.grows_of_step {m t : Metered queueNames β} {a : BoardAction β}
    (h : m.step env a = some t) : m.Grows t := by
  unfold Metered.Grows
  obtain ⟨-, ⟨hmisses, hbudget⟩ | ⟨-, hbudget, hmisses⟩⟩ := Metered.step_cases h
  · rw [hmisses, hbudget]
    exact ⟨Nat.le_refl _, fun _ => rfl⟩
  · rw [hmisses, hbudget, List.length_cons]
    rcases current_cases env m.board.cache.refreshBudget t.clock with ⟨hlapsed, hcurrent⟩ |
      ⟨-, hcurrent⟩
    · have hpos := env.dashboardRefreshWindowMs_pos
      rw [hcurrent]
      simp only
      constructor
      · omega
      · intro hsame
        omega
    · rw [hcurrent]
      simp only
      constructor
      · omega
      · intro _
        omega

theorem Metered.grows_of_run {m t : Metered queueNames β} {as : List (BoardAction β)}
    (h : (metered env queueNames β).run m as = some t) : m.Grows t := by
  refine Automaton.run_relates (R := Metered.Grows) ?_ ?_ ?_ h
  · intro s
    exact ⟨Nat.le_refl _, fun _ => rfl⟩
  · intro s u v hsu huv
    have hle := Nat.le_trans hsu.1 huv.1
    refine ⟨hle, fun hsame => ?_⟩
    have hsu' := hsu.2 (by have := hsu.1; have := huv.1; omega)
    have huv' := huv.2 (by have := hsu.1; have := huv.1; omega)
    omega
  · intro s a u hstep
    exact Metered.grows_of_step hstep

/-- In every run, while no window is reset at most the budget is spent on misses;
no window and no interval of a window's length takes more than one budget, and two.
Only a miss takes from the budget, and a poll is refused a rebuild only in a
window in which all of it was spent. -/
theorem refreshBudget_bounds_misses {as : List (BoardAction β)} {m : Metered queueNames β}
    (hrun : (metered env queueNames β).run (.initial queueNames β) as = some m) :
    (∀ bs t, (metered env queueNames β).run m bs = some t →
      t.board.cache.refreshBudget.windowStart = m.board.cache.refreshBudget.windowStart →
        t.misses.length ≤ m.misses.length + env.dashboardMaxRefreshesPerWindow) ∧
    (∀ window, spent m.misses window ≤ env.dashboardMaxRefreshesPerWindow) ∧
    (∀ start, spentDuring m.misses start env.dashboardRefreshWindowMs ≤
      2 * env.dashboardMaxRefreshesPerWindow) ∧
    (∀ query now t, m.step env (.poll query now) = some t →
      let source := (serveSnapshot env queueNames query now m.board.cache).1.source
      (source ≠ .redis →
        t.misses = m.misses ∧ t.board.cache.refreshBudget = m.board.cache.refreshBudget) ∧
      (source = .stale ∨ source = .shed →
        now < m.board.cache.refreshBudget.windowStart + env.dashboardRefreshWindowMs ∧
          spent m.misses m.board.cache.refreshBudget.windowStart =
            env.dashboardMaxRefreshesPerWindow)) := by
  have hreach : (metered env queueNames β).Reachable m := ⟨as, hrun⟩
  have hm := Metered.accounted_of_reachable hreach
  refine ⟨fun bs t hbs hsame => ?_, hm.placed.within, hm.placed.spentDuring_le, ?_⟩
  · have hgrows := (Metered.grows_of_run hbs).2 hsame
    have ht := Metered.accounted_of_reachable (hreach.run hbs)
    have hused := ht.used
    have hwithin := ht.placed.within t.board.cache.refreshBudget.windowStart
    omega
  · intro query now t ht source
    obtain ⟨hclock, board, hboard, rfl⟩ := Metered.step_eq_some ht
    obtain rfl := Option.some.inj hboard
    constructor
    · intro hsource
      have hmiss : (serveSnapshot env queueNames query now m.board.cache).1.isMiss = false := by
        cases hanswer : (serveSnapshot env queueNames query now m.board.cache).1 with
        | miss r => exact absurd (congrArg Answer.source hanswer) hsource
        | hit body => rfl
        | stale body => rfl
        | shed => rfl
      refine ⟨?_, ?_⟩
      · simp [Metered.charges, missOf, hmiss]
      · have hcache : (m.board.poll env query now).cache =
            (serveSnapshot env queueNames query now m.board.cache).2 := record_cache _ _ _
        rw [hcache]
        exact refreshBudget_of_not_miss hmiss
    · intro hsource
      obtain ⟨hnow, hspent⟩ := spent_of_refused hsource
      have hopened := hm.opened
      have hwithin := hm.placed.within m.board.cache.refreshBudget.windowStart
      have hused := hm.used
      simp only [BoardAction.now?, Option.getD_some] at hclock
      constructor
      · omega
      · omega

def aroundReset : List (BoardAction Nat) :=
  [.poll [] 59999, .poll [(js "page", .string (js "2"))] 59999,
    .poll [(js "page", .string (js "3"))] 60000, .poll [(js "page", .string (js "4"))] 60001]

theorem refreshBudget_bounds_misses_aroundReset :
    ∃ m, (metered frugal [js "q"] Nat).run (.initial [js "q"] Nat) aroundReset = some m ∧
      spentDuring m.misses 59999 60000 = 4 ∧
      spentDuring m.misses 59999 60000 ≤ 2 * frugal.dashboardMaxRefreshesPerWindow := by
  have hrun : ((metered frugal [js "q"] Nat).run (.initial [js "q"] Nat) aroundReset).map
      Metered.misses = some [⟨60001, 60000⟩, ⟨60000, 60000⟩, ⟨59999, 0⟩, ⟨59999, 0⟩] := by
    decide +kernel
  obtain ⟨m, hm, hmisses⟩ := Option.map_eq_some_iff.1 hrun
  have hbound := (refreshBudget_bounds_misses hm).2.2.1 59999
  refine ⟨m, hm, ?_, hbound⟩
  rw [hmisses]
  decide

end TaskQueue.Dashboard

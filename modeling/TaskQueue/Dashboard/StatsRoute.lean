import TaskQueue.Dashboard.Chain

/-!
# The Redis server-info route

The stats block in front of Bull Board's router compares the path with one
spelling of the route, and the router accepts every letter case and a trailing
slash.  The two sets of paths differ in exactly the spellings the block does not
know, and a request with one of those reaches the handler whenever the limiter
lets it through.
-/

namespace TaskQueue.Dashboard

open Ecma

def redisStatsRoute : JsString := js "/api/redis/stats"

/-- Bull Board's router, as far as its `GET /api/redis/stats` handler is
concerned: an Express router with default options. -/
structure StatsRouter where
  dispatchesStats : Request → Bool
  dispatchesStats_iff : ∀ req, dispatchesStats req = true ↔
    (req.method = js "GET" ∨ req.method = js "HEAD") ∧ routeMatches redisStatsRoute req.path = true

def statsNotFound : Refusal := ⟨404, [], js "Not found."⟩

/-- The router takes the path for its stats route, and the block does not. -/
def OtherSpelling (path : JsString) : Prop :=
  routeMatches redisStatsRoute path = true ∧ path ≠ redisStatsRoute

instance (path : JsString) : Decidable (OtherSpelling path) :=
  inferInstanceAs (Decidable (_ ∧ _ ≠ _))

variable {env : Environment} {queueNames : List JsString} {β : Type}

def Outcome.stats (router : StatsRouter) (outcome : Outcome queueNames β) : Option Request :=
  outcome.forwarded.filter router.dispatchesStats

/-- If the router would give the request to its stats handler, the block answers
404 and the chain ends there. -/
def StatsBlocked (env : Environment) (queueNames : List JsString) (β : Type)
    (router : StatsRouter) (dashboardLimiter : Limiter) (req : Request) : Prop :=
  router.dispatchesStats req = true →
    blockRedisStatsRoute req = some statsNotFound ∧
    ∀ now (limits : dashboardLimiter.State) (cache : CacheState β),
      dashboardChain env queueNames dashboardLimiter req now limits cache =
        (.refused statsNotFound, limits, cache)

/-! ## What the guard and the block let through -/

theorem dashboardReadOnlyGuard_eq_none {req : Request} :
    dashboardReadOnlyGuard req = none ↔ req.method = js "GET" ∨ req.method = js "HEAD" := by
  unfold dashboardReadOnlyGuard
  split
  · rename_i h
    simpa using h
  · rename_i h
    simpa using h

theorem blockRedisStatsRoute_eq_some {req : Request} {refusal : Refusal} :
    blockRedisStatsRoute req = some refusal ↔
      req.path = redisStatsRoute ∧ refusal = statsNotFound := by
  unfold blockRedisStatsRoute
  split
  · rename_i h
    have hpath : req.path = redisStatsRoute := by simpa [redisStatsRoute] using h
    simp [hpath, statsNotFound, eq_comm]
  · rename_i h
    have hpath : req.path ≠ redisStatsRoute := by simpa [redisStatsRoute] using h
    simp [hpath]

theorem dashboardChain_of_blocked (env : Environment) (queueNames : List JsString)
    {dashboardLimiter : Limiter} {req : Request} (hguard : dashboardReadOnlyGuard req = none)
    (hstats : blockRedisStatsRoute req = some statsNotFound) (now : Nat)
    (limits : dashboardLimiter.State) (cache : CacheState β) :
    dashboardChain env queueNames dashboardLimiter req now limits cache =
      (.refused statsNotFound, limits, cache) := by
  unfold dashboardChain
  rw [hguard, hstats]

theorem forwarded_path {req seen : Request} {answer : Answer queueNames β}
    (h : (Handling.polled req answer).forwarded = some seen) : seen.path = req.path := by
  cases answer with
  | miss r => rw [← Option.some.inj h]
  | hit body => cases h
  | stale body => cases h
  | shed => cases h

/-- A request for the stats route that the chain refuses was spelled as the block
expects it, or stopped by the limiter; any other arrives as it was sent. -/
theorem stats_eq_some_iff {router : StatsRouter} {dashboardLimiter : Limiter} {req seen : Request}
    {now : Nat} {limits : dashboardLimiter.State} {cache : CacheState β}
    (hguard : dashboardReadOnlyGuard req = none) :
    (dashboardChain env queueNames dashboardLimiter req now limits cache).1.stats router =
        some seen ↔
      OtherSpelling req.path ∧ (dashboardLimiter.allow limits req now).1 = true ∧ seen = req := by
  have hmethod := dashboardReadOnlyGuard_eq_none.1 hguard
  have hnotdata : routeMatches redisStatsRoute (js "/api/queues") = false := by decide
  rcases dashboardChain_cases env queueNames dashboardLimiter req now limits cache with
    ⟨hrefused, ⟨refusal, hout⟩, -⟩ | ⟨hallowed, -, hout, -⟩ | ⟨-, hroute, hout, -⟩
  · simp only [hout, Outcome.stats, Outcome.forwarded, Option.filter_none, reduceCtorEq, false_iff]
    rintro ⟨⟨-, hother⟩, hallowed, -⟩
    rcases hrefused with ⟨refused, h | h⟩ | h
    · rw [hguard] at h
      cases h
    · exact hother (blockRedisStatsRoute_eq_some.1 h).1
    · rw [hallowed] at h
      cases h
  · simp only [hout, Outcome.stats, Outcome.forwarded, Handling.forwarded,
      Option.filter_eq_some_iff, Option.some.injEq, router.dispatchesStats_iff]
    have hne : req.path ≠ redisStatsRoute := by
      intro hpath
      have hblock := blockRedisStatsRoute_eq_some.2 ⟨hpath, rfl⟩
      have hchain := dashboardChain_of_blocked env queueNames hguard hblock now limits cache
      rw [hchain] at hout
      cases hout
    constructor
    · rintro ⟨rfl, -, hmatch⟩
      exact ⟨⟨hmatch, hne⟩, hallowed, rfl⟩
    · rintro ⟨⟨hmatch, -⟩, -, rfl⟩
      exact ⟨rfl, hmethod, hmatch⟩
  · -- The path is the data route, which the router does not take for the stats route.
    constructor
    · intro h
      obtain ⟨hseen, hdispatch⟩ := Option.filter_eq_some_iff.1 h
      have hpath : seen.path = js "/api/queues" := by
        rw [hout] at hseen
        exact (forwarded_path hseen).trans hroute.2
      have hmatch := ((router.dispatchesStats_iff seen).1 hdispatch).2
      rw [hpath, hnotdata] at hmatch
      cases hmatch
    · rintro ⟨⟨hmatch, -⟩, -, -⟩
      rw [hroute.2, hnotdata] at hmatch
      cases hmatch

/-! ## The block against the router -/

/-- For a request the read-only guard lets through, the stats route is refused
with 404 exactly when its path is no other spelling of the route: another letter
case, or a trailing slash. -/
theorem statsBlocked_iff (env : Environment) (queueNames : List JsString) (β : Type)
    (router : StatsRouter) (dashboardLimiter : Limiter) (req : Request)
    (hguard : dashboardReadOnlyGuard req = none) :
    StatsBlocked env queueNames β router dashboardLimiter req ↔ ¬OtherSpelling req.path := by
  have hmethod := dashboardReadOnlyGuard_eq_none.1 hguard
  constructor
  · rintro hblocked ⟨hmatch, hother⟩
    obtain ⟨hblock, -⟩ := hblocked ((router.dispatchesStats_iff req).2 ⟨hmethod, hmatch⟩)
    exact hother (blockRedisStatsRoute_eq_some.1 hblock).1
  · intro hspelling hdispatch
    have hmatch := ((router.dispatchesStats_iff req).1 hdispatch).2
    have hpath : req.path = redisStatsRoute := by
      by_contra hne
      exact hspelling ⟨hmatch, hne⟩
    have hblock := blockRedisStatsRoute_eq_some.2 ⟨hpath, rfl⟩
    exact ⟨hblock, dashboardChain_of_blocked env queueNames hguard hblock⟩

def expressStatsRouter : StatsRouter where
  dispatchesStats req :=
    (req.method == js "GET" || req.method == js "HEAD") && routeMatches redisStatsRoute req.path
  dispatchesStats_iff := by simp

def statsRequest (method path : JsString) : Request := ⟨method, path, [], js "203.0.113.7"⟩

theorem statsBlocked_iff_exact :
    StatsBlocked .default [js "q"] Nat expressStatsRouter (fixedWindow 60000 120)
        (statsRequest (js "HEAD") (js "/api/redis/stats")) ↔
      ¬OtherSpelling (js "/api/redis/stats") :=
  statsBlocked_iff .default [js "q"] Nat expressStatsRouter (fixedWindow 60000 120)
    (statsRequest (js "HEAD") (js "/api/redis/stats")) (by decide)

def ReachesStats (path : JsString) : Prop :=
  dashboardReadOnlyGuard (statsRequest (js "GET") path) = none ∧
  ¬StatsBlocked .default [js "q"] Nat expressStatsRouter (fixedWindow 60000 120)
    (statsRequest (js "GET") path) ∧
  (dashboardChain .default [js "q"] (fixedWindow 60000 120) (statsRequest (js "GET") path) 0
    (fixedWindow 60000 120).initial (CacheState.initial Nat)).1.stats expressStatsRouter =
      some (statsRequest (js "GET") path)

theorem reachesStats_of_otherSpelling {path : JsString} (h : OtherSpelling path) :
    ReachesStats path := by
  have hguard : dashboardReadOnlyGuard (statsRequest (js "GET") path) = none :=
    dashboardReadOnlyGuard_eq_none.2 (Or.inl rfl)
  have hdispatch : expressStatsRouter.dispatchesStats (statsRequest (js "GET") path) = true :=
    (expressStatsRouter.dispatchesStats_iff _).2 ⟨Or.inl rfl, h.1⟩
  refine ⟨hguard, fun hblocked => ?_, (stats_eq_some_iff hguard).2 ⟨h, rfl, rfl⟩⟩
  exact h.2 (blockRedisStatsRoute_eq_some.1 (hblocked hdispatch).1).1

theorem other_spellings_reach_stats :
    ReachesStats (js "/api/redis/stats/") ∧ ReachesStats (js "/api/Redis/stats") := by
  refine ⟨reachesStats_of_otherSpelling ?_, reachesStats_of_otherSpelling ?_⟩
  · decide
  · decide

end TaskQueue.Dashboard

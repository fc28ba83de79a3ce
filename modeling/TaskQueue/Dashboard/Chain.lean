import TaskQueue.Dashboard.Overtaking

/-!
# The chain mounted at `/admin/queues`

Guard, stats block, rate limiter, snapshot cache, and then Bull Board's router.
The cache charges the refresh budget for requests it recognises by an exact
method and path; the router recognises more spellings of the same route, and
those reach its overview handler uncharged.
-/

namespace TaskQueue.Dashboard

open Ecma

/-! ## The middlewares before the cache -/

structure Refusal where
  statusCode : Nat
  headers : List (JsString × JsString)
  error : JsString
  deriving DecidableEq

def dashboardReadOnlyGuard (req : Request) : Option Refusal :=
  if req.method == js "GET" || req.method == js "HEAD" then none
  else some {
    statusCode := 405
    headers := [(js "Allow", js "GET, HEAD")]
    error := js ("The queue dashboard is read-only. Queue state cannot be modified through " ++
      "this interface.") }

def blockRedisStatsRoute (req : Request) : Option Refusal :=
  if req.path == js "/api/redis/stats" then some ⟨404, [], js "Not found."⟩ else none

structure Limiter where
  State : Type
  initial : State
  allow : State → Request → Nat → Bool × State

def rateLimitMessage : Refusal := ⟨429, [], js "Too many requests. Please slow down."⟩

/-! ## The router behind it -/

def asciiLower (u : UInt16) : UInt16 := if 0x41 ≤ u && u ≤ 0x5A then u + 0x20 else u

/-- A lower-case route path matches case-insensitively, with one optional
trailing slash. -/
def routeMatches (route path : JsString) : Bool :=
  path.map asciiLower == route || path.map asciiLower == route ++ js "/"

/-- Bull Board's router, as far as its `GET /api/queues` handler is concerned:
an Express router with default options. -/
structure Router where
  dispatchesOverview : Request → Bool
  dispatchesOverview_iff : ∀ req, dispatchesOverview req = true ↔
    (req.method = js "GET" ∨ req.method = js "HEAD") ∧
      routeMatches (js "/api/queues") req.path = true

/-! ## The chain -/

inductive Outcome (queueNames : List JsString) (β : Type)
  | refused (refusal : Refusal)
  | handled (handling : Handling queueNames β)

variable {env : Environment} {queueNames : List JsString} {β : Type}

def Outcome.forwarded : Outcome queueNames β → Option Request
  | .refused _ => none
  | .handled handling => handling.forwarded

def Outcome.overview (router : Router) (outcome : Outcome queueNames β) : Option Request :=
  outcome.forwarded.filter router.dispatchesOverview

def dashboardChain (env : Environment) (queueNames : List JsString) (dashboardLimiter : Limiter)
    (req : Request) (now : Nat) (limits : dashboardLimiter.State) (cache : CacheState β) :
    Outcome queueNames β × dashboardLimiter.State × CacheState β :=
  match dashboardReadOnlyGuard req with
  | some refusal => (.refused refusal, limits, cache)
  | none =>
      match blockRedisStatsRoute req with
      | some refusal => (.refused refusal, limits, cache)
      | none =>
          let admitted := dashboardLimiter.allow limits req now
          if admitted.1 then
            let handled := dashboardSnapshotCache env queueNames req now cache
            (.handled handled.1, admitted.2, handled.2)
          else (.refused rateLimitMessage, admitted.2, cache)

/-! ## One request -/

section Request

variable (router : Router) (dashboardLimiter : Limiter)

/-- If the request reaches the overview handler, it was charged one unit of the
refresh budget and carries the canonical query only. -/
def Covered (env : Environment) (queueNames : List JsString) (req : Request) (now : Nat)
    (limits : dashboardLimiter.State) (cache : CacheState β) : Prop :=
  let out := dashboardChain env queueNames dashboardLimiter req now limits cache
  ∀ seen ∈ out.1.overview router,
    (claimRefreshBudget env cache.refreshBudget now).1 = true ∧
    out.2.2.refreshBudget = (claimRefreshBudget env cache.refreshBudget now).2 ∧
    seen.query = (canonicalizeQuery req.query queueNames).toQuery

/-- The router takes the request for its overview route, and the cache does not. -/
def Bypasses (req : Request) (now : Nat) (limits : dashboardLimiter.State) : Prop :=
  (dashboardLimiter.allow limits req now).1 = true ∧ router.dispatchesOverview req = true ∧
    ¬(req.method = js "GET" ∧ req.path = js "/api/queues")

instance (req : Request) (now : Nat) (limits : dashboardLimiter.State) :
    Decidable (Bypasses router dashboardLimiter req now limits) :=
  inferInstanceAs (Decidable (_ ∧ _ ∧ ¬_))

variable {router dashboardLimiter} {req : Request} {now : Nat} {limits : dashboardLimiter.State}
  {cache : CacheState β}

/-- The two refusals before the limiter never concern the overview route. -/
theorem not_dispatchesOverview_of_refused {refusal : Refusal}
    (h : dashboardReadOnlyGuard req = some refusal ∨ blockRedisStatsRoute req = some refusal) :
    router.dispatchesOverview req = false := by
  rw [← Bool.not_eq_true, router.dispatchesOverview_iff]
  rintro ⟨hmethod, hpath⟩
  rcases h with h | h
  · simp only [dashboardReadOnlyGuard, Bool.or_eq_true, beq_iff_eq, if_pos hmethod] at h
    exact absurd h (by simp)
  · simp only [blockRedisStatsRoute, beq_iff_eq] at h
    split at h
    · rename_i hstats
      rw [hstats] at hpath
      exact absurd hpath (by decide)
    · exact absurd h (by simp)

theorem dashboardSnapshotCache_of_ne (h : ¬(req.method = js "GET" ∧ req.path = js "/api/queues")) :
    dashboardSnapshotCache env queueNames req now cache = (.passed req, cache) := by
  unfold dashboardSnapshotCache isCacheableDataRoute
  rw [if_pos]
  simp only [Bool.or_eq_true, bne_iff_ne, Bool.not_eq_true', beq_eq_false_iff_ne]
  tauto

theorem dashboardSnapshotCache_of_eq (h : req.method = js "GET" ∧ req.path = js "/api/queues") :
    dashboardSnapshotCache env queueNames req now cache =
      (.polled req (serveSnapshot env queueNames req.query now cache).1,
        (serveSnapshot env queueNames req.query now cache).2) := by
  unfold dashboardSnapshotCache isCacheableDataRoute
  rw [if_neg]
  simp [h]

theorem dashboardChain_cases (env : Environment) (queueNames : List JsString)
    (dashboardLimiter : Limiter) (req : Request) (now : Nat) (limits : dashboardLimiter.State)
    (cache : CacheState β) :
    let out := dashboardChain env queueNames dashboardLimiter req now limits cache
    (((∃ refusal, dashboardReadOnlyGuard req = some refusal ∨
          blockRedisStatsRoute req = some refusal) ∨
        (dashboardLimiter.allow limits req now).1 = false) ∧
      (∃ refusal, out.1 = .refused refusal) ∧ out.2.2 = cache) ∨
    ((dashboardLimiter.allow limits req now).1 = true ∧
      ¬(req.method = js "GET" ∧ req.path = js "/api/queues") ∧
      out.1 = .handled (.passed req) ∧ out.2.2 = cache) ∨
    ((dashboardLimiter.allow limits req now).1 = true ∧
      (req.method = js "GET" ∧ req.path = js "/api/queues") ∧
      out.1 = .handled (.polled req (serveSnapshot env queueNames req.query now cache).1) ∧
      out.2.2 = (serveSnapshot env queueNames req.query now cache).2) := by
  intro out
  have hout : out = dashboardChain env queueNames dashboardLimiter req now limits cache := rfl
  unfold dashboardChain at hout
  cases hguard : dashboardReadOnlyGuard req with
  | some refusal =>
      simp only [hguard] at hout
      exact Or.inl ⟨Or.inl ⟨refusal, Or.inl rfl⟩, ⟨refusal, by rw [hout]⟩, by rw [hout]⟩
  | none =>
      cases hstats : blockRedisStatsRoute req with
      | some refusal =>
          simp only [hguard, hstats] at hout
          exact Or.inl ⟨Or.inl ⟨refusal, Or.inr rfl⟩, ⟨refusal, by rw [hout]⟩, by rw [hout]⟩
      | none =>
          cases hpassed : (dashboardLimiter.allow limits req now).1 with
          | false =>
              simp only [hguard, hstats, hpassed, Bool.false_eq_true, if_false] at hout
              exact Or.inl ⟨Or.inr rfl, ⟨_, by rw [hout]⟩, by rw [hout]⟩
          | true =>
              simp only [hguard, hstats, hpassed, if_true] at hout
              by_cases hroute : req.method = js "GET" ∧ req.path = js "/api/queues"
              · rw [dashboardSnapshotCache_of_eq hroute] at hout
                exact Or.inr (Or.inr ⟨rfl, hroute, by rw [hout], by rw [hout]⟩)
              · rw [dashboardSnapshotCache_of_ne hroute] at hout
                exact Or.inr (Or.inl ⟨rfl, hroute, by rw [hout], by rw [hout]⟩)

/-- A unit that was taken shows: the budget is not what it was. -/
theorem claimRefreshBudget_ne {budget : RefreshBudget}
    (h : (claimRefreshBudget env budget now).1 = true) :
    (claimRefreshBudget env budget now).2 ≠ budget := by
  rcases claimRefreshBudget_cases env budget now with ⟨-, hclaim⟩ | ⟨-, hclaim⟩
  · simp [hclaim] at h
  · intro hsame
    rw [hclaim] at hsame
    have hused := congrArg RefreshBudget.used hsame
    have hstart := congrArg RefreshBudget.windowStart hsame
    simp only [RefreshBudget.current] at hused hstart
    split at hstart
    · rename_i hlapsed
      have hpos := env.dashboardRefreshWindowMs_pos
      simp only [RefreshBudget.windowLapsed, decide_eq_true_eq] at hlapsed
      simp only at hstart
      omega
    · rename_i hlapsed
      simp [hlapsed] at hused

theorem covered_iff :
    Covered router dashboardLimiter env queueNames req now limits cache ↔
      ¬Bypasses router dashboardLimiter req now limits := by
  unfold Covered Bypasses
  rcases dashboardChain_cases env queueNames dashboardLimiter req now limits cache with
    ⟨hrefused, ⟨refusal, hout⟩, -⟩ | ⟨hpassed, hroute, hout, hcache⟩ |
      ⟨hpassed, hroute, hout, hcache⟩
  · have hnone : ¬((dashboardLimiter.allow limits req now).1 = true ∧
        router.dispatchesOverview req = true) := by
      rintro ⟨hpassed, hoverview⟩
      rcases hrefused with ⟨_, h⟩ | h
      · simp [not_dispatchesOverview_of_refused h] at hoverview
      · simp [h] at hpassed
    simp only [hout, Outcome.overview, Outcome.forwarded]
    exact ⟨fun _ h => hnone ⟨h.1, h.2.1⟩, fun _ seen hseen => absurd hseen (by simp)⟩
  · simp only [hout, hcache, Outcome.overview, Outcome.forwarded, Handling.forwarded]
    cases hoverview : router.dispatchesOverview req with
    | false => simp [Option.filter, hoverview]
    | true =>
        refine ⟨fun hcovered => ?_, fun h => absurd ⟨hpassed, rfl, hroute⟩ h⟩
        obtain ⟨hclaim, hbudget, -⟩ := hcovered req (by simp [Option.filter, hoverview])
        exact absurd hbudget.symm (claimRefreshBudget_ne hclaim)
  · simp only [hout, hcache, Outcome.overview, Outcome.forwarded]
    refine ⟨fun _ h => h.2.2 hroute, fun _ seen hseen => ?_⟩
    rcases serveSnapshot_cases env queueNames req.query now cache with
      ⟨_, -, -, h⟩ | ⟨-, ⟨hclaim, r, hquery, -, -, h⟩ | ⟨-, _, -, h⟩ | ⟨-, -, h⟩⟩
    · simp [h, Handling.forwarded] at hseen
    · simp only [h, Handling.forwarded, Option.mem_def, Option.filter_eq_some_iff,
        Option.some.injEq] at hseen
      obtain ⟨rfl, -⟩ := hseen
      simp only [h, hquery]
      exact ⟨hclaim, rfl, trivial⟩
    · simp [h, Handling.forwarded] at hseen
    · simp [h, Handling.forwarded] at hseen

theorem charged_iff_overview (env : Environment) (queueNames : List JsString)
    (cache : CacheState β) (h : ¬Bypasses router dashboardLimiter req now limits) :
    let out := dashboardChain env queueNames dashboardLimiter req now limits cache
    ((∃ seen, out.1.overview router = some seen) ∧
        (claimRefreshBudget env cache.refreshBudget now).1 = true ∧
        out.2.2.refreshBudget = (claimRefreshBudget env cache.refreshBudget now).2) ∨
      (out.1.overview router = none ∧ out.2.2.refreshBudget = cache.refreshBudget) := by
  intro out
  cases hoverview : out.1.overview router with
  | some seen =>
      have hcovered : Covered router dashboardLimiter env queueNames req now limits cache :=
        covered_iff.2 h
      obtain ⟨hclaim, hbudget, -⟩ := hcovered seen hoverview
      exact Or.inl ⟨⟨seen, rfl⟩, hclaim, hbudget⟩
  | none =>
      refine Or.inr ⟨rfl, ?_⟩
      rcases dashboardChain_cases env queueNames dashboardLimiter req now limits cache with
        ⟨-, -, hcache⟩ | ⟨-, -, -, hcache⟩ | ⟨-, hroute, hout, hcache⟩
      · exact congrArg CacheState.refreshBudget hcache
      · exact congrArg CacheState.refreshBudget hcache
      · rcases serveSnapshot_cases env queueNames req.query now cache with
          ⟨_, -, -, hs⟩ | ⟨-, ⟨-, r, -, -, -, hs⟩ | ⟨hspent, _, -, hs⟩ | ⟨hspent, -, hs⟩⟩
        · simp only [out, hcache, hs, count_refreshBudget]
        · have hseen : router.dispatchesOverview { req with query := r.query.toQuery } = true := by
            rw [router.dispatchesOverview_iff]
            exact ⟨Or.inl hroute.1, by rw [hroute.2]; decide⟩
          simp [out, hout, Outcome.overview, Outcome.forwarded, hs, Handling.forwarded,
            Option.filter, hseen] at hoverview
        · simp only [out, hcache, hs, count_refreshBudget]
          exact claimRefreshBudget_eq_of_false hspent
        · simp only [out, hcache, hs, count_refreshBudget]
          exact claimRefreshBudget_eq_of_false hspent

end Request

/-! ## The mounted chain as a system -/

/-- The board behind the chain, the limiter's state, and for every call of the
overview handler the budget window it fell into. -/
structure Mount (dashboardLimiter : Limiter) (queueNames : List JsString) (β : Type) where
  board : Board queueNames β
  limits : dashboardLimiter.State
  overviews : List Nat

inductive MountAction (β : Type)
  | request (req : Request) (now : Nat)
  | complete (id : Nat) (statusCode : Nat) (body : β) (now : Nat)
  | invalidate

variable {dashboardLimiter : Limiter}

def Mount.initial (dashboardLimiter : Limiter) (queueNames : List JsString) (β : Type) :
    Mount dashboardLimiter queueNames β where
  board := .initial queueNames β
  limits := dashboardLimiter.initial
  overviews := []

def Mount.request (env : Environment) (router : Router) (req : Request) (now : Nat)
    (m : Mount dashboardLimiter queueNames β) : Mount dashboardLimiter queueNames β :=
  let out := dashboardChain env queueNames dashboardLimiter req now m.limits m.board.cache
  { board :=
      match out.1 with
      | .handled (.polled _ answer) => m.board.record req.query (answer, out.2.2)
      | _ => m.board
    limits := out.2.1
    overviews :=
      match out.1.overview router with
      | some _ => out.2.2.refreshBudget.windowStart :: m.overviews
      | none => m.overviews }

def Mount.step (env : Environment) (router : Router) (m : Mount dashboardLimiter queueNames β) :
    MountAction β → Option (Mount dashboardLimiter queueNames β)
  | .request req now => some (m.request env router req now)
  | .complete id statusCode body now =>
      (m.board.complete env id statusCode body now).map fun b => { m with board := b }
  | .invalidate => some { m with board := m.board.invalidate }

def mounted (env : Environment) (router : Router) (dashboardLimiter : Limiter)
    (queueNames : List JsString) (β : Type) :
    Automaton (Mount dashboardLimiter queueNames β) (MountAction β) where
  start := .initial dashboardLimiter queueNames β
  step := Mount.step env router

def NoBypass (router : Router) (m : Mount dashboardLimiter queueNames β) : MountAction β → Prop
  | .request req now => ¬Bypasses router dashboardLimiter req now m.limits
  | _ => True

instance (router : Router) (m : Mount dashboardLimiter queueNames β) :
    ∀ action, Decidable (NoBypass router m action)
  | .request req now =>
      inferInstanceAs (Decidable ¬Bypasses router dashboardLimiter req now m.limits)
  | .complete .. => isTrue trivial
  | .invalidate => isTrue trivial

structure Mount.WithinBudget (env : Environment) (m : Mount dashboardLimiter queueNames β) :
    Prop where
  current : m.overviews.count m.board.cache.refreshBudget.windowStart ≤
    m.board.cache.refreshBudget.used
  later : ∀ w, m.board.cache.refreshBudget.windowStart < w → m.overviews.count w = 0
  ceiling : ∀ w, m.overviews.count w ≤ env.dashboardMaxRefreshesPerWindow

theorem Mount.initial_withinBudget :
    (Mount.initial dashboardLimiter queueNames β).WithinBudget env where
  current := Nat.zero_le _
  later := fun _ _ => rfl
  ceiling := fun _ => Nat.zero_le _

theorem Mount.request_cache (env : Environment) (router : Router) (req : Request) (now : Nat)
    (m : Mount dashboardLimiter queueNames β) :
    (m.request env router req now).board.cache =
      (dashboardChain env queueNames dashboardLimiter req now m.limits m.board.cache).2.2 := by
  unfold Mount.request
  rcases dashboardChain_cases env queueNames dashboardLimiter req now m.limits m.board.cache with
    ⟨-, ⟨refusal, hout⟩, hcache⟩ | ⟨-, -, hout, hcache⟩ | ⟨-, -, hout, -⟩
  · simp only [hout, hcache]
  · simp only [hout, hcache]
  · simp only [hout, record_cache]

theorem Mount.WithinBudget.request {router : Router} {m : Mount dashboardLimiter queueNames β}
    (hm : m.WithinBudget env) {req : Request} {now : Nat}
    (hbypass : ¬Bypasses router dashboardLimiter req now m.limits) :
    (m.request env router req now).WithinBudget env := by
  have hcache := m.request_cache env router req now
  have hoverviews : (m.request env router req now).overviews =
      match (dashboardChain env queueNames dashboardLimiter req now m.limits
        m.board.cache).1.overview router with
      | some _ =>
          (m.request env router req now).board.cache.refreshBudget.windowStart :: m.overviews
      | none => m.overviews := by
    rw [hcache]
    rfl
  rcases charged_iff_overview env queueNames m.board.cache hbypass with
    ⟨⟨seen, hseen⟩, hclaim, hbudget⟩ | ⟨hnone, hbudget⟩
  · rw [hseen] at hoverviews
    rw [← hcache] at hbudget
    simp only at hoverviews
    -- A claim opens a later window, in which nothing ran yet, or charges the current one.
    rcases claimRefreshBudget_cases env m.board.cache.refreshBudget now with ⟨-, h⟩ | ⟨hleft, h⟩
    · simp [h] at hclaim
    · have hcurrent : m.overviews.count
            (m.board.cache.refreshBudget.current env now).windowStart ≤
              (m.board.cache.refreshBudget.current env now).used ∧
          m.board.cache.refreshBudget.windowStart ≤
            (m.board.cache.refreshBudget.current env now).windowStart := by
        simp only [RefreshBudget.current]
        split
        · rename_i hlapsed
          have hpos := env.dashboardRefreshWindowMs_pos
          simp only [RefreshBudget.windowLapsed, decide_eq_true_eq] at hlapsed
          have hzero := hm.later now (by omega)
          exact ⟨by simp only; omega, by simp only; omega⟩
        · exact ⟨hm.current, le_refl _⟩
      rw [h] at hbudget
      refine ⟨?_, fun w hw => ?_, fun w => ?_⟩
      · simp only [hoverviews, hbudget, List.count_cons_self]
        omega
      · simp only [hbudget] at hw
        rw [hoverviews, hbudget, List.count_cons_of_ne (by simp only; omega)]
        exact hm.later w (by omega)
      · rw [hoverviews, hbudget, List.count_cons]
        split
        · rename_i hw
          simp only [beq_iff_eq] at hw
          subst hw
          omega
        · exact hm.ceiling w
  · rw [hnone] at hoverviews
    rw [← hcache] at hbudget
    exact ⟨by rw [hoverviews, hbudget]; exact hm.current,
      fun w hw => by rw [hbudget] at hw; rw [hoverviews]; exact hm.later w hw,
      fun w => by rw [hoverviews]; exact hm.ceiling w⟩

theorem Mount.WithinBudget.step {router : Router} {m t : Mount dashboardLimiter queueNames β}
    (hm : m.WithinBudget env) {a : MountAction β} (hbypass : NoBypass router m a)
    (h : m.step env router a = some t) : t.WithinBudget env := by
  cases a with
  | request req now =>
      obtain rfl := Option.some.inj h
      exact hm.request hbypass
  | complete id statusCode body now =>
      obtain ⟨b, hb, rfl⟩ := Option.map_eq_some_iff.1 h
      obtain ⟨r, -, rfl⟩ := Board.complete_eq_some.1 hb
      exact ⟨by simpa using hm.current, by simpa using hm.later, hm.ceiling⟩
  | invalidate =>
      obtain rfl := Option.some.inj h
      exact ⟨hm.current, hm.later, hm.ceiling⟩

/-- A request is covered exactly when it does not bypass the cache: admitted by the
limiter and routed to the overview, but not spelled `GET /api/queues`.  In a run
without such requests no budget window sees more overview calls than its ceiling. -/
theorem costGuard_covers_iff (env : Environment) (router : Router) (dashboardLimiter : Limiter)
    (queueNames : List JsString) (β : Type) :
    (∀ req now (limits : dashboardLimiter.State) (cache : CacheState β),
      Covered router dashboardLimiter env queueNames req now limits cache ↔
        ¬Bypasses router dashboardLimiter req now limits) ∧
    (∀ as m, (mounted env router dashboardLimiter queueNames β).run
        (.initial dashboardLimiter queueNames β) as = some m →
      (mounted env router dashboardLimiter queueNames β).Meets (NoBypass router)
        (.initial dashboardLimiter queueNames β) as →
      ∀ w, m.overviews.count w ≤ env.dashboardMaxRefreshesPerWindow) := by
  refine ⟨fun req now limits cache => covered_iff, fun as m hrun hmeets => ?_⟩
  have hm : m.WithinBudget env := hmeets.preserves (fun _ _ _ _ hs hC ht => hs.step hC ht) .start
    Mount.initial_withinBudget hrun
  exact hm.ceiling

/-! ## The spellings the router also accepts -/

def expressRouter : Router where
  dispatchesOverview req :=
    (req.method == js "GET" || req.method == js "HEAD") && routeMatches (js "/api/queues") req.path
  dispatchesOverview_iff := by simp

def fixedWindow (windowMs limit : Nat) : Limiter where
  State := Table JsString (Nat × Nat)
  initial := ∅
  allow hits req now :=
    let current := ((hits.get req.ip).filter fun h => now < h.2).getD (0, now + windowMs)
    (decide (current.1 + 1 ≤ limit), hits.put req.ip (current.1 + 1, current.2))

def overviewRequest (method path : JsString) : Request :=
  ⟨method, path, [(js "jobsPerPage", .string (js "100000"))], js "203.0.113.7"⟩

theorem costGuard_covers_iff_poll :
    ∃ m, (mounted .default expressRouter (fixedWindow 60000 120) [js "q"] Nat).run
        (.initial (fixedWindow 60000 120) [js "q"] Nat)
        [.request (overviewRequest (js "GET") (js "/api/queues")) 5,
          .request (overviewRequest (js "GET") (js "/api/queues/q/1")) 6] = some m ∧
      m.overviews = [0] ∧ m.overviews.count 0 ≤ 60 := by
  have hrun : ((mounted .default expressRouter (fixedWindow 60000 120) [js "q"] Nat).run
      (.initial (fixedWindow 60000 120) [js "q"] Nat)
      [.request (overviewRequest (js "GET") (js "/api/queues")) 5,
        .request (overviewRequest (js "GET") (js "/api/queues/q/1")) 6]).map Mount.overviews =
      some [0] := rfl
  obtain ⟨m, hm, hoverviews⟩ := Option.map_eq_some_iff.1 hrun
  exact ⟨m, hm, hoverviews, (costGuard_covers_iff .default expressRouter (fixedWindow 60000 120)
    [js "q"] Nat).2 _ m hm (by decide) 0⟩

/-- `HEAD /api/queues`, `GET /API/queues` and `GET /api/queues/` reach the overview
handler uncharged, with the caller's own `jobsPerPage`; three of them exceed a
ceiling of two. -/
theorem other_spellings_bypass :
    (∀ req ∈ [overviewRequest (js "HEAD") (js "/api/queues"),
        overviewRequest (js "GET") (js "/API/queues"),
        overviewRequest (js "GET") (js "/api/queues/")],
      ¬Covered expressRouter (fixedWindow 60000 120) .default [js "q"] req 0
        (fixedWindow 60000 120).initial (CacheState.initial Nat)) ∧
    ∃ m, (mounted frugal expressRouter (fixedWindow 60000 120) [js "q"] Nat).run
        (.initial (fixedWindow 60000 120) [js "q"] Nat)
        [.request (overviewRequest (js "HEAD") (js "/api/queues")) 0,
          .request (overviewRequest (js "GET") (js "/API/queues")) 1,
          .request (overviewRequest (js "GET") (js "/api/queues/")) 2] = some m ∧
      ¬m.overviews.count 0 ≤ frugal.dashboardMaxRefreshesPerWindow := by
  refine ⟨fun req hreq => ?_, ?_⟩
  · have hbypass : ∀ req ∈ [overviewRequest (js "HEAD") (js "/api/queues"),
        overviewRequest (js "GET") (js "/API/queues"),
        overviewRequest (js "GET") (js "/api/queues/")],
        Bypasses expressRouter (fixedWindow 60000 120) req 0 (fixedWindow 60000 120).initial := by
      decide
    rw [covered_iff]
    exact fun h => h (hbypass req hreq)
  · have hrun : ((mounted frugal expressRouter (fixedWindow 60000 120) [js "q"] Nat).run
        (.initial (fixedWindow 60000 120) [js "q"] Nat)
        [.request (overviewRequest (js "HEAD") (js "/api/queues")) 0,
          .request (overviewRequest (js "GET") (js "/API/queues")) 1,
          .request (overviewRequest (js "GET") (js "/api/queues/")) 2]).map Mount.overviews =
        some [0, 0, 0] := rfl
    obtain ⟨m, hm, hoverviews⟩ := Option.map_eq_some_iff.1 hrun
    exact ⟨m, hm, by rw [hoverviews]; decide⟩

end TaskQueue.Dashboard

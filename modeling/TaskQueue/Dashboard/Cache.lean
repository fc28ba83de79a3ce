import TaskQueue.Config.Environment
import TaskQueue.Dashboard.Query
import TaskQueue.Lib.Table

/-!
# The dashboard snapshot cache

The middleware in front of Bull Board's polled data route: its module state,
the refresh budget, the decision taken for one poll, and the patched `res.json`
that stores a rebuilt body when the upstream handler answers.  The body is
`unknown` in the source and a type parameter here; nothing inspects it.
-/

namespace TaskQueue.Dashboard

open Ecma

/-! ## Module state -/

structure SnapshotEntry (β : Type) where
  body : β
  expiresAt : Nat
  generation : Nat

structure RefreshBudget where
  windowStart : Nat
  used : Nat
  deriving DecidableEq

/-- Where an answer came from, the label of `dashboardSnapshotTotal`. -/
inductive Source
  | cache
  | redis
  | stale
  | shed
  deriving DecidableEq

structure SnapshotTotal where
  cache : Nat
  redis : Nat
  stale : Nat
  shed : Nat
  deriving DecidableEq

def SnapshotTotal.inc (c : SnapshotTotal) : Source → SnapshotTotal
  | .cache => { c with cache := c.cache + 1 }
  | .redis => { c with redis := c.redis + 1 }
  | .stale => { c with stale := c.stale + 1 }
  | .shed => { c with shed := c.shed + 1 }

/-- The variables of the cache module, with the counter it increments. -/
structure CacheState (β : Type) where
  snapshotCache : Table JsString (SnapshotEntry β)
  currentGeneration : Nat
  refreshBudget : RefreshBudget
  dashboardSnapshotTotal : SnapshotTotal

/-- The state at module load, which `resetDashboardSnapshotCache` restores. -/
def CacheState.initial (β : Type) : CacheState β where
  snapshotCache := ∅
  currentGeneration := 0
  refreshBudget := ⟨0, 0⟩
  dashboardSnapshotTotal := ⟨0, 0, 0, 0⟩

def CacheState.count {β : Type} (st : CacheState β) (source : Source) : CacheState β :=
  { st with dashboardSnapshotTotal := st.dashboardSnapshotTotal.inc source }

def invalidateDashboardSnapshot {β : Type} (st : CacheState β) : CacheState β :=
  { st with currentGeneration := st.currentGeneration + 1 }

/-! ## The refresh budget -/

section Budget

variable (env : Environment)

/-- A window's length has passed since it was opened.  A clock that stepped back
reads as no time passed, as a negative difference does in the source. -/
def RefreshBudget.windowLapsed (b : RefreshBudget) (now : Nat) : Bool :=
  env.dashboardRefreshWindowMs ≤ now - b.windowStart

/-- The budget as the next claim finds it: a lapsed window is reopened. -/
def RefreshBudget.current (b : RefreshBudget) (now : Nat) : RefreshBudget :=
  if b.windowLapsed env now then { windowStart := now, used := 0 } else b

/-- Consumes one unit of the global refresh budget; `false` when it is spent. -/
def claimRefreshBudget (b : RefreshBudget) (now : Nat) : Bool × RefreshBudget :=
  let b := b.current env now
  if env.dashboardMaxRefreshesPerWindow ≤ b.used then (false, b)
  else (true, { b with used := b.used + 1 })

/-- A claim either finds the current window spent or takes one unit from it. -/
theorem claimRefreshBudget_cases (b : RefreshBudget) (now : Nat) :
    (env.dashboardMaxRefreshesPerWindow ≤ (b.current env now).used ∧
      claimRefreshBudget env b now = (false, b.current env now)) ∨
    ((b.current env now).used < env.dashboardMaxRefreshesPerWindow ∧
      claimRefreshBudget env b now =
        (true, { b.current env now with used := (b.current env now).used + 1 })) := by
  unfold claimRefreshBudget
  by_cases h : env.dashboardMaxRefreshesPerWindow ≤ (b.current env now).used
  · exact Or.inl ⟨h, if_pos h⟩
  · exact Or.inr ⟨by omega, if_neg h⟩

/-- A claim finds the window it is made in: a new one, or the one that has not lapsed. -/
theorem current_cases (b : RefreshBudget) (now : Nat) :
    (env.dashboardRefreshWindowMs ≤ now - b.windowStart ∧ b.current env now = ⟨now, 0⟩) ∨
      (now - b.windowStart < env.dashboardRefreshWindowMs ∧ b.current env now = b) := by
  unfold RefreshBudget.current RefreshBudget.windowLapsed
  by_cases h : env.dashboardRefreshWindowMs ≤ now - b.windowStart
  · exact Or.inl ⟨h, if_pos (decide_eq_true h)⟩
  · exact Or.inr ⟨by omega, if_neg (by simpa using h)⟩

variable {env} in
/-- A spent budget stays as it is: a lapsed window would have units left. -/
theorem claimRefreshBudget_eq_of_false {b : RefreshBudget} {now : Nat}
    (h : (claimRefreshBudget env b now).1 = false) : (claimRefreshBudget env b now).2 = b := by
  rcases claimRefreshBudget_cases env b now with ⟨hspent, hclaim⟩ | ⟨-, hclaim⟩
  · have hpos := env.dashboardMaxRefreshesPerWindow_pos
    rcases current_cases env b now with ⟨-, hcurrent⟩ | ⟨-, hcurrent⟩
    · rw [hcurrent] at hspent
      simp only at hspent
      omega
    · rw [hclaim, hcurrent]
  · rw [hclaim] at h
    cases h

theorem used_current_le (b : RefreshBudget) (now : Nat) : (b.current env now).used ≤ b.used := by
  unfold RefreshBudget.current
  split
  · exact Nat.zero_le _
  · exact le_refl _

end Budget

/-! ## One poll -/

/-- A snapshot rebuild in progress: the query the request was rewritten to, and
the key and generation captured for the moment its body arrives. -/
structure Rebuild (queueNames : List JsString) where
  query : CanonicalQuery
  cacheKey : JsString
  generationAtDispatch : Nat
  wellFormed : query.WellFormed queueNames
  cacheKey_eq : cacheKey = buildSnapshotKey query

inductive Answer (queueNames : List JsString) (β : Type)
  | hit (body : β)
  | stale (body : β)
  | shed
  | miss (rebuild : Rebuild queueNames)

variable {β : Type} {queueNames : List JsString}

def Answer.source : Answer queueNames β → Source
  | .hit _ => .cache
  | .stale _ => .stale
  | .shed => .shed
  | .miss _ => .redis

def SnapshotEntry.fresh (entry : SnapshotEntry β) (now generation : Nat) : Bool :=
  decide (now < entry.expiresAt) && entry.generation == generation

/-- The body of `dashboardSnapshotCache` for a request it does not pass by. -/
def serveSnapshot (env : Environment) (queueNames : List JsString) (query : Query) (now : Nat)
    (st : CacheState β) : Answer queueNames β × CacheState β :=
  let canonical := canonicalizeQuery query queueNames
  let cached := st.snapshotCache.get (buildSnapshotKey canonical)
  match cached.filter fun entry => entry.fresh now st.currentGeneration with
  | some entry => (.hit entry.body, st.count .cache)
  | none =>
      let claim := claimRefreshBudget env st.refreshBudget now
      let st := { st with refreshBudget := claim.2 }
      if claim.1 then
        (.miss {
          query := canonical
          cacheKey := buildSnapshotKey canonical
          generationAtDispatch := st.currentGeneration
          wellFormed := canonicalizeQuery_wellFormed query queueNames
          cacheKey_eq := rfl }, st.count .redis)
      else
        match cached with
        | some entry => (.stale entry.body, st.count .stale)
        | none => (.shed, st.count .shed)

inductive Payload (β : Type)
  | snapshot (body : β)
  | error (message : JsString)

def Answer.headers (env : Environment) : Answer queueNames β → List (JsString × JsString)
  | .hit _ => [(js "X-Dashboard-Snapshot", js "HIT"), (js "Cache-Control", js "no-store")]
  | .stale _ => [(js "X-Dashboard-Snapshot", js "STALE"), (js "Cache-Control", js "no-store")]
  | .shed =>
      [(js "X-Dashboard-Snapshot", js "SHED"), (js "Cache-Control", js "no-store"),
        (js "Retry-After", decimal ((env.dashboardRefreshWindowMs + 999) / 1000))]
  | .miss _ => [(js "X-Dashboard-Snapshot", js "MISS"), (js "Cache-Control", js "no-store")]

def Answer.reply : Answer queueNames β → Option (Nat × Payload β)
  | .hit body => some (200, .snapshot body)
  | .stale body => some (200, .snapshot body)
  | .shed => some (503, .error (js "Dashboard is busy. Please retry shortly."))
  | .miss _ => none

/-! ## The patched `res.json` -/

/-- Store a rebuilt body.  At the entry ceiling the whole map is dropped first,
also when the key it is stored under is already present. -/
def captureJson (env : Environment) (r : Rebuild queueNames) (statusCode : Nat) (body : β)
    (now : Nat) (st : CacheState β) : CacheState β :=
  if statusCode = 200 then
    let kept := if env.dashboardMaxCacheEntries ≤ st.snapshotCache.size then ∅
      else st.snapshotCache
    { st with
      snapshotCache := kept.put r.cacheKey
        { body, expiresAt := now + env.dashboardSnapshotTtlMs,
          generation := r.generationAtDispatch } }
  else st

/-! ## The middleware -/

structure Request where
  method : JsString
  path : JsString
  query : Query
  ip : JsString

def isCacheableDataRoute (path : JsString) : Bool := path == js "/api/queues"

inductive Handling (queueNames : List JsString) (β : Type)
  | passed (req : Request)
  | polled (req : Request) (answer : Answer queueNames β)

def dashboardSnapshotCache (env : Environment) (queueNames : List JsString) (req : Request)
    (now : Nat) (st : CacheState β) : Handling queueNames β × CacheState β :=
  if req.method != js "GET" || !isCacheableDataRoute req.path then (.passed req, st)
  else
    let served := serveSnapshot env queueNames req.query now st
    (.polled req served.1, served.2)

/-- The request the next handler sees, if it sees one: a miss goes on with the
canonical query in place of the caller's. -/
def Handling.forwarded : Handling queueNames β → Option Request
  | .passed req => some req
  | .polled req (.miss r) => some { req with query := r.query.toQuery }
  | .polled _ _ => none

/-! ## What one poll can do -/

theorem serveSnapshot_cases (env : Environment) (queueNames : List JsString) (query : Query)
    (now : Nat) (st : CacheState β) :
    let key := buildSnapshotKey (canonicalizeQuery query queueNames)
    let claim := claimRefreshBudget env st.refreshBudget now
    let charged : CacheState β := { st with refreshBudget := claim.2 }
    let out := serveSnapshot env queueNames query now st
    (∃ entry, st.snapshotCache.get key = some entry ∧
        entry.fresh now st.currentGeneration = true ∧
        out = (.hit entry.body, st.count .cache)) ∨
    ((∀ entry, st.snapshotCache.get key = some entry →
        entry.fresh now st.currentGeneration = false) ∧
      ((claim.1 = true ∧ ∃ r : Rebuild queueNames,
          r.query = canonicalizeQuery query queueNames ∧ r.cacheKey = key ∧
          r.generationAtDispatch = st.currentGeneration ∧
          out = (.miss r, charged.count .redis)) ∨
        (claim.1 = false ∧ ∃ entry, st.snapshotCache.get key = some entry ∧
          out = (.stale entry.body, charged.count .stale)) ∨
        (claim.1 = false ∧ st.snapshotCache.get key = none ∧
          out = (.shed, charged.count .shed)))) := by
  intro key claim charged out
  have hout : out = serveSnapshot env queueNames query now st := rfl
  unfold serveSnapshot at hout
  by_cases hfresh : ∃ entry, st.snapshotCache.get key = some entry ∧
      entry.fresh now st.currentGeneration = true
  · obtain ⟨entry, hget, hentry⟩ := hfresh
    refine Or.inl ⟨entry, hget, hentry, ?_⟩
    rw [hout]
    simp only [key] at hget
    simp [hget, Option.filter, hentry]
  · have hnone : (st.snapshotCache.get key).filter
        (fun entry => entry.fresh now st.currentGeneration) = none := by
      rw [Option.filter_eq_none_iff]
      intro entry hget hentry
      exact hfresh ⟨entry, hget, hentry⟩
    have hstale : ∀ entry, st.snapshotCache.get key = some entry →
        entry.fresh now st.currentGeneration = false := by
      intro entry hget
      by_contra hentry
      exact hfresh ⟨entry, hget, by simpa using hentry⟩
    refine Or.inr ⟨hstale, ?_⟩
    simp only [key] at hnone
    simp only [hnone] at hout
    cases hclaim : claim.1 with
    | true =>
        simp only [claim] at hclaim
        simp only [hclaim, if_true] at hout
        exact Or.inl ⟨rfl, _, rfl, rfl, rfl, hout⟩
    | false =>
        simp only [claim] at hclaim
        simp only [hclaim, Bool.false_eq_true, if_false] at hout
        cases hget : st.snapshotCache.get key with
        | some entry =>
            simp only [key] at hget
            simp only [hget] at hout
            exact Or.inr (Or.inl ⟨rfl, entry, rfl, hout⟩)
        | none =>
            simp only [key] at hget
            simp only [hget] at hout
            exact Or.inr (Or.inr ⟨rfl, rfl, hout⟩)

/-! ## What a poll leaves alone -/

@[simp] theorem count_refreshBudget (st : CacheState β) (s : Source) :
    (st.count s).refreshBudget = st.refreshBudget := rfl

theorem captureJson_ne_200 (env : Environment) (r : Rebuild queueNames) {statusCode : Nat}
    (body : β) (now : Nat) (st : CacheState β) (h : statusCode ≠ 200) :
    captureJson env r statusCode body now st = st := if_neg h

@[simp] theorem captureJson_currentGeneration (env : Environment) (r : Rebuild queueNames)
    (statusCode : Nat) (body : β) (now : Nat) (st : CacheState β) :
    (captureJson env r statusCode body now st).currentGeneration = st.currentGeneration := by
  unfold captureJson
  split <;> rfl

@[simp] theorem captureJson_refreshBudget (env : Environment) (r : Rebuild queueNames)
    (statusCode : Nat) (body : β) (now : Nat) (st : CacheState β) :
    (captureJson env r statusCode body now st).refreshBudget = st.refreshBudget := by
  unfold captureJson
  split <;> rfl

/-- What a successful capture stores, and what survives it: every other entry
unless the ceiling was reached. -/
theorem get_captureJson_200 (env : Environment) (r : Rebuild queueNames) (body : β) (now : Nat)
    (st : CacheState β) (key : JsString) :
    (captureJson env r 200 body now st).snapshotCache.get key =
      if key = r.cacheKey then
        some ⟨body, now + env.dashboardSnapshotTtlMs, r.generationAtDispatch⟩
      else if env.dashboardMaxCacheEntries ≤ st.snapshotCache.size then none
      else st.snapshotCache.get key := by
  simp only [captureJson, if_true, Table.get_put]
  split
  · rfl
  · split <;> simp

theorem get_captureJson_self (env : Environment) (r : Rebuild queueNames) (body : β) (now : Nat)
    (st : CacheState β) :
    (captureJson env r 200 body now st).snapshotCache.get r.cacheKey =
      some ⟨body, now + env.dashboardSnapshotTtlMs, r.generationAtDispatch⟩ := by
  rw [get_captureJson_200, if_pos rfl]

theorem size_captureJson_le (env : Environment) (r : Rebuild queueNames) (statusCode : Nat)
    (body : β) (now : Nat) (st : CacheState β)
    (h : st.snapshotCache.size ≤ env.dashboardMaxCacheEntries) :
    (captureJson env r statusCode body now st).snapshotCache.size ≤
      env.dashboardMaxCacheEntries := by
  have hpos := env.dashboardMaxCacheEntries_pos
  unfold captureJson
  split
  · simp only
    split
    · exact (Table.size_put_le _ _ _).trans (by rw [Table.size_empty]; omega)
    · exact (Table.size_put_le _ _ _).trans (by omega)
  · exact h

end TaskQueue.Dashboard

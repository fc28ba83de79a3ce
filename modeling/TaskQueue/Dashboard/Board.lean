import TaskQueue.Dashboard.Cache
import TaskQueue.Lib.Automaton

/-!
# The board as a system

Polls, upstream completions and invalidations in any order.  A rebuild is in
flight from its miss until its body arrives, so any number of them overlap.
Each action carries the clock it reads, and the journal (newest event first)
records what an observer outside the process would see.
-/

namespace TaskQueue.Dashboard

open Ecma

/-- What the board did, as an observer would log it. -/
inductive BoardEvent (queueNames : List JsString) (β : Type)
  | served (source : Source) (query : Query) (body : β)
  | shed (query : Query)
  /-- The upstream handler was called, in the budget window that was charged. -/
  | dispatched (id : Nat) (rebuild : Rebuild queueNames) (window : Nat)
  /-- The upstream handler answered. -/
  | completed (id : Nat) (rebuild : Rebuild queueNames) (statusCode : Nat) (body : β)
  | cleared
  | invalidated

/-- The cache module, the rebuilds whose bodies are awaited, and the journal. -/
structure Board (queueNames : List JsString) (β : Type) where
  cache : CacheState β
  inFlight : Table Nat (Rebuild queueNames)
  started : Nat
  journal : List (BoardEvent queueNames β)

inductive BoardAction (β : Type)
  | poll (query : Query) (now : Nat)
  | complete (id : Nat) (statusCode : Nat) (body : β) (now : Nat)
  | invalidate

section Operations

variable {queueNames : List JsString} {β : Type}

def Board.initial (queueNames : List JsString) (β : Type) : Board queueNames β where
  cache := .initial β
  inFlight := ∅
  started := 0
  journal := []

def Board.record (query : Query) (served : Answer queueNames β × CacheState β)
    (b : Board queueNames β) : Board queueNames β :=
  match served.1 with
  | .hit body =>
      { b with cache := served.2, journal := .served .cache query body :: b.journal }
  | .stale body =>
      { b with cache := served.2, journal := .served .stale query body :: b.journal }
  | .shed => { b with cache := served.2, journal := .shed query :: b.journal }
  | .miss r =>
      { cache := served.2
        inFlight := b.inFlight.put b.started r
        started := b.started + 1
        journal := .dispatched b.started r served.2.refreshBudget.windowStart :: b.journal }

def Board.poll (env : Environment) (query : Query) (now : Nat) (b : Board queueNames β) :
    Board queueNames β :=
  b.record query (serveSnapshot env queueNames query now b.cache)

def Board.atCeiling (env : Environment) (b : Board queueNames β) : Bool :=
  env.dashboardMaxCacheEntries ≤ b.cache.snapshotCache.size

/-- The journal of a completion: a capture at the ceiling clears the store first. -/
def Board.logCompletion (env : Environment) (id : Nat) (r : Rebuild queueNames) (statusCode : Nat)
    (body : β) (b : Board queueNames β) : List (BoardEvent queueNames β) :=
  if statusCode = 200 ∧ b.atCeiling env = true then
    .completed id r statusCode body :: .cleared :: b.journal
  else .completed id r statusCode body :: b.journal

def Board.complete (env : Environment) (id : Nat) (statusCode : Nat) (body : β) (now : Nat)
    (b : Board queueNames β) : Option (Board queueNames β) :=
  (b.inFlight.get id).map fun r =>
    { cache := captureJson env r statusCode body now b.cache
      inFlight := b.inFlight.remove id
      started := b.started
      journal := b.logCompletion env id r statusCode body }

def Board.invalidate (b : Board queueNames β) : Board queueNames β :=
  { b with cache := invalidateDashboardSnapshot b.cache, journal := .invalidated :: b.journal }

def Board.step (env : Environment) (b : Board queueNames β) :
    BoardAction β → Option (Board queueNames β)
  | .poll query now => some (b.poll env query now)
  | .complete id statusCode body now => b.complete env id statusCode body now
  | .invalidate => some b.invalidate

end Operations

/-- Every interleaving of polls, completions and invalidations. -/
def board (env : Environment) (queueNames : List JsString) (β : Type) :
    Automaton (Board queueNames β) (BoardAction β) where
  start := .initial queueNames β
  step := Board.step env

variable {env : Environment} {queueNames : List JsString} {β : Type}

def viewKey (queueNames : List JsString) (query : Query) : JsString :=
  buildSnapshotKey (canonicalizeQuery query queueNames)

/-! ## What one action can do -/

theorem record_cache (query : Query) (served : Answer queueNames β × CacheState β)
    (b : Board queueNames β) : (b.record query served).cache = served.2 := by
  unfold Board.record
  cases served.1 <;> rfl

inductive Board.Answered (env : Environment) (query : Query) (now : Nat) (b : Board queueNames β) :
    BoardEvent queueNames β → Prop
  | hit {entry : SnapshotEntry β}
      (get : b.cache.snapshotCache.get (viewKey queueNames query) = some entry)
      (fresh : entry.fresh now b.cache.currentGeneration = true) :
      Answered env query now b (.served .cache query entry.body)
  | stale {entry : SnapshotEntry β}
      (get : b.cache.snapshotCache.get (viewKey queueNames query) = some entry)
      (old : entry.fresh now b.cache.currentGeneration = false)
      (spent : (claimRefreshBudget env b.cache.refreshBudget now).1 = false) :
      Answered env query now b (.served .stale query entry.body)
  | shed (get : b.cache.snapshotCache.get (viewKey queueNames query) = none)
      (spent : (claimRefreshBudget env b.cache.refreshBudget now).1 = false) :
      Answered env query now b (.shed query)

/-- A poll that misses: no fresh entry, a unit of budget left. -/
structure Board.Missed (env : Environment) (query : Query) (now : Nat) (b : Board queueNames β)
    (r : Rebuild queueNames) : Prop where
  query_eq : r.query = canonicalizeQuery query queueNames
  cacheKey_eq : r.cacheKey = viewKey queueNames query
  generation_eq : r.generationAtDispatch = b.cache.currentGeneration
  old : ∀ entry, b.cache.snapshotCache.get (viewKey queueNames query) = some entry →
    entry.fresh now b.cache.currentGeneration = false
  claimed : (claimRefreshBudget env b.cache.refreshBudget now).1 = true

/-- The part of the cache module no poll changes. -/
structure CacheState.SameSnapshots (c d : CacheState β) : Prop where
  snapshotCache : d.snapshotCache = c.snapshotCache
  currentGeneration : d.currentGeneration = c.currentGeneration

theorem Board.poll_cases (env : Environment) (query : Query) (now : Nat) (b : Board queueNames β) :
    let claim := claimRefreshBudget env b.cache.refreshBudget now
    (∃ event cache, b.Answered env query now event ∧ b.cache.SameSnapshots cache ∧
        (cache.refreshBudget = b.cache.refreshBudget ∨
          claim.1 = false ∧ cache.refreshBudget = claim.2) ∧
        b.poll env query now = { b with cache, journal := event :: b.journal }) ∨
      (∃ r cache, b.Missed env query now r ∧ b.cache.SameSnapshots cache ∧
        cache.refreshBudget = claim.2 ∧
        b.poll env query now = {
          cache
          inFlight := b.inFlight.put b.started r
          started := b.started + 1
          journal := .dispatched b.started r cache.refreshBudget.windowStart :: b.journal }) := by
  intro claim
  let charged : CacheState β := { b.cache with refreshBudget := claim.2 }
  rcases serveSnapshot_cases env queueNames query now b.cache with
    ⟨entry, hget, hfresh, h⟩ | ⟨hold, ⟨hclaim, r, hq, hk, hg, h⟩ | ⟨hclaim, entry, hget, h⟩ |
      ⟨hclaim, hget, h⟩⟩
  · refine Or.inl ⟨_, b.cache.count .cache, .hit hget hfresh, ⟨rfl, rfl⟩, Or.inl rfl, ?_⟩
    simp only [Board.poll, Board.record, h]
  · refine Or.inr ⟨r, charged.count .redis, ⟨hq, hk, hg, hold, hclaim⟩, ⟨rfl, rfl⟩, rfl, ?_⟩
    simp only [Board.poll, Board.record, h]
    rfl
  · refine Or.inl ⟨_, charged.count .stale, .stale hget (hold entry hget) hclaim, ⟨rfl, rfl⟩,
      Or.inr ⟨hclaim, rfl⟩, ?_⟩
    simp only [Board.poll, Board.record, h]
    rfl
  · refine Or.inl ⟨_, charged.count .shed, .shed hget hclaim, ⟨rfl, rfl⟩,
      Or.inr ⟨hclaim, rfl⟩, ?_⟩
    simp only [Board.poll, Board.record, h]
    rfl

theorem Board.complete_eq_some {b t : Board queueNames β} {id statusCode now : Nat} {body : β} :
    b.complete env id statusCode body now = some t ↔
      ∃ r, b.inFlight.get id = some r ∧
        t = ⟨captureJson env r statusCode body now b.cache, b.inFlight.remove id, b.started,
          b.logCompletion env id r statusCode body⟩ := by
  unfold Board.complete
  rw [Option.map_eq_some_iff]
  simp only [eq_comm]

theorem Board.mem_logCompletion {b : Board queueNames β} {id statusCode : Nat}
    {r : Rebuild queueNames} {body : β} {e : BoardEvent queueNames β} :
    e ∈ b.logCompletion env id r statusCode body ↔
      e = .completed id r statusCode body ∨
        (e = .cleared ∧ statusCode = 200 ∧ b.atCeiling env = true) ∨ e ∈ b.journal := by
  unfold Board.logCompletion
  split
  · rename_i h
    simp [h]
  · rename_i h
    have : ¬(statusCode = 200 ∧ b.atCeiling env = true) := h
    simp only [List.mem_cons]
    tauto

end TaskQueue.Dashboard

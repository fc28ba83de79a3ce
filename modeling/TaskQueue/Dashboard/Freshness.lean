import TaskQueue.Dashboard.Integrity
import TaskQueue.Queue.Dlq
import TaskQueue.Queue.Producer

/-!
# Freshness of what is served

The board together with the calls that write to the queues.  The steps of a run
are numbered, and what happened is remembered by its step: when a rebuild was
dispatched and when it read Redis, when a call's write landed and when the call
returned.  A call that returns bumps the generation after its write, so an entry
of the current generation was dispatched after every call that has returned.
-/

namespace TaskQueue.Dashboard

open Ecma

/-! ## State -/

/-- The body of a rebuild: the writes Redis held when it was read, and the steps
at which the rebuild was dispatched and read. -/
structure Reading where
  writes : List Nat
  dispatchedAt : Nat
  readAt : Nat

/-- Where a call of `dispatchEmailJob`, `dispatchWebhookJob` or `sendToDLQ` waits. -/
inductive CallState
  | counting (submission : Submission)
  | adding (add : TaskAdd)
  | routing (add : DlqAdd)

structure Call where
  state : CallState
  /-- The step at which Redis executed the call's `add`, if it did. -/
  wroteAt : Option Nat

structure Returned where
  call : Nat
  wroteAt : Nat
  returnedAt : Nat

structure Live (queueNames : List JsString) where
  board : Board queueNames Reading
  depthCache : Option DepthCacheEntry
  calls : Table Nat Call
  called : Nat
  /-- What Redis holds: calls with the step at which they wrote. -/
  written : List (Nat × Nat)
  dispatches : Table Nat Nat
  reads : Table Nat Reading
  returned : List Returned
  time : Nat

inductive LiveAction
  | poll (query : Query) (now : Nat)
  /-- A rebuild reads Redis. -/
  | read (id : Nat)
  | complete (id : Nat) (statusCode : Nat) (now : Nat)
  /-- A call from the worker's event handlers. -/
  | invalidate
  | dispatch (jobName : JobName) (payload : Json) (correlationId : Option JsString) (now : Nat)
  | sendToDLQ (job : Job) (error : JsError) (failedAt addedAt : Nat)
  /-- `getJobCounts` settles. -/
  | counts (call : Nat) (reply : Except (Option JsString) JobCounts)
  /-- Redis executes the `add` of a call. -/
  | write (call : Nat)
  /-- The `add` of a call settles; it resolves only after it was executed. -/
  | reply (call : Nat) (outcome : Except (Option JsString) Unit)

def Live.initial (queueNames : List JsString) : Live queueNames where
  board := .initial queueNames Reading
  depthCache := none
  calls := ∅
  called := 0
  written := []
  dispatches := ∅
  reads := ∅
  returned := []
  time := 0

/-! ## Steps -/

variable {queueNames : List JsString}

def Live.poll (env : Environment) (query : Query) (now : Nat) (l : Live queueNames) :
    Live queueNames :=
  let board := l.board.poll env query now
  { l with
    board
    dispatches := if board.started = l.board.started then l.dispatches
      else l.dispatches.put l.board.started l.time }

def Live.read (id : Nat) (l : Live queueNames) : Option (Live queueNames) :=
  match l.board.inFlight.get id, l.dispatches.get id, l.reads.get id with
  | some _, some dispatchedAt, none =>
      some { l with reads := l.reads.put id ⟨l.written.map Prod.fst, dispatchedAt, l.time⟩ }
  | _, _, _ => none

def Live.complete (env : Environment) (id statusCode now : Nat) (l : Live queueNames) :
    Option (Live queueNames) :=
  (l.reads.get id).bind fun reading =>
    (l.board.complete env id statusCode reading now).map fun board => { l with board }

def Live.await (call : Nat) (step : DispatchStep) (l : Live queueNames) : Live queueNames :=
  match step with
  | .counting submission => { l with calls := l.calls.put call ⟨.counting submission, none⟩ }
  | .adding add => { l with calls := l.calls.put call ⟨.adding add, none⟩ }
  | .rejected _ => { l with calls := l.calls.remove call }
  | .resolved _ => { l with calls := l.calls.remove call }

def Live.dispatch (env : Environment) (ext : External) (jobName : JobName) (payload : Json)
    (correlationId : Option JsString) (now : Nat) (l : Live queueNames) : Live queueNames :=
  { l with called := l.called + 1 }.await l.called
    (dispatchJob env ext.isEmail l.depthCache jobName payload correlationId now)

def Live.sendToDLQ (job : Job) (error : JsError) (failedAt addedAt : Nat) (l : Live queueNames) :
    Live queueNames :=
  { l with
    calls := l.calls.put l.called ⟨.routing (TaskQueue.sendToDLQ job error failedAt addedAt), none⟩
    called := l.called + 1 }

def Live.counts (env : Environment) (call : Nat) (reply : Except (Option JsString) JobCounts)
    (l : Live queueNames) : Option (Live queueNames) :=
  match l.calls.get call with
  | some ⟨.counting submission, _⟩ =>
      let resumed := resumeCounting env l.depthCache submission reply
      some ({ l with depthCache := resumed.2 }.await call resumed.1)
  | _ => none

def CallState.isAdd : CallState → Bool
  | .counting _ => false
  | .adding _ => true
  | .routing _ => true

def Live.write (call : Nat) (l : Live queueNames) : Option (Live queueNames) :=
  match l.calls.get call with
  | some ⟨state, none⟩ =>
      if state.isAdd then
        some { l with
          calls := l.calls.put call ⟨state, some l.time⟩
          written := (call, l.time) :: l.written }
      else none
  | _ => none

def Effect.isInvalidation : Effect → Bool
  | .invalidatedSnapshot => true
  | _ => false

/-- Whether a call returned, and whether it invalidated the dashboard, once its
`add` settled. -/
def CallState.settle (state : CallState) (outcome : Except (Option JsString) Unit) :
    Option (Bool × Bool) :=
  match state with
  | .counting _ => none
  | .adding add =>
      match resumeAdding add outcome with
      | (.resolved _, invalidates) => some (true, invalidates)
      | (_, invalidates) => some (false, invalidates)
  | .routing _ =>
      let reply := outcome.mapError fun cause => JsError.plain (cause.getD [])
      match (resumeSendToDLQ reply).run ⟨∅, ⟨∅, ∅⟩, []⟩ with
      | (.ok (), m) => some (true, m.effects.any Effect.isInvalidation)
      | (.error _, m) => some (false, m.effects.any Effect.isInvalidation)

def Live.reply (call : Nat) (outcome : Except (Option JsString) Unit) (l : Live queueNames) :
    Option (Live queueNames) :=
  (l.calls.get call).bind fun c =>
    match outcome, c.wroteAt with
    | .ok (), none => none
    | _, wroteAt =>
        (c.state.settle outcome).map fun (returns, invalidates) =>
          { l with
            board := if invalidates then l.board.invalidate else l.board
            calls := l.calls.remove call
            returned := if returns then
                (wroteAt.map fun t => ⟨call, t, l.time⟩).toList ++ l.returned
              else l.returned }

def Live.tick (l : Live queueNames) : Live queueNames := { l with time := l.time + 1 }

def Live.step (env : Environment) (ext : External) (l : Live queueNames) :
    LiveAction → Option (Live queueNames)
  | .poll query now => some (l.poll env query now).tick
  | .read id => (l.read id).map Live.tick
  | .complete id statusCode now => (l.complete env id statusCode now).map Live.tick
  | .invalidate => some { l with board := l.board.invalidate }.tick
  | .dispatch jobName payload correlationId now =>
      some (l.dispatch env ext jobName payload correlationId now).tick
  | .sendToDLQ job error failedAt addedAt => some (l.sendToDLQ job error failedAt addedAt).tick
  | .counts call reply => (l.counts env call reply).map Live.tick
  | .write call => (l.write call).map Live.tick
  | .reply call outcome => (l.reply call outcome).map Live.tick

def live (env : Environment) (ext : External) (queueNames : List JsString) :
    Automaton (Live queueNames) LiveAction where
  start := .initial queueNames
  step := Live.step env ext

variable {env : Environment} {ext : External}

/-! ## What the steps of a call can do -/

structure Live.SameBoard (l k : Live queueNames) : Prop where
  board : k.board = l.board
  written : k.written = l.written
  dispatches : k.dispatches = l.dispatches
  reads : k.reads = l.reads
  returned : k.returned = l.returned
  time : k.time = l.time

/-- Calls after a step that neither writes nor returns: those with a write are old. -/
def Live.KeepsWrites (l k : Live queueNames) : Prop :=
  ∀ c call t, k.calls.get c = some call → call.wroteAt = some t →
    ∃ old, l.calls.get c = some old ∧ old.wroteAt = some t

theorem Live.await_same (call : Nat) (step : DispatchStep) (l : Live queueNames) :
    l.SameBoard (l.await call step) ∧ l.KeepsWrites (l.await call step) := by
  have hremove : ∀ c old, (l.calls.remove call).get c = some old → l.calls.get c = some old :=
    fun _ _ h => (Table.get_remove_eq_some.1 h).2
  have hput : ∀ state c old t, (l.calls.put call ⟨state, none⟩).get c = some old →
      old.wroteAt = some t → l.calls.get c = some old := by
    intro state c old t h hwrote
    rcases Table.get_put_eq_some.1 h with ⟨-, rfl⟩ | ⟨-, hold⟩
    · cases hwrote
    · exact hold
  cases step with
  | rejected error => exact ⟨⟨rfl, rfl, rfl, rfl, rfl, rfl⟩, fun c old t h hw =>
      ⟨old, hremove c old h, hw⟩⟩
  | counting submission => exact ⟨⟨rfl, rfl, rfl, rfl, rfl, rfl⟩, fun c old t h hw =>
      ⟨old, hput _ c old t h hw, hw⟩⟩
  | adding add => exact ⟨⟨rfl, rfl, rfl, rfl, rfl, rfl⟩, fun c old t h hw =>
      ⟨old, hput _ c old t h hw, hw⟩⟩
  | resolved job => exact ⟨⟨rfl, rfl, rfl, rfl, rfl, rfl⟩, fun c old t h hw =>
      ⟨old, hremove c old h, hw⟩⟩

/-- An `add` that settles returns the call and invalidates exactly if it resolved. -/
theorem CallState.settle_eq_some {state : CallState} {outcome : Except (Option JsString) Unit}
    {returns invalidates : Bool} (h : state.settle outcome = some (returns, invalidates)) :
    (outcome = .ok () ∧ returns = true ∧ invalidates = true) ∨
      ((∃ cause, outcome = .error cause) ∧ returns = false ∧ invalidates = false) := by
  cases state with
  | counting submission => cases h
  | adding add =>
      cases outcome with
      | ok =>
          obtain ⟨rfl, rfl⟩ := Prod.mk.inj (Option.some.inj h)
          exact Or.inl ⟨rfl, rfl, rfl⟩
      | error cause =>
          obtain ⟨rfl, rfl⟩ := Prod.mk.inj (Option.some.inj h)
          exact Or.inr ⟨⟨cause, rfl⟩, rfl, rfl⟩
  | routing add =>
      cases outcome with
      | ok =>
          obtain ⟨rfl, rfl⟩ := Prod.mk.inj (Option.some.inj h)
          exact Or.inl ⟨rfl, rfl, rfl⟩
      | error cause =>
          obtain ⟨rfl, rfl⟩ := Prod.mk.inj (Option.some.inj h)
          exact Or.inr ⟨⟨cause, rfl⟩, rfl, rfl⟩

/-- A call that settles is gone; if its `add` resolved, the dashboard is
invalidated and the call has returned, its write before. -/
theorem Live.reply_cases {call : Nat} {outcome : Except (Option JsString) Unit}
    {l k : Live queueNames} (h : l.reply call outcome = some k) :
    (∃ c t, l.calls.get call = some c ∧ c.wroteAt = some t ∧ k = { l with
        board := l.board.invalidate
        calls := l.calls.remove call
        returned := ⟨call, t, l.time⟩ :: l.returned }) ∨
      k = { l with calls := l.calls.remove call } := by
  obtain ⟨c, hget, h⟩ := Option.bind_eq_some_iff.1 h
  cases outcome with
  | ok =>
      cases hwrote : c.wroteAt with
      | none => simp [hwrote] at h
      | some t =>
          simp only [hwrote] at h
          obtain ⟨⟨returns, invalidates⟩, hsettle, rfl⟩ := Option.map_eq_some_iff.1 h
          rcases CallState.settle_eq_some hsettle with ⟨-, rfl, rfl⟩ | ⟨⟨cause, hcause⟩, -⟩
          · exact Or.inl ⟨c, t, hget, hwrote, rfl⟩
          · cases hcause
  | error cause =>
      simp only at h
      obtain ⟨⟨returns, invalidates⟩, hsettle, rfl⟩ := Option.map_eq_some_iff.1 h
      rcases CallState.settle_eq_some hsettle with ⟨hok, -⟩ | ⟨-, rfl, rfl⟩
      · cases hok
      · exact Or.inr rfl

theorem Live.write_eq_some {call : Nat} {l k : Live queueNames} (h : l.write call = some k) :
    ∃ state, l.calls.get call = some ⟨state, none⟩ ∧ k = { l with
      calls := l.calls.put call ⟨state, some l.time⟩
      written := (call, l.time) :: l.written } := by
  unfold Live.write at h
  split at h
  · rename_i state hget
    split at h
    · exact ⟨state, hget, (Option.some.inj h).symm⟩
    · cases h
  · cases h

theorem Live.read_eq_some {id : Nat} {l k : Live queueNames} (h : l.read id = some k) :
    ∃ d, l.dispatches.get id = some d ∧ l.reads.get id = none ∧
      k = { l with reads := l.reads.put id ⟨l.written.map Prod.fst, d, l.time⟩ } := by
  unfold Live.read at h
  split at h
  · rename_i r d _ hd hnone
    exact ⟨d, hd, hnone, (Option.some.inj h).symm⟩
  · cases h

/-! ## The invariant -/

def Reading.Faithful (written : List (Nat × Nat)) (time : Nat) (b : Reading) : Prop :=
  b.dispatchedAt < b.readAt ∧ b.readAt < time ∧ ∀ w ∈ written, w.2 < b.readAt → w.1 ∈ b.writes

structure Live.Timed (l : Live queueNames) : Prop where
  calls : ∀ c call t, l.calls.get c = some call → call.wroteAt = some t → (c, t) ∈ l.written
  written : ∀ w ∈ l.written, w.2 < l.time
  returned : ∀ r ∈ l.returned, (r.call, r.wroteAt) ∈ l.written ∧ r.wroteAt < r.returnedAt ∧
    r.returnedAt < l.time
  reads : ∀ id reading, l.reads.get id = some reading → reading.Faithful l.written l.time ∧
    l.dispatches.get id = some reading.dispatchedAt
  dispatches : ∀ id d, l.dispatches.get id = some d → id < l.board.started ∧ d < l.time
  flying : ∀ id r, l.board.inFlight.get id = some r →
    id < l.board.started ∧ r.generationAtDispatch ≤ l.board.cache.currentGeneration ∧
      ∃ d, l.dispatches.get id = some d ∧
        (r.generationAtDispatch = l.board.cache.currentGeneration →
          ∀ r ∈ l.returned, r.returnedAt < d)
  stored : ∀ key entry, l.board.cache.snapshotCache.get key = some entry →
    entry.generation ≤ l.board.cache.currentGeneration ∧
      entry.body.Faithful l.written l.time ∧
        (entry.generation = l.board.cache.currentGeneration →
          ∀ r ∈ l.returned, r.returnedAt < entry.body.dispatchedAt)

theorem Reading.Faithful.later {written : List (Nat × Nat)} {t u : Nat} {b : Reading}
    (h : b.Faithful written t) (htu : t ≤ u) : b.Faithful written u :=
  ⟨h.1, by have := h.2.1; omega, h.2.2⟩

theorem Reading.Faithful.write {written : List (Nat × Nat)} {t : Nat} {b : Reading} (c : Nat)
    (h : b.Faithful written t) : b.Faithful ((c, t) :: written) t := by
  refine ⟨h.1, h.2.1, fun w hw hlt => ?_⟩
  rcases List.mem_cons.1 hw with rfl | hw
  · exact absurd hlt (by have := h.2.1; simp only; omega)
  · exact h.2.2 w hw hlt

theorem Live.Timed.tick {l : Live queueNames} (hl : l.Timed) : l.tick.Timed where
  calls := hl.calls
  written := fun w hw => Nat.lt_succ_of_lt (hl.written w hw)
  returned := fun r hr => ⟨(hl.returned r hr).1, (hl.returned r hr).2.1,
    Nat.lt_succ_of_lt (hl.returned r hr).2.2⟩
  reads := fun id reading h => ⟨(hl.reads id reading h).1.later (Nat.le_succ _),
    (hl.reads id reading h).2⟩
  dispatches := fun id d h => ⟨(hl.dispatches id d h).1, Nat.lt_succ_of_lt (hl.dispatches id d h).2⟩
  flying := hl.flying
  stored := fun key entry h => ⟨(hl.stored key entry h).1,
    (hl.stored key entry h).2.1.later (Nat.le_succ _), (hl.stored key entry h).2.2⟩

theorem Live.Timed.of_same {l k : Live queueNames} (hl : l.Timed) (hsame : l.SameBoard k)
    (hwrites : l.KeepsWrites k) : k.Timed := by
  obtain ⟨hboard, hwritten, hdispatches, hreads, hreturned, htime⟩ := hsame
  refine ⟨fun c call t h hw => ?_, ?_, ?_, ?_, ?_, ?_, ?_⟩
  · obtain ⟨old, hold, holdw⟩ := hwrites c call t h hw
    rw [hwritten]
    exact hl.calls c old t hold holdw
  · rw [hwritten, htime]
    exact hl.written
  · rw [hreturned, hwritten, htime]
    exact hl.returned
  · rw [hreads, hwritten, htime, hdispatches]
    exact hl.reads
  · rw [hdispatches, hboard, htime]
    exact hl.dispatches
  · rw [hboard, hdispatches, hreturned]
    exact hl.flying
  · rw [hboard, hwritten, htime, hreturned]
    exact hl.stored

/-! ## One step -/

theorem Live.Timed.poll {l : Live queueNames} (hl : l.Timed) (query : Query) (now : Nat) :
    (l.poll env query now).tick.Timed := by
  rcases l.board.poll_cases env query now with
    ⟨event, cache, -, hsame, -, hp⟩ | ⟨r, cache, hmissed, hsame, -, hp⟩
  · have hpoll : l.poll env query now =
        { l with board := { l.board with cache, journal := event :: l.board.journal } } := by
      unfold Live.poll
      rw [hp]
      simp
    rw [hpoll]
    refine Live.Timed.tick ⟨hl.calls, hl.written, hl.returned, hl.reads, hl.dispatches, ?_, ?_⟩
    · simpa only [hsame.currentGeneration] using hl.flying
    · simpa only [hsame.snapshotCache, hsame.currentGeneration] using hl.stored
  · have hpoll : l.poll env query now = { l with
        board := {
          cache
          inFlight := l.board.inFlight.put l.board.started r
          started := l.board.started + 1
          journal := .dispatched l.board.started r cache.refreshBudget.windowStart ::
            l.board.journal }
        dispatches := l.dispatches.put l.board.started l.time } := by
      unfold Live.poll
      rw [hp]
      simp
    rw [hpoll]
    refine ⟨hl.calls, hl.tick.written, hl.tick.returned, fun id reading h => ?_,
      fun id d h => ?_, fun id s h => ?_, ?_⟩
    · obtain ⟨hfaithful, hd⟩ := hl.tick.reads id reading h
      refine ⟨hfaithful, ?_⟩
      have hid : id ≠ l.board.started := by
        have := (hl.dispatches id _ hd).1
        omega
      exact (Table.get_put_of_ne _ _ hid).trans hd
    · simp only [Live.tick] at h ⊢
      rcases Table.get_put_eq_some.1 h with ⟨rfl, rfl⟩ | ⟨-, hold⟩
      · exact ⟨by omega, by omega⟩
      · have hbefore := hl.dispatches id d hold
        exact ⟨by omega, by omega⟩
    · simp only [Live.tick, hsame.currentGeneration] at h ⊢
      rcases Table.get_put_eq_some.1 h with ⟨rfl, rfl⟩ | ⟨hid, hold⟩
      · refine ⟨by omega, le_of_eq hmissed.generation_eq, l.time, Table.get_put_self _ _ _,
          fun _ ret hret => ?_⟩
        exact (hl.returned ret hret).2.2
      · obtain ⟨hlt, hle, d, hd, hafter⟩ := hl.flying id s hold
        exact ⟨by omega, hle, d, (Table.get_put_of_ne _ _ hid).trans hd, hafter⟩
    · have hstored := hl.tick.stored
      simpa only [Live.tick, hsame.snapshotCache, hsame.currentGeneration] using hstored

theorem Live.Timed.read {l k : Live queueNames} (hl : l.Timed) {id : Nat}
    (h : l.read id = some k) : k.tick.Timed := by
  obtain ⟨d, hd, hnone, rfl⟩ := Live.read_eq_some h
  refine ⟨hl.calls, hl.tick.written, hl.tick.returned, fun i reading hi => ?_, hl.tick.dispatches,
    hl.flying, hl.tick.stored⟩
  simp only [Live.tick] at hi
  rcases Table.get_put_eq_some.1 hi with ⟨rfl, rfl⟩ | ⟨-, hold⟩
  · have hlt := (hl.dispatches i d hd).2
    exact ⟨⟨hlt, Nat.lt_succ_self _, fun w hw _ => List.mem_map_of_mem hw⟩, hd⟩
  · exact hl.tick.reads i reading hold

theorem Live.Timed.complete {l k : Live queueNames} (hl : l.Timed) {id statusCode now : Nat}
    (h : l.complete env id statusCode now = some k) : k.tick.Timed := by
  obtain ⟨reading, hreading, hmap⟩ := Option.bind_eq_some_iff.1 h
  obtain ⟨board, hboard, rfl⟩ := Option.map_eq_some_iff.1 hmap
  obtain ⟨r, hr, rfl⟩ := Board.complete_eq_some.1 hboard
  obtain ⟨hlt, hle, d, hd, hafter⟩ := hl.flying id r hr
  obtain ⟨hfaithful, hd'⟩ := hl.tick.reads id reading hreading
  obtain rfl : d = reading.dispatchedAt := Option.some.inj (hd.symm.trans hd')
  refine ⟨hl.calls, hl.tick.written, hl.tick.returned, hl.tick.reads, hl.tick.dispatches, ?_, ?_⟩
  · intro i s hs
    simp only [Live.tick, captureJson_currentGeneration] at hs ⊢
    have hold := (Table.get_remove_eq_some.1 hs).2
    exact hl.flying i s hold
  · intro key entry hentry
    simp only [Live.tick, captureJson_currentGeneration] at hentry ⊢
    by_cases hstatus : statusCode = 200
    · subst hstatus
      rw [get_captureJson_200] at hentry
      split at hentry
      · cases hentry
        exact ⟨hle, hfaithful, hafter⟩
      · split at hentry
        · cases hentry
        · exact hl.tick.stored key entry hentry
    · rw [captureJson_ne_200 env r reading now l.board.cache hstatus] at hentry
      exact hl.tick.stored key entry hentry

/-- After an invalidation nothing is of the current generation, so a call may
have returned as well. -/
theorem Live.Timed.invalidate {l : Live queueNames} (hl : l.Timed) (returned : List Returned)
    (calls : Table Nat Call)
    (hreturned : ∀ r ∈ returned, (r.call, r.wroteAt) ∈ l.written ∧ r.wroteAt < r.returnedAt ∧
      r.returnedAt < l.time + 1)
    (hcalls : ∀ c call t, calls.get c = some call → call.wroteAt = some t → (c, t) ∈ l.written) :
    { l with board := l.board.invalidate, returned, calls }.tick.Timed where
  calls := hcalls
  written := hl.tick.written
  returned := hreturned
  reads := hl.tick.reads
  dispatches := hl.tick.dispatches
  flying := fun id r h => by
    obtain ⟨hlt, hle, d, hd, -⟩ := hl.flying id r h
    have hne := Nat.ne_of_lt (Nat.lt_succ_of_le hle)
    exact ⟨hlt, Nat.le_succ_of_le hle, d, hd, fun hgen => absurd hgen hne⟩
  stored := fun key entry h => by
    obtain ⟨hle, hfaithful, -⟩ := hl.tick.stored key entry h
    have hne := Nat.ne_of_lt (Nat.lt_succ_of_le hle)
    exact ⟨Nat.le_succ_of_le hle, hfaithful, fun hgen => absurd hgen hne⟩

theorem Live.Timed.reply {l k : Live queueNames} (hl : l.Timed) {call : Nat}
    {outcome : Except (Option JsString) Unit} (h : l.reply call outcome = some k) :
    k.tick.Timed := by
  have hremove : ∀ c old, (l.calls.remove call).get c = some old → l.calls.get c = some old :=
    fun _ _ h => (Table.get_remove_eq_some.1 h).2
  rcases Live.reply_cases h with ⟨c, t, hget, hwrote, rfl⟩ | rfl
  · have hwritten := hl.calls call c t hget hwrote
    refine hl.invalidate _ _ (fun r hr => ?_) fun c old u hold hw =>
      hl.calls c old u (hremove c old hold) hw
    rcases List.mem_cons.1 hr with rfl | hr
    · exact ⟨hwritten, hl.written _ hwritten, Nat.lt_succ_self _⟩
    · obtain ⟨hmem, hlt, hreturned⟩ := hl.returned r hr
      exact ⟨hmem, hlt, Nat.lt_succ_of_lt hreturned⟩
  · exact Live.Timed.tick (hl.of_same ⟨rfl, rfl, rfl, rfl, rfl, rfl⟩ fun c old u hold hw =>
      ⟨old, hremove c old hold, hw⟩)

theorem Live.Timed.write {l k : Live queueNames} (hl : l.Timed) {call : Nat}
    (h : l.write call = some k) : k.tick.Timed := by
  obtain ⟨state, hget, rfl⟩ := Live.write_eq_some h
  refine ⟨fun c old t hold hw => ?_, fun w hw => ?_, fun r hr => ?_, fun id reading hid => ?_,
    hl.tick.dispatches, hl.flying, fun key entry hentry => ?_⟩
  · simp only [Live.tick] at hold ⊢
    rcases Table.get_put_eq_some.1 hold with ⟨rfl, rfl⟩ | ⟨-, hbefore⟩
    · obtain rfl := Option.some.inj hw
      exact List.mem_cons_self
    · exact List.mem_cons_of_mem _ (hl.calls c old t hbefore hw)
  · rcases List.mem_cons.1 hw with rfl | hw
    · exact Nat.lt_succ_self _
    · exact Nat.lt_succ_of_lt (hl.written w hw)
  · obtain ⟨hmem, hlt, hreturned⟩ := hl.returned r hr
    exact ⟨List.mem_cons_of_mem _ hmem, hlt, Nat.lt_succ_of_lt hreturned⟩
  · obtain ⟨hfaithful, hd⟩ := hl.reads id reading hid
    exact ⟨(hfaithful.write call).later (Nat.le_succ _), hd⟩
  · obtain ⟨hle, hfaithful, hafter⟩ := hl.stored key entry hentry
    exact ⟨hle, (hfaithful.write call).later (Nat.le_succ _), hafter⟩

theorem Live.Timed.step {l k : Live queueNames} (hl : l.Timed) {a : LiveAction}
    (h : l.step env ext a = some k) : k.Timed := by
  cases a with
  | poll query now =>
      obtain rfl := Option.some.inj h
      exact hl.poll query now
  | read id =>
      obtain ⟨m, hm, rfl⟩ := Option.map_eq_some_iff.1 h
      exact hl.read hm
  | complete id statusCode now =>
      obtain ⟨m, hm, rfl⟩ := Option.map_eq_some_iff.1 h
      exact hl.complete hm
  | invalidate =>
      obtain rfl := Option.some.inj h
      exact hl.invalidate l.returned l.calls hl.tick.returned hl.calls
  | dispatch jobName payload correlationId now =>
      obtain rfl := Option.some.inj h
      obtain ⟨hsame, hwrites⟩ := Live.await_same l.called
        (dispatchJob env ext.isEmail l.depthCache jobName payload correlationId now)
        { l with called := l.called + 1 }
      exact Live.Timed.tick (hl.of_same ⟨hsame.board, hsame.written, hsame.dispatches, hsame.reads,
        hsame.returned, hsame.time⟩ hwrites)
  | sendToDLQ job error failedAt addedAt =>
      obtain rfl := Option.some.inj h
      refine Live.Timed.tick (hl.of_same ⟨rfl, rfl, rfl, rfl, rfl, rfl⟩ fun c old t hold hw => ?_)
      simp only [Live.sendToDLQ] at hold
      rcases Table.get_put_eq_some.1 hold with ⟨-, rfl⟩ | ⟨-, hbefore⟩
      · cases hw
      · exact ⟨old, hbefore, hw⟩
  | counts call reply =>
      obtain ⟨m, hm, rfl⟩ := Option.map_eq_some_iff.1 h
      unfold Live.counts at hm
      split at hm
      · rename_i submission wroteAt hget
        obtain rfl := Option.some.inj hm
        obtain ⟨hsame, hwrites⟩ := Live.await_same call
          (resumeCounting env l.depthCache submission reply).1
          { l with depthCache := (resumeCounting env l.depthCache submission reply).2 }
        exact Live.Timed.tick (hl.of_same ⟨hsame.board, hsame.written, hsame.dispatches,
          hsame.reads, hsame.returned, hsame.time⟩ hwrites)
      · cases hm
  | write call =>
      obtain ⟨m, hm, rfl⟩ := Option.map_eq_some_iff.1 h
      exact hl.write hm
  | reply call outcome =>
      obtain ⟨m, hm, rfl⟩ := Option.map_eq_some_iff.1 h
      exact hl.reply hm

theorem Live.initial_timed : (Live.initial queueNames).Timed where
  calls := fun c call t h => by simp [Live.initial] at h
  written := fun w hw => by cases hw
  returned := fun r hr => by cases hr
  reads := fun id reading h => by simp [Live.initial] at h
  dispatches := fun id d h => by simp [Live.initial] at h
  flying := fun id r h => by simp [Live.initial, Board.initial] at h
  stored := fun key entry h => by simp [Live.initial, Board.initial, CacheState.initial] at h

theorem timed_of_reachable {l : Live queueNames} (hl : (live env ext queueNames).Reachable l) :
    l.Timed :=
  hl.invariant Live.initial_timed fun _ _ _ hs h => hs.step h

/-- A poll that is answered HIT after calls have returned serves a body that was
dispatched after each of them returned and read after each of their writes, which
it holds: no rebuild that was in flight across such a write is served. -/
theorem hit_is_fresh {l : Live queueNames} (hl : (live env ext queueNames).Reachable l)
    {query : Query} {now : Nat} {body : Reading}
    (hhit : (serveSnapshot env queueNames query now l.board.cache).1 = .hit body) :
    ∀ r ∈ l.returned, r.wroteAt < r.returnedAt ∧ r.returnedAt < body.dispatchedAt ∧
      body.dispatchedAt < body.readAt ∧ r.wroteAt < body.readAt ∧ r.call ∈ body.writes := by
  have htimed := timed_of_reachable hl
  intro r hr
  rcases serveSnapshot_cases env queueNames query now l.board.cache with
    ⟨entry, hget, hfresh, h⟩ | ⟨-, ⟨-, _, -, -, -, h⟩ | ⟨-, _, -, h⟩ | ⟨-, -, h⟩⟩
  · rw [h] at hhit
    cases hhit
    obtain ⟨-, ⟨hread, -, hholds⟩, hafter⟩ := htimed.stored _ entry hget
    simp only [SnapshotEntry.fresh, Bool.and_eq_true, beq_iff_eq] at hfresh
    have hreturned := hafter hfresh.2 r hr
    obtain ⟨hmem, hwrote, -⟩ := htimed.returned r hr
    exact ⟨hwrote, hreturned, hread, by omega, hholds _ hmem (by simp only; omega)⟩
  · rw [h] at hhit
    cases hhit
  · rw [h] at hhit
    cases hhit
  · rw [h] at hhit
    cases hhit

def lenient : External := ⟨fun s => s.contains 0x40, fun _ => js "[]", fun s => s⟩

def dispatchedMeanwhile : List LiveAction :=
  [.poll [] 0, .read 0,
    .dispatch .webhookDelivery (.object [(js "destination", .string (js "DEMO_AVAILABLE")),
      (js "event", .string (js "order.paid")), (js "idempotencyKey", .string (js "k"))]) none 1,
    .counts 0 (.ok ⟨0, 0, 0⟩), .write 0, .reply 0 (.ok ()), .complete 0 200 2,
    .poll [] 3, .read 1, .complete 1 200 4]

theorem hit_is_fresh_dispatchedMeanwhile :
    ∃ l body r, (live .default lenient [js "q"]).run (.initial [js "q"]) dispatchedMeanwhile =
        some l ∧
      (serveSnapshot .default [js "q"] [] 5 l.board.cache).1 = .hit body ∧ r ∈ l.returned ∧
      (r.wroteAt < r.returnedAt ∧ r.returnedAt < body.dispatchedAt ∧
        body.dispatchedAt < body.readAt ∧ r.wroteAt < body.readAt ∧ r.call ∈ body.writes) := by
  have hrun : ((live .default lenient [js "q"]).run (.initial [js "q"]) dispatchedMeanwhile).map
      (fun l => ((serveSnapshot .default [js "q"] [] 5 l.board.cache).1.source,
        l.returned.map Returned.call)) = some (.cache, [0]) := by decide +kernel
  obtain ⟨l, hl, hstate⟩ := Option.map_eq_some_iff.1 hrun
  obtain ⟨hsource, hreturned⟩ := Prod.mk.inj hstate
  have hreach : (live .default lenient [js "q"]).Reachable l := ⟨dispatchedMeanwhile, hl⟩
  cases hanswer : (serveSnapshot .default [js "q"] [] 5 l.board.cache).1 with
  | hit body =>
      cases hlist : l.returned with
      | nil => simp [hlist] at hreturned
      | cons r rest =>
          have hr : r ∈ l.returned := by simp [hlist]
          exact ⟨l, body, r, hl, hanswer, hr, hit_is_fresh hreach hanswer r hr⟩
  | stale body => simp [hanswer, Answer.source] at hsource
  | shed => simp [hanswer, Answer.source] at hsource
  | miss rebuild => simp [hanswer, Answer.source] at hsource

end TaskQueue.Dashboard

import TaskQueue.Queue.Intake
import TaskQueue.Queue.TaskQueue
import TaskQueue.Worker.World

/-!
# The service

The whole of it: dispatches suspended at their awaits, the task queue with its
retries, stalls and retention, the worker over its store, and the dead letter
queue.  What the queue does to a job and the event it emits for it are one step.
-/

namespace TaskQueue

open Ecma JobQueue

structure Service where
  world : World
  tasks : Tasks
  dlq : DeadLetters
  depthCache : Option DepthCacheEntry
  dispatches : Table Nat (JobRequest × DispatchStep)
  /-- Dispatches begun. -/
  received : Nat

def Service.initial : Service := ⟨.initial, ∅, ∅, none, ∅, 0⟩

inductive ServiceAction
  | receive (request : JobRequest)
  /-- `getJobCounts` of a dispatch answers, or fails. -/
  | counted (dispatch : Nat) (fault : Option JsError)
  /-- `taskQueue.add` of a dispatch ends. -/
  | added (dispatch : Nat) (reply : AddReply)
  /-- The worker takes a waiting job. -/
  | activate (id : JsString) (inp : Inputs)
  /-- The execution that holds the job's lock resolved. -/
  | complete (id : JsString)
  /-- It threw; `reply` is to the `add` of `sendToDLQ`, if it comes to that. -/
  | fail (id : JsString) (trace : List JsString) (inp : Inputs) (reply : AddReply)
  | promote (id : JsString)
  /-- The lock of an active job expired. -/
  | stall (id : JsString)
  /-- The worker takes a job that has stalled too often, and fails it. -/
  | failDeferred (id : JsString) (trace : List JsString) (counted : Bool) (inp : Inputs)
      (reply : AddReply)
  | prune (id : JsString)
  /-- The network: a POST is answered, lost, or its answer reaches the execution. -/
  | answer (execution : Nat) (status : Nat)
  | drop (execution : Nat)
  | settle (execution : Nat) (inp : Inputs)
  | lose (execution : Nat) (message : Option JsString) (inp : Inputs)
  /-- The process dies and is started again. -/
  | crash

/-! ## Executions -/

def WorkEvent.isCrash : WorkEvent → Bool
  | .crashed => true
  | _ => false

def World.outcome (w : World) (e : Nat) : Option (Except JsError JobExecutionResult) :=
  (w.journal.takeWhile fun event => !event.isCrash).findSome? fun
    | .resolved i _ result => if i = e then some (.ok result) else none
    | .threw i err => if i = e then some (.error err) else none
    | _ => none

/-- How the execution that holds a job's lock ended, if it did. -/
def Service.outcome (s : Service) (id : JsString) : Option (Except JsError JobExecutionResult) :=
  ((s.tasks.get id).bind Entry.lock).bind s.world.outcome

def stalledError : JsError :=
  ⟨js "UnrecoverableError", js "job stalled more than allowable limit"⟩

/-! ## Steps -/

/-- The add the `failed` handler gets to for a job, if it does. -/
def World.deadLetter (job : Job) (err : JsError) (inp : Inputs) (w : World) : Option DlqAdd :=
  match ((failedHandler inp (some job) err).run w.machine).1 with
  | .ok add => add
  | .error _ => none

def Service.failed (job : Job) (err : JsError) (inp : Inputs) (reply : AddReply) (s : Service) :
    Service :=
  let world := s.world.failed (some job) err inp
  match s.world.deadLetter job err inp with
  | none => { s with world }
  | some add => { s with
      world := world.handle (resumeFailedHandler reply.result)
      dlq := addDeadLetter add reply s.dlq }

section Steps

variable (env : Environment) (ext : External) (options : JobOptions)

def Service.receive (request : JobRequest) (s : Service) : Service :=
  { s with
    dispatches := s.dispatches.put s.received
      (request, request.dispatch env ext.isEmail s.depthCache)
    received := s.received + 1 }

def Service.counted (d : Nat) (fault : Option JsError) (s : Service) : Option Service :=
  match s.dispatches.get d with
  | some (request, .counting submission) =>
      let counts := match fault with
        | none => .ok (getJobCounts s.tasks)
        | some err => .error (some err.message)
      let (step, depthCache) := resumeCounting env s.depthCache submission counts
      some { s with depthCache, dispatches := s.dispatches.put d (request, step) }
  | _ => none

def Service.added (d : Nat) (reply : AddReply) (s : Service) : Option Service :=
  match s.dispatches.get d with
  | some (request, .adding add) =>
      let step := (resumeAdding add (reply.result.mapError fun err => some err.message)).1
      some { s with
        tasks := addTask options add reply s.tasks
        dispatches := s.dispatches.put d (request, step) }
  | _ => none

def Service.activate (id : JsString) (inp : Inputs) (s : Service) : Option Service :=
  (s.tasks.move id (Entry.activate s.world.started)).map fun (entry, tasks) =>
    { s with tasks, world := s.world.begin env ext (jobOf id entry) inp }

def Service.complete (id : JsString) (s : Service) : Option Service :=
  match s.outcome id with
  | some (.ok _) => (s.tasks.move id Entry.complete).map fun (entry, tasks) =>
      { s with tasks, world := s.world.handle (completedHandler (jobOf id entry)) }
  | _ => none

def Service.fail (id : JsString) (trace : List JsString) (inp : Inputs) (reply : AddReply)
    (s : Service) : Option Service :=
  match s.outcome id with
  | some (.error err) => (s.tasks.move id (Entry.fail trace)).map fun (entry, tasks) =>
      { s with tasks }.failed (jobOf id entry) err inp reply
  | _ => none

def Service.failDeferred (id : JsString) (trace : List JsString) (counted : Bool) (inp : Inputs)
    (reply : AddReply) (s : Service) : Option Service :=
  (s.tasks.move id (Entry.failDeferred trace counted)).map fun (entry, tasks) =>
    { s with tasks }.failed (jobOf id entry) stalledError inp reply

def Service.step (s : Service) : ServiceAction → Option Service
  | .receive request => some (s.receive env ext request)
  | .counted d fault => s.counted env d fault
  | .added d reply => s.added options d reply
  | .activate id inp => s.activate env ext id inp
  | .complete id => s.complete id
  | .fail id trace inp reply => s.fail id trace inp reply
  | .promote id => (s.tasks.move id Entry.promote).map fun (_, tasks) => { s with tasks }
  | .stall id =>
      (s.tasks.move id (Entry.stall maxStalledCount)).map fun (_, tasks) => { s with tasks }
  | .failDeferred id trace counted inp reply => s.failDeferred id trace counted inp reply
  | .prune id => (s.tasks.prune id).map fun tasks => { s with tasks }
  | .answer e status => (s.world.answer e status).map fun world => { s with world }
  | .drop e => (s.world.drop e).map fun world => { s with world }
  | .settle e inp => (s.world.settle e inp).map fun world => { s with world }
  | .lose e message inp =>
      (s.world.resume e (.failed message) inp).map fun world => { s with world }
  | .crash => some { s with world := s.world.crash, depthCache := none, dispatches := ∅ }

def service : Automaton Service ServiceAction where
  start := .initial
  step := Service.step env ext options

end Steps

variable {env : Environment} {ext : External} {options : JobOptions}

/-! ## What a step can do -/

@[simp] theorem Service.failed_tasks (job : Job) (err : JsError) (inp : Inputs) (reply : AddReply)
    (s : Service) : (s.failed job err inp reply).tasks = s.tasks := by
  unfold Service.failed
  split <;> rfl

@[simp] theorem Service.failed_dispatches (job : Job) (err : JsError) (inp : Inputs)
    (reply : AddReply) (s : Service) : (s.failed job err inp reply).dispatches = s.dispatches := by
  unfold Service.failed
  split <;> rfl

theorem Service.added_eq_some {s t : Service} {d : Nat} {reply : AddReply} :
    s.added options d reply = some t ↔
      ∃ request add, s.dispatches.get d = some (request, .adding add) ∧
        t = { s with
          tasks := addTask options add reply s.tasks
          dispatches := s.dispatches.put d (request,
            (resumeAdding add (reply.result.mapError fun err => some err.message)).1) } := by
  unfold Service.added
  constructor
  · intro h
    split at h
    · rename_i request add hget
      exact ⟨request, add, hget, (Option.some.inj h).symm⟩
    · cases h
  · rintro ⟨request, add, hget, rfl⟩
    rw [hget]

def Service.resumed (env : Environment) (d : Nat) (r : JobRequest) (submission : Submission)
    (counts : Except (Option JsString) JobCounts) (s : Service) : Service :=
  { s with
    depthCache := (resumeCounting env s.depthCache submission counts).2
    dispatches := s.dispatches.put d (r, (resumeCounting env s.depthCache submission counts).1) }

inductive Service.Acted (env : Environment) (ext : External) (options : JobOptions) (s : Service) :
    ServiceAction → Service → Prop
  | received (r : JobRequest) : Acted env ext options s (.receive r) (s.receive env ext r)
  | counted (d : Nat) (r : JobRequest) (submission : Submission)
      (dispatch : s.dispatches.get d = some (r, .counting submission)) :
      Acted env ext options s (.counted d none)
        (s.resumed env d r submission (.ok (getJobCounts s.tasks)))
  | uncounted (d : Nat) (err : JsError) (r : JobRequest) (submission : Submission)
      (dispatch : s.dispatches.get d = some (r, .counting submission)) :
      Acted env ext options s (.counted d (some err))
        (s.resumed env d r submission (.error (some err.message)))
  | added (d : Nat) (reply : AddReply) (r : JobRequest) (add : TaskAdd)
      (dispatch : s.dispatches.get d = some (r, .adding add)) :
      Acted env ext options s (.added d reply)
        { s with
          tasks := addTask options add reply s.tasks
          dispatches := s.dispatches.put d
            (r, (resumeAdding add (reply.result.mapError fun err => some err.message)).1) }
  | activated (id : JsString) (inp : Inputs) (e e' : TaskEntry) (get : s.tasks.get id = some e)
      (activate : e.activate s.world.started = some e') :
      Acted env ext options s (.activate id inp)
        { s with
          tasks := s.tasks.put id e'
          world := s.world.begin env ext (jobOf id e') inp }
  | completed (id : JsString) (e e' : TaskEntry) (get : s.tasks.get id = some e)
      (complete : e.complete = some e') :
      Acted env ext options s (.complete id)
        { s with
          tasks := s.tasks.put id e'
          world := s.world.handle (completedHandler (jobOf id e')) }
  | failed (id : JsString) (trace : List JsString) (inp : Inputs) (reply : AddReply)
      (e e' : TaskEntry) (err : JsError) (outcome : s.outcome id = some (.error err))
      (get : s.tasks.get id = some e) (fail : e.fail trace = some e') :
      Acted env ext options s (.fail id trace inp reply)
        ({ s with tasks := s.tasks.put id e' }.failed (jobOf id e') err inp reply)
  | promoted (id : JsString) (e e' : TaskEntry) (get : s.tasks.get id = some e)
      (promote : e.promote = some e') :
      Acted env ext options s (.promote id) { s with tasks := s.tasks.put id e' }
  | stalled (id : JsString) (e e' : TaskEntry) (get : s.tasks.get id = some e)
      (stall : e.stall maxStalledCount = some e') :
      Acted env ext options s (.stall id) { s with tasks := s.tasks.put id e' }
  | failedDeferred (id : JsString) (trace : List JsString) (counted : Bool) (inp : Inputs)
      (reply : AddReply) (e e' : TaskEntry) (get : s.tasks.get id = some e)
      (fail : e.failDeferred trace counted = some e') :
      Acted env ext options s (.failDeferred id trace counted inp reply)
        ({ s with tasks := s.tasks.put id e' }.failed (jobOf id e') stalledError inp reply)
  | pruned (id : JsString) (e : TaskEntry) (get : s.tasks.get id = some e)
      (finished : e.pending = false) :
      Acted env ext options s (.prune id) { s with tasks := s.tasks.remove id }
  | answered (e status : Nat) (world : World) (answer : s.world.answer e status = some world) :
      Acted env ext options s (.answer e status) { s with world }
  | dropped (e : Nat) (world : World) (drop : s.world.drop e = some world) :
      Acted env ext options s (.drop e) { s with world }
  | settled (e : Nat) (inp : Inputs) (world : World) (settle : s.world.settle e inp = some world) :
      Acted env ext options s (.settle e inp) { s with world }
  | lost (e : Nat) (message : Option JsString) (inp : Inputs) (world : World)
      (resume : s.world.resume e (.failed message) inp = some world) :
      Acted env ext options s (.lose e message inp) { s with world }
  | crashed :
      Acted env ext options s .crash
        { s with world := s.world.crash, depthCache := none, dispatches := ∅ }

theorem Service.step_cases {s t : Service} {a : ServiceAction}
    (h : s.step env ext options a = some t) : s.Acted env ext options a t := by
  cases a with
  | receive request =>
      obtain rfl := Option.some.inj h
      exact .received request
  | counted d fault =>
      simp only [Service.step, Service.counted] at h
      split at h
      · rename_i r submission hget
        cases fault with
        | none =>
            obtain rfl := Option.some.inj h
            exact .counted d r submission hget
        | some err =>
            obtain rfl := Option.some.inj h
            exact .uncounted d err r submission hget
      · cases h
  | added d reply =>
      obtain ⟨r, add, hget, rfl⟩ := Service.added_eq_some.1 h
      exact .added d reply r add hget
  | activate id inp =>
      obtain ⟨⟨e', tasks⟩, hmove, rfl⟩ := Option.map_eq_some_iff.1 h
      obtain ⟨e, hget, hactivate, rfl⟩ := Queue.move_eq_some.1 hmove
      exact .activated id inp e e' hget hactivate
  | complete id =>
      simp only [Service.step, Service.complete] at h
      split at h
      · obtain ⟨⟨e', tasks⟩, hmove, rfl⟩ := Option.map_eq_some_iff.1 h
        obtain ⟨e, hget, hcomplete, rfl⟩ := Queue.move_eq_some.1 hmove
        exact .completed id e e' hget hcomplete
      · cases h
  | fail id trace inp reply =>
      simp only [Service.step, Service.fail] at h
      split at h
      · rename_i err houtcome
        obtain ⟨⟨e', tasks⟩, hmove, rfl⟩ := Option.map_eq_some_iff.1 h
        obtain ⟨e, hget, hfail, rfl⟩ := Queue.move_eq_some.1 hmove
        exact .failed id trace inp reply e e' err houtcome hget hfail
      · cases h
  | promote id =>
      obtain ⟨⟨e', tasks⟩, hmove, rfl⟩ := Option.map_eq_some_iff.1 h
      obtain ⟨e, hget, hpromote, rfl⟩ := Queue.move_eq_some.1 hmove
      exact .promoted id e e' hget hpromote
  | stall id =>
      obtain ⟨⟨e', tasks⟩, hmove, rfl⟩ := Option.map_eq_some_iff.1 h
      obtain ⟨e, hget, hstall, rfl⟩ := Queue.move_eq_some.1 hmove
      exact .stalled id e e' hget hstall
  | failDeferred id trace counted inp reply =>
      obtain ⟨⟨e', tasks⟩, hmove, rfl⟩ := Option.map_eq_some_iff.1 h
      obtain ⟨e, hget, hfail, rfl⟩ := Queue.move_eq_some.1 hmove
      exact .failedDeferred id trace counted inp reply e e' hget hfail
  | prune id =>
      obtain ⟨tasks, hprune, rfl⟩ := Option.map_eq_some_iff.1 h
      obtain ⟨e, hget, hfinished, rfl⟩ := Queue.prune_eq_some.1 hprune
      exact .pruned id e hget hfinished
  | answer e status =>
      obtain ⟨w, hw, rfl⟩ := Option.map_eq_some_iff.1 h
      exact .answered e status w hw
  | drop e =>
      obtain ⟨w, hw, rfl⟩ := Option.map_eq_some_iff.1 h
      exact .dropped e w hw
  | settle e inp =>
      obtain ⟨w, hw, rfl⟩ := Option.map_eq_some_iff.1 h
      exact .settled e inp w hw
  | lose e message inp =>
      obtain ⟨w, hw, rfl⟩ := Option.map_eq_some_iff.1 h
      exact .lost e message inp w hw
  | crash =>
      obtain rfl := Option.some.inj h
      exact .crashed

inductive Service.Moves (options : JobOptions) (s : Service) : ServiceAction → Tasks → Prop
  | same (a : ServiceAction) : Moves options s a s.tasks
  | added (d : Nat) (reply : AddReply) (r : JobRequest) (add : TaskAdd)
      (dispatch : s.dispatches.get d = some (r, .adding add))
      (free : s.tasks.get add.jobId = none) :
      Moves options s (.added d reply)
        (s.tasks.put add.jobId (.new options.attempts ⟨add.name, add.data⟩))
  | advanced (a : ServiceAction) (id : JsString) (e e' : TaskEntry) (get : s.tasks.get id = some e)
      (follows : e.Follows e') (unfailed : e'.state ≠ .failed) :
      Moves options s a (s.tasks.put id e')
  | failed (id : JsString) (trace : List JsString) (inp : Inputs) (reply : AddReply)
      (e e' : TaskEntry) (get : s.tasks.get id = some e) (fail : e.fail trace = some e') :
      Moves options s (.fail id trace inp reply) (s.tasks.put id e')
  | failedDeferred (id : JsString) (trace : List JsString) (counted : Bool) (inp : Inputs)
      (reply : AddReply) (e e' : TaskEntry) (get : s.tasks.get id = some e)
      (fail : e.failDeferred trace counted = some e') :
      Moves options s (.failDeferred id trace counted inp reply) (s.tasks.put id e')
  | pruned (id : JsString) (e : TaskEntry) (get : s.tasks.get id = some e)
      (finished : e.pending = false) : Moves options s (.prune id) (s.tasks.remove id)

theorem Service.step_tasks {s t : Service} {a : ServiceAction}
    (h : s.step env ext options a = some t) : s.Moves options a t.tasks := by
  cases Service.step_cases h with
  | added d reply r add dispatch =>
      simp only [addTask]
      split
      · cases hget : s.tasks.get add.jobId with
        | none => exact (Queue.add_of_none hget _ _).symm ▸ .added d reply r add dispatch hget
        | some e => exact (Queue.add_of_some hget _ _).symm ▸ .same _
      · exact .same _
  | activated id inp e e' get activate =>
      refine .advanced _ id e e' get (Entry.follows_activate activate) ?_
      obtain ⟨-, -, rfl⟩ := Entry.activate_eq_some.1 activate
      simp
  | completed id e e' get complete =>
      refine .advanced _ id e e' get (Entry.follows_complete complete) ?_
      obtain ⟨_, -, rfl⟩ := Option.map_eq_some_iff.1 complete
      simp
  | failed id trace inp reply e e' err outcome get fail =>
      rw [Service.failed_tasks]
      exact .failed id trace inp reply e e' get fail
  | promoted id e e' get promote =>
      refine .advanced _ id e e' get (Entry.follows_promote promote) ?_
      obtain ⟨-, rfl⟩ := Entry.promote_eq_some.1 promote
      simp
  | stalled id e e' get stall =>
      exact .advanced _ id e e' get (Entry.follows_stall stall) (Entry.unfailed_of_stall stall)
  | failedDeferred id trace counted inp reply e e' get fail =>
      rw [Service.failed_tasks]
      exact .failedDeferred id trace counted inp reply e e' get fail
  | pruned id e get finished => exact .pruned id e get finished
  | _ => exact .same _

/-- Where the step of a dispatch comes from. -/
theorem Service.step_dispatch {s t : Service} {a : ServiceAction}
    (h : s.step env ext options a = some t) {d : Nat} {r : JobRequest} {step : DispatchStep}
    (hget : t.dispatches.get d = some (r, step)) :
    s.dispatches.get d = some (r, step) ∨
    (a = .receive r ∧ step = r.dispatch env ext.isEmail s.depthCache) ∨
    (∃ submission counts, s.dispatches.get d = some (r, .counting submission) ∧
      step = (resumeCounting env s.depthCache submission counts).1) ∨
    (∃ add reply, a = .added d reply ∧ s.dispatches.get d = some (r, .adding add) ∧
      step = (resumeAdding add (reply.result.mapError fun err => some err.message)).1) := by
  have hresumed : ∀ i r' submission counts,
      s.dispatches.get i = some (r', .counting submission) →
      (s.resumed env i r' submission counts).dispatches.get d = some (r, step) →
      s.dispatches.get d = some (r, step) ∨ ∃ submission counts,
        s.dispatches.get d = some (r, .counting submission) ∧
          step = (resumeCounting env s.depthCache submission counts).1 := by
    intro i r' submission counts hi hget
    rcases Table.get_put_eq_some.1 hget with ⟨rfl, heq⟩ | ⟨-, hold⟩
    · obtain ⟨rfl, rfl⟩ := Prod.mk.inj heq
      exact Or.inr ⟨submission, counts, hi, rfl⟩
    · exact Or.inl hold
  cases Service.step_cases h with
  | received request =>
      rcases Table.get_put_eq_some.1 hget with ⟨-, heq⟩ | ⟨-, hold⟩
      · obtain ⟨rfl, rfl⟩ := Prod.mk.inj heq
        exact Or.inr (Or.inl ⟨rfl, rfl⟩)
      · exact Or.inl hold
  | counted i r' submission hi =>
      rcases hresumed i r' submission _ hi hget with hold | hnew
      · exact Or.inl hold
      · exact Or.inr (Or.inr (Or.inl hnew))
  | uncounted i err r' submission hi =>
      rcases hresumed i r' submission _ hi hget with hold | hnew
      · exact Or.inl hold
      · exact Or.inr (Or.inr (Or.inl hnew))
  | added i reply r' add hi =>
      rcases Table.get_put_eq_some.1 hget with ⟨rfl, heq⟩ | ⟨-, hold⟩
      · obtain ⟨rfl, rfl⟩ := Prod.mk.inj heq
        exact Or.inr (Or.inr (Or.inr ⟨add, reply, rfl, hi, rfl⟩))
      · exact Or.inl hold
  | failed => exact Or.inl (by rwa [Service.failed_dispatches] at hget)
  | failedDeferred => exact Or.inl (by rwa [Service.failed_dispatches] at hget)
  | crashed => simp at hget
  | _ => exact Or.inl hget

/-- A dispatch stays that of its request, and once it can be answered it does not change. -/
theorem Service.dispatch_kept {s t : Service} {a : ServiceAction}
    (h : s.step env ext options a = some t) (ha : a ≠ .crash) {d : Nat} (hd : d < s.received)
    {r : JobRequest} {step : DispatchStep} (hget : s.dispatches.get d = some (r, step)) :
    ∃ step', t.dispatches.get d = some (r, step') ∧
      ∀ reply, r.reply step = some reply → step' = step := by
  have hput : ∀ i (old new : DispatchStep) (r' : JobRequest),
      s.dispatches.get i = some (r', old) → r'.reply old = none →
      ∃ step', (s.dispatches.put i (r', new)).get d = some (r, step') ∧
        ∀ reply, r.reply step = some reply → step' = step := by
    intro i old new r' hi hopen
    by_cases heq : d = i
    · subst heq
      obtain ⟨rfl, rfl⟩ := Prod.mk.inj (Option.some.inj (hget.symm.trans hi))
      refine ⟨new, Table.get_put_self _ _ _, fun reply hreply => ?_⟩
      rw [hopen] at hreply
      cases hreply
    · exact ⟨step, (Table.get_put_of_ne _ _ heq).trans hget, fun _ _ => rfl⟩
  cases Service.step_cases h with
  | received request =>
      have hne : d ≠ s.received := Nat.ne_of_lt hd
      exact ⟨step, (Table.get_put_of_ne _ _ hne).trans hget, fun _ _ => rfl⟩
  | counted i r' submission hi => exact hput i _ _ r' hi rfl
  | uncounted i err r' submission hi => exact hput i _ _ r' hi rfl
  | added i reply r' add hi => exact hput i _ _ r' hi rfl
  | failed => exact ⟨step, by rwa [Service.failed_dispatches], fun _ _ => rfl⟩
  | failedDeferred => exact ⟨step, by rwa [Service.failed_dispatches], fun _ _ => rfl⟩
  | crashed => exact absurd rfl ha
  | _ => exact ⟨step, hget, fun _ _ => rfl⟩

/-! ## The worker of the service -/

theorem worker_failed (job : Job) (err : JsError) (inp : Inputs) (reply : AddReply)
    (s : Service) :
    ∃ as, (world env ext).run s.world as = some (s.failed job err inp reply).world := by
  unfold Service.failed
  split
  · exact ⟨[.failed (some job) err inp], rfl⟩
  · exact ⟨[.failed (some job) err inp, .deadLettered reply.result], rfl⟩

theorem worker_step {s t : Service} {a : ServiceAction}
    (h : s.step env ext options a = some t) :
    ∃ as, (world env ext).run s.world as = some t.world := by
  have hone : ∀ a w, s.world.step env ext a = some w →
      ∃ as, (world env ext).run s.world as = some w := fun a w hstep =>
    ⟨[a], (Automaton.run_cons_eq_some _).2 ⟨w, hstep, rfl⟩⟩
  cases Service.step_cases h with
  | activated id inp e e' => exact hone (.begin (jobOf id e') inp) _ rfl
  | completed id e e' => exact hone (.completed (jobOf id e')) _ rfl
  | failed id trace inp reply e e' err =>
      exact worker_failed (jobOf id e') err inp reply { s with tasks := s.tasks.put id e' }
  | failedDeferred id trace counted inp reply e e' =>
      exact worker_failed (jobOf id e') stalledError inp reply
        { s with tasks := s.tasks.put id e' }
  | answered e status w answer => exact hone (.answer e status) w answer
  | dropped e w drop => exact hone (.drop e) w drop
  | settled e inp w settle => exact hone (.settle e inp) w settle
  | lost e message inp w resume => exact hone (.lose e message inp) w resume
  | crashed => exact hone .crash _ rfl
  | _ => exact ⟨[], rfl⟩

/-- What the steps of the worker keep, a step of the service keeps; a POST is answered only
when that is the step. -/
theorem Service.worker_keeps {I : World → Prop} {s t : Service} {a : ServiceAction}
    (hstep : ∀ w v b, (∀ e status, b = .answer e status → a = .answer e status ∧ w = s.world) →
      I w → w.step env ext b = some v → I v)
    (hs : I s.world) (h : s.step env ext options a = some t) : I t.world := by
  have hquiet : ∀ w v b, (∀ e status, b ≠ .answer e status) → I w → w.step env ext b = some v →
      I v := fun w v b hother => hstep w v b fun e status heq => absurd heq (hother e status)
  have hfailed : ∀ (job : Job) (err : JsError) (inp : Inputs) (reply : AddReply) (u : Service),
      I u.world → I (u.failed job err inp reply).world := by
    intro job err inp reply u hu
    have hone : I (u.world.failed (some job) err inp) :=
      hquiet u.world _ (.failed (some job) err inp) nofun hu rfl
    unfold Service.failed
    split
    · exact hone
    · exact hquiet _ _ (.deadLettered reply.result) nofun hone rfl
  cases Service.step_cases h with
  | activated id inp e e' => exact hquiet s.world _ (.begin (jobOf id e') inp) nofun hs rfl
  | completed id e e' => exact hquiet s.world _ (.completed (jobOf id e')) nofun hs rfl
  | failed id trace inp reply e e' err =>
      exact hfailed (jobOf id e') err inp reply { s with tasks := s.tasks.put id e' } hs
  | failedDeferred id trace counted inp reply e e' =>
      exact hfailed (jobOf id e') stalledError inp reply { s with tasks := s.tasks.put id e' } hs
  | answered e status w answer =>
      refine hstep s.world w (.answer e status) (fun e' status' heq => ?_) hs answer
      cases heq
      exact ⟨rfl, rfl⟩
  | dropped e w drop => exact hquiet s.world w (.drop e) nofun hs drop
  | settled e inp w settle => exact hquiet s.world w (.settle e inp) nofun hs settle
  | lost e message inp w resume => exact hquiet s.world w (.lose e message inp) nofun hs resume
  | crashed => exact hquiet s.world _ .crash nofun hs rfl
  | _ => exact hs

/-- The worker of the service only reaches what the worker on its own can reach. -/
theorem worker_reachable {s : Service} (hs : (service env ext options).Reachable s) :
    (world env ext).Reachable s.world := by
  refine hs.invariant (I := fun s => (world env ext).Reachable s.world) .start ?_
  intro s a t hworld h
  obtain ⟨as, hrun⟩ := worker_step h
  exact hworld.run hrun

/-! ## Jobs and dispatches belong to their requests -/

/-- A stored job has an attempt left while it is pending, and is stored under the
id of its type and key. -/
def Owned (id : JsString) (e : TaskEntry) : Prop :=
  e.Live ∧ ∃ t key, id = jobIdOf t key ∧ e.data.name = t.text ∧
    idempotencyKeyOf e.data.data = some key

structure Service.Sound (s : Service) : Prop where
  tasks : s.tasks.All Owned
  dispatches : ∀ d r step, s.dispatches.get d = some (r, step) → r.Carries step

theorem Owned.follows {id : JsString} {e e' : TaskEntry} (he : Owned id e)
    (h : e.Follows e') : Owned id e' := by
  obtain ⟨hlive, t, key, hid, hname, hkey⟩ := he
  exact ⟨h.live hlive, t, key, hid, by rw [h.data, hname], by rw [h.data, hkey]⟩

theorem Service.initial_sound : Service.initial.Sound where
  tasks := Queue.all_empty _
  dispatches := fun d r step h => by simp [Service.initial] at h

theorem Service.Sound.moves {s : Service} (hs : s.Sound) {a : ServiceAction} {tasks : Tasks}
    (h : s.Moves options a tasks) : tasks.All Owned := by
  have hput : ∀ {id e e'}, s.tasks.get id = some e → e.Follows e' →
      Queue.All (s.tasks.put id e') Owned := fun hget hfollows =>
    hs.tasks.put ((hs.tasks _ _ hget).follows hfollows)
  cases h with
  | same => exact hs.tasks
  | added d reply r add dispatch free =>
      obtain ⟨key, hadds⟩ := hs.dispatches d r _ dispatch
      exact hs.tasks.put ⟨Entry.live_new _ options.attempts_pos, r.jobName, key, hadds.jobId,
        hadds.name, hadds.idempotencyKey⟩
  | advanced a id e e' get follows => exact hput get follows
  | failed id trace inp reply e e' get fail => exact hput get (Entry.follows_fail fail)
  | failedDeferred id trace counted inp reply e e' get fail =>
      exact hput get (Entry.follows_failDeferred fail)
  | pruned id e get finished => exact hs.tasks.remove id

theorem Service.Sound.step {s t : Service} (hs : s.Sound) {a : ServiceAction}
    (h : s.step env ext options a = some t) : t.Sound := by
  refine ⟨hs.moves (Service.step_tasks h), fun d r step hget => ?_⟩
  rcases Service.step_dispatch h hget with hold | ⟨-, rfl⟩ | ⟨submission, counts, hold, rfl⟩ |
    ⟨add, reply, -, hold, rfl⟩
  · exact hs.dispatches d r step hold
  · exact r.carries_dispatch env ext.isEmail s.depthCache
  · exact JobRequest.carries_resumeCounting env (hs.dispatches d r _ hold) s.depthCache counts
  · exact JobRequest.carries_resumeAdding (hs.dispatches d r _ hold) _

theorem Service.sound_of_reachable {s : Service} (hs : (service env ext options).Reachable s) :
    s.Sound :=
  hs.invariant Service.initial_sound fun _ _ _ hs h => hs.step h

end TaskQueue

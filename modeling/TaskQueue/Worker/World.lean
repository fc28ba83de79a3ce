import TaskQueue.Lib.Automaton
import TaskQueue.Lib.Journal
import TaskQueue.Worker.TaskWorker

/-!
# The worker as a system

Executions of the processors, calls of the event handlers and crashes, in any
order, over one idempotency store.  A webhook execution is suspended at its
`fetch`; its POST is on the wire on its own, so it may be answered after the
execution was abandoned, and an answer may never reach the execution.  Which
jobs are begun and how often is left open: the queue redelivers.
-/

namespace TaskQueue

open Ecma

inductive WorkEvent
  | began (execution : Nat) (job : Job)
  /-- An effect of a turn of an execution, or of the `failed` handler. -/
  | did (execution : Option Nat) (effect : Effect)
  /-- The destination answered the POST of an execution. -/
  | answered (execution : Nat) (key : JsString) (status : Nat)
  | resolved (execution : Nat) (job : Job) (result : JobExecutionResult)
  | threw (execution : Nat) (error : JsError)
  /-- The `failed` handler called `sendToDLQ`. -/
  | routed (job : Job) (add : DlqAdd)
  | crashed

/-- A POST that was issued, and the status it was answered with, if it was. -/
structure Post where
  key : JsString
  status : Option Nat
  deriving DecidableEq

structure World where
  db : IdempotencyRows
  metrics : Metrics
  /-- Executions at their `fetch`. -/
  running : Table Nat (Job × WebhookDelivery)
  /-- POSTs that were answered or may still be. -/
  wire : Table Nat Post
  started : Nat
  journal : List WorkEvent

def World.initial : World := ⟨∅, ⟨∅, ∅⟩, ∅, ∅, 0, []⟩

inductive WorkAction
  /-- The worker callback is called for a job. -/
  | begin (job : Job) (inp : Inputs)
  /-- The destination answers a POST. -/
  | answer (execution : Nat) (status : Nat)
  /-- A POST is lost before it is answered. -/
  | drop (execution : Nat)
  /-- The answer reaches the execution. -/
  | settle (execution : Nat) (inp : Inputs)
  /-- The `fetch` of an execution rejects. -/
  | lose (execution : Nat) (message : Option JsString) (inp : Inputs)
  /-- The `completed` event. -/
  | completed (job : Job)
  /-- The `failed` event. -/
  | failed (job : Option Job) (err : JsError) (inp : Inputs)
  /-- The `add` of a `sendToDLQ` ends. -/
  | deadLettered (reply : Except JsError Unit)
  /-- The process dies and is started again: executions and counters are gone. -/
  | crash

/-! ## Steps -/

def World.machine (w : World) : Machine := ⟨w.db, w.metrics, []⟩

def World.after (w : World) (execution : Option Nat) (m : Machine) : World :=
  { w with
    db := m.db
    metrics := m.metrics
    journal := m.effects.map (.did execution) ++ w.journal }

def World.log (event : WorkEvent) (w : World) : World := { w with journal := event :: w.journal }

section Steps

variable (env : Environment) (ext : External)

def World.begin (job : Job) (inp : Inputs) (w : World) : World :=
  let e := w.started
  let turn := (processJob env ext inp job).run w.machine
  let after := { w.log (.began e job) with started := e + 1 }.after (some e) turn.2
  match turn.1 with
  | .ok (.returned result) => after.log (.resolved e job result)
  | .ok (.awaiting _ delivery) =>
      { after with
        running := after.running.put e (job, delivery)
        wire := after.wire.put e ⟨delivery.data.idempotencyKey, none⟩ }
  | .error err => after.log (.threw e err)

def World.resume (e : Nat) (reply : FetchReply) (inp : Inputs) (w : World) : Option World :=
  (w.running.get e).map fun (job, delivery) =>
    let turn := (resumeWebhookJob inp delivery reply).run w.machine
    let after := { w with running := w.running.remove e }.after (some e) turn.2
    match turn.1 with
    | .ok result => after.log (.resolved e job result)
    | .error err => after.log (.threw e err)

def World.answer (e status : Nat) (w : World) : Option World :=
  (w.wire.get e).bind fun post =>
    if post.status = none then
      some { w with
        wire := w.wire.put e { post with status := some status }
        journal := .answered e post.key status :: w.journal }
    else none

def World.drop (e : Nat) (w : World) : Option World :=
  (w.wire.get e).bind fun post =>
    if post.status = none then some { w with wire := w.wire.remove e } else none

def World.settle (e : Nat) (inp : Inputs) (w : World) : Option World :=
  ((w.wire.get e).bind Post.status).bind fun status => w.resume e (.response status) inp

def World.failed (job : Option Job) (err : JsError) (inp : Inputs) (w : World) : World :=
  let turn := (failedHandler inp job err).run w.machine
  let after := w.after none turn.2
  match job, turn.1 with
  | some job, .ok (some add) => after.log (.routed job add)
  | _, _ => after

def World.handle (turn : Work Unit) (w : World) : World := w.after none (turn.run w.machine).2

def World.crash (w : World) : World :=
  { w with metrics := ⟨∅, ∅⟩, running := ∅, journal := .crashed :: w.journal }

def World.step (w : World) : WorkAction → Option World
  | .begin job inp => some (w.begin env ext job inp)
  | .answer e status => w.answer e status
  | .drop e => w.drop e
  | .settle e inp => w.settle e inp
  | .lose e message inp => w.resume e (.failed message) inp
  | .completed job => some (w.handle (completedHandler job))
  | .failed job err inp => some (w.failed job err inp)
  | .deadLettered reply => some (w.handle (resumeFailedHandler reply))
  | .crash => some w.crash

/-- Every interleaving of the worker's executions, its handler and crashes. -/
def world : Automaton World WorkAction where
  start := .initial
  step := World.step env ext

end Steps

variable {env : Environment} {ext : External}

/-! ## What a step can do -/

inductive World.Begun (env : Environment) (ext : External) (w : World) (job : Job) (inp : Inputs) :
    World → Prop
  /-- It threw before its side-effect. -/
  | refused (err : JsError) : Begun env ext w job inp { w with
      started := w.started + 1
      journal := .threw w.started err :: .began w.started job :: w.journal }
  /-- The key was processed, and the stored result replayed. -/
  | replayed (t : JobName) (key : JsString) (result : JobExecutionResult)
      (name : job.name = t.text) (hkey : idempotencyKeyOf job.data = some key)
      (done : w.db.Completed t.text key)
      (replay : (replayStored ext inp t key).run w.machine = (.ok result, w.machine)) :
      Begun env ext w job inp { w with
        started := w.started + 1
        journal := .resolved w.started job result :: .began w.started job :: w.journal }
  /-- The email was sent, and recording it threw. -/
  | unrecorded (key : JsString) (err : JsError) (name : job.name = JobName.emailNotification.text)
      (hkey : idempotencyKeyOf job.data = some key)
      (fresh : ¬w.db.Completed JobName.emailNotification.text key) :
      Begun env ext w job inp { w with
        started := w.started + 1
        journal := .threw w.started err :: .did (some w.started) (.emailed key) ::
          .began w.started job :: w.journal }
  /-- The email was sent and recorded. -/
  | emailed (key : JsString) (result : JobExecutionResult) (now : Nat)
      (name : job.name = JobName.emailNotification.text)
      (hkey : idempotencyKeyOf job.data = some key)
      (fresh : ¬w.db.Completed JobName.emailNotification.text key)
      (fields : result.jobName = .emailNotification ∧ result.idempotencyKey = key ∧
        result.isDuplicate = none) :
      Begun env ext w job inp { w with
        db := w.db.put (JobName.emailNotification.text, key)
          (successRow now key JobName.emailNotification.text result.data)
        started := w.started + 1
        journal := .resolved w.started job result ::
          .did (some w.started) (.recordedSuccess JobName.emailNotification.text key result.data) ::
          .did (some w.started) (.emailed key) :: .began w.started job :: w.journal }
  /-- The webhook's POST was issued. -/
  | posted (data : WebhookJobData) (startTime : Nat)
      (name : job.name = JobName.webhookDelivery.text)
      (parse : parseWebhookJobRecord job.data = .ok data)
      (fresh : ¬w.db.Completed JobName.webhookDelivery.text data.idempotencyKey)
      (read : inp.fault 0 = none) :
      Begun env ext w job inp { w with
        running := w.running.put w.started (job, ⟨startTime, data⟩)
        wire := w.wire.put w.started ⟨data.idempotencyKey, none⟩
        started := w.started + 1
        journal := .did (some w.started) (.posted data.idempotencyKey) ::
          .began w.started job :: w.journal }

theorem World.begin_cases (env : Environment) (ext : External) (job : Job) (inp : Inputs)
    (w : World) : w.Begun env ext job inp (w.begin env ext job inp) := by
  unfold World.begin processJob
  cases hprocessor : getProcessorForJob job.name with
  | error err => exact .refused err
  | ok t =>
      have hname := getProcessorForJob_eq_ok.1 hprocessor
      cases t with
      | emailNotification =>
          rcases processEmailJob_cases ext inp job w.machine with
            ⟨err, h⟩ | ⟨key, hkey, ⟨hdone, result, h, hreplay⟩ | ⟨hfresh, -, ⟨err, h⟩ |
              ⟨result, -, hjob, hresult, hdup, h⟩⟩⟩
          · simp only [Turn.bind_of_error h]
            exact .refused err
          · simp only [Turn.bind_of_ok h]
            exact .replayed .emailNotification key result hname hkey hdone hreplay
          · simp only [Turn.bind_of_error h]
            exact .unrecorded key err hname hkey hfresh
          · simp only [Turn.bind_of_ok h]
            exact .emailed key result _ hname hkey hfresh ⟨hjob, hresult, hdup⟩
      | webhookDelivery =>
          rcases processWebhookJob_cases env ext inp job w.machine with
            ⟨err, h⟩ | ⟨data, hparse, hkey, ⟨hdone, result, h, hreplay⟩ | ⟨hfresh, hread, h⟩⟩
          · simp only [h]
            exact .refused err
          · simp only [h]
            exact .replayed .webhookDelivery data.idempotencyKey result hname hkey hdone hreplay
          · simp only [h]
            exact .posted data (inp.clock 0) hname hparse hfresh hread

inductive World.Resumed (w : World) (e : Nat) (reply : FetchReply) : World → Prop
  | threw (job : Job) (delivery : WebhookDelivery) (err : JsError)
      (get : w.running.get e = some (job, delivery)) :
      Resumed w e reply { w with
        running := w.running.remove e
        journal := .threw e err :: w.journal }
  | delivered (job : Job) (delivery : WebhookDelivery) (status now : Nat)
      (result : JobExecutionResult) (get : w.running.get e = some (job, delivery))
      (response : reply = .response status) (ok : isOk status = true)
      (fields : result.jobName = .webhookDelivery ∧
        result.idempotencyKey = delivery.data.idempotencyKey ∧ result.isDuplicate = none) :
      Resumed w e reply { w with
        db := w.db.put (JobName.webhookDelivery.text, delivery.data.idempotencyKey)
          (successRow now delivery.data.idempotencyKey JobName.webhookDelivery.text result.data)
        running := w.running.remove e
        journal := .resolved e job result ::
          .did (some e) (.recordedSuccess JobName.webhookDelivery.text
            delivery.data.idempotencyKey result.data) :: w.journal }

theorem World.resume_cases {e : Nat} {reply : FetchReply} {inp : Inputs} {w t : World}
    (h : w.resume e reply inp = some t) : w.Resumed e reply t := by
  obtain ⟨⟨job, delivery⟩, hget, rfl⟩ := Option.map_eq_some_iff.1 h
  rcases resumeWebhookJob_cases inp delivery reply w.machine with
    ⟨err, h⟩ | ⟨status, hreply, hok, -, result, -, hjob, hkey, hdup, h⟩
  · simp only [h]
    exact .threw job delivery err hget
  · simp only [h]
    exact .delivered job delivery status _ result hget hreply hok ⟨hjob, hkey, hdup⟩

theorem World.settle_cases {e : Nat} {inp : Inputs} {w t : World}
    (h : w.settle e inp = some t) :
    ∃ key status, w.wire.get e = some ⟨key, some status⟩ ∧ w.Resumed e (.response status) t := by
  obtain ⟨status, hpost, hresume⟩ := Option.bind_eq_some_iff.1 h
  obtain ⟨⟨key, s⟩, hget, rfl⟩ := Option.bind_eq_some_iff.1 hpost
  exact ⟨key, status, hget, World.resume_cases hresume⟩

theorem World.bind_unanswered {α : Type} {e : Nat} {w : World} {f : Post → α} {t : α} :
    ((w.wire.get e).bind fun post => if post.status = none then some (f post) else none) = some t ↔
      ∃ key, w.wire.get e = some ⟨key, none⟩ ∧ t = f ⟨key, none⟩ := by
  rw [Option.bind_eq_some_iff]
  constructor
  · rintro ⟨⟨key, s⟩, hget, h⟩
    split at h
    · rename_i hs
      simp only at hs
      subst hs
      exact ⟨key, hget, (Option.some.inj h).symm⟩
    · cases h
  · rintro ⟨key, hget, rfl⟩
    exact ⟨⟨key, none⟩, hget, rfl⟩

theorem World.answer_eq_some {e status : Nat} {w t : World} :
    w.answer e status = some t ↔ ∃ key, w.wire.get e = some ⟨key, none⟩ ∧
      t = { w with
        wire := w.wire.put e ⟨key, some status⟩
        journal := .answered e key status :: w.journal } :=
  World.bind_unanswered

theorem World.drop_eq_some {e : Nat} {w t : World} :
    w.drop e = some t ↔ ∃ key, w.wire.get e = some ⟨key, none⟩ ∧
      t = { w with wire := w.wire.remove e } :=
  World.bind_unanswered

inductive World.Handled (w : World) (job : Option Job) (err : JsError) (inp : Inputs) :
    World → Prop
  | counted (metrics : Metrics) (pending : ∀ j ∈ job, j.terminal = false) :
      Handled w job err inp { w with
        metrics
        journal := .did none .invalidatedSnapshot :: w.journal }
  | routed (j : Job) (metrics : Metrics) (add : DlqAdd) (hjob : job = some j)
      (terminal : j.terminal = true) (unrecorded : failedKey j = none ∨ inp.fault 0 ≠ none) :
      Handled w job err inp { w with
        metrics
        journal := .routed j add :: .did none .invalidatedSnapshot :: w.journal }
  | recorded (j : Job) (key : JsString) (metrics : Metrics) (add : DlqAdd) (hjob : job = some j)
      (terminal : j.terminal = true) (hkey : failedKey j = some key) (write : inp.fault 0 = none) :
      Handled w job err inp { w with
        db := w.db.put (j.name, key) (failureRow (inp.clock 0) key j.name err.message)
        metrics
        journal := .routed j add :: .did none (.recordedFailure j.name key err.message) ::
          .did none .invalidatedSnapshot :: w.journal }

theorem World.failed_cases (job : Option Job) (err : JsError) (inp : Inputs) (w : World) :
    w.Handled job err inp (w.failed job err inp) := by
  unfold World.failed
  rw [run_failedHandler]
  by_cases hterminal : ∀ j ∈ job, j.terminal = false
  · rw [routeTerminal_of_not_terminal inp err _ hterminal]
    cases job <;> exact .counted _ hterminal
  · cases job with
    | none => exact absurd (fun j hj => (by cases hj)) hterminal
    | some j =>
        have hj : j.terminal = true := by simpa using hterminal
        rw [routeTerminal_of_terminal inp err _ hj]
        rcases recordTerminal_cases inp j err (w.machine.countFailure (some j) err) with
          ⟨hnone, h⟩ | ⟨key, hkey, hwrite, h⟩
        · rw [h]
          exact .routed j _ _ rfl hj hnone
        · rw [h]
          exact .recorded j key _ _ rfl hj hkey hwrite

inductive World.Noted (w : World) : World → Prop
  | unchanged : Noted w w
  | invalidated (metrics : Metrics) :
      Noted w { w with
        metrics
        journal := .did none .invalidatedSnapshot :: w.journal }

theorem World.completed_noted (job : Job) (w : World) : w.Noted (w.handle (completedHandler job)) :=
  .invalidated _

theorem World.deadLettered_noted (reply : Except JsError Unit) (w : World) :
    w.Noted (w.handle (resumeFailedHandler reply)) := by
  cases reply with
  | ok _ => exact .invalidated _
  | error e => exact .unchanged

inductive World.Acted (env : Environment) (ext : External) (w : World) : WorkAction → World → Prop
  | began (job : Job) (inp : Inputs) (t : World) (begun : w.Begun env ext job inp t) :
      Acted env ext w (.begin job inp) t
  | answered (e status : Nat) (t : World) (answer : w.answer e status = some t) :
      Acted env ext w (.answer e status) t
  | dropped (e : Nat) (t : World) (drop : w.drop e = some t) : Acted env ext w (.drop e) t
  | settled (e : Nat) (inp : Inputs) (key : JsString) (status : Nat) (t : World)
      (get : w.wire.get e = some ⟨key, some status⟩) (resumed : w.Resumed e (.response status) t) :
      Acted env ext w (.settle e inp) t
  | lost (e : Nat) (message : Option JsString) (inp : Inputs) (t : World)
      (resumed : w.Resumed e (.failed message) t) : Acted env ext w (.lose e message inp) t
  | failed (job : Option Job) (err : JsError) (inp : Inputs) (t : World)
      (handled : w.Handled job err inp t) : Acted env ext w (.failed job err inp) t
  /-- Another event was handled. -/
  | noted (a : WorkAction) (t : World) (noted : w.Noted t) : Acted env ext w a t
  | crashed : Acted env ext w .crash w.crash

theorem World.step_cases {w t : World} {a : WorkAction} (h : w.step env ext a = some t) :
    w.Acted env ext a t := by
  cases a with
  | begin job inp =>
      obtain rfl := Option.some.inj h
      exact .began job inp _ (w.begin_cases env ext job inp)
  | answer e status => exact .answered e status t h
  | drop e => exact .dropped e t h
  | settle e inp =>
      obtain ⟨key, status, hget, hresumed⟩ := World.settle_cases h
      exact .settled e inp key status t hget hresumed
  | lose e message inp =>
      have hresume : w.resume e (.failed message) inp = some t := h
      exact .lost e message inp t (World.resume_cases hresume)
  | failed job err inp =>
      obtain rfl := Option.some.inj h
      exact .failed job err inp _ (w.failed_cases job err inp)
  | completed job =>
      obtain rfl := Option.some.inj h
      exact .noted _ _ (w.completed_noted job)
  | deadLettered reply =>
      obtain rfl := Option.some.inj h
      exact .noted _ _ (w.deadLettered_noted reply)
  | crash =>
      obtain rfl := Option.some.inj h
      exact .crashed

end TaskQueue

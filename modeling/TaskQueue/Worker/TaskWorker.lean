import TaskQueue.Queue.Dlq

/-!
# The worker

The processor callback of the task worker and the handlers of its `completed`
and `failed` events.  Their only await is the one inside `sendToDLQ`.
-/

namespace TaskQueue

open Ecma

def processJob (env : Environment) (ext : External) (inp : Inputs) (job : Job) :
    Work WebhookProgress :=
  match getProcessorForJob job.name with
  | .error e => Turn.throw e
  | .ok .emailNotification => do
      let result ← processEmailJob ext inp job
      pure (.returned result)
  | .ok .webhookDelivery => processWebhookJob env ext inp job

/-- The scope the callback runs a job in: `job.data?.correlationId ?? 'job-…'`. -/
def jobScope (job : Job) : Json :=
  match job.data.get? (js "correlationId") with
  | none | some .null => .string (js "job-" ++ job.id)
  | some correlationId => correlationId

def completedHandler (job : Job) : Work Unit := do
  perform .invalidatedSnapshot
  Turn.modify fun m => { m with metrics := { m.metrics with
    jobsProcessedTotal := m.metrics.jobsProcessedTotal.inc (job.name, js "success") } }

/-- `job?.opts?.attempts || 3`. -/
def maxAttempts (job : Option Job) : Nat :=
  match job.bind Job.attempts with
  | some 0 => 3
  | some n => n
  | none => 3

def Job.terminal (job : Job) : Bool := maxAttempts (some job) ≤ job.attemptsMade

/-- The key the terminal branch records under; the empty string is falsy.  The source takes any
truthy value for one, but the schemas take string keys only, so no other is submitted. -/
def failedKey (job : Job) : Option JsString :=
  (idempotencyKeyOf job.data).filter fun k => !k.isEmpty

/-- The scope the handler of `failed` runs in, `sendToDLQ` included. -/
def failedScope (job : Option Job) : Json :=
  match job with
  | some job => jobScope job
  | none => .string (js "job-undefined")

/-- `recordFailure` of the terminal branch: a failed write is logged and passed over. -/
def recordTerminal (inp : Inputs) (job : Job) (err : JsError) : Work Unit :=
  match failedKey job with
  | some key =>
      (recordFailure (inp.fault 0) (inp.clock 0) key job.name err.message).tryCatch fun _ => pure ()
  | none => pure ()

def countFailure (job : Option Job) (err : JsError) : Work Unit := do
  perform .invalidatedSnapshot
  let jobName := orElse ((job.map Job.name).getD []) (js "unknown")
  Turn.modify fun m => { m with metrics := { m.metrics with
    jobsFailedTotal := m.metrics.jobsFailedTotal.inc (jobName, orElse err.name (js "Error")) } }

/-- What it does once all attempts are exhausted, up to the `add` of `sendToDLQ`. -/
def routeTerminal (inp : Inputs) (job : Option Job) (err : JsError) : Work (Option DlqAdd) :=
  match job with
  | some job =>
      if job.terminal then do
        recordTerminal inp job err
        pure (some (sendToDLQ job err (inp.clock 1) (inp.clock 2)))
      else pure none
  | none => pure none

def failedHandler (inp : Inputs) (job : Option Job) (err : JsError) : Work (Option DlqAdd) := do
  countFailure job err
  routeTerminal inp job err

/-- The handler of `failed` from that `add` on; a failed routing is logged. -/
def resumeFailedHandler (reply : Except JsError Unit) : Work Unit :=
  (resumeSendToDLQ reply).tryCatch fun _ => pure ()

/-! ## What the handler can do -/

def Machine.countFailure (m : Machine) (job : Option Job) (err : JsError) : Machine where
  db := m.db
  metrics := { m.metrics with
    jobsFailedTotal := m.metrics.jobsFailedTotal.inc
      (orElse ((job.map Job.name).getD []) (js "unknown"), orElse err.name (js "Error")) }
  effects := .invalidatedSnapshot :: m.effects

theorem run_failedHandler (inp : Inputs) (job : Option Job) (err : JsError) (m : Machine) :
    (failedHandler inp job err).run m =
      (routeTerminal inp job err).run (m.countFailure job err) := rfl

/-- A terminal failure is recorded under its key unless there is none or the
write throws; either way the job goes to the DLQ. -/
theorem routeTerminal_of_terminal (inp : Inputs) {job : Job} (err : JsError) (m : Machine)
    (h : job.terminal = true) :
    (routeTerminal inp (some job) err).run m =
      (.ok (some (sendToDLQ job err (inp.clock 1) (inp.clock 2))),
        ((recordTerminal inp job err).run m).2) := by
  have hrecord : (recordTerminal inp job err).run m =
      (.ok (), ((recordTerminal inp job err).run m).2) := by
    unfold recordTerminal
    cases failedKey job with
    | none => rfl
    | some key => cases inp.fault 0 <;> rfl
  rw [routeTerminal, if_pos h]
  exact Turn.bind_of_ok hrecord

theorem routeTerminal_of_not_terminal (inp : Inputs) {job : Option Job} (err : JsError)
    (m : Machine) (h : ∀ j ∈ job, j.terminal = false) :
    (routeTerminal inp job err).run m = (.ok none, m) := by
  cases job with
  | none => rfl
  | some j =>
      rw [routeTerminal, if_neg (by simp [h j rfl])]
      rfl

theorem recordTerminal_cases (inp : Inputs) (job : Job) (err : JsError) (m : Machine) :
    ((failedKey job = none ∨ inp.fault 0 ≠ none) ∧ ((recordTerminal inp job err).run m).2 = m) ∨
    (∃ key, failedKey job = some key ∧ inp.fault 0 = none ∧
      ((recordTerminal inp job err).run m).2 = { m with
        db := m.db.put (job.name, key) (failureRow (inp.clock 0) key job.name err.message)
        effects := .recordedFailure job.name key err.message :: m.effects }) := by
  unfold recordTerminal
  cases failedKey job with
  | none => exact Or.inl ⟨Or.inl rfl, rfl⟩
  | some key =>
      cases inp.fault 0 with
      | some e => exact Or.inl ⟨Or.inr (by simp), rfl⟩
      | none => exact Or.inr ⟨key, rfl, rfl, rfl⟩

end TaskQueue

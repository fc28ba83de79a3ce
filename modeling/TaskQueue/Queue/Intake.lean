import TaskQueue.Jobs.Records
import TaskQueue.Logging.Context
import TaskQueue.Queue.Producer

/-!
# Job intake

The two intake routes: a request is dispatched in its correlation scope, a
dispatch that resolves is answered `202`, and one that throws by the error handler.
-/

namespace TaskQueue

open Ecma Schema

/-- A `POST /api/jobs/...` that passed the limiters, with the id drawn for it and
the clock reading of its depth check. -/
structure JobRequest where
  jobName : JobName
  body : Json
  /-- The `x-correlation-id` header. -/
  header : Option JsString
  randomUUID : Uuid
  now : Nat

def JobRequest.correlationId (r : JobRequest) : JsString :=
  correlationMiddleware r.header r.randomUUID

def JobRequest.correlationHeader (r : JobRequest) : JsString × JsString :=
  (js "x-correlation-id", correlationMiddleware r.header r.randomUUID)

def JobRequest.dispatch (env : Environment) (isEmail : JsString → Bool)
    (depthCache : Option DepthCacheEntry) (r : JobRequest) : DispatchStep :=
  dispatchJob env isEmail depthCache r.jobName r.body (some r.correlationId) r.now

/-- `data.correlationId`, when it is a string. -/
def correlationIdOf (data : Json) : Option JsString :=
  (data.get? (js "correlationId")).bind Json.string?

def destinationOf (data : Json) : Option JsString :=
  (data.get? (js "destination")).bind Json.string?

structure AcceptedReply where
  message : JsString
  jobId : JsString
  idempotencyKey : Option JsString
  /-- Of webhooks only. -/
  destination : Option JsString
  correlationId : JsString
  status : JsString

def JobRequest.accepted (r : JobRequest) (job : TaskAdd) : AcceptedReply :=
  match r.jobName with
  | .emailNotification => {
      message := js "Email job dispatched successfully"
      jobId := job.jobId
      idempotencyKey := idempotencyKeyOf job.data
      destination := none
      correlationId := r.correlationId
      status := js "QUEUED" }
  | .webhookDelivery => {
      message := js "Webhook delivery job dispatched successfully"
      jobId := job.jobId
      idempotencyKey := idempotencyKeyOf job.data
      destination := destinationOf job.data
      correlationId := r.correlationId
      status := js "QUEUED" }

structure IssueDetail where
  path : JsString
  code : IssueCode

/-- The `details` field of the reply, which only validation errors have. -/
def DispatchError.details : DispatchError → Option (List IssueDetail)
  | .invalid issues => some (issues.map fun issue => ⟨(js ".").intercalate issue.path, issue.code⟩)
  | _ => none

inductive IntakeReply
  | accepted (body : AcceptedReply)
  | refused (statusCode : Nat) (error : JsString) (details : Option (List IssueDetail))

def IntakeReply.statusCode : IntakeReply → Nat
  | .accepted _ => 202
  | .refused statusCode _ _ => statusCode

def JobRequest.reply (r : JobRequest) : DispatchStep → Option IntakeReply
  | .resolved job => some (.accepted (r.accepted job))
  | .rejected error => some (.refused error.statusCode error.publicMessage error.details)
  | .counting _ => none
  | .adding _ => none

theorem JobRequest.reply_eq_accepted {r : JobRequest} {step : DispatchStep} {body : AcceptedReply} :
    r.reply step = some (.accepted body) ↔ ∃ job, step = .resolved job ∧ body = r.accepted job := by
  constructor
  · intro h
    cases step with
    | resolved job =>
        cases h
        exact ⟨job, rfl, rfl⟩
    | rejected error => cases h
    | counting submission => cases h
    | adding add => cases h
  · rintro ⟨job, rfl, rfl⟩
    rfl

/-! ## What a request adds -/

def jobIdOf (t : JobName) (key : JsString) : JsString :=
  match t with
  | .emailNotification => js "email_" ++ key
  | .webhookDelivery => js "webhook_" ++ key

theorem jobIdOf_injective {t u : JobName} {k l : JsString} (h : jobIdOf t k = jobIdOf u l) :
    t = u ∧ k = l := by
  have hhead : ∀ a b : JsString, js "email_" ++ a ≠ js "webhook_" ++ b := by
    intro a b hab
    have hunit : (some 0x65 : Option UInt16) = some 0x77 := congrArg List.head? hab
    exact absurd hunit (by decide)
  cases t <;> cases u
  · exact ⟨rfl, List.append_cancel_left h⟩
  · exact absurd h (hhead k l)
  · exact absurd h.symm (hhead l k)
  · exact ⟨rfl, List.append_cancel_left h⟩

/-- What `enqueue` is called with for validated data. -/
def ValidJob.submission (d : ValidJob) (jobName : JobName) (correlationId : Option JsString)
    (now : Nat) : Submission where
  jobName
  jobId := jobIdOf jobName d.idempotencyKey
  data := d.toProps
  correlationId
  now

theorem dispatchJob_cases (env : Environment) (isEmail : JsString → Bool)
    (depthCache : Option DepthCacheEntry) (jobName : JobName) (payload : Json)
    (correlationId : Option JsString) (now : Nat) :
    (∃ issues, parseJobData isEmail jobName payload = .error issues ∧
      dispatchJob env isEmail depthCache jobName payload correlationId now =
        .rejected (.invalid issues)) ∨
    (∃ d, parseJobData isEmail jobName payload = .ok d ∧
      dispatchJob env isEmail depthCache jobName payload correlationId now =
        enqueue env depthCache (d.submission jobName correlationId now)) := by
  cases jobName with
  | emailNotification =>
      simp only [parseJobData, dispatchJob, dispatchEmailJob]
      cases parseEmailJobData isEmail payload with
      | error issues => exact Or.inl ⟨issues, rfl, rfl⟩
      | ok data => exact Or.inr ⟨.email data, rfl, rfl⟩
  | webhookDelivery =>
      simp only [parseJobData, dispatchJob, dispatchWebhookJob]
      cases parseWebhookJobData payload with
      | error issues => exact Or.inl ⟨issues, rfl, rfl⟩
      | ok data => exact Or.inr ⟨.webhook data, rfl, rfl⟩

theorem dispatchJob_of_valid (env : Environment) {isEmail : JsString → Bool} {jobName : JobName}
    {payload : Json} {d : ValidJob} (h : parseJobData isEmail jobName payload = .ok d)
    (depthCache : Option DepthCacheEntry) (correlationId : Option JsString) (now : Nat) :
    dispatchJob env isEmail depthCache jobName payload correlationId now =
      enqueue env depthCache (d.submission jobName correlationId now) := by
  rcases dispatchJob_cases env isEmail depthCache jobName payload correlationId now with
    ⟨issues, hparse, -⟩ | ⟨d', hparse, hdispatch⟩
  · rw [h] at hparse
    cases hparse
  · rw [h] at hparse
    obtain rfl := Except.ok.inj hparse
    exact hdispatch

theorem dispatchJob_of_invalid (env : Environment) {isEmail : JsString → Bool} {jobName : JobName}
    {payload : Json} {issues : List Issue}
    (h : parseJobData isEmail jobName payload = .error issues)
    (depthCache : Option DepthCacheEntry) (correlationId : Option JsString) (now : Nat) :
    dispatchJob env isEmail depthCache jobName payload correlationId now =
      .rejected (.invalid issues) := by
  rcases dispatchJob_cases env isEmail depthCache jobName payload correlationId now with
    ⟨issues', hparse, hdispatch⟩ | ⟨d, hparse, -⟩
  · rw [h] at hparse
    obtain rfl := Except.error.inj hparse
    exact hdispatch
  · rw [h] at hparse
    cases hparse

theorem enqueue_eq_counting {env : Environment} {depthCache : Option DepthCacheEntry}
    {s submission : Submission} :
    enqueue env depthCache s = .counting submission ↔
      cachedDepth depthCache s.now = none ∧ submission = s := by
  unfold enqueue
  split
  · rename_i depth hcached
    unfold Submission.withDepth
    split <;> simp [hcached]
  · rename_i hcached
    simp [hcached, eq_comm]

/-- The arguments of `add` are those of the request: its type and key, and the
correlation id of its scope. -/
structure JobRequest.Adds (r : JobRequest) (key : JsString) (add : TaskAdd) : Prop where
  name : add.name = r.jobName.text
  jobId : add.jobId = jobIdOf r.jobName key
  idempotencyKey : idempotencyKeyOf add.data = some key
  correlationId : correlationIdOf add.data = some r.correlationId

def JobRequest.Carries (r : JobRequest) : DispatchStep → Prop
  | .rejected _ => True
  | .counting submission => ∃ key, r.Adds key submission.toAdd
  | .adding add => ∃ key, r.Adds key add
  | .resolved job => ∃ key, r.Adds key job

theorem stamp_of_ne_nil (data : List (JsString × Json)) {id : JsString} (h : id ≠ []) :
    stamp data (some id) = .object (data ++ [(js "correlationId", .string id)]) := by
  have hkept : (!id.isEmpty) = true := by simpa using h
  rw [stamp, Option.filter_some, if_pos hkept]
  rfl

section

variable (env : Environment)

theorem JobRequest.carries_withDepth {r : JobRequest} {key : JsString} {s : Submission}
    (h : r.Adds key s.toAdd) (depth : Nat) : r.Carries (s.withDepth env depth) := by
  unfold Submission.withDepth
  split
  · trivial
  · exact ⟨key, h⟩

theorem JobRequest.carries_enqueue {r : JobRequest} (key : JsString) {s : Submission}
    (h : r.Adds key s.toAdd) (depthCache : Option DepthCacheEntry) :
    r.Carries (enqueue env depthCache s) := by
  unfold enqueue
  split
  · exact carries_withDepth env h _
  · exact ⟨key, h⟩

theorem JobRequest.carries_dispatch (isEmail : JsString → Bool)
    (depthCache : Option DepthCacheEntry) (r : JobRequest) :
    r.Carries (r.dispatch env isEmail depthCache) := by
  have hid : r.correlationId ≠ [] := correlationMiddleware_ne_nil _ _
  unfold JobRequest.dispatch
  rcases dispatchJob_cases env isEmail depthCache r.jobName r.body (some r.correlationId) r.now with
    ⟨issues, -, hdispatch⟩ | ⟨d, -, hdispatch⟩
  · rw [hdispatch]
    trivial
  · rw [hdispatch]
    refine r.carries_enqueue env d.idempotencyKey ⟨rfl, rfl, ?_, ?_⟩ depthCache
    · simp only [ValidJob.submission, Submission.toAdd, stamp_of_ne_nil _ hid]
      cases d <;> rfl
    · simp only [ValidJob.submission, Submission.toAdd, stamp_of_ne_nil _ hid]
      cases d <;> rfl

theorem JobRequest.carries_resumeCounting {r : JobRequest} {s : Submission}
    (h : r.Carries (.counting s)) (depthCache : Option DepthCacheEntry)
    (reply : Except (Option JsString) JobCounts) :
    r.Carries (resumeCounting env depthCache s reply).1 := by
  obtain ⟨key, hadds⟩ := h
  cases reply with
  | ok counts => exact carries_withDepth env hadds _
  | error cause => trivial

end

theorem JobRequest.carries_resumeAdding {r : JobRequest} {add : TaskAdd}
    (h : r.Carries (.adding add)) (reply : Except (Option JsString) Unit) :
    r.Carries (resumeAdding add reply).1 := by
  cases reply with
  | ok _ => exact h
  | error cause => trivial

/-! ## What the reply says -/

theorem JobRequest.accepted_jobId (r : JobRequest) (job : TaskAdd) :
    (r.accepted job).jobId = job.jobId := by
  unfold JobRequest.accepted
  split <;> rfl

theorem JobRequest.accepted_idempotencyKey (r : JobRequest) (job : TaskAdd) :
    (r.accepted job).idempotencyKey = idempotencyKeyOf job.data := by
  unfold JobRequest.accepted
  split <;> rfl

theorem JobRequest.accepted_correlationId (r : JobRequest) (job : TaskAdd) :
    (r.accepted job).correlationId = r.correlationId := by
  unfold JobRequest.accepted
  split <;> rfl

theorem JobRequest.accepted_destination {r : JobRequest} (h : r.jobName = .webhookDelivery)
    (job : TaskAdd) : (r.accepted job).destination = destinationOf job.data := by
  unfold JobRequest.accepted
  rw [h]

end TaskQueue

import TaskQueue.Config.Environment
import TaskQueue.Jobs.JobTypes

/-!
# The producer

`dispatchEmailJob` and `dispatchWebhookJob` validate, and share `enqueue`, which
awaits twice: the depth counts, unless a recent depth is cached, and the `add`.
A dispatch is a sequence of steps between these awaits.
-/

namespace TaskQueue

open Ecma Schema

/-! ## Depth -/

structure DepthCacheEntry where
  depth : Nat
  expiresAt : Nat
  deriving DecidableEq

structure JobCounts where
  waiting : Nat
  active : Nat
  delayed : Nat

/-- The cached depth, while it is recent. -/
def cachedDepth (depthCache : Option DepthCacheEntry) (now : Nat) : Option Nat :=
  (depthCache.filter fun entry => now < entry.expiresAt).map DepthCacheEntry.depth

/-! ## Errors -/

inductive DispatchError
  /-- A `ZodError`. -/
  | invalid (issues : List Issue)
  | queueDepthExceeded (depth limit : Nat)
  | queueUnavailable (cause : Option JsString)

def DispatchError.statusCode : DispatchError → Nat
  | .invalid _ => 400
  | .queueDepthExceeded .. => 429
  | .queueUnavailable _ => 503

/-- The `error` field of the reply. -/
def DispatchError.publicMessage : DispatchError → JsString
  | .invalid _ => js "Invalid payload schema"
  | .queueDepthExceeded .. => js "Queue is at capacity. Please retry shortly."
  | .queueUnavailable _ => js "Queue backend is temporarily unavailable."

/-! ## Enqueue -/

/-- The arguments of `enqueue` that reach the queue, with the correlation id of
the request and the clock reading of the depth check. -/
structure Submission where
  jobName : JobName
  jobId : JsString
  data : List (JsString × Json)
  correlationId : Option JsString
  now : Nat

structure TaskAdd where
  name : JsString
  data : Json
  jobId : JsString

inductive DispatchStep
  | rejected (error : DispatchError)
  /-- At `getJobCounts`. -/
  | counting (submission : Submission)
  /-- At `taskQueue.add`. -/
  | adding (add : TaskAdd)
  | resolved (job : TaskAdd)

/-- `{ ...data, correlationId }`, unless there is no id. -/
def stamp (data : List (JsString × Json)) (correlationId : Option JsString) : Json :=
  .object (data ++ ((correlationId.filter fun id => !id.isEmpty).map fun id =>
    (js "correlationId", Json.string id)).toList)

def Submission.toAdd (s : Submission) : TaskAdd where
  name := s.jobName.text
  data := stamp s.data s.correlationId
  jobId := s.jobId

section

variable (env : Environment)

/-- `assertQueueHasCapacity` once the depth is known, and `enqueue` up to its `add`. -/
def Submission.withDepth (s : Submission) (depth : Nat) : DispatchStep :=
  if env.maxQueueDepth ≤ depth then .rejected (.queueDepthExceeded depth env.maxQueueDepth)
  else .adding s.toAdd

/-- `enqueue` up to its first await. -/
def enqueue (depthCache : Option DepthCacheEntry) (s : Submission) : DispatchStep :=
  match cachedDepth depthCache s.now with
  | some depth => s.withDepth env depth
  | none => .counting s

/-- `enqueue` from `getJobCounts` on; a reading is cached for the time it was asked at. -/
def resumeCounting (depthCache : Option DepthCacheEntry) (s : Submission)
    (reply : Except (Option JsString) JobCounts) : DispatchStep × Option DepthCacheEntry :=
  match reply with
  | .ok counts =>
      let depth := counts.waiting + counts.active + counts.delayed
      (s.withDepth env depth, some ⟨depth, s.now + env.queueDepthCacheTtlMs⟩)
  | .error cause => (.rejected (.queueUnavailable cause), depthCache)

def resumeAdding (add : TaskAdd) (reply : Except (Option JsString) Unit) : DispatchStep × Bool :=
  match reply with
  | .ok () => (.resolved add, true)
  | .error cause => (.rejected (.queueUnavailable cause), false)

/-! ## Dispatch -/

def dispatchEmailJob (isEmail : JsString → Bool) (depthCache : Option DepthCacheEntry)
    (payload : Json) (correlationId : Option JsString) (now : Nat) : DispatchStep :=
  match parseEmailJobData isEmail payload with
  | .error issues => .rejected (.invalid issues)
  | .ok data => enqueue env depthCache {
      jobName := .emailNotification
      jobId := js "email_" ++ data.idempotencyKey
      data := data.toProps
      correlationId
      now }

def dispatchWebhookJob (depthCache : Option DepthCacheEntry) (payload : Json)
    (correlationId : Option JsString) (now : Nat) : DispatchStep :=
  match parseWebhookJobData payload with
  | .error issues => .rejected (.invalid issues)
  | .ok data => enqueue env depthCache {
      jobName := .webhookDelivery
      jobId := js "webhook_" ++ data.idempotencyKey
      data := data.toProps
      correlationId
      now }

def dispatchJob (isEmail : JsString → Bool) (depthCache : Option DepthCacheEntry)
    (jobName : JobName) (payload : Json) (correlationId : Option JsString) (now : Nat) :
    DispatchStep :=
  match jobName with
  | .emailNotification => dispatchEmailJob env isEmail depthCache payload correlationId now
  | .webhookDelivery => dispatchWebhookJob env depthCache payload correlationId now

end

end TaskQueue

import TaskQueue.Processors.Processors

/-!
# The dead letter queue

`sendToDLQ` is split at its `add`: it hands one entry to the queue, and once the
entry is written it invalidates the dashboard.
-/

namespace TaskQueue

open Ecma

structure DLQPayload where
  originalJobId : JsString
  jobName : JsString
  data : Json
  failedReason : JsString
  failedAt : JsString
  attemptsMade : Nat
  stacktrace : Option (List JsString)

structure DlqAdd where
  name : JsString
  payload : DLQPayload
  jobId : JsString

def dlqJobId (id : JsString) (now : Nat) : JsString :=
  js "dlq_" ++ id ++ js "_" ++ decimal now

/-- `sendToDLQ` up to its `add`, with the two clock readings it takes. -/
def sendToDLQ (job : Job) (error : JsError) (failedAt addedAt : Nat) : DlqAdd where
  name := js "DLQ_" ++ job.name
  payload := {
    originalJobId := job.id
    jobName := job.name
    data := job.data
    failedReason := orElse error.message (js "Unknown error")
    failedAt := toISOString failedAt
    attemptsMade := job.attemptsMade
    stacktrace := job.stacktrace }
  jobId := dlqJobId job.id addedAt

def resumeSendToDLQ : Except JsError Unit → Work Unit
  | .ok () => perform .invalidatedSnapshot
  | .error e => Turn.throw e

end TaskQueue

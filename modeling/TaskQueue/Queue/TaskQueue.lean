import TaskQueue.Lib.JobQueue
import TaskQueue.Queue.Dlq
import TaskQueue.Queue.Producer

/-!
# The task queue

The queue the producer adds to and the worker takes from, and the dead letter
queue, which nothing takes from.
-/

namespace TaskQueue

open Ecma JobQueue

structure TaskData where
  name : JsString
  data : Json

abbrev TaskEntry := Entry TaskData JsString

abbrev Tasks := Queue JsString TaskData JsString

abbrev DeadLetters := Queue JsString DlqAdd JsString

structure JobOptions where
  attempts : Nat
  attempts_pos : 0 < attempts

def defaultJobOptions : JobOptions := ⟨3, by decide⟩

/-- How often a job may stall; the worker does not set it. -/
def maxStalledCount : Nat := 1

def jobOf (id : JsString) (e : TaskEntry) : Job where
  id
  name := e.data.name
  data := e.data.data
  attemptsMade := e.attemptsMade
  attempts := some e.attempts
  stacktrace := some e.stacktrace

/-- `taskQueue.getJobCounts('waiting', 'active', 'delayed')`. -/
def getJobCounts (tasks : Tasks) : JobCounts where
  waiting := tasks.count fun e => e.state == .waiting
  active := tasks.count fun e => e.lock.isSome
  delayed := tasks.count fun e => e.state == .delayed

inductive AddReply
  | done
  /-- It never reached the queue. -/
  | refused (error : JsError)
  /-- It was carried out, and the reply was lost. -/
  | lost (error : JsError)

def AddReply.written : AddReply → Bool
  | .refused _ => false
  | _ => true

def AddReply.result : AddReply → Except JsError Unit
  | .done => .ok ()
  | .refused e => .error e
  | .lost e => .error e

def addTask (options : JobOptions) (add : TaskAdd) (reply : AddReply) (tasks : Tasks) : Tasks :=
  if reply.written then tasks.add options.attempts add.jobId ⟨add.name, add.data⟩ else tasks

/-- `dlqQueue.add`, as far as the queue is concerned; no attempts are set. -/
def addDeadLetter (add : DlqAdd) (reply : AddReply) (dlq : DeadLetters) : DeadLetters :=
  if reply.written then dlq.add 0 add.jobId add else dlq

end TaskQueue

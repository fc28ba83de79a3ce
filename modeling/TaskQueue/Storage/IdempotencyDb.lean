import TaskQueue.Jobs.JobTypes
import TaskQueue.Lib.JsDate
import TaskQueue.Lib.Table
import TaskQueue.Lib.Turn

/-!
# The idempotency store

One SQLite table with the primary key `(job_name, key)`, read and written by
prepared statements.  Any call may throw instead (a busy database, a full disk),
in which case the table is as it was; the exception is an argument, so a run
chooses where it happens.  The text columns keep the strings bound to them.
-/

namespace TaskQueue

open Ecma

/-- An `Error`: its name and message. -/
structure JsError where
  name : JsString
  message : JsString
  deriving DecidableEq

def JsError.plain (message : JsString) : JsError := ⟨js "Error", message⟩

/-! ## Rows -/

inductive RecordStatus
  | completed
  | failed
  deriving DecidableEq

structure IdempotencyRecord where
  key : JsString
  job_name : JsString
  status : RecordStatus
  result_json : JsString
  created_at : JsString
  deriving DecidableEq

abbrev IdempotencyRows := Table (JsString × JsString) IdempotencyRecord

def IdempotencyRows.Completed (rows : IdempotencyRows) (jobName key : JsString) : Prop :=
  ∃ record ∈ rows.get (jobName, key), record.status = .completed

instance (rows : IdempotencyRows) (jobName key : JsString) :
    Decidable (rows.Completed jobName key) :=
  inferInstanceAs (Decidable (∃ record ∈ rows.get (jobName, key), record.status = .completed))

/-- `INSERT … ON CONFLICT(job_name, key) DO UPDATE` of the three other columns. -/
def IdempotencyRows.upsert (rows : IdempotencyRows) (record : IdempotencyRecord) :
    IdempotencyRows :=
  rows.put (record.job_name, record.key) record

/-! ## The process -/

abbrev Counter := Table (JsString × JsString) Nat

def Counter.inc (c : Counter) (labels : JsString × JsString) : Counter :=
  c.put labels ((c.get labels).getD 0 + 1)

structure Metrics where
  jobsProcessedTotal : Counter
  jobsFailedTotal : Counter

/-- What a turn did beyond the state it left: the side-effects of the job types,
the writes to the store, and calls into the dashboard cache. -/
inductive Effect
  | emailed (key : JsString)
  | posted (key : JsString)
  | recordedSuccess (jobName key : JsString) (result : Json)
  | recordedFailure (jobName key error : JsString)
  | invalidatedSnapshot

/-- The state the worker's code reads and writes, and the effects of the current
turn, latest first. -/
structure Machine where
  db : IdempotencyRows
  metrics : Metrics
  effects : List Effect

abbrev Work := Turn JsError Machine

def perform (e : Effect) : Work Unit :=
  Turn.modify fun m => { m with effects := e :: m.effects }

/-! ## Methods -/

def getRecord (fault : Option JsError) (jobName key : JsString) :
    Work (Option IdempotencyRecord) := do
  Turn.failing fault
  let m ← Turn.get
  pure (m.db.get (jobName, key))

def hasBeenProcessed (fault : Option JsError) (jobName key : JsString) : Work Bool := do
  let record ← getRecord fault jobName key
  pure (match record with
    | some record => record.status == .completed
    | none => false)

def recordSuccess (fault : Option JsError) (now : Nat) (key jobName : JsString) (result : Json) :
    Work Unit := do
  Turn.failing fault
  Turn.modify fun m => { m with db := m.db.upsert {
    key, job_name := jobName, status := .completed, result_json := result.stringify
    created_at := toISOString now } }
  perform (.recordedSuccess jobName key result)

def recordFailure (fault : Option JsError) (now : Nat) (key jobName error : JsString) :
    Work Unit := do
  Turn.failing fault
  Turn.modify fun m => { m with db := m.db.upsert {
    key, job_name := jobName, status := .failed
    result_json := (Json.object [(js "error", .string error)]).stringify
    created_at := toISOString now } }
  perform (.recordedFailure jobName key error)

/-! ## What each method can do -/

theorem hasBeenProcessed_none (jobName key : JsString) (m : Machine) :
    (hasBeenProcessed none jobName key).run m = (.ok (decide (m.db.Completed jobName key)), m) := by
  have hget : (getRecord none jobName key).run m = (.ok (m.db.get (jobName, key)), m) := rfl
  rw [hasBeenProcessed, Turn.bind_of_ok hget, Turn.run_pure]
  cases h : m.db.get (jobName, key) with
  | none => simp [IdempotencyRows.Completed, h]
  | some record =>
      simp only [IdempotencyRows.Completed, h, Option.mem_def, Option.some.injEq, exists_eq_left']
      rfl

theorem getRecord_none (jobName key : JsString) (m : Machine) :
    (getRecord none jobName key).run m = (.ok (m.db.get (jobName, key)), m) := rfl

theorem getRecord_some (e : JsError) (jobName key : JsString) (m : Machine) :
    (getRecord (some e) jobName key).run m = (.error e, m) := rfl

def successRow (now : Nat) (key jobName : JsString) (result : Json) : IdempotencyRecord :=
  ⟨key, jobName, .completed, result.stringify, toISOString now⟩

def failureRow (now : Nat) (key jobName error : JsString) : IdempotencyRecord :=
  ⟨key, jobName, .failed, (Json.object [(js "error", .string error)]).stringify, toISOString now⟩

end TaskQueue

import TaskQueue.Config.Environment
import TaskQueue.Storage.IdempotencyDb

/-!
# The processors

`processEmailJob` is one turn.  `processWebhookJob` is two: it runs up to its
`fetch`, and is resumed with the reply.  Between the two anything else may run,
and the second may never come.
-/

namespace TaskQueue

open Ecma Schema

/-! ## Inputs -/

structure External where
  isEmail : JsString → Bool
  /-- The message of a `ZodError`. -/
  zodMessage : List Issue → JsString
  /-- The message of the `SyntaxError` for a text that is not JSON. -/
  syntaxMessage : JsString → JsString

/-- What one turn reads from outside: successive clock readings, the random part
of a message id, and what the store calls of the turn throw, if they do. -/
structure Inputs where
  clock : Nat → Nat
  random : JsString
  fault : Nat → Option JsError

/-- The part of a BullMQ job that the worker's code reads. -/
structure Job where
  id : JsString
  name : JsString
  data : Json
  attemptsMade : Nat
  /-- `opts.attempts`. -/
  attempts : Option Nat
  stacktrace : Option (List JsString)

structure JobExecutionResult where
  success : Bool
  jobName : JobName
  idempotencyKey : JsString
  processedAt : JsString
  durationMs : Int
  data : Json
  isDuplicate : Option Bool

def parsed {α : Type} (ext : External) : Except (List Issue) α → Work α
  | .ok a => pure a
  | .error issues => Turn.throw ⟨js "ZodError", ext.zodMessage issues⟩

/-- `x || fallback` of a string. -/
def orElse (x fallback : JsString) : JsString := if x.isEmpty then fallback else x

/-- The early return both processors make for a key that was processed: the
stored result is read again and replayed. -/
def replayStored (ext : External) (inp : Inputs) (jobName : JobName) (idempotencyKey : JsString) :
    Work JobExecutionResult := do
  let existing ← getRecord (inp.fault 1) jobName.text idempotencyKey
  let createdAt := (existing.map IdempotencyRecord.created_at).getD []
  let resultJson := (existing.map IdempotencyRecord.result_json).getD []
  match Json.parse (orElse resultJson (js "{}")) with
  | none => Turn.throw ⟨js "SyntaxError", ext.syntaxMessage resultJson⟩
  | some data =>
      pure {
        success := true
        jobName
        idempotencyKey
        processedAt := orElse createdAt (toISOString (inp.clock 1))
        durationMs := 0
        data
        isDuplicate := some true }

/-! ## Email -/

/-- Bytes of the UTF-8 encoding; an unpaired surrogate takes three. -/
def utf8ByteLength : JsString → Nat
  | [] => 0
  | [u] => if u < 0x80 then 1 else if u < 0x800 then 2 else 3
  | u :: v :: s =>
      if isLeadSurrogate u && isTrailSurrogate v then 4 + utf8ByteLength s
      else (if u < 0x80 then 1 else if u < 0x800 then 2 else 3) + utf8ByteLength (v :: s)

def emailResultData (inp : Inputs) (data : EmailJobData) : Json :=
  .object [
    (js "messageId", .string (js "msg_" ++ decimal (inp.clock 1) ++ js "_" ++ inp.random)),
    (js "deliveredTo", .string data.«to»),
    (js "subject", .string data.subject),
    (js "bytesSent", .number (.ofNat (utf8ByteLength data.body)))]

def processEmailJob (ext : External) (inp : Inputs) (job : Job) : Work JobExecutionResult := do
  let startTime := inp.clock 0
  let data ← parsed ext (parseEmailJobRecord ext.isEmail job.data)
  let idempotencyKey := data.idempotencyKey
  if ← hasBeenProcessed (inp.fault 0) JobName.emailNotification.text idempotencyKey then
    replayStored ext inp .emailNotification idempotencyKey
  else
    perform (.emailed idempotencyKey)
    let resultData := emailResultData inp data
    let durationMs : Int := inp.clock 2 - startTime
    recordSuccess (inp.fault 1) (inp.clock 3) idempotencyKey JobName.emailNotification.text
      resultData
    pure {
      success := true
      jobName := .emailNotification
      idempotencyKey
      processedAt := toISOString (inp.clock 4)
      durationMs
      data := resultData
      isDuplicate := none }

/-! ## Webhook -/

def webhookSinkPath : JsString := js "/internal/webhook-sink"

def webhookUnavailablePath : JsString := js "/internal/webhook-sink/unavailable"

/-- Maps a named destination onto a loopback URL. -/
def resolveWebhookDestination (env : Environment) (destination : WebhookDestination) : JsString :=
  let base := js "http://127.0.0.1:" ++ decimal env.port
  match destination with
  | .demoAvailable => base ++ webhookSinkPath
  | .demoUnavailable => base ++ webhookUnavailablePath

structure FetchRequest where
  url : JsString
  method : JsString
  headers : List (JsString × JsString)
  body : JsString
  timeoutMs : Nat

/-- An execution of `processWebhookJob` at its `fetch`: the locals it needs after it. -/
structure WebhookDelivery where
  startTime : Nat
  data : WebhookJobData

inductive WebhookProgress
  | returned (result : JobExecutionResult)
  | awaiting (request : FetchRequest) (delivery : WebhookDelivery)

def webhookRequest (env : Environment) (data : WebhookJobData) : FetchRequest where
  url := resolveWebhookDestination env data.destination
  method := js "POST"
  headers := [(js "Content-Type", js "application/json"),
    (js "X-Idempotency-Key", data.idempotencyKey)]
  body := (Json.object
    [(js "event", .string data.event), (js "payload", .object data.payload)]).stringify
  timeoutMs := env.webhookTimeoutMs

/-- `processWebhookJob` up to its `fetch`. -/
def processWebhookJob (env : Environment) (ext : External) (inp : Inputs) (job : Job) :
    Work WebhookProgress := do
  let startTime := inp.clock 0
  let data ← parsed ext (parseWebhookJobRecord job.data)
  let idempotencyKey := data.idempotencyKey
  if ← hasBeenProcessed (inp.fault 0) JobName.webhookDelivery.text idempotencyKey then
    let result ← replayStored ext inp .webhookDelivery idempotencyKey
    pure (.returned result)
  else
    perform (.posted idempotencyKey)
    pure (.awaiting (webhookRequest env data) { startTime, data })

inductive FetchReply
  | response (status : Nat)
  /-- Rejected, with the message of the error if it is an `Error`. -/
  | failed (message : Option JsString)

def isOk (status : Nat) : Bool := 200 ≤ status && status ≤ 299

def webhookResultData (inp : Inputs) (data : WebhookJobData) (status : Nat) : Json :=
  .object [
    (js "destination", .string data.destination.text),
    (js "event", .string data.event),
    (js "httpStatus", .number (.ofNat status)),
    (js "deliveredAt", .string (toISOString (inp.clock 0)))]

def transportError (destination : WebhookDestination) (message : Option JsString) : JsError :=
  .plain (js "Webhook delivery to " ++ destination.text ++ js " failed at transport level: " ++
    message.getD (js "Unknown transport error"))

def rejectedError (destination : WebhookDestination) (status : Nat) : JsError :=
  .plain (js "Webhook delivery to " ++ destination.text ++ js " was rejected with HTTP " ++
    decimal status)

/-- `processWebhookJob` from its `fetch` on. -/
def resumeWebhookJob (inp : Inputs) (delivery : WebhookDelivery) :
    FetchReply → Work JobExecutionResult
  | .failed message => Turn.throw (transportError delivery.data.destination message)
  | .response status =>
      if !isOk status then Turn.throw (rejectedError delivery.data.destination status)
      else do
        let resultData := webhookResultData inp delivery.data status
        let durationMs : Int := inp.clock 1 - delivery.startTime
        recordSuccess (inp.fault 0) (inp.clock 2) delivery.data.idempotencyKey
          JobName.webhookDelivery.text resultData
        pure {
          success := true
          jobName := .webhookDelivery
          idempotencyKey := delivery.data.idempotencyKey
          processedAt := toISOString (inp.clock 3)
          durationMs
          data := resultData
          isDuplicate := none }

/-! ## Registry -/

def getProcessorForJob (jobName : JsString) : Except JsError JobName :=
  if jobName = JobName.emailNotification.text then .ok .emailNotification
  else if jobName = JobName.webhookDelivery.text then .ok .webhookDelivery
  else .error (.plain (js "No processor registered for job type: " ++ jobName))

theorem getProcessorForJob_eq_ok {jobName : JsString} {t : JobName} :
    getProcessorForJob jobName = .ok t ↔ jobName = t.text := by
  unfold getProcessorForJob
  constructor
  · intro h
    split at h
    · rename_i hname
      exact hname.trans (congrArg JobName.text (Except.ok.inj h))
    · split at h
      · rename_i hname
        exact hname.trans (congrArg JobName.text (Except.ok.inj h))
      · cases h
  · rintro rfl
    cases t <;> decide

/-! ## What each processor can do -/

/-- The replay leaves the machine alone, and what it returns was stored. -/
theorem replayStored_cases (ext : External) (inp : Inputs) (jobName : JobName) (key : JsString)
    (m : Machine) :
    (∃ e, (replayStored ext inp jobName key).run m = (.error e, m)) ∨
    (∃ result, (replayStored ext inp jobName key).run m = (.ok result, m) ∧ result.success = true ∧
      result.jobName = jobName ∧ result.idempotencyKey = key ∧ result.isDuplicate = some true ∧
      ∀ record ∈ m.db.get (jobName.text, key), record.result_json ≠ [] →
        Json.parse record.result_json = some result.data) := by
  cases hfault : inp.fault 1 with
  | some e =>
      refine Or.inl ⟨e, ?_⟩
      rw [replayStored, hfault]
      exact Turn.bind_of_error (getRecord_some e jobName.text key m)
  | none =>
      rw [replayStored, hfault, Turn.bind_of_ok (getRecord_none jobName.text key m)]
      simp only
      split
      · exact Or.inl ⟨_, rfl⟩
      · rename_i data hdata
        refine Or.inr ⟨_, rfl, rfl, rfl, rfl, rfl, fun record hrecord hne => ?_⟩
        rw [Option.mem_def] at hrecord
        have hjson : orElse record.result_json (js "{}") = record.result_json :=
          if_neg (by simpa using hne)
        simpa only [hrecord, Option.map_some, Option.getD_some, hjson] using hdata

/-- Everything `processEmailJob` can do: it throws before its effect, replays a
completed record, or performs the effect and then records it or throws. -/
theorem processEmailJob_cases (ext : External) (inp : Inputs) (job : Job) (m : Machine) :
    (∃ e, (processEmailJob ext inp job).run m = (.error e, m)) ∨
    (∃ key, idempotencyKeyOf job.data = some key ∧
      ((m.db.Completed JobName.emailNotification.text key ∧
        ∃ result, (processEmailJob ext inp job).run m = (.ok result, m) ∧
          (replayStored ext inp .emailNotification key).run m = (.ok result, m)) ∨
      (¬m.db.Completed JobName.emailNotification.text key ∧ inp.fault 0 = none ∧
        ((∃ e, (processEmailJob ext inp job).run m =
            (.error e, { m with effects := .emailed key :: m.effects })) ∨
        (∃ result : JobExecutionResult, result.success = true ∧
          result.jobName = .emailNotification ∧ result.idempotencyKey = key ∧
          result.isDuplicate = none ∧
          (processEmailJob ext inp job).run m = (.ok result, { m with
            db := m.db.put (JobName.emailNotification.text, key)
              (successRow (inp.clock 3) key JobName.emailNotification.text result.data)
            effects := .recordedSuccess JobName.emailNotification.text key result.data ::
              .emailed key :: m.effects })))))) := by
  unfold processEmailJob
  cases hparse : parseEmailJobRecord ext.isEmail job.data with
  | error issues => exact Or.inl ⟨_, rfl⟩
  | ok data =>
      have hkey := idempotencyKeyOf_email hparse
      cases hfault : inp.fault 0 with
      | some e => exact Or.inl ⟨e, rfl⟩
      | none =>
          have hparsed : (parsed ext (.ok data)).run m = (.ok data, m) := rfl
          have hcheck := hasBeenProcessed_none JobName.emailNotification.text data.idempotencyKey m
          rw [Turn.bind_of_ok hparsed, Turn.bind_of_ok hcheck]
          by_cases hdone : m.db.Completed JobName.emailNotification.text data.idempotencyKey
          · rw [if_pos (decide_eq_true hdone)]
            rcases replayStored_cases ext inp .emailNotification data.idempotencyKey m with
              ⟨e, he⟩ | ⟨result, hresult, -⟩
            · exact Or.inl ⟨e, he⟩
            · exact Or.inr ⟨_, hkey, Or.inl ⟨hdone, result, hresult, hresult⟩⟩
          · rw [if_neg (by simpa using hdone)]
            refine Or.inr ⟨_, hkey, Or.inr ⟨hdone, rfl, ?_⟩⟩
            cases hwrite : inp.fault 1 with
            | some e => exact Or.inl ⟨e, rfl⟩
            | none => exact Or.inr ⟨_, rfl, rfl, rfl, rfl, rfl⟩

theorem processWebhookJob_of_fresh (env : Environment) (ext : External) {inp : Inputs} {job : Job}
    {m : Machine} {data : WebhookJobData} (hparse : parseWebhookJobRecord job.data = .ok data)
    (hread : inp.fault 0 = none)
    (hfresh : ¬m.db.Completed JobName.webhookDelivery.text data.idempotencyKey) :
    (processWebhookJob env ext inp job).run m =
      (.ok (.awaiting (webhookRequest env data) ⟨inp.clock 0, data⟩),
        { m with effects := .posted data.idempotencyKey :: m.effects }) := by
  have hparsed : (parsed ext (.ok data)).run m = (.ok data, m) := rfl
  have hcheck := hasBeenProcessed_none JobName.webhookDelivery.text data.idempotencyKey m
  rw [processWebhookJob, hparse, hread, Turn.bind_of_ok hparsed, Turn.bind_of_ok hcheck,
    if_neg (by simpa using hfresh)]
  rfl

/-- Everything the first turn of `processWebhookJob` can do. -/
theorem processWebhookJob_cases (env : Environment) (ext : External) (inp : Inputs) (job : Job)
    (m : Machine) :
    (∃ e, (processWebhookJob env ext inp job).run m = (.error e, m)) ∨
    (∃ data, parseWebhookJobRecord job.data = .ok data ∧
      idempotencyKeyOf job.data = some data.idempotencyKey ∧
      ((m.db.Completed JobName.webhookDelivery.text data.idempotencyKey ∧
        ∃ result, (processWebhookJob env ext inp job).run m = (.ok (.returned result), m) ∧
          (replayStored ext inp .webhookDelivery data.idempotencyKey).run m = (.ok result, m)) ∨
      (¬m.db.Completed JobName.webhookDelivery.text data.idempotencyKey ∧ inp.fault 0 = none ∧
        (processWebhookJob env ext inp job).run m =
          (.ok (.awaiting (webhookRequest env data) ⟨inp.clock 0, data⟩),
            { m with effects := .posted data.idempotencyKey :: m.effects })))) := by
  cases hparse : parseWebhookJobRecord job.data with
  | error issues =>
      rw [processWebhookJob, hparse]
      exact Or.inl ⟨_, rfl⟩
  | ok data =>
      have hkey := idempotencyKeyOf_webhook hparse
      cases hfault : inp.fault 0 with
      | some e =>
          rw [processWebhookJob, hparse, hfault]
          exact Or.inl ⟨e, rfl⟩
      | none =>
          by_cases hdone : m.db.Completed JobName.webhookDelivery.text data.idempotencyKey
          · have hparsed : (parsed ext (.ok data)).run m = (.ok data, m) := rfl
            have hcheck := hasBeenProcessed_none JobName.webhookDelivery.text data.idempotencyKey m
            rw [processWebhookJob, hparse, hfault, Turn.bind_of_ok hparsed, Turn.bind_of_ok hcheck,
              if_pos (decide_eq_true hdone)]
            rcases replayStored_cases ext inp .webhookDelivery data.idempotencyKey m with
              ⟨e, he⟩ | ⟨result, hresult, -⟩
            · exact Or.inl ⟨e, Turn.bind_of_error he⟩
            · exact Or.inr ⟨data, rfl, hkey,
                Or.inl ⟨hdone, result, Turn.bind_of_ok hresult, hresult⟩⟩
          · exact Or.inr ⟨data, rfl, hkey,
              Or.inr ⟨hdone, rfl, processWebhookJob_of_fresh env ext hparse hfault hdone⟩⟩

/-- Everything the second turn of `processWebhookJob` can do: only a 2xx reply
whose record is written returns. -/
theorem resumeWebhookJob_cases (inp : Inputs) (delivery : WebhookDelivery) (reply : FetchReply)
    (m : Machine) :
    (∃ e, (resumeWebhookJob inp delivery reply).run m = (.error e, m)) ∨
    (∃ status, reply = .response status ∧ isOk status = true ∧ inp.fault 0 = none ∧
      ∃ result : JobExecutionResult, result.success = true ∧
        result.jobName = .webhookDelivery ∧
        result.idempotencyKey = delivery.data.idempotencyKey ∧ result.isDuplicate = none ∧
        (resumeWebhookJob inp delivery reply).run m = (.ok result, { m with
          db := m.db.put (JobName.webhookDelivery.text, delivery.data.idempotencyKey)
            (successRow (inp.clock 2) delivery.data.idempotencyKey JobName.webhookDelivery.text
              result.data)
          effects := .recordedSuccess JobName.webhookDelivery.text delivery.data.idempotencyKey
            result.data :: m.effects })) := by
  cases reply with
  | failed message => exact Or.inl ⟨_, rfl⟩
  | response status =>
      cases hok : isOk status with
      | false =>
          rw [resumeWebhookJob, if_pos (by simp [hok])]
          exact Or.inl ⟨rejectedError delivery.data.destination status, rfl⟩
      | true =>
          rw [resumeWebhookJob, if_neg (by simp [hok])]
          cases hfault : inp.fault 0 with
          | some e => exact Or.inl ⟨e, rfl⟩
          | none => exact Or.inr ⟨status, rfl, hok, rfl, _, rfl, rfl, rfl, rfl, rfl⟩

end TaskQueue

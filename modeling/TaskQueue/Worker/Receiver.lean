import TaskQueue.Jobs.Records
import TaskQueue.Lib.Fetch
import TaskQueue.Logging.Context
import TaskQueue.Worker.PerformedWork

/-!
# Delivering a webhook

`processWebhookJob` from its beginning to its end: the request goes through
`fetch` to a receiver, unless `fetch` throws before it sends anything.  The
idempotency key travels as a header value, and keys are of more kinds than header
values: the receiver sees the key exactly when it is safe to send.
-/

namespace TaskQueue

open Ecma Fetch

def idempotencyHeader : JsString := js "X-Idempotency-Key"

/-- The request as the receiver gets it; `none` when `fetch` throws. -/
def FetchRequest.sent (r : FetchRequest) : Option FetchRequest :=
  (sentHeaders r.headers).map fun headers => { r with headers }

def FetchRequest.header (r : FetchRequest) (name : JsString) : Option JsString :=
  r.headers.lookup name

/-- How `fetch` settles for a receiver; `headerMessage` is that of the error thrown
for a header value. -/
def fetch (receiver : FetchRequest → FetchReply) (headerMessage : JsString) (r : FetchRequest) :
    FetchReply :=
  match r.sent with
  | some sent => receiver sent
  | none => .failed (some headerMessage)

structure WebhookRun where
  result : Except JsError JobExecutionResult
  machine : Machine
  /-- The request the receiver got, if it got one. -/
  received : Option FetchRequest

def WebhookRun.receivedKey (run : WebhookRun) : Option JsString :=
  run.received.bind fun r => r.header idempotencyHeader

section

variable (env : Environment) (ext : External)

/-- Both turns of `processWebhookJob`, with what other turns do `meanwhile`. -/
def runWebhookJob (receiver : FetchRequest → FetchReply) (headerMessage : JsString)
    (meanwhile : Machine → Machine) (first second : Inputs) (job : Job) (m : Machine) :
    WebhookRun :=
  let begun := (processWebhookJob env ext first job).run m
  match begun.1 with
  | .error e => ⟨.error e, begun.2, none⟩
  | .ok (.returned result) => ⟨.ok result, begun.2, none⟩
  | .ok (.awaiting request delivery) =>
      let ended := (resumeWebhookJob second delivery (fetch receiver headerMessage request)).run
        (meanwhile begun.2)
      ⟨ended.1, ended.2, request.sent⟩

end

def AnswersOk (env : Environment) (receiver : FetchRequest → FetchReply) : Prop :=
  ∀ r, r.method = js "POST" → r.url = resolveWebhookDestination env .demoAvailable →
    receiver r = .response 200

variable {env : Environment} {ext : External}

/-! ## What is sent -/

theorem sent_webhookRequest (env : Environment) (data : WebhookJobData) :
    (webhookRequest env data).sent = (headerValue data.idempotencyKey).map fun value =>
      { webhookRequest env data with
        headers := [(js "Content-Type", js "application/json"), (idempotencyHeader, value)] } := by
  have htype : headerValue (js "application/json") = some (js "application/json") := by decide
  unfold FetchRequest.sent sentHeaders webhookRequest
  cases hkey : headerValue data.idempotencyKey with
  | none => simp [htype, hkey]
  | some value =>
      simp only [List.mapM_cons, List.mapM_nil, htype, hkey, Option.map_some]
      rfl

/-- What the receiver sees of the key is what a header can carry of it. -/
theorem sent_header (env : Environment) (data : WebhookJobData) :
    ((webhookRequest env data).sent.bind fun r => r.header idempotencyHeader) =
      headerValue data.idempotencyKey := by
  rw [sent_webhookRequest]
  cases headerValue data.idempotencyKey with
  | none => rfl
  | some value => rfl

/-! ## How it ends -/

theorem resumeWebhookJob_of_ok {second : Inputs} (hwrite : second.fault 0 = none)
    (delivery : WebhookDelivery) (m : Machine) :
    ∃ result m', (resumeWebhookJob second delivery (.response 200)).run m = (.ok result, m') ∧
      result.success = true := by
  rcases resumeWebhookJob_cases second delivery (.response 200) m with
    ⟨e, he⟩ | ⟨status, -, -, -, result, hsuccess, -, -, -, hrun⟩
  · rw [resumeWebhookJob, if_neg (by decide), hwrite] at he
    cases he
  · exact ⟨result, _, hrun, hsuccess⟩

/-- A job whose key is unprocessed, at a store that does not fail and a receiver
that answers. -/
structure FreshDelivery (env : Environment) (receiver : FetchRequest → FetchReply)
    (data : WebhookJobData) (job : Job) (m : Machine) (first second : Inputs) : Prop where
  accepted : ∃ body, parseWebhookJobData body = .ok data
  available : data.destination = .demoAvailable
  /-- The job is what the producer stored for the data. -/
  stored : ∃ id, NormalId id ∧ job.data = stampedRecord data.toProps id
  fresh : ¬m.db.Completed JobName.webhookDelivery.text data.idempotencyKey
  read : first.fault 0 = none
  write : second.fault 0 = none
  answers : AnswersOk env receiver

theorem FreshDelivery.awaiting {receiver : FetchRequest → FetchReply} {data : WebhookJobData}
    {job : Job} {m : Machine} {first second : Inputs}
    (h : FreshDelivery env receiver data job m first second) :
    (processWebhookJob env ext first job).run m =
      (.ok (.awaiting (webhookRequest env data) ⟨first.clock 0, data⟩),
        { m with effects := .posted data.idempotencyKey :: m.effects }) := by
  obtain ⟨body, hbody⟩ := h.accepted
  obtain ⟨id, hid, hstored⟩ := h.stored
  have hpos : 1 ≤ id.length := List.length_pos_of_ne_nil hid.ne_nil
  have hrecord : parseWebhookJobRecord job.data = .ok data := by
    rw [hstored]
    exact parseWebhookJobRecord_stamped hbody hpos hid.length_le
  exact processWebhookJob_of_fresh env ext hrecord h.read h.fresh

/-- An accepted delivery to the available destination succeeds, and is received
under exactly its key, if and only if the key is safe in a header: units up to 255
that are no control characters but tabs, and no tab or space at its ends.  In any
case the receiver sees what a header carries of the key, so safe keys that differ
are seen to differ. -/
theorem webhook_delivered_iff {receiver : FetchRequest → FetchReply} {data : WebhookJobData}
    {job : Job} {m : Machine} {first second : Inputs}
    (h : FreshDelivery env receiver data job m first second) (ext : External)
    (headerMessage : JsString) (meanwhile : Machine → Machine) :
    let run := runWebhookJob env ext receiver headerMessage meanwhile first second job m
    (((∃ result, run.result = .ok result ∧ result.success = true) ∧
        run.receivedKey = some data.idempotencyKey) ↔ HeaderSafe data.idempotencyKey) ∧
      run.receivedKey = headerValue data.idempotencyKey ∧
      ∀ key, HeaderSafe data.idempotencyKey → HeaderSafe key →
        headerValue key = run.receivedKey → key = data.idempotencyKey := by
  intro run
  have hrun : run = runWebhookJob env ext receiver headerMessage meanwhile first second job m :=
    rfl
  unfold runWebhookJob at hrun
  rw [h.awaiting] at hrun
  simp only at hrun
  have hkey : run.receivedKey = headerValue data.idempotencyKey := by
    rw [WebhookRun.receivedKey, hrun]
    exact sent_header env data
  refine ⟨?_, hkey, fun key hsafe hsafe' hseen => ?_⟩
  · rw [hkey]
    constructor
    · rintro ⟨-, hexact⟩
      exact headerValue_eq_self_iff.1 hexact
    · intro hsafe
      have hvalue := headerValue_eq_self_iff.2 hsafe
      refine ⟨?_, hvalue⟩
      have hreply : fetch receiver headerMessage (webhookRequest env data) = .response 200 := by
        unfold fetch
        rw [sent_webhookRequest, hvalue]
        apply h.answers
        · rfl
        · rw [← h.available]
          rfl
      obtain ⟨result, m', hresume, hsuccess⟩ := resumeWebhookJob_of_ok h.write
        ⟨first.clock 0, data⟩ (meanwhile { m with
          effects := .posted data.idempotencyKey :: m.effects })
      refine ⟨result, ?_, hsuccess⟩
      rw [hrun, hreply, hresume]
  · rw [hkey] at hseen
    exact headerValue_injOn hsafe' hsafe hseen

/-! ## Keys that are not safe -/

def paidEvent (key : JsString) : WebhookJobData := ⟨.demoAvailable, js "order.paid", [], key⟩

def paidJob (key : JsString) : Job where
  id := js "webhook_" ++ key
  name := JobName.webhookDelivery.text
  data := stampedRecord (paidEvent key).toProps (js "c")
  attemptsMade := 0
  attempts := some 3
  stacktrace := none

def emptyMachine : Machine := ⟨∅, ⟨∅, ∅⟩, []⟩

def paidRun (key : JsString) : WebhookRun :=
  runWebhookJob .default atSign (fun _ => .response 200) (js "invalid header value") id steady
    steady (paidJob key) emptyMachine

theorem freshDelivery_paid {key : JsString}
    (h : parseWebhookJobData (.object (paidEvent key).toProps) = .ok (paidEvent key)) :
    FreshDelivery .default (fun _ => .response 200) (paidEvent key) (paidJob key) emptyMachine
      steady steady where
  accepted := ⟨_, h⟩
  available := rfl
  stored := ⟨js "c", ⟨by decide, by decide, by decide⟩, rfl⟩
  fresh := by
    rintro ⟨record, hrecord, -⟩
    cases hrecord
  read := rfl
  write := rfl
  answers := fun _ _ _ => rfl

theorem webhook_delivered_iff_plainKey :
    HeaderSafe (js "order-1") ∧ (paidRun (js "order-1")).receivedKey = some (js "order-1") := by
  have hsafe : HeaderSafe (js "order-1") := by decide
  exact ⟨hsafe, ((webhook_delivered_iff (freshDelivery_paid rfl) atSign
    (js "invalid header value") id).1.2 hsafe).2⟩

/-- Two keys of accepted, fresh deliveries: a leading space is lost on the way, so the
receiver takes the key for another one, and a unit that is no byte cannot be sent at all. -/
theorem unsafe_keys_not_delivered :
    FreshDelivery .default (fun _ => .response 200) (paidEvent (js " order-1"))
        (paidJob (js " order-1")) emptyMachine steady steady ∧
      (paidRun (js " order-1")).receivedKey = some (js "order-1") ∧
      FreshDelivery .default (fun _ => .response 200) (paidEvent [0x4F60]) (paidJob [0x4F60])
        emptyMachine steady steady ∧
      (paidRun [0x4F60]).receivedKey = none ∧
      (paidRun [0x4F60]).result = .error (transportError .demoAvailable
        (some (js "invalid header value"))) := by
  refine ⟨freshDelivery_paid rfl, ?_, freshDelivery_paid rfl, ?_, ?_⟩
  · rfl
  · rfl
  · rfl

end TaskQueue

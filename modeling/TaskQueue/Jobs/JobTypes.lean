import TaskQueue.Lib.Schema

/-!
# Job types and their schemas

The public schemas of a submission, and the record schemas of a stored job,
which add the correlation id the producer stamps on.  The one check that is a
pattern of the schema library, `email()`, is a parameter.
-/

namespace TaskQueue

open Ecma Schema

/-! ## Names -/

inductive JobName
  | emailNotification
  | webhookDelivery
  deriving DecidableEq

def JobName.text : JobName → JsString
  | .emailNotification => js "EMAIL_NOTIFICATION"
  | .webhookDelivery => js "WEBHOOK_DELIVERY"

theorem JobName.text_injective {a b : JobName} (h : a.text = b.text) : a = b := by
  revert h
  cases a <;> cases b <;> decide

inductive WebhookDestination
  | demoAvailable
  | demoUnavailable
  deriving DecidableEq

def WebhookDestination.text : WebhookDestination → JsString
  | .demoAvailable => js "DEMO_AVAILABLE"
  | .demoUnavailable => js "DEMO_UNAVAILABLE"

def webhookDestinations : List WebhookDestination := [.demoAvailable, .demoUnavailable]

def WebhookDestination.ofText (s : JsString) : Option WebhookDestination :=
  webhookDestinations.find? fun d => d.text == s

/-! ## Email jobs -/

structure EmailJobData where
  «to» : JsString
  subject : JsString
  body : JsString
  idempotencyKey : JsString
  deriving DecidableEq

def idempotencyKeyChecks : List Check := [.min 1, .max 255]

section

variable (isEmail : JsString → Bool)

/-- The issues of the declared fields, in the order of the schema. -/
def emailFieldIssues (v : Json) : List Issue :=
  stringField (js "to") [⟨.invalidString, isEmail⟩] (v.get? (js "to")) ++
    stringField (js "subject") [.min 1, .max 500] (v.get? (js "subject")) ++
    stringField (js "body") [.max 100000] (v.get? (js "body")) ++
    stringField (js "idempotencyKey") idempotencyKeyChecks (v.get? (js "idempotencyKey"))

def emailKeys : List JsString := [js "to", js "subject", js "body", js "idempotencyKey"]

def emailJobData (v : Json) : EmailJobData where
  «to» := text (v.get? (js "to"))
  subject := text (v.get? (js "subject"))
  body := text (v.get? (js "body"))
  idempotencyKey := text (v.get? (js "idempotencyKey"))

def parseEmailJobData : Json → Except (List Issue) EmailJobData :=
  parseStrict (emailFieldIssues isEmail) emailKeys emailJobData

end

def EmailJobData.toProps (d : EmailJobData) : List (JsString × Json) :=
  [(js "to", .string d.«to»), (js "subject", .string d.subject), (js "body", .string d.body),
    (js "idempotencyKey", .string d.idempotencyKey)]

/-! ## Webhook jobs -/

structure WebhookJobData where
  destination : WebhookDestination
  event : JsString
  payload : List (JsString × Json)
  idempotencyKey : JsString

def webhookFieldIssues (v : Json) : List Issue :=
  enumField (js "destination") (webhookDestinations.map WebhookDestination.text)
      (v.get? (js "destination")) ++
    stringField (js "event") [.min 1, .max 200] (v.get? (js "event")) ++
    optionalRecordField (js "payload") (v.get? (js "payload")) ++
    stringField (js "idempotencyKey") idempotencyKeyChecks (v.get? (js "idempotencyKey"))

def webhookKeys : List JsString :=
  [js "destination", js "event", js "payload", js "idempotencyKey"]

/-- The record the schema library builds, without a `__proto__` entry; `{}` by default. -/
def recordProps : Option Json → List (JsString × Json)
  | some (.object props) => props.filter fun p => p.1 != js "__proto__"
  | _ => []

def webhookJobData (v : Json) : WebhookJobData where
  destination := (WebhookDestination.ofText (text (v.get? (js "destination")))).getD .demoAvailable
  event := text (v.get? (js "event"))
  payload := recordProps (v.get? (js "payload"))
  idempotencyKey := text (v.get? (js "idempotencyKey"))

def parseWebhookJobData : Json → Except (List Issue) WebhookJobData :=
  parseStrict webhookFieldIssues webhookKeys webhookJobData

def WebhookJobData.toProps (d : WebhookJobData) : List (JsString × Json) :=
  [(js "destination", .string d.destination.text), (js "event", .string d.event),
    (js "payload", .object d.payload), (js "idempotencyKey", .string d.idempotencyKey)]

/-! ## Record schemas -/

def correlationIdChecks : List Check := [.min 1, .max 64]

def correlationIdIssues (v : Json) : List Issue :=
  optionalStringField (js "correlationId") correlationIdChecks (v.get? (js "correlationId"))

/-- `EmailJobRecordSchema.parse`.  The processors read the declared fields only. -/
def parseEmailJobRecord (isEmail : JsString → Bool) : Json → Except (List Issue) EmailJobData :=
  parseStrict (fun v => emailFieldIssues isEmail v ++ correlationIdIssues v)
    (emailKeys ++ [js "correlationId"]) emailJobData

def parseWebhookJobRecord : Json → Except (List Issue) WebhookJobData :=
  parseStrict (fun v => webhookFieldIssues v ++ correlationIdIssues v)
    (webhookKeys ++ [js "correlationId"]) webhookJobData

/-! ## What acceptance says -/

def idempotencyKeyOf (data : Json) : Option JsString :=
  (data.get? (js "idempotencyKey")).bind Json.string?

theorem idempotencyKeyOf_email {isEmail : JsString → Bool} {v : Json} {d : EmailJobData}
    (h : parseEmailJobRecord isEmail v = .ok d) : idempotencyKeyOf v = some d.idempotencyKey := by
  obtain ⟨rfl, hissues⟩ := parseStrict_eq_ok h
  simp only [emailFieldIssues, List.append_eq_nil_iff] at hissues
  rw [idempotencyKeyOf, text_of_stringField hissues.1.2]
  rfl

theorem idempotencyKeyOf_webhook {v : Json} {d : WebhookJobData}
    (h : parseWebhookJobRecord v = .ok d) : idempotencyKeyOf v = some d.idempotencyKey := by
  obtain ⟨rfl, hissues⟩ := parseStrict_eq_ok h
  simp only [webhookFieldIssues, List.append_eq_nil_iff] at hissues
  rw [idempotencyKeyOf, text_of_stringField hissues.1.2]
  rfl

end TaskQueue

import TaskQueue.Jobs.JobTypes
import TaskQueue.Lib.JsonText

/-!
# Inputs and records

What the input schema of a job type accepts is stored with a correlation id, and
comes back through the record schema as it was validated: the record schema is
the input schema with one more key.
-/

namespace TaskQueue

open Ecma Schema

/-! ## Both job types -/

/-- What the schemas of the job types return. -/
inductive ValidJob
  | email (data : EmailJobData)
  | webhook (data : WebhookJobData)

def ValidJob.toProps : ValidJob → List (JsString × Json)
  | .email data => data.toProps
  | .webhook data => data.toProps

def ValidJob.idempotencyKey : ValidJob → JsString
  | .email data => data.idempotencyKey
  | .webhook data => data.idempotencyKey

def parseJobData (isEmail : JsString → Bool) (jobName : JobName) (v : Json) :
    Except (List Issue) ValidJob :=
  match jobName with
  | .emailNotification => (parseEmailJobData isEmail v).map .email
  | .webhookDelivery => (parseWebhookJobData v).map .webhook

/-- Its record schema, which its processor parses `job.data` with. -/
def parseJobRecord (isEmail : JsString → Bool) (jobName : JobName) (v : Json) :
    Except (List Issue) ValidJob :=
  match jobName with
  | .emailNotification => (parseEmailJobRecord isEmail v).map .email
  | .webhookDelivery => (parseWebhookJobRecord v).map .webhook

def inputKeys : JobName → List JsString
  | .emailNotification => emailKeys
  | .webhookDelivery => webhookKeys

/-! ## Refusal by the input schemas -/

/-- A body with a key that its schema does not declare is refused. -/
theorem parseJobData_of_undeclared (isEmail : JsString → Bool) (jobName : JobName)
    {props : List (JsString × Json)} (h : ∃ p ∈ props, p.1 ∉ inputKeys jobName) :
    ∃ issues, parseJobData isEmail jobName (.object props) = .error issues := by
  cases jobName with
  | emailNotification =>
      have hkeys : ∃ p ∈ props, p.1 ∉ emailKeys := h
      obtain ⟨issues, hissues⟩ := parseStrict_of_undeclared hkeys
      exact ⟨issues, congrArg (Except.map ValidJob.email) hissues⟩
  | webhookDelivery =>
      have hkeys : ∃ p ∈ props, p.1 ∉ webhookKeys := h
      obtain ⟨issues, hissues⟩ := parseStrict_of_undeclared hkeys
      exact ⟨issues, congrArg (Except.map ValidJob.webhook) hissues⟩

/-! ## Records of accepted inputs -/

/-- The record the producer stores. -/
def stampedRecord (props : List (JsString × Json)) (id : JsString) : Json :=
  .object (props ++ [(js "correlationId", .string id)])

theorem correlationIdIssues_eq_nil {v : Json} {id : JsString}
    (h : v.get? (js "correlationId") = some (.string id)) (hpos : 1 ≤ id.length)
    (hle : id.length ≤ 64) : correlationIdIssues v = [] := by
  rw [correlationIdIssues, h, optionalStringField, stringField_eq_nil]
  refine ⟨id, rfl, fun c hc => ?_⟩
  simp only [correlationIdChecks, List.mem_cons, List.not_mem_nil, or_false] at hc
  rcases hc with rfl | rfl
  · simpa [Check.min] using hpos
  · simpa [Check.max] using hle

/-- The issues of the email fields are a matter of the texts, so the stored fields
have those of the body. -/
theorem parseEmailJobRecord_stamped {isEmail : JsString → Bool} {v : Json} {d : EmailJobData}
    (h : parseEmailJobData isEmail v = .ok d) {id : JsString} (hpos : 1 ≤ id.length)
    (hle : id.length ≤ 64) :
    parseEmailJobRecord isEmail (stampedRecord d.toProps id) = .ok d := by
  obtain ⟨rfl, hissues⟩ := parseStrict_eq_ok h
  have hfields : emailFieldIssues isEmail (stampedRecord (emailJobData v).toProps id) = [] := by
    simp only [emailFieldIssues, List.append_eq_nil_iff] at hissues ⊢
    obtain ⟨⟨⟨hto, hsubject⟩, hbody⟩, hkey⟩ := hissues
    rw [text_of_stringField hto] at hto
    rw [text_of_stringField hsubject] at hsubject
    rw [text_of_stringField hbody] at hbody
    rw [text_of_stringField hkey] at hkey
    exact ⟨⟨⟨hto, hsubject⟩, hbody⟩, hkey⟩
  have hid : correlationIdIssues (stampedRecord (emailJobData v).toProps id) = [] :=
    correlationIdIssues_eq_nil rfl hpos hle
  have hdata : emailJobData (stampedRecord (emailJobData v).toProps id) = emailJobData v := rfl
  have hstrict : strictIssues (emailKeys ++ [js "correlationId"])
      ((emailJobData v).toProps ++ [(js "correlationId", .string id)]) = [] := rfl
  calc parseEmailJobRecord isEmail (stampedRecord (emailJobData v).toProps id)
      = .ok (emailJobData (stampedRecord (emailJobData v).toProps id)) :=
        parseStrict_of_declared (List.append_eq_nil_iff.2 ⟨hfields, hid⟩) hstrict
    _ = .ok (emailJobData v) := congrArg Except.ok hdata

theorem enumField_destination (name : JsString) (destination : WebhookDestination) :
    enumField name (webhookDestinations.map WebhookDestination.text)
      (some (.string destination.text)) = [] := by
  have hmem : (webhookDestinations.map WebhookDestination.text).contains destination.text =
      true := by
    cases destination <;> decide
  rw [enumField, if_pos hmem]

theorem ofText_text (destination : WebhookDestination) :
    (WebhookDestination.ofText destination.text).getD .demoAvailable = destination := by
  cases destination <;> decide

/-- The stored payload has no `__proto__` entry left to drop. -/
theorem recordProps_recordProps (v : Option Json) :
    recordProps (some (.object (recordProps v))) = recordProps v := by
  have hkept : ∀ p ∈ recordProps v, (p.1 != js "__proto__") = true := by
    intro p hp
    unfold recordProps at hp
    split at hp
    · exact (List.mem_filter.1 hp).2
    · cases hp
  exact List.filter_eq_self.2 hkept

theorem parseWebhookJobRecord_stamped {v : Json} {d : WebhookJobData}
    (h : parseWebhookJobData v = .ok d) {id : JsString} (hpos : 1 ≤ id.length)
    (hle : id.length ≤ 64) : parseWebhookJobRecord (stampedRecord d.toProps id) = .ok d := by
  obtain ⟨rfl, hissues⟩ := parseStrict_eq_ok h
  have hfields : webhookFieldIssues (stampedRecord (webhookJobData v).toProps id) = [] := by
    simp only [webhookFieldIssues, List.append_eq_nil_iff] at hissues ⊢
    obtain ⟨⟨⟨-, hevent⟩, -⟩, hkey⟩ := hissues
    rw [text_of_stringField hevent] at hevent
    rw [text_of_stringField hkey] at hkey
    have hdestination := enumField_destination (js "destination") (webhookJobData v).destination
    exact ⟨⟨⟨hdestination, hevent⟩, rfl⟩, hkey⟩
  have hid : correlationIdIssues (stampedRecord (webhookJobData v).toProps id) = [] :=
    correlationIdIssues_eq_nil rfl hpos hle
  have hdata : webhookJobData (stampedRecord (webhookJobData v).toProps id) =
      webhookJobData v := by
    have hdestination := ofText_text (webhookJobData v).destination
    have hpayload := recordProps_recordProps (v.get? (js "payload"))
    calc webhookJobData (stampedRecord (webhookJobData v).toProps id)
        = ⟨(WebhookDestination.ofText (webhookJobData v).destination.text).getD .demoAvailable,
            (webhookJobData v).event, recordProps (some (.object (webhookJobData v).payload)),
            (webhookJobData v).idempotencyKey⟩ := rfl
      _ = ⟨(webhookJobData v).destination, (webhookJobData v).event, (webhookJobData v).payload,
            (webhookJobData v).idempotencyKey⟩ := by
          rw [hdestination]
          exact congrArg (WebhookJobData.mk _ _ · _) hpayload
      _ = webhookJobData v := rfl
  have hstrict : strictIssues (webhookKeys ++ [js "correlationId"])
      ((webhookJobData v).toProps ++ [(js "correlationId", .string id)]) = [] := rfl
  calc parseWebhookJobRecord (stampedRecord (webhookJobData v).toProps id)
      = .ok (webhookJobData (stampedRecord (webhookJobData v).toProps id)) :=
        parseStrict_of_declared (List.append_eq_nil_iff.2 ⟨hfields, hid⟩) hstrict
    _ = .ok (webhookJobData v) := congrArg Except.ok hdata

/-- What an input schema accepts, stored with an id of the right length and read
back from its JSON text, is accepted by the record schema, as it was validated. -/
theorem parseJobRecord_stamped {isEmail : JsString → Bool} {jobName : JobName} {v : Json}
    {d : ValidJob} (h : parseJobData isEmail jobName v = .ok d) {id : JsString}
    (hpos : 1 ≤ id.length) (hle : id.length ≤ 64) :
    ∃ stored, Json.parse (stampedRecord d.toProps id).stringify = some stored ∧
      parseJobRecord isEmail jobName stored = .ok d := by
  refine ⟨_, Json.parse_stringify _, ?_⟩
  cases jobName with
  | emailNotification =>
      cases hparse : parseEmailJobData isEmail v with
      | error issues =>
          rw [parseJobData, hparse] at h
          cases h
      | ok data =>
          rw [parseJobData, hparse] at h
          obtain rfl := Except.ok.inj h
          rw [parseJobRecord, ValidJob.toProps, parseEmailJobRecord_stamped hparse hpos hle]
          rfl
  | webhookDelivery =>
      cases hparse : parseWebhookJobData v with
      | error issues =>
          rw [parseJobData, hparse] at h
          cases h
      | ok data =>
          rw [parseJobData, hparse] at h
          obtain rfl := Except.ok.inj h
          rw [parseJobRecord, ValidJob.toProps, parseWebhookJobRecord_stamped hparse hpos hle]
          rfl

end TaskQueue

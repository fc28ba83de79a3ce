import TaskQueue.Http.System
import TaskQueue.Service.Correlation

/-!
# Where jobs come from

The queue is fed by the job routes alone: what it holds was there when the process was
started, or is the validated payload of a request, stamped with the request's id.
-/

namespace TaskQueue

open Ecma JobQueue Schema
open Dashboard (routeMatches)

variable {ext : External} {options : JobOptions} {config : AppConfig} {packages : Packages}
  {queueNames : List JsString} {β : Type}

/-! ## The service -/

/-- A submission is under way for data that was validated, or there is none. -/
def JobRequest.Validated (isEmail : JsString → Bool) (request : JobRequest) :
    DispatchStep → Prop
  | .counting submission => ∃ d, parseJobData isEmail request.jobName request.body = .ok d ∧
      submission = d.submission request.jobName (some request.correlationId) request.now
  | .adding add => ∃ d, parseJobData isEmail request.jobName request.body = .ok d ∧
      add = (d.submission request.jobName (some request.correlationId) request.now).toAdd
  | _ => True

theorem JobRequest.validated_withDepth {env : Environment} {isEmail : JsString → Bool}
    {request : JobRequest} {submission : Submission}
    (h : request.Validated isEmail (.counting submission)) (depth : Nat) :
    request.Validated isEmail (submission.withDepth env depth) := by
  obtain ⟨d, hparse, rfl⟩ := h
  unfold Submission.withDepth
  split
  · trivial
  · exact ⟨d, hparse, rfl⟩

theorem JobRequest.validated_dispatch (env : Environment) (isEmail : JsString → Bool)
    (depthCache : Option DepthCacheEntry) (request : JobRequest) :
    request.Validated isEmail (request.dispatch env isEmail depthCache) := by
  unfold JobRequest.dispatch
  rcases dispatchJob_cases env isEmail depthCache request.jobName request.body
    (some request.correlationId) request.now with ⟨issues, -, hdispatch⟩ | ⟨d, hparse, hdispatch⟩
  · rw [hdispatch]
    trivial
  · rw [hdispatch]
    have hcounting : request.Validated isEmail (.counting
        (d.submission request.jobName (some request.correlationId) request.now)) :=
      ⟨d, hparse, rfl⟩
    unfold enqueue
    split
    · exact validated_withDepth hcounting _
    · exact hcounting

theorem JobRequest.validated_resumeCounting {env : Environment} {isEmail : JsString → Bool}
    {request : JobRequest} {submission : Submission}
    (h : request.Validated isEmail (.counting submission)) (depthCache : Option DepthCacheEntry)
    (reply : Except (Option JsString) JobCounts) :
    request.Validated isEmail (resumeCounting env depthCache submission reply).1 := by
  cases reply with
  | ok counts => exact validated_withDepth h _
  | error cause => trivial

theorem JobRequest.validated_resumeAdding {isEmail : JsString → Bool} {request : JobRequest}
    (add : TaskAdd) (reply : Except (Option JsString) Unit) :
    request.Validated isEmail (resumeAdding add reply).1 := by
  cases reply with
  | ok _ => trivial
  | error cause => trivial

theorem Service.step_origin {env : Environment} {s t : Service} {a : ServiceAction}
    (h : s.step env ext options a = some t) {id : JsString} {e : TaskEntry}
    (hget : t.tasks.get id = some e) :
    (∃ e₀, s.tasks.get id = some e₀ ∧ e₀.data = e.data) ∨
    (∃ d request add reply, a = .added d reply ∧
      s.dispatches.get d = some (request, .adding add) ∧ add.jobId = id ∧
      e.data = ⟨add.name, add.data⟩) := by
  have hput : ∀ (i : JsString) (e₀ e' : TaskEntry), s.tasks.get i = some e₀ →
      e'.data = e₀.data → (s.tasks.put i e').get id = some e →
      ∃ e₁, s.tasks.get id = some e₁ ∧ e₁.data = e.data := by
    intro i e₀ e' hi hdata hget
    rcases Table.get_put_eq_some.1 hget with ⟨rfl, rfl⟩ | ⟨-, hold⟩
    · exact ⟨e₀, hi, hdata.symm⟩
    · exact ⟨e, hold, rfl⟩
  have hmoves := Service.step_tasks h
  generalize t.tasks = tasks at hmoves hget
  cases hmoves with
  | same => exact Or.inl ⟨e, hget, rfl⟩
  | added d reply request add dispatch free =>
      rcases Table.get_put_eq_some.1 hget with ⟨rfl, rfl⟩ | ⟨-, hold⟩
      · exact Or.inr ⟨d, request, add, reply, rfl, dispatch, rfl, rfl⟩
      · exact Or.inl ⟨e, hold, rfl⟩
  | advanced _ i e₀ e' get follows => exact Or.inl (hput i e₀ e' get follows.data hget)
  | failed i trace inp reply e₀ e' get fail =>
      exact Or.inl (hput i e₀ e' get (Entry.follows_fail fail).data hget)
  | failedDeferred i trace counted inp reply e₀ e' get fail =>
      exact Or.inl (hput i e₀ e' get (Entry.follows_failDeferred fail).data hget)
  | pruned i e₀ get =>
      exact Or.inl ⟨e, (Table.get_remove_eq_some.1 hget).2, rfl⟩

/-! ## The application -/

/-- A request of the run that its job route got, and the dispatch it was taken for. -/
def Requested (config : AppConfig) (packages : Packages) (as : List (AppAction β))
    (request : JobRequest) : Prop :=
  ∃ (r : HttpRequest) (now : Nat) (readings : Readings) (jobName : JobName) (headers : Headers)
    (body : Json), AppAction.http r now readings ∈ as ∧
      (r.pass config packages readings : Passed β) = .routed (.job jobName) headers body ∧
      request = r.toJob jobName body now readings

theorem Requested.append {as : List (AppAction β)} {request : JobRequest}
    (h : Requested config packages as request) (a : AppAction β) :
    Requested config packages (as ++ [a]) request := by
  obtain ⟨r, now, readings, jobName, headers, body, hmem, hpass, heq⟩ := h
  exact ⟨r, now, readings, jobName, headers, body, List.mem_append_left _ hmem, hpass, heq⟩

structure Submits (isEmail : JsString → Bool) (config : AppConfig) (packages : Packages)
    (as : List (AppAction β)) (id : JsString) (data : TaskData) (request : JobRequest)
    (d : ValidJob) : Prop where
  requested : Requested config packages as request
  valid : parseJobData isEmail request.jobName request.body = .ok d
  id : id = jobIdOf request.jobName d.idempotencyKey
  data : data = ⟨request.jobName.text, stampedRecord d.toProps request.correlationId⟩

/-- Every dispatch is that of a request of the run, and so is every job that was not there
at the start. -/
structure App.Documented (isEmail : JsString → Bool) (packages : Packages) (service : Service)
    (as : List (AppAction β)) (s : App config.env queueNames β) : Prop where
  dispatches : ∀ d request step, s.process.service.dispatches.get d = some (request, step) →
    Requested config packages as request ∧ request.Validated isEmail step
  tasks : ∀ id e, s.process.service.tasks.get id = some e →
    (∃ e₀, service.tasks.get id = some e₀ ∧ e₀.data = e.data) ∨
      ∃ request d, Submits isEmail config packages as id e.data request d

theorem App.Documented.append {isEmail : JsString → Bool} {service : Service}
    {as : List (AppAction β)} {s : App config.env queueNames β}
    (h : s.Documented isEmail packages service as) (a : AppAction β) :
    s.Documented isEmail packages service (as ++ [a]) where
  dispatches := by
    intro d request step hget
    obtain ⟨hrequested, hvalidated⟩ := h.dispatches d request step hget
    exact ⟨hrequested.append a, hvalidated⟩
  tasks := by
    intro id e hget
    rcases h.tasks id e hget with hold | ⟨request, d, hsubmits⟩
    · exact Or.inl hold
    · exact Or.inr ⟨request, d, hsubmits.requested.append a, hsubmits.valid, hsubmits.id,
        hsubmits.data⟩

/-- What the service does keeps the documents, if the request of each dispatch it begins
has them. -/
theorem App.Documented.service_step {service : Service} {as : List (AppAction β)}
    {s t : App config.env queueNames β} (h : s.Documented ext.isEmail packages service as)
    {a : ServiceAction}
    (hstep : s.process.service.step config.env ext options a = some t.process.service)
    (hreceive : ∀ request, a = .receive request → Requested config packages as request) :
    t.Documented ext.isEmail packages service as where
  dispatches := by
    intro d request step hget
    rcases Service.step_dispatch hstep hget with hold | ⟨ha, rfl⟩ |
      ⟨submission, counts, hcounting, rfl⟩ | ⟨add, reply, -, hadding, rfl⟩
    · exact h.dispatches d request step hold
    · exact ⟨hreceive request ha, request.validated_dispatch config.env ext.isEmail _⟩
    · obtain ⟨hrequested, hvalidated⟩ := h.dispatches d request _ hcounting
      exact ⟨hrequested, JobRequest.validated_resumeCounting hvalidated _ counts⟩
    · obtain ⟨hrequested, -⟩ := h.dispatches d request _ hadding
      exact ⟨hrequested, JobRequest.validated_resumeAdding add _⟩
  tasks := by
    intro id e hget
    rcases Service.step_origin hstep hget with ⟨e₀, hold, hdata⟩ |
      ⟨d, request, add, reply, -, hadding, rfl, hdata⟩
    · rw [← hdata]
      exact h.tasks id e₀ hold
    · obtain ⟨hrequested, d', hvalid, rfl⟩ := h.dispatches d request _ hadding
      refine Or.inr ⟨request, d', hrequested, hvalid, rfl, ?_⟩
      rw [hdata]
      exact congrArg (TaskData.mk _) (stamp_of_ne_nil d'.toProps
        (correlationMiddleware_ne_nil request.header request.randomUUID))

theorem App.Documented.of_same {isEmail : JsString → Bool} {service : Service}
    {as : List (AppAction β)} {s t : App config.env queueNames β}
    (h : s.Documented isEmail packages service as) (hsame : t.process.service = s.process.service) :
    t.Documented isEmail packages service as where
  dispatches := by
    rw [hsame]
    exact h.dispatches
  tasks := by
    rw [hsame]
    exact h.tasks

theorem App.Documented.process_step {service : Service} {as : List (AppAction β)}
    {s t : App config.env queueNames β} (h : s.Documented ext.isEmail packages service as)
    {a : ProcessAction} (hstep : s.process.step config.env ext options a = some t.process)
    (hreceive : ∀ request, a = .work (.receive request) → Requested config packages as request) :
    t.Documented ext.isEmail packages service as := by
  rcases Process.service_step hstep with ⟨hsame, -⟩ | ⟨action, rfl, hservice⟩
  · exact h.of_same hsame
  · refine h.service_step hservice fun request haction => hreceive request ?_
    rw [haction]

theorem App.Documented.step {service : Service} {as : List (AppAction β)}
    {s t : App config.env queueNames β} (h : s.Documented ext.isEmail packages service as)
    {a : AppAction β} (hstep : s.step ext options config packages a = some t) :
    t.Documented ext.isEmail packages service (as ++ [a]) := by
  have happend := h.append a
  cases a with
  | http r now readings =>
      obtain ⟨⟨u, response⟩, hhttp, rfl⟩ := Option.map_eq_some_iff.1 hstep
      obtain ⟨-, -, hhandled⟩ := App.http_cases hhttp
      cases hhandled with
      | answered => exact happend.of_same rfl
      | replied => exact happend.of_same rfl
      | boarded => exact happend.of_same rfl
      | limited jobName headers body _ pass verdict counted =>
          obtain ⟨_, -, rfl⟩ := App.submit_eq_some counted
          exact happend.of_same rfl
      | dispatched jobName headers body _ _ pass verdict counted begun =>
          obtain ⟨_, -, rfl⟩ := App.submit_eq_some counted
          obtain ⟨_, hprocess, rfl⟩ := App.dispatch_eq_some begun
          refine happend.process_step hprocess fun request hrequest => ?_
          cases hrequest
          exact ⟨r, now, readings, jobName, headers, body, List.mem_append_right _
            List.mem_cons_self, pass, rfl⟩
  | react a =>
      obtain ⟨hother, _, hprocess, rfl⟩ := App.react_eq_some hstep
      refine happend.process_step hprocess fun request hrequest => ?_
      rw [hrequest] at hother
      cases hother
  | rebuilt id statusCode body now =>
      obtain ⟨mount, -, rfl⟩ := Option.map_eq_some_iff.1 hstep
      exact happend.of_same rfl

/-- In every run of a process that starts without dispatches, each job in the queue was there
at the start, or is exactly what a `POST` of JSON to the route of its type was validated to,
under the id of its key and stamped with the id of that request. -/
theorem jobs_submitted {service : Service} (hfresh : ∀ d, service.dispatches.get d = none)
    {as : List (AppAction β)} {s : App config.env queueNames β}
    (hrun : (app ext options config packages queueNames β service).run
      (.initial config.env queueNames β service) as = some s) {id : JsString} {e : TaskEntry}
    (hget : s.process.service.tasks.get id = some e) :
    (∃ e₀, service.tasks.get id = some e₀ ∧ e₀.data = e.data) ∨
    ∃ (r : HttpRequest) (now : Nat) (readings : Readings) (jobName : JobName) (body : Json)
        (d : ValidJob), AppAction.http r now readings ∈ as ∧
      r.method = js "POST" ∧ routeMatches (jobPath jobName) r.path = true ∧
      r.contentType.map essence = some applicationJson ∧
      packages.json.parse r.contentType r.body = .ok body ∧
      parseJobData ext.isEmail jobName body = .ok d ∧
      id = jobIdOf jobName d.idempotencyKey ∧
      e.data = ⟨jobName.text, stampedRecord d.toProps
        (correlationMiddleware r.correlationId readings.randomUUID)⟩ := by
  have hstart : (App.initial config.env queueNames β service).Documented ext.isEmail packages
      service [] := by
    refine ⟨fun d request step hd => ?_, fun id e he => Or.inl ⟨e, he, rfl⟩⟩
    exact absurd ((hfresh d).symm.trans hd) (by simp)
  have hs : s.Documented ext.isEmail packages service as :=
    Automaton.run_history
      (I := fun as s => App.Documented ext.isEmail packages service as s) hstart
      (fun as s a t _ h hstep => h.step hstep) hrun
  rcases hs.tasks id e hget with hold | ⟨request, d, hsubmits⟩
  · exact Or.inl hold
  · obtain ⟨r, now, readings, jobName, headers, body, hmem, hpass, rfl⟩ := hsubmits.requested
    obtain ⟨hendpoint, hparse⟩ := HttpRequest.pass_eq_routed hpass
    obtain ⟨hmethod, hpath⟩ := endpoint_eq_job_iff.1 hendpoint
    have htype : r.contentType.map essence = some applicationJson := by
      by_contra hother
      obtain rfl := HttpRequest.body_of_otherType hother hpass
      obtain ⟨issues, hissues⟩ := parseJobData_empty ext.isEmail jobName
      exact absurd (hissues.symm.trans hsubmits.valid) (by simp)
    exact Or.inr ⟨r, now, readings, jobName, body, d, hmem, hmethod, hpath, htype, hparse,
      hsubmits.valid, hsubmits.id, hsubmits.data⟩

def jsonEmailRequest : HttpRequest :=
  { emptyEmailRequest with
    path := js "/API/jobs/email/"
    correlationId := some (js " trace 7 ")
    contentType := some (js "application/json; charset=utf-8")
    body := Unicode.utf8Encode (emailBody (js "order-1")).stringify }

def submittedEmail : List (AppAction Nat) :=
  [.react .listening, .http jsonEmailRequest 5 steadyReadings,
    .react (.work (.counted 0 none)), .react (.work (.added 0 .done))]

theorem jobs_submitted_email :
    ∃ s e, (app atSign defaultJobOptions .default expressPackages [js "q"] Nat .initial).run
        (.initial Environment.default [js "q"] Nat .initial) submittedEmail = some s ∧
      s.process.service.tasks.get (js "email_order-1") = some e ∧
      ∃ (jobName : JobName) (d : ValidJob), js "email_order-1" = jobIdOf jobName d.idempotencyKey ∧
        e.data.data = stampedRecord d.toProps (js "trace7") := by
  have hrun : ((app atSign defaultJobOptions .default expressPackages [js "q"] Nat .initial).run
      (.initial Environment.default [js "q"] Nat .initial) submittedEmail).map
        (fun s => (s.process.service.tasks.get (js "email_order-1")).isSome) = some true := by
    decide +kernel
  obtain ⟨s, hs, hsome⟩ := Option.map_eq_some_iff.1 hrun
  obtain ⟨e, hget⟩ := Option.isSome_iff_exists.1 hsome
  have hfresh : ∀ d, Service.initial.dispatches.get d = none := fun _ => rfl
  have hid : correlationMiddleware jsonEmailRequest.correlationId steadyReadings.randomUUID =
      js "trace7" := by decide
  rcases jobs_submitted hfresh hs hget with ⟨e₀, hold, -⟩ |
    ⟨r, now, readings, jobName, body, d, hmem, -, -, -, -, -, hkey, hdata⟩
  · cases hold
  · refine ⟨s, e, hs, hget, jobName, d, hkey, ?_⟩
    have hone : (AppAction.http r now readings : AppAction Nat) =
        .http jsonEmailRequest 5 steadyReadings := by
      simpa [submittedEmail] using hmem
    cases hone
    rw [hdata, hid]

end TaskQueue

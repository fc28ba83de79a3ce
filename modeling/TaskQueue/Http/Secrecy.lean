import TaskQueue.Http.Provenance
import TaskQueue.Http.Responses

/-!
# Errors stay inside

What Redis says when it fails goes into the error a dispatch ends with, and from there
into the log.  Two runs in which Redis fails alike, but says different things, are told
apart by no response: hiding the texts commutes with every step.
-/

namespace TaskQueue

open Ecma JobQueue

/-! ## Hiding the texts -/

def hiddenError : JsError := .plain []

def DispatchStep.masked : DispatchStep → DispatchStep
  | .rejected (.queueUnavailable _) => .rejected (.queueUnavailable (some hiddenError.message))
  | step => step

def AddReply.masked : AddReply → AddReply
  | .done => .done
  | .refused _ => .refused hiddenError
  | .lost _ => .lost hiddenError

/-- The action with the texts of the errors a dispatch meets hidden. -/
def ServiceAction.masked : ServiceAction → ServiceAction
  | .counted d fault => .counted d (fault.map fun _ => hiddenError)
  | .added d reply => .added d reply.masked
  | a => a

def ProcessAction.masked : ProcessAction → ProcessAction
  | .work a => .work a.masked
  | a => a

def AppAction.masked {β : Type} : AppAction β → AppAction β
  | .react a => .react a.masked
  | a => a

def maskEntry (entry : JobRequest × DispatchStep) : JobRequest × DispatchStep :=
  (entry.1, entry.2.masked)

def Service.masked (s : Service) : Service := { s with dispatches := s.dispatches.map maskEntry }

def Process.masked (p : Process) : Process := { p with service := p.service.masked }

variable {env : Environment} {ext : External} {options : JobOptions} {config : AppConfig}
  {packages : Packages} {queueNames : List JsString} {β : Type}

def App.masked (s : App env queueNames β) : App env queueNames β :=
  { s with process := s.process.masked }

/-! ## The service -/

theorem JobRequest.reply_masked (r : JobRequest) (step : DispatchStep) :
    r.reply step.masked = r.reply step := by
  cases step with
  | rejected error => cases error <;> rfl
  | _ => rfl

theorem Submission.withDepth_masked (s : Submission) (depth : Nat) :
    (s.withDepth env depth).masked = s.withDepth env depth := by
  unfold Submission.withDepth
  split
  · rfl
  · rfl

theorem JobRequest.dispatch_masked (isEmail : JsString → Bool)
    (depthCache : Option DepthCacheEntry) (r : JobRequest) :
    (r.dispatch env isEmail depthCache).masked = r.dispatch env isEmail depthCache := by
  unfold JobRequest.dispatch
  rcases dispatchJob_cases env isEmail depthCache r.jobName r.body (some r.correlationId) r.now with
    ⟨issues, -, hdispatch⟩ | ⟨d, -, hdispatch⟩
  · rw [hdispatch]
    rfl
  · rw [hdispatch]
    unfold enqueue
    split
    · exact Submission.withDepth_masked _ _
    · rfl

theorem Service.failed_masked (job : Job) (err : JsError) (inp : Inputs) (reply : AddReply)
    (s : Service) : s.masked.failed job err inp reply = (s.failed job err inp reply).masked := by
  have hletter : s.masked.world.deadLetter job err inp = s.world.deadLetter job err inp := rfl
  unfold Service.failed
  rw [hletter]
  cases s.world.deadLetter job err inp with
  | none => rfl
  | some add => rfl

theorem Service.counted_masked (d : Nat) (fault : Option JsError) (s : Service) :
    s.masked.counted env d (fault.map fun _ => hiddenError) =
      (s.counted env d fault).map Service.masked := by
  have hget : s.masked.dispatches.get d = (s.dispatches.get d).map maskEntry :=
    Table.get_map _ _ _
  unfold Service.counted
  rw [hget]
  cases s.dispatches.get d with
  | none => rfl
  | some entry =>
      obtain ⟨request, step⟩ := entry
      cases step with
      | rejected error => cases error <;> rfl
      | counting submission =>
          cases fault with
          | none =>
              simp only [Option.map_some, Option.map_none, Service.masked, Table.map_put, maskEntry,
                resumeCounting, Submission.withDepth_masked]
              rfl
          | some err =>
              simp only [Option.map_some, Service.masked, Table.map_put, maskEntry,
                DispatchStep.masked, resumeCounting]
      | adding add => rfl
      | resolved job => rfl

theorem Service.added_masked (d : Nat) (reply : AddReply) (s : Service) :
    s.masked.added options d reply.masked = (s.added options d reply).map Service.masked := by
  have hget : s.masked.dispatches.get d = (s.dispatches.get d).map maskEntry :=
    Table.get_map _ _ _
  unfold Service.added
  rw [hget]
  cases s.dispatches.get d with
  | none => rfl
  | some entry =>
      obtain ⟨request, step⟩ := entry
      cases step with
      | rejected error => cases error <;> rfl
      | counting submission => rfl
      | adding add =>
          cases reply with
          | done =>
              simp only [Option.map_some, Service.masked, Table.map_put, maskEntry]
              rfl
          | refused err =>
              simp only [Option.map_some, Service.masked, Table.map_put, maskEntry]
              rfl
          | lost err =>
              simp only [Option.map_some, Service.masked, Table.map_put, maskEntry]
              rfl
      | resolved job => rfl

/-- Hiding the texts commutes with every step of the service. -/
theorem Service.step_masked (s : Service) (a : ServiceAction) :
    s.masked.step env ext options a.masked = (s.step env ext options a).map Service.masked := by
  cases a with
  | receive request =>
      simp only [Service.step, Service.receive, ServiceAction.masked, Option.map_some,
        Service.masked, Table.map_put, maskEntry, JobRequest.dispatch_masked]
  | counted d fault => exact Service.counted_masked d fault s
  | added d reply => exact Service.added_masked d reply s
  | activate id inp =>
      simp only [Service.step, Service.activate, ServiceAction.masked, Option.map_map]
      rfl
  | complete id =>
      have houtcome : s.masked.outcome id = s.outcome id := rfl
      show s.masked.complete id = (s.complete id).map Service.masked
      unfold Service.complete
      rw [houtcome]
      cases s.outcome id with
      | none => rfl
      | some result =>
          cases result with
          | error err => rfl
          | ok value =>
              simp only [Option.map_map]
              rfl
  | fail id trace inp reply =>
      have houtcome : s.masked.outcome id = s.outcome id := rfl
      have htasks : s.masked.tasks = s.tasks := rfl
      show s.masked.fail id trace inp reply = (s.fail id trace inp reply).map Service.masked
      unfold Service.fail
      rw [houtcome, htasks]
      cases s.outcome id with
      | none => rfl
      | some result =>
          cases result with
          | ok value => rfl
          | error err =>
              cases s.tasks.move id (Entry.fail trace) with
              | none => rfl
              | some moved =>
                  exact congrArg some (Service.failed_masked (jobOf id moved.1) err inp reply
                    { s with tasks := moved.2 })
  | promote id =>
      simp only [Service.step, ServiceAction.masked, Option.map_map]
      rfl
  | stall id =>
      simp only [Service.step, ServiceAction.masked, Option.map_map]
      rfl
  | failDeferred id trace counted inp reply =>
      have htasks : s.masked.tasks = s.tasks := rfl
      show s.masked.failDeferred id trace counted inp reply =
        (s.failDeferred id trace counted inp reply).map Service.masked
      unfold Service.failDeferred
      rw [htasks]
      cases s.tasks.move id (Entry.failDeferred trace counted) with
      | none => rfl
      | some moved =>
          exact congrArg some (Service.failed_masked (jobOf id moved.1) stalledError inp reply
            { s with tasks := moved.2 })
  | prune id =>
      simp only [Service.step, ServiceAction.masked, Option.map_map]
      rfl
  | answer e status =>
      simp only [Service.step, ServiceAction.masked, Option.map_map]
      rfl
  | drop e =>
      simp only [Service.step, ServiceAction.masked, Option.map_map]
      rfl
  | settle e inp =>
      simp only [Service.step, ServiceAction.masked, Option.map_map]
      rfl
  | lose e message inp =>
      simp only [Service.step, ServiceAction.masked, Option.map_map]
      rfl
  | crash => rfl

/-! ## The process -/

theorem Process.permits_masked (p : Process) (a : ServiceAction) :
    p.masked.permits a.masked = p.permits a := by
  cases a <;> rfl

theorem Process.work_masked (p : Process) (a : ServiceAction) :
    p.masked.work env ext options a.masked = (p.work env ext options a).map Process.masked := by
  have hstep : p.masked.service.step env ext options a.masked =
      (p.service.step env ext options a).map Service.masked := Service.step_masked p.service a
  unfold Process.work
  rw [Process.permits_masked, hstep]
  split
  · rw [Option.map_map, Option.map_map]
    rfl
  · rfl

theorem Process.step_masked (p : Process) (a : ProcessAction) :
    p.masked.step env ext options a.masked = (p.step env ext options a).map Process.masked := by
  have hexited : p.masked.exited = p.exited := rfl
  unfold Process.step
  rw [hexited]
  split
  · rfl
  · cases a with
    | listening =>
        have hlistener : p.masked.listener = p.listener := rfl
        simp only [ProcessAction.masked, hlistener]
        split
        · rfl
        · rfl
    | signal => rfl
    | serverClosed =>
        have hlistener : p.masked.listener = p.listener := rfl
        simp only [ProcessAction.masked, hlistener]
        split
        · rfl
        · rfl
    | workerClosed =>
        have hdrained : (p.masked.listener = .closed ∧
            (p.masked.worker = .closing → p.masked.service.world.running.size = 0)) =
            (p.listener = .closed ∧
              (p.worker = .closing → p.service.world.running.size = 0)) := rfl
        simp only [ProcessAction.masked, hdrained]
        split
        · rfl
        · rfl
    | forceExit =>
        have hshutdowns : p.masked.shutdowns = p.shutdowns := rfl
        simp only [ProcessAction.masked, hshutdowns]
        split
        · rfl
        · rfl
    | work a => exact Process.work_masked p a

/-! ## The application -/

theorem ProcessAction.invalidations_masked (a : ProcessAction) :
    a.masked.invalidations = a.invalidations := by
  cases a with
  | work a =>
      cases a with
      | added d reply => cases reply <;> rfl
      | _ => rfl
  | _ => rfl

theorem ProcessAction.isReceive_masked (a : ProcessAction) : a.masked.isReceive = a.isReceive := by
  cases a with
  | work a => cases a <;> rfl
  | _ => rfl

theorem App.submit_masked (ip : JsString) (now : Nat) (s : App env queueNames β) :
    s.masked.submit ip now = (s.submit ip now).map App.masked := by
  have hintake : s.masked.intake = s.intake := rfl
  unfold App.submit
  rw [hintake, Option.map_map]
  rfl

theorem App.dispatch_masked (request : JobRequest) (headers : Headers)
    (s : App env queueNames β) :
    s.masked.dispatch ext options request headers =
      (s.dispatch ext options request headers).map App.masked := by
  have hstep : s.masked.process.step env ext options (.work (.receive request)) =
      (s.process.step env ext options (.work (.receive request))).map Process.masked :=
    Process.step_masked s.process (.work (.receive request))
  unfold App.dispatch
  rw [hstep, Option.map_map, Option.map_map]
  rfl

def maskOutcome (out : App env queueNames β × Option (Response β)) :
    App env queueNames β × Option (Response β) := (out.1.masked, out.2)

theorem App.job_masked (r : HttpRequest) (jobName : JobName) (body : Json) (headers : Headers)
    (now : Nat) (readings : Readings) (s : App config.env queueNames β) :
    s.masked.job ext options config packages r jobName body headers now readings =
      (s.job ext options config packages r jobName body headers now readings).map maskOutcome := by
  have hverdict : ∀ ip, s.masked.verdict ip now = s.verdict ip now := fun _ => rfl
  unfold App.job
  simp only [App.submit_masked, hverdict]
  cases s.submit (r.limiterKey config packages) now with
  | none => rfl
  | some counted =>
      simp only [Option.map_some, Option.bind_some]
      split
      · rw [App.dispatch_masked, Option.map_map, Option.map_map]
        rfl
      · rfl

theorem App.http_masked (r : HttpRequest) (now : Nat) (readings : Readings)
    (s : App config.env queueNames β) :
    s.masked.http ext options config packages r now readings =
      (s.http ext options config packages r now readings).map maskOutcome := by
  have hopen : (s.masked.process.accepts && decide (s.masked.clock ≤ now)) =
      (s.process.accepts && decide (s.clock ≤ now)) := rfl
  unfold App.http
  rw [hopen]
  split
  · cases (r.pass config packages readings : Passed β) with
    | answered response => rfl
    | routed endpoint headers body =>
        cases endpoint with
        | job jobName => exact App.job_masked r jobName body headers now readings s
        | _ => rfl
  · rfl

theorem App.step_masked (s : App config.env queueNames β) (a : AppAction β) :
    s.masked.step ext options config packages a.masked =
      (s.step ext options config packages a).map App.masked := by
  cases a with
  | http r now readings =>
      show (s.masked.http ext options config packages r now readings).map Prod.fst =
        ((s.http ext options config packages r now readings).map Prod.fst).map App.masked
      rw [App.http_masked, Option.map_map, Option.map_map]
      rfl
  | react a =>
      have hstep : s.masked.process.step config.env ext options a.masked =
          (s.process.step config.env ext options a).map Process.masked :=
        Process.step_masked s.process a
      have hinvalidations : ∀ process, invalidationsIn s.masked.process process.masked a.masked =
          invalidationsIn s.process process a := fun process =>
        congrArg (_ + ·) (ProcessAction.invalidations_masked a)
      show s.masked.react ext options config a.masked = (s.react ext options config a).map _
      unfold App.react
      rw [ProcessAction.isReceive_masked, hstep]
      split
      · rfl
      · cases s.process.step config.env ext options a with
        | none => rfl
        | some process =>
            simp only [Option.map_some, hinvalidations]
            rfl
  | rebuilt id statusCode body now =>
      have hmount : s.masked.mount = s.mount := rfl
      simp only [App.step, AppAction.masked, hmount, Option.map_map]
      rfl

theorem App.settled_masked (d : Nat) (s : App env queueNames β) :
    s.masked.settled d = s.settled d := by
  have hget : s.masked.process.service.dispatches.get d =
      (s.process.service.dispatches.get d).map maskEntry := Table.get_map _ _ _
  unfold App.settled
  rw [hget]
  cases s.process.service.dispatches.get d with
  | none => rfl
  | some entry =>
      simp only [Option.map_some, Option.bind_some, maskEntry, JobRequest.reply_masked]
      rfl

/-! ## Two runs -/

/-- When Redis fails alike in two sequences of events, whatever it says, both are runs or
none is; and at the end of them all dispatches have the same responses, and every request
would get the same one. -/
theorem responses_hide_causes {service : Service} {as bs : List (AppAction β)}
    (hsame : as.map AppAction.masked = bs.map AppAction.masked)
    {s : App config.env queueNames β}
    (hrun : (app ext options config packages queueNames β service).run
      (.initial config.env queueNames β service) as = some s) :
    ∃ t, (app ext options config packages queueNames β service).run
        (.initial config.env queueNames β service) bs = some t ∧
      (∀ d, t.settled d = s.settled d) ∧
      ∀ r now readings,
        (t.http ext options config packages r now readings).map Prod.snd =
          (s.http ext options config packages r now readings).map Prod.snd := by
  obtain ⟨t, ht, hmasked⟩ := Automaton.run_alike
    (A := app ext options config packages queueNames β service) (f := App.masked)
    (g := AppAction.masked) App.step_masked hsame hrun
  refine ⟨t, ht, fun d => ?_, fun r now readings => ?_⟩
  · calc t.settled d = t.masked.settled d := (App.settled_masked d t).symm
      _ = s.masked.settled d := by rw [hmasked]
      _ = s.settled d := App.settled_masked d s
  · have hsnd : ∀ u : App config.env queueNames β,
        (u.masked.http ext options config packages r now readings).map Prod.snd =
          (u.http ext options config packages r now readings).map Prod.snd := by
      intro u
      rw [App.http_masked, Option.map_map]
      rfl
    calc (t.http ext options config packages r now readings).map Prod.snd
        = (t.masked.http ext options config packages r now readings).map Prod.snd := (hsnd t).symm
      _ = (s.masked.http ext options config packages r now readings).map Prod.snd := by
          rw [hmasked]
      _ = (s.http ext options config packages r now readings).map Prod.snd := hsnd s

def uncountedEmail (message : JsString) : List (AppAction Nat) :=
  [.react .listening, .http jsonEmailRequest 5 steadyReadings,
    .react (.work (.counted 0 (some (.plain message))))]

theorem responses_hide_causes_uncounted :
    ∃ s t, (app atSign defaultJobOptions .default expressPackages [js "q"] Nat .initial).run
        (.initial Environment.default [js "q"] Nat .initial)
          (uncountedEmail (js "connect ECONNREFUSED redis.internal:6379")) = some s ∧
      (app atSign defaultJobOptions .default expressPackages [js "q"] Nat .initial).run
        (.initial Environment.default [js "q"] Nat .initial)
          (uncountedEmail (js "WRONGPASS for user default")) = some t ∧
      t.settled 0 = s.settled 0 ∧ (s.settled 0).map Response.statusCode = some 503 := by
  have hrun : ((app atSign defaultJobOptions .default expressPackages [js "q"] Nat .initial).run
      (.initial Environment.default [js "q"] Nat .initial)
        (uncountedEmail (js "connect ECONNREFUSED redis.internal:6379"))).map
      (fun s => (s.settled 0).map Response.statusCode) = some (some 503) := by decide +kernel
  obtain ⟨s, hs, hstatus⟩ := Option.map_eq_some_iff.1 hrun
  have hsame : (uncountedEmail (js "connect ECONNREFUSED redis.internal:6379")).map
      AppAction.masked = (uncountedEmail (js "WRONGPASS for user default")).map AppAction.masked :=
    rfl
  obtain ⟨t, ht, hsettled, -⟩ := responses_hide_causes hsame hs
  exact ⟨s, t, hs, ht, hsettled 0, hstatus⟩

end TaskQueue

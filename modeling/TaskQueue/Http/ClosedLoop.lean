import TaskQueue.Http.Loopback
import TaskQueue.Http.Provenance
import TaskQueue.Worker.Absorbing

/-!
# Runs in which the application answers itself

The POST of an execution goes to the server of the same process.  When each one that is
answered gets what the application answers at that time, a webhook execution succeeds
with a delivery of its own only for the served destination, and so does a record.
-/

namespace TaskQueue

open Ecma Unicode

variable {β : Type} {env : Environment} {ext : External} {options : JobOptions}
  {config : AppConfig} {packages : Packages} {queueNames : List JsString}

/-! ## The worker -/

/-- The job is a delivery to the served destination, and fits. -/
def Job.Delivers (env : Environment) (limit : Nat) (job : Job) : Prop :=
  ∃ data, parseWebhookJobRecord job.data = .ok data ∧ data.Fits env limit ∧
    data.destination = .demoAvailable

/-- An execution of a webhook job resolved, and not with a stored result. -/
def Delivered (journal : List WorkEvent) (e : Nat) (job : Job) : Prop :=
  ∃ result, .resolved e job result ∈ journal ∧ job.name = JobName.webhookDelivery.text ∧
    result.isDuplicate = none

/-- The POST of each execution that waits was answered as the application answers it, if it
was, and what was delivered since the worker was in `old` are deliveries that fit. -/
structure World.SelfAnswered (env : Environment) (limit : Nat) (w old : World) : Prop where
  running : ∀ e job delivery, w.running.get e = some (job, delivery) →
    job.name = JobName.webhookDelivery.text ∧ parseWebhookJobRecord job.data = .ok delivery.data
  answers : ∀ e job delivery key status, w.running.get e = some (job, delivery) →
    w.wire.get e = some ⟨key, some status⟩ → status = delivery.data.loopbackStatus env limit
  delivered : ∀ e job, Delivered w.journal e job →
    Delivered old.journal e job ∨ job.Delivers env limit
  records : ∀ key, w.db.Completed JobName.webhookDelivery.text key →
    old.db.Completed JobName.webhookDelivery.text key ∨
      ∃ e job, Delivered w.journal e job ∧ job.Delivers env limit ∧
        idempotencyKeyOf job.data = some key

/-- The POST of an execution that waits gets what the application answers it. -/
def World.AnswersItself (env : Environment) (limit : Nat) (w : World) : WorkAction → Prop
  | .answer e status => ∀ job delivery, w.running.get e = some (job, delivery) →
      status = delivery.data.loopbackStatus env limit
  | _ => True

theorem Delivered.mono {older journal : List WorkEvent} (hsub : ∀ x ∈ older, x ∈ journal)
    {e : Nat} {job : Job} (h : Delivered older e job) : Delivered journal e job := by
  obtain ⟨result, hmem, hname, hown⟩ := h
  exact ⟨result, hsub _ hmem, hname, hown⟩

section

variable {limit : Nat} {old w t : World} (hw : w.SelfAnswered env limit old)

include hw

theorem World.SelfAnswered.of_quiet
    (hrunning : ∀ e x, t.running.get e = some x → w.running.get e = some x)
    (hwire : ∀ e post, t.wire.get e = some post → w.wire.get e = some post)
    (hrecords : ∀ key, t.db.Completed JobName.webhookDelivery.text key →
      w.db.Completed JobName.webhookDelivery.text key)
    (hsub : ∀ x ∈ w.journal, x ∈ t.journal)
    (hdelivered : ∀ e job, Delivered t.journal e job → Delivered w.journal e job) :
    t.SelfAnswered env limit old where
  running := fun e job delivery h => hw.running e job delivery (hrunning e _ h)
  answers := fun e job delivery key status h hpost =>
    hw.answers e job delivery key status (hrunning e _ h) (hwire e _ hpost)
  delivered := fun e job h => hw.delivered e job (hdelivered e job h)
  records := by
    intro key h
    rcases hw.records key (hrecords key h) with hold | ⟨e, job, hdone, hkey⟩
    · exact Or.inl hold
    · exact Or.inr ⟨e, job, hdone.mono hsub, hkey⟩

theorem World.SelfAnswered.of_events (events : List WorkEvent)
    (hrunning : t.running = w.running) (hwire : t.wire = w.wire) (hdb : t.db = w.db)
    (hjournal : t.journal = events ++ w.journal)
    (hquiet : ∀ e job, ¬Delivered events e job) : t.SelfAnswered env limit old := by
  refine hw.of_quiet ?_ ?_ ?_ ?_ ?_
  · intro e x h
    rwa [hrunning] at h
  · intro e post h
    rwa [hwire] at h
  · intro key h
    rwa [hdb] at h
  · intro x hx
    rw [hjournal]
    exact List.mem_append_right _ hx
  · rintro e job ⟨result, hmem, hname, hown⟩
    rw [hjournal, List.mem_append] at hmem
    rcases hmem with hnew | hold
    · exact absurd ⟨result, hnew, hname, hown⟩ (hquiet e job)
    · exact ⟨result, hold, hname, hown⟩

end

theorem World.isDuplicate_of_replay {w : World} {inp : Inputs} {t : JobName} {key : JsString}
    {result : JobExecutionResult}
    (h : (replayStored ext inp t key).run w.machine = (.ok result, w.machine)) :
    result.isDuplicate = some true := by
  rcases replayStored_cases ext inp t key w.machine with
    ⟨err, herror⟩ | ⟨result', hresult, -, -, -, hduplicate, -⟩
  · rw [herror] at h
    cases h
  · rw [hresult] at h
    cases h
    exact hduplicate

/-- A record that a write of a success completes is the one written, or was complete. -/
theorem completed_of_put_success {rows : IdempotencyRows} {jobName key : JsString} {now : Nat}
    {k n : JsString} {result : Json}
    (h : IdempotencyRows.Completed (rows.put (n, k) (successRow now k n result)) jobName key) :
    (jobName, key) = (n, k) ∨ rows.Completed jobName key := by
  obtain ⟨record, hrecord, hstatus⟩ := h
  rcases Table.get_put_eq_some.1 hrecord with ⟨hkey, -⟩ | ⟨-, hold⟩
  · exact Or.inl hkey
  · exact Or.inr ⟨record, hold, hstatus⟩

theorem World.SelfAnswered.begin {limit : Nat} {old w t : World}
    (hw : w.SelfAnswered env limit old) {job : Job} {inp : Inputs} (h : w.Begun env ext job inp t) :
    t.SelfAnswered env limit old := by
  cases h with
  | refused err =>
      refine hw.of_events [.threw w.started err, .began w.started job] rfl rfl rfl rfl ?_
      rintro e j ⟨result, hmem, -⟩
      simp at hmem
  | replayed name key result hname hkey done replay =>
      refine hw.of_events [.resolved w.started job result, .began w.started job] rfl rfl rfl rfl ?_
      rintro e j ⟨result', hmem, -, hown⟩
      obtain ⟨rfl, rfl, rfl⟩ : e = w.started ∧ j = job ∧ result' = result := by
        simpa using hmem
      rw [World.isDuplicate_of_replay replay] at hown
      cases hown
  | unrecorded key err name hkey fresh =>
      refine hw.of_events [.threw w.started err, .did (some w.started) (.emailed key),
        .began w.started job] rfl rfl rfl rfl ?_
      rintro e j ⟨result, hmem, -⟩
      simp at hmem
  | emailed key result now name hkey fresh fields =>
      refine hw.of_quiet (fun _ _ h => h) (fun _ _ h => h) (fun k hk => ?_) (fun x hx => ?_) ?_
      · rcases completed_of_put_success hk with heq | hold
        · exact absurd (Prod.mk.inj heq).1 (by decide)
        · exact hold
      · exact List.mem_cons_of_mem _ (List.mem_cons_of_mem _ (List.mem_cons_of_mem _
          (List.mem_cons_of_mem _ hx)))
      · rintro e j ⟨result', hmem, hname, hown⟩
        simp only [List.mem_cons, reduceCtorEq, false_or] at hmem
        rcases hmem with heq | hold
        · cases heq
          rw [name] at hname
          exact absurd hname (by decide)
        · exact ⟨result', hold, hname, hown⟩
  | posted data startTime name parse fresh read =>
      have hsub : ∀ x ∈ w.journal, x ∈ (.did (some w.started) (.posted data.idempotencyKey) ::
          .began w.started job :: w.journal : List WorkEvent) := fun x hx =>
        List.mem_cons_of_mem _ (List.mem_cons_of_mem _ hx)
      have hdelivered : ∀ e j, Delivered (.did (some w.started) (.posted data.idempotencyKey) ::
          .began w.started job :: w.journal) e j → Delivered w.journal e j := by
        rintro e j ⟨result, hmem, hname, hown⟩
        exact ⟨result, by simpa using hmem, hname, hown⟩
      refine ⟨?_, ?_, fun e j h => hw.delivered e j (hdelivered e j h), fun key h => ?_⟩
      · intro e j delivery hget
        rcases Table.get_put_eq_some.1 hget with ⟨rfl, heq⟩ | ⟨-, hold⟩
        · cases heq
          exact ⟨name, parse⟩
        · exact hw.running e j delivery hold
      · -- The POST that was just issued is not answered.
        intro e j delivery key status hget hpost
        rcases Table.get_put_eq_some.1 hpost with ⟨-, heq⟩ | ⟨hne, hold⟩
        · cases heq
        · exact hw.answers e j delivery key status
            ((Table.get_put_of_ne _ _ hne).symm.trans hget) hold
      · rcases hw.records key h with hold | ⟨e, j, hdone, hkey⟩
        · exact Or.inl hold
        · exact Or.inr ⟨e, j, hdone.mono hsub, hkey⟩

/-- An execution that is resumed delivers only on an answer that is well. -/
theorem World.SelfAnswered.resume {limit : Nat} {old w t : World}
    (hw : w.SelfAnswered env limit old) {e : Nat} {reply : FetchReply} (h : w.Resumed e reply t)
    (hreply : ∀ status, reply = .response status → ∃ key, w.wire.get e = some ⟨key, some status⟩) :
    t.SelfAnswered env limit old := by
  cases h with
  | threw job delivery err get =>
      refine hw.of_quiet (fun e' x h => (Table.get_remove_eq_some.1 h).2) (fun _ _ h => h)
        (fun _ h => h) (fun x hx => List.mem_cons_of_mem _ hx) ?_
      rintro e' j ⟨result, hmem, hname, hown⟩
      exact ⟨result, by simpa using hmem, hname, hown⟩
  | delivered job delivery status now result get response ok fields =>
      obtain ⟨hname, hparse⟩ := hw.running e job delivery get
      obtain ⟨key, hpost⟩ := hreply status response
      have hstatus := hw.answers e job delivery key status get hpost
      have hjob : job.Delivers env limit := by
        rw [hstatus] at ok
        obtain ⟨hfits, hdestination⟩ := WebhookJobData.isOk_loopbackStatus.1 ok
        exact ⟨delivery.data, hparse, hfits, hdestination⟩
      have hnow : Delivered (.resolved e job result :: .did (some e) (.recordedSuccess
          JobName.webhookDelivery.text delivery.data.idempotencyKey result.data) :: w.journal)
          e job := ⟨result, List.mem_cons_self, hname, fields.2.2⟩
      refine ⟨fun e' j d h => hw.running e' j d (Table.get_remove_eq_some.1 h).2,
        fun e' j d k st h => hw.answers e' j d k st (Table.get_remove_eq_some.1 h).2, ?_, ?_⟩
      · rintro e' j ⟨result', hmem, hname', hown⟩
        simp only [List.mem_cons, reduceCtorEq, false_or] at hmem
        rcases hmem with heq | hold
        · cases heq
          exact Or.inr hjob
        · exact hw.delivered e' j ⟨result', hold, hname', hown⟩
      · intro k hk
        rcases completed_of_put_success hk with heq | hold
        · obtain ⟨-, rfl⟩ := Prod.mk.inj heq
          exact Or.inr ⟨e, job, hnow, hjob, idempotencyKeyOf_webhook hparse⟩
        · rcases hw.records k hold with hfirst | ⟨e', j, hdone, hkey⟩
          · exact Or.inl hfirst
          · exact Or.inr ⟨e', j, hdone.mono fun x hx =>
              List.mem_cons_of_mem _ (List.mem_cons_of_mem _ hx), hkey⟩

theorem World.SelfAnswered.answer {limit : Nat} {old w t : World}
    (hw : w.SelfAnswered env limit old) {e status : Nat}
    (hself : w.AnswersItself env limit (.answer e status)) (h : w.answer e status = some t) :
    t.SelfAnswered env limit old := by
  obtain ⟨key, hget, rfl⟩ := World.answer_eq_some.1 h
  have hsub : ∀ x ∈ w.journal, x ∈ (.answered e key status :: w.journal : List WorkEvent) :=
    fun x hx => List.mem_cons_of_mem _ hx
  refine ⟨hw.running, ?_, ?_, ?_⟩
  · intro e' job delivery k st hrunning hpost
    rcases Table.get_put_eq_some.1 hpost with ⟨rfl, heq⟩ | ⟨-, hold⟩
    · cases heq
      exact hself job delivery hrunning
    · exact hw.answers e' job delivery k st hrunning hold
  · rintro e' job ⟨result, hmem, hname, hown⟩
    exact hw.delivered e' job ⟨result, by simpa using hmem, hname, hown⟩
  · intro k hk
    rcases hw.records k hk with hold | ⟨e', job, hdone, hkey⟩
    · exact Or.inl hold
    · exact Or.inr ⟨e', job, hdone.mono hsub, hkey⟩

theorem World.SelfAnswered.failed {limit : Nat} {old w t : World}
    (hw : w.SelfAnswered env limit old) {job : Option Job} {err : JsError} {inp : Inputs}
    (h : w.Handled job err inp t) : t.SelfAnswered env limit old := by
  cases h with
  | counted metrics pending =>
      refine hw.of_events [.did none .invalidatedSnapshot] rfl rfl rfl rfl ?_
      rintro e j ⟨result, hmem, -⟩
      simp at hmem
  | routed j metrics add hjob terminal unrecorded =>
      refine hw.of_events [.routed j add, .did none .invalidatedSnapshot] rfl rfl rfl rfl ?_
      rintro e j' ⟨result, hmem, -⟩
      simp at hmem
  | recorded j key metrics add hjob terminal hkey write =>
      refine hw.of_quiet (fun _ _ h => h) (fun _ _ h => h)
        (fun k hk => ((completed_put_failure _ _ _ _).1 hk).2) (fun x hx => ?_) ?_
      · exact List.mem_cons_of_mem _ (List.mem_cons_of_mem _ (List.mem_cons_of_mem _ hx))
      · rintro e j' ⟨result, hmem, hname, hown⟩
        exact ⟨result, by simpa using hmem, hname, hown⟩

theorem World.SelfAnswered.step {limit : Nat} {old w t : World}
    (hw : w.SelfAnswered env limit old) {a : WorkAction} (hself : w.AnswersItself env limit a)
    (h : w.step env ext a = some t) : t.SelfAnswered env limit old := by
  cases World.step_cases h with
  | began job inp t begun => exact hw.begin begun
  | answered e status t answer => exact hw.answer hself answer
  | dropped e t drop =>
      obtain ⟨key, -, rfl⟩ := World.drop_eq_some.1 drop
      exact hw.of_quiet (fun _ _ h => h) (fun e' post h => (Table.get_remove_eq_some.1 h).2)
        (fun _ h => h) (fun _ h => h) (fun _ _ h => h)
  | settled e inp key status t get resumed =>
      refine hw.resume resumed fun s hs => ?_
      cases hs
      exact ⟨key, get⟩
  | lost e message inp t resumed => exact hw.resume resumed nofun
  | failed job err inp t handled => exact hw.failed handled
  | noted a t noted =>
      cases noted with
      | unchanged => exact hw
      | invalidated metrics =>
          refine hw.of_events [.did none .invalidatedSnapshot] rfl rfl rfl rfl ?_
          rintro e j ⟨result, hmem, -⟩
          simp at hmem
  | crashed =>
      refine hw.of_quiet (fun e x h => ?_) (fun _ _ h => h) (fun _ h => h)
        (fun x hx => List.mem_cons_of_mem _ hx) ?_
      · simp [World.crash] at h
      · rintro e j ⟨result, hmem, hname, hown⟩
        exact ⟨result, by simpa [World.crash] using hmem, hname, hown⟩

/-! ## The application -/

/-- A step in which the POST of an execution is answered answers it as the application
would answer a request of that kind now. -/
def App.AnswersItself (ext : External) (options : JobOptions) (config : AppConfig)
    (packages : Packages) (s : App config.env queueNames β) : AppAction β → Prop
  | .react (.work (.answer e status)) =>
      ∀ job delivery, s.process.service.world.running.get e = some (job, delivery) →
        ∃ r now readings t response,
          (webhookRequest config.env delivery.data).Arrives config.env r ∧
          s.http ext options config packages r now readings = some (t, some response) ∧
          response.statusCode = status
  | _ => True

/-- It is answered by its destination and its size, as long as the server accepts requests. -/
theorem App.answersItself_iff {s : App config.env queueNames β} {e status : Nat} :
    s.AnswersItself ext options config packages (.react (.work (.answer e status))) ↔
      ∀ job delivery, s.process.service.world.running.get e = some (job, delivery) →
        s.process.accepts = true ∧
          status = delivery.data.loopbackStatus config.env packages.json.limit := by
  constructor
  · intro h job delivery hget
    obtain ⟨r, now, readings, t, response, harrives, hhttp, hstatus⟩ := h job delivery hget
    obtain ⟨haccepts, hclock, -⟩ := App.http_cases hhttp
    obtain ⟨answer, hanswer, hloopback⟩ : ∃ answer,
        s.http ext options config packages r now readings =
          some ({ s with clock := now }, some answer) ∧
        answer.statusCode = delivery.data.loopbackStatus config.env packages.json.limit :=
      App.http_loopback harrives haccepts hclock
    have hsame : some response = some answer :=
      (Prod.mk.inj (Option.some.inj (hhttp.symm.trans hanswer))).2
    refine ⟨haccepts, ?_⟩
    rw [← hstatus, Option.some.inj hsame, hloopback]
  · intro h job delivery hget
    obtain ⟨haccepts, hstatus⟩ := h job delivery hget
    obtain ⟨answer, hanswer, hloopback⟩ : ∃ answer,
        s.http ext options config packages (loopbackPost config.env delivery.data) s.clock
            steadyReadings = some ({ s with clock := s.clock }, some answer) ∧
        answer.statusCode = delivery.data.loopbackStatus config.env packages.json.limit :=
      App.http_loopback (loopbackPost_arrives config.env delivery.data) haccepts
        (Nat.le_refl s.clock)
    exact ⟨_, s.clock, steadyReadings, _, answer, loopbackPost_arrives config.env delivery.data,
      hanswer, hloopback.trans hstatus.symm⟩

def App.answersItself (config : AppConfig) (packages : Packages)
    (s : App config.env queueNames β) : AppAction β → Bool
  | .react (.work (.answer e status)) =>
      match s.process.service.world.running.get e with
      | none => true
      | some (_, delivery) =>
          s.process.accepts && status == delivery.data.loopbackStatus config.env packages.json.limit
  | _ => true

theorem App.answersItself_of_eq_true {s : App config.env queueNames β}
    {a : AppAction β} (h : s.answersItself config packages a = true) :
    s.AnswersItself ext options config packages a := by
  cases a with
  | react a =>
      cases a with
      | work action =>
          cases action with
          | answer e status =>
              refine App.answersItself_iff.2 fun job delivery hget => ?_
              simp only [App.answersItself, hget, Bool.and_eq_true, beq_iff_eq] at h
              exact h
          | _ => trivial
      | _ => trivial
  | _ => trivial

theorem App.selfAnswered_step {old : World} {s t : App config.env queueNames β} {a : AppAction β}
    (hs : s.process.service.world.SelfAnswered config.env packages.json.limit old)
    (hself : s.AnswersItself ext options config packages a)
    (h : s.step ext options config packages a = some t) :
    t.process.service.world.SelfAnswered config.env packages.json.limit old := by
  rcases App.service_step h with hsame | ⟨action, hcause, hservice⟩
  · rw [hsame]
    exact hs
  · refine Service.worker_keeps
      (I := fun w => w.SelfAnswered config.env packages.json.limit old)
      (fun w v b hanswer hw hstep => hw.step ?_ hstep) hs hservice
    cases b with
    | answer e status =>
        obtain ⟨rfl, rfl⟩ := hanswer e status rfl
        rcases hcause with rfl | ⟨request, hrequest⟩
        · exact fun job delivery hget =>
            (App.answersItself_iff.1 hself job delivery hget).2
        · cases hrequest
    | _ => trivial

/-- In every run of a process that starts without executions, and answers its own POSTs:
each webhook execution that resolves with a delivery of its own is of a job to the served
destination whose body fits, and each record that is completed is that of such a job, though its
delivery may be one of before the start. -/
theorem self_deliveries {service : Service} (hidle : ∀ e, service.world.running.get e = none)
    {as : List (AppAction β)} {s : App config.env queueNames β}
    (hrun : (app ext options config packages queueNames β service).run
      (.initial config.env queueNames β service) as = some s)
    (hself : (app ext options config packages queueNames β service).Meets
      (App.AnswersItself ext options config packages)
      (.initial config.env queueNames β service) as) :
    (∀ e job, Delivered s.process.service.world.journal e job →
      Delivered service.world.journal e job ∨ job.Delivers config.env packages.json.limit) ∧
    ∀ key, s.process.service.world.db.Completed JobName.webhookDelivery.text key →
      service.world.db.Completed JobName.webhookDelivery.text key ∨
        ∃ e job, Delivered s.process.service.world.journal e job ∧
          job.Delivers config.env packages.json.limit ∧
          idempotencyKeyOf job.data = some key := by
  have hstart : service.world.SelfAnswered config.env packages.json.limit service.world := by
    refine ⟨fun e job delivery h => ?_, fun e job delivery key status h => ?_,
      fun e job h => Or.inl h, fun key h => Or.inl h⟩
    · rw [hidle e] at h
      cases h
    · rw [hidle e] at h
      cases h
  have hs : s.process.service.world.SelfAnswered config.env packages.json.limit service.world :=
    Automaton.Meets.preserves
      (I := fun s : App config.env queueNames β =>
        s.process.service.world.SelfAnswered config.env packages.json.limit service.world)
      (fun s a t _ hI hC hstep => App.selfAnswered_step hI hC hstep) .start hstart hself hrun
  exact ⟨hs.delivered, hs.records⟩

def jsonWebhookRequest : HttpRequest :=
  { jsonEmailRequest with
    path := js "/api/jobs/webhook"
    body := utf8Encode availableRequest.body.stringify }

def deliveredToItself : List (AppAction Nat) :=
  [.react .listening, .http jsonWebhookRequest 5 steadyReadings,
    .react (.work (.counted 0 none)), .react (.work (.added 0 .done)),
    .react (.work (.activate (js "webhook_k") steady)), .react (.work (.answer 0 200)),
    .react (.work (.settle 0 steady))]

theorem self_deliveries_deliveredToItself :
    ∃ s, (app atSign defaultJobOptions .default expressPackages [js "q"] Nat .initial).run
        (.initial Environment.default [js "q"] Nat .initial) deliveredToItself = some s ∧
      ∃ e job, Delivered s.process.service.world.journal e job ∧
        job.Delivers Environment.default 16384 := by
  have hrun : ((app atSign defaultJobOptions .default expressPackages [js "q"] Nat .initial).run
      (.initial Environment.default [js "q"] Nat .initial) deliveredToItself).map
        (fun s => decide (s.process.service.world.db.Completed
          JobName.webhookDelivery.text (js "k"))) = some true := by decide +kernel
  have hchecked : (app atSign defaultJobOptions .default expressPackages [js "q"] Nat
      .initial).Meets (fun s a => App.answersItself .default expressPackages s a = true)
        (.initial AppConfig.default.env [js "q"] Nat .initial) deliveredToItself := by
    decide +kernel
  obtain ⟨s, hs, hdone⟩ := Option.map_eq_some_iff.1 hrun
  have hself : (app atSign defaultJobOptions .default expressPackages [js "q"] Nat
      .initial).Meets (App.AnswersItself atSign defaultJobOptions .default expressPackages)
        (.initial AppConfig.default.env [js "q"] Nat .initial) deliveredToItself :=
    hchecked.mono fun s a h => App.answersItself_of_eq_true h
  obtain ⟨-, hrecords⟩ := self_deliveries (fun _ => rfl) hs hself
  refine ⟨s, hs, ?_⟩
  rcases hrecords (js "k") (of_decide_eq_true hdone) with hold | ⟨e, job, hown, hjob, -⟩
  · exact absurd hold (by decide)
  · exact ⟨e, job, hown, hjob⟩

end TaskQueue

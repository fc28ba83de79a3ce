import TaskQueue.Lib.JsonText
import TaskQueue.Worker.World

/-!
# No success without performed work

Every completed row is backed by a side-effect of the same job type and key and
holds the text of the latest recorded result, and every suspended execution by
the POST it issued.  So an execution that resolves has done its work itself or
replays the work of an earlier execution of exactly its type and key.
-/

namespace TaskQueue

open Ecma Journal

variable {env : Environment} {ext : External}

def Performed (journal : List WorkEvent) (e : Nat) (t : JobName) (key : JsString) : Prop :=
  match t with
  | .emailNotification => .did (some e) (.emailed key) ∈ journal
  | .webhookDelivery => ∃ status, isOk status = true ∧ .answered e key status ∈ journal

def BeganAs (journal : List WorkEvent) (e : Nat) (t : JobName) (key : JsString) : Prop :=
  ∃ job, .began e job ∈ journal ∧ job.name = t.text ∧ idempotencyKeyOf job.data = some key

def latestSuccess (jobName key : JsString) : List WorkEvent → Option Json
  | [] => none
  | .did _ (.recordedSuccess n k result) :: older =>
      if n = jobName ∧ k = key then some result else latestSuccess jobName key older
  | _ :: older => latestSuccess jobName key older

def WorkEvent.quiet : WorkEvent → Bool
  | .did _ (.recordedSuccess ..) => false
  | _ => true

theorem latestSuccess_cons_of_quiet {event : WorkEvent} (h : event.quiet = true)
    (jobName key : JsString) (older : List WorkEvent) :
    latestSuccess jobName key (event :: older) = latestSuccess jobName key older := by
  cases event with
  | did execution effect =>
      cases effect with
      | recordedSuccess => cases h
      | _ => rfl
  | _ => rfl

/-- The work behind a success of type `t` for `key`, as of execution `e`. -/
def WorkDone (journal : List WorkEvent) (e : Nat) (t : JobName) (key : JsString) : Prop :=
  ∃ e' ≤ e, BeganAs journal e' t key ∧ Performed journal e' t key

/-- What a resolution owes to the events before it. -/
def WorkEvent.Owed : WorkEvent → List WorkEvent → Prop
  | .resolved e job result, older =>
      ∃ t key, job.name = t.text ∧ idempotencyKeyOf job.data = some key ∧
        result.jobName = t ∧ result.idempotencyKey = key ∧ WorkDone older e t key ∧
        (result.isDuplicate = some true → ∃ stored, latestSuccess t.text key older = some stored ∧
          Json.parse stored.stringify = some result.data)
  | _, _ => True

/-- A row is backed: completed rows hold the latest recorded result of their type
and key, whose work was done by an execution that has begun. -/
def Backed (journal : List WorkEvent) (started : Nat) (jobName key : JsString)
    (record : IdempotencyRecord) : Prop :=
  record.status = .completed →
    ∃ stored, latestSuccess jobName key journal = some stored ∧
      record.result_json = stored.stringify ∧
      ∃ t, jobName = t.text ∧ ∃ e < started, BeganAs journal e t key ∧ Performed journal e t key

structure Suspended (journal : List WorkEvent) (started e : Nat) (job : Job)
    (delivery : WebhookDelivery) : Prop where
  lt : e < started
  began : .began e job ∈ journal
  name : job.name = JobName.webhookDelivery.text
  parse : parseWebhookJobRecord job.data = .ok delivery.data

structure World.Sound (w : World) : Prop where
  rows : ∀ jobName key record, w.db.get (jobName, key) = some record →
    Backed w.journal w.started jobName key record
  running : ∀ e job delivery, w.running.get e = some (job, delivery) →
    Suspended w.journal w.started e job delivery ∧
      ∀ post, w.wire.get e = some post → post.key = delivery.data.idempotencyKey
  wire : ∀ e post, w.wire.get e = some post → e < w.started ∧
    ∀ status ∈ post.status, .answered e post.key status ∈ w.journal
  owed : Justified WorkEvent.Owed w.journal

/-! ## Monotonicity -/

theorem Performed.mono {older journal : List WorkEvent} {e : Nat} {t : JobName} {key : JsString}
    (hsub : ∀ x ∈ older, x ∈ journal) (h : Performed older e t key) :
    Performed journal e t key := by
  cases t with
  | emailNotification => exact hsub _ h
  | webhookDelivery =>
      obtain ⟨status, hok, hmem⟩ := h
      exact ⟨status, hok, hsub _ hmem⟩

theorem BeganAs.mono {older journal : List WorkEvent} {e : Nat} {t : JobName} {key : JsString}
    (hsub : ∀ x ∈ older, x ∈ journal) (h : BeganAs older e t key) : BeganAs journal e t key := by
  obtain ⟨job, hmem, hname, hkey⟩ := h
  exact ⟨job, hsub _ hmem, hname, hkey⟩

theorem Suspended.mono {older journal : List WorkEvent} {n m e : Nat} {job : Job}
    {delivery : WebhookDelivery} (hsub : ∀ x ∈ older, x ∈ journal) (hle : n ≤ m)
    (h : Suspended older n e job delivery) : Suspended journal m e job delivery :=
  ⟨Nat.lt_of_lt_of_le h.lt hle, hsub _ h.began, h.name, h.parse⟩

theorem Suspended.beganAs {journal : List WorkEvent} {n e : Nat} {job : Job}
    {delivery : WebhookDelivery} (h : Suspended journal n e job delivery) :
    BeganAs journal e .webhookDelivery delivery.data.idempotencyKey :=
  ⟨job, h.began, h.name, idempotencyKeyOf_webhook h.parse⟩

/-- A backed row stays backed as long as no later success is recorded for it. -/
theorem Backed.mono {older journal : List WorkEvent} {n m : Nat} {jobName key : JsString}
    {record : IdempotencyRecord} (hsub : ∀ x ∈ older, x ∈ journal) (hle : n ≤ m)
    (hlatest : latestSuccess jobName key journal = latestSuccess jobName key older)
    (h : Backed older n jobName key record) : Backed journal m jobName key record := by
  intro hcompleted
  obtain ⟨stored, hstored, hjson, t, ht, e, he, hbegan, hperformed⟩ := h hcompleted
  exact ⟨stored, hlatest.trans hstored, hjson, t, ht, e, by omega, hbegan.mono hsub,
    hperformed.mono hsub⟩

theorem latestSuccess_append_of_quiet {events : List WorkEvent}
    (h : ∀ event ∈ events, event.quiet = true) (jobName key : JsString)
    (older : List WorkEvent) :
    latestSuccess jobName key (events ++ older) = latestSuccess jobName key older := by
  induction events with
  | nil => rfl
  | cons event events ih =>
      rw [List.cons_append, latestSuccess_cons_of_quiet (h event (by simp)),
        ih fun x hx => h x (by simp [hx])]

/-! ## One step -/

theorem World.Sound.rows_of_quiet {w : World} (hw : w.Sound) (events : List WorkEvent) {n : Nat}
    (hquiet : ∀ event ∈ events, event.quiet = true) (hle : w.started ≤ n) :
    ∀ jobName key record, w.db.get (jobName, key) = some record →
      Backed (events ++ w.journal) n jobName key record := fun jobName key record h =>
  (hw.rows jobName key record h).mono (fun _ hx => List.mem_append_right _ hx) hle
    (latestSuccess_append_of_quiet hquiet jobName key w.journal)

theorem World.Sound.rows_of_success {w : World} (hw : w.Sound) (events : List WorkEvent)
    (execution : Option Nat) {n now e : Nat} {t : JobName} {key : JsString} {result : Json}
    (hquiet : ∀ event ∈ events, event.quiet = true) (hle : w.started ≤ n) (he : e < n)
    (hbegan : BeganAs (events ++ w.journal) e t key)
    (hperformed : Performed (events ++ w.journal) e t key) :
    ∀ jobName k record,
      (w.db.put (t.text, key) (successRow now key t.text result)).get (jobName, k) = some record →
      Backed (.did execution (.recordedSuccess t.text key result) :: (events ++ w.journal)) n
        jobName k record := by
  intro jobName k record h
  rcases Table.get_put_eq_some.1 h with ⟨hkey, rfl⟩ | ⟨hkey, hold⟩
  · obtain ⟨rfl, rfl⟩ := Prod.mk.inj hkey
    refine fun _ => ⟨result, ?_, rfl, t, rfl, e, he, hbegan.mono ?_, hperformed.mono ?_⟩
    · simp [latestSuccess]
    · exact fun _ hx => List.mem_cons_of_mem _ hx
    · exact fun _ hx => List.mem_cons_of_mem _ hx
  · refine (hw.rows jobName k record hold).mono
      (fun _ hx => List.mem_cons_of_mem _ (List.mem_append_right _ hx)) hle ?_
    have hne : ¬(t.text = jobName ∧ key = k) := fun hsame => hkey (by rw [hsame.1, hsame.2])
    rw [latestSuccess, if_neg hne]
    exact latestSuccess_append_of_quiet hquiet jobName k w.journal

theorem World.Sound.running_of_log {w : World} (hw : w.Sound) {journal : List WorkEvent} {n : Nat}
    (hsub : ∀ x ∈ w.journal, x ∈ journal) (hle : w.started ≤ n) :
    ∀ e job delivery, w.running.get e = some (job, delivery) →
      Suspended journal n e job delivery ∧
        ∀ post, w.wire.get e = some post → post.key = delivery.data.idempotencyKey :=
  fun e job delivery h =>
    ⟨(hw.running e job delivery h).1.mono hsub hle, (hw.running e job delivery h).2⟩

theorem World.Sound.wire_of_log {w : World} (hw : w.Sound) {journal : List WorkEvent} {n : Nat}
    (hsub : ∀ x ∈ w.journal, x ∈ journal) (hle : w.started ≤ n) :
    ∀ e post, w.wire.get e = some post → e < n ∧
      ∀ status ∈ post.status, .answered e post.key status ∈ journal :=
  fun e post h => ⟨Nat.lt_of_lt_of_le (hw.wire e post h).1 hle,
    fun status hs => hsub _ ((hw.wire e post h).2 status hs)⟩

theorem World.Sound.logs {w : World} (hw : w.Sound) (events : List WorkEvent) {metrics : Metrics}
    {n : Nat} (hquiet : ∀ event ∈ events, event.quiet = true) (hle : w.started ≤ n)
    (howed : Justified WorkEvent.Owed (events ++ w.journal)) :
    World.Sound { w with metrics, started := n, journal := events ++ w.journal } := by
  have hsub : ∀ x ∈ w.journal, x ∈ events ++ w.journal := fun _ hx => List.mem_append_right _ hx
  exact ⟨hw.rows_of_quiet events hquiet hle, hw.running_of_log hsub hle, hw.wire_of_log hsub hle,
    howed⟩

theorem World.initial_sound : World.initial.Sound where
  rows := fun jobName key record h => by simp [World.initial] at h
  running := fun e job delivery h => by simp [World.initial] at h
  wire := fun e post h => by simp [World.initial] at h
  owed := trivial

/-- What a replay returns is the latest recorded result of its type and key. -/
theorem World.Sound.replayed {w : World} (hw : w.Sound) {inp : Inputs} {job : Job} {t : JobName}
    {key : JsString} {result : JobExecutionResult} (name : job.name = t.text)
    (hkey : idempotencyKeyOf job.data = some key) (done : w.db.Completed t.text key)
    (replay : (replayStored ext inp t key).run w.machine = (.ok result, w.machine)) :
    WorkEvent.Owed (.resolved w.started job result) (.began w.started job :: w.journal) := by
  obtain ⟨record, hrecord, hstatus⟩ := done
  obtain ⟨stored, hlatest, hjson, t', ht', e, he, hbegan, hperformed⟩ :=
    hw.rows t.text key record hrecord hstatus
  obtain rfl := JobName.text_injective ht'
  rcases replayStored_cases ext inp t key w.machine with
    ⟨err, h⟩ | ⟨result', h, -, hjob, hres, -, hdata⟩
  · rw [h] at replay
    cases replay
  · rw [h] at replay
    cases replay
    have hsub : ∀ x ∈ w.journal, x ∈ .began w.started job :: w.journal :=
      fun _ hx => List.mem_cons_of_mem _ hx
    refine ⟨t, key, name, hkey, hjob, hres, ⟨e, by omega, hbegan.mono hsub, hperformed.mono hsub⟩,
      fun _ => ⟨stored, ?_, ?_⟩⟩
    · rw [latestSuccess_cons_of_quiet rfl]
      exact hlatest
    · rw [← hjson]
      refine hdata record hrecord ?_
      rw [hjson]
      obtain ⟨u, s, hs, -⟩ := stringify_cons stored
      simp [hs]

theorem World.Sound.begin {w t : World} (hw : w.Sound) {job : Job} {inp : Inputs}
    (h : w.Begun env ext job inp t) : t.Sound := by
  have hone : w.started ≤ w.started + 1 := Nat.le_succ _
  cases h with
  | refused err =>
      exact hw.logs ([.threw w.started err, .began w.started job])
        (by simp [WorkEvent.quiet]) hone ⟨trivial, trivial, hw.owed⟩
  | replayed u key result name hkey done replay =>
      have howed := hw.replayed name hkey done replay
      exact hw.logs ([.resolved w.started job result, .began w.started job])
        (by simp [WorkEvent.quiet]) hone ⟨howed, trivial, hw.owed⟩
  | unrecorded key err name hkey fresh =>
      exact hw.logs ([.threw w.started err, .did (some w.started) (.emailed key),
          .began w.started job])
        (by simp [WorkEvent.quiet]) hone ⟨trivial, trivial, trivial, hw.owed⟩
  | emailed key result now name hkey fresh fields =>
      obtain ⟨hjob, hres, hdup⟩ := fields
      have hbegan : BeganAs (.did (some w.started) (.emailed key) :: .began w.started job ::
          w.journal) w.started .emailNotification key := ⟨job, by simp, name, hkey⟩
      have hperformed : Performed (.did (some w.started) (.emailed key) :: .began w.started job ::
          w.journal) w.started .emailNotification key := List.mem_cons_self
      have hsub : ∀ x ∈ w.journal, x ∈ .resolved w.started job result :: .did (some w.started)
          (.recordedSuccess JobName.emailNotification.text key result.data) ::
          .did (some w.started) (.emailed key) :: .began w.started job :: w.journal :=
        fun _ hx => List.mem_cons_of_mem _ (List.mem_cons_of_mem _ (List.mem_cons_of_mem _
          (List.mem_cons_of_mem _ hx)))
      refine ⟨fun jobName k record hrecord => ?_, hw.running_of_log hsub hone,
        hw.wire_of_log hsub hone, ?_, trivial, trivial, trivial, hw.owed⟩
      · have hrow := hw.rows_of_success (n := w.started + 1) (t := .emailNotification)
          [.did (some w.started) (.emailed key), .began w.started job] (some w.started)
          (by simp [WorkEvent.quiet]) hone (Nat.lt_succ_self _) hbegan hperformed jobName k record
          hrecord
        exact hrow.mono (fun _ hx => List.mem_cons_of_mem _ hx) (le_refl _)
          (latestSuccess_cons_of_quiet rfl _ _ _)
      · refine ⟨.emailNotification, key, name, hkey, hjob, hres, ⟨w.started, le_refl _, ?_, ?_⟩,
          fun h => by simp [hdup] at h⟩
        · exact hbegan.mono fun _ hx => List.mem_cons_of_mem _ hx
        · exact hperformed.mono fun _ hx => List.mem_cons_of_mem _ hx
  | posted data startTime name parse fresh =>
      have hsub : ∀ x ∈ w.journal, x ∈ .did (some w.started) (.posted data.idempotencyKey) ::
          .began w.started job :: w.journal :=
        fun _ hx => List.mem_cons_of_mem _ (List.mem_cons_of_mem _ hx)
      refine ⟨hw.rows_of_quiet ([.did (some w.started) (.posted data.idempotencyKey),
        .began w.started job]) (by simp [WorkEvent.quiet]) hone, ?_, ?_, trivial, trivial, hw.owed⟩
      · intro e j delivery hget
        rcases Table.get_put_eq_some.1 hget with ⟨rfl, hpair⟩ | ⟨he, hold⟩
        · obtain ⟨rfl, rfl⟩ := Prod.mk.inj hpair
          refine ⟨⟨Nat.lt_succ_self _, by simp, name, parse⟩, fun post hpost => ?_⟩
          rw [Table.get_put_self] at hpost
          cases hpost
          rfl
        · obtain ⟨hsuspended, hposts⟩ := hw.running_of_log hsub hone e j delivery hold
          refine ⟨hsuspended, fun post hpost => ?_⟩
          rw [Table.get_put_of_ne _ _ he] at hpost
          exact hposts post hpost
      · intro e post hget
        rcases Table.get_put_eq_some.1 hget with ⟨rfl, rfl⟩ | ⟨-, hold⟩
        · exact ⟨Nat.lt_succ_self _, fun status hs => by cases hs⟩
        · exact hw.wire_of_log hsub hone e post hold

/-- Taking an execution out keeps the others. -/
theorem World.Sound.running_of_remove {w : World} (hw : w.Sound) {journal : List WorkEvent}
    (hsub : ∀ x ∈ w.journal, x ∈ journal) (i : Nat) :
    ∀ e job delivery, (w.running.remove i).get e = some (job, delivery) →
      Suspended journal w.started e job delivery ∧
        ∀ post, w.wire.get e = some post → post.key = delivery.data.idempotencyKey := by
  intro e job delivery h
  have hold := (Table.get_remove_eq_some.1 h).2
  exact hw.running_of_log hsub (le_refl _) e job delivery hold

/-- An execution is resumed with the status its POST was answered with, or with
a failure. -/
theorem World.Sound.resume {w t : World} (hw : w.Sound) {e : Nat} {reply : FetchReply}
    (hreply : ∀ status, reply = .response status → ∃ key, w.wire.get e = some ⟨key, some status⟩)
    (h : w.Resumed e reply t) : t.Sound := by
  cases h with
  | threw job delivery err get =>
      have hsub : ∀ x ∈ w.journal, x ∈ WorkEvent.threw e err :: w.journal :=
        fun _ hx => List.mem_cons_of_mem _ hx
      exact ⟨hw.rows_of_quiet ([.threw e err]) (by simp [WorkEvent.quiet]) (le_refl _),
        hw.running_of_remove hsub e, hw.wire_of_log hsub (le_refl _), trivial, hw.owed⟩
  | delivered job delivery status now result get response ok fields =>
      obtain ⟨hjob, hres, hdup⟩ := fields
      obtain ⟨hsuspended, hposts⟩ := hw.running e job delivery get
      obtain ⟨key, hpost⟩ := hreply status response
      obtain rfl : key = delivery.data.idempotencyKey := hposts _ hpost
      have hanswered := (hw.wire e _ hpost).2 status rfl
      have hperformed : Performed w.journal e .webhookDelivery delivery.data.idempotencyKey :=
        ⟨status, ok, hanswered⟩
      have hsub : ∀ x ∈ w.journal, x ∈ .resolved e job result ::
          .did (some e) (.recordedSuccess JobName.webhookDelivery.text
            delivery.data.idempotencyKey result.data) :: w.journal :=
        fun _ hx => List.mem_cons_of_mem _ (List.mem_cons_of_mem _ hx)
      refine ⟨fun jobName k record hrecord => ?_, hw.running_of_remove hsub e,
        hw.wire_of_log hsub (le_refl _), ?_, trivial, hw.owed⟩
      · have hrow := hw.rows_of_success (t := .webhookDelivery) [] (some e)
          (by simp) (le_refl _) hsuspended.lt hsuspended.beganAs hperformed jobName k record hrecord
        exact hrow.mono (fun _ hx => List.mem_cons_of_mem _ hx) (le_refl _)
          (latestSuccess_cons_of_quiet rfl _ _ _)
      · refine ⟨.webhookDelivery, _, hsuspended.name, idempotencyKeyOf_webhook hsuspended.parse,
          hjob, hres, ⟨e, le_refl _, ?_, ?_⟩, fun h => by simp [hdup] at h⟩
        · exact hsuspended.beganAs.mono fun _ hx => List.mem_cons_of_mem _ hx
        · exact hperformed.mono fun _ hx => List.mem_cons_of_mem _ hx

theorem World.Sound.answer {w t : World} (hw : w.Sound) {e status : Nat}
    (h : w.answer e status = some t) : t.Sound := by
  obtain ⟨key, hget, rfl⟩ := World.answer_eq_some.1 h
  have hsub : ∀ x ∈ w.journal, x ∈ WorkEvent.answered e key status :: w.journal :=
    fun _ hx => List.mem_cons_of_mem _ hx
  refine ⟨hw.rows_of_quiet ([.answered e key status]) (by simp [WorkEvent.quiet])
    (le_refl _), ?_, ?_, trivial, hw.owed⟩
  · intro i job delivery hrunning
    obtain ⟨hsuspended, hposts⟩ := hw.running_of_log hsub (le_refl _) i job delivery hrunning
    refine ⟨hsuspended, fun post hpost => ?_⟩
    rcases Table.get_put_eq_some.1 hpost with ⟨rfl, rfl⟩ | ⟨-, hold⟩
    · exact (hposts _ hget :)
    · exact hposts post hold
  · intro i post hpost
    rcases Table.get_put_eq_some.1 hpost with ⟨rfl, rfl⟩ | ⟨-, hold⟩
    · refine ⟨(hw.wire i _ hget).1, fun s hs => ?_⟩
      cases hs
      exact List.mem_cons_self
    · exact hw.wire_of_log hsub (le_refl _) i post hold

theorem World.Sound.drop {w t : World} (hw : w.Sound) {e : Nat} (h : w.drop e = some t) :
    t.Sound := by
  obtain ⟨key, hget, rfl⟩ := World.drop_eq_some.1 h
  have hkept : ∀ i post, (w.wire.remove e).get i = some post → w.wire.get i = some post :=
    fun _ _ hpost => (Table.get_remove_eq_some.1 hpost).2
  refine ⟨hw.rows, fun i job delivery hrunning => ?_, fun i post hpost => ?_, hw.owed⟩
  · obtain ⟨hsuspended, hposts⟩ := hw.running i job delivery hrunning
    exact ⟨hsuspended, fun post hpost => hposts post (hkept i post hpost)⟩
  · exact hw.wire i post (hkept i post hpost)

theorem World.Sound.noted {w t : World} (hw : w.Sound) (h : w.Noted t) : t.Sound := by
  cases h with
  | unchanged => exact hw
  | invalidated metrics =>
      exact hw.logs ([.did none .invalidatedSnapshot])
        (by simp [WorkEvent.quiet]) (le_refl _) ⟨trivial, hw.owed⟩

theorem World.Sound.failed {w t : World} (hw : w.Sound) {job : Option Job} {err : JsError}
    {inp : Inputs} (h : w.Handled job err inp t) : t.Sound := by
  cases h with
  | counted metrics pending => exact hw.noted (.invalidated metrics)
  | routed j metrics add hjob terminal unrecorded =>
      exact hw.logs ([.routed j add, .did none .invalidatedSnapshot])
        (by simp [WorkEvent.quiet]) (le_refl _) ⟨trivial, trivial, hw.owed⟩
  | recorded j key metrics add hjob terminal hkey write =>
      have hsub : ∀ x ∈ w.journal, x ∈ WorkEvent.routed j add ::
          .did none (.recordedFailure j.name key err.message) ::
          .did none .invalidatedSnapshot :: w.journal :=
        fun _ hx => List.mem_cons_of_mem _ (List.mem_cons_of_mem _ (List.mem_cons_of_mem _ hx))
      refine ⟨fun jobName k record hrecord => ?_, hw.running_of_log hsub (le_refl _),
        hw.wire_of_log hsub (le_refl _), trivial, trivial, trivial, hw.owed⟩
      rcases Table.get_put_eq_some.1 hrecord with ⟨-, rfl⟩ | ⟨-, hold⟩
      · exact fun hcompleted => by cases hcompleted
      · exact hw.rows_of_quiet ([.routed j add,
          .did none (.recordedFailure j.name key err.message), .did none .invalidatedSnapshot])
          (by simp [WorkEvent.quiet]) (le_refl _) jobName k record hold

theorem World.Sound.crash {w : World} (hw : w.Sound) : w.crash.Sound where
  rows := hw.rows_of_quiet ([.crashed]) (by simp [WorkEvent.quiet]) (le_refl _)
  running := fun e job delivery h => by simp [World.crash] at h
  wire := hw.wire_of_log (fun _ hx => List.mem_cons_of_mem _ hx) (le_refl _)
  owed := ⟨trivial, hw.owed⟩

theorem World.Sound.step {w t : World} (hw : w.Sound) {a : WorkAction}
    (h : w.step env ext a = some t) : t.Sound := by
  cases World.step_cases h with
  | began job inp t begun => exact hw.begin begun
  | answered e status t answer => exact hw.answer answer
  | dropped e t drop => exact hw.drop drop
  | settled e inp key status t get resumed =>
      refine hw.resume (fun s hs => ?_) resumed
      cases hs
      exact ⟨key, get⟩
  | lost e message inp t resumed => exact hw.resume (fun s hs => by cases hs) resumed
  | failed job err inp t handled => exact hw.failed handled
  | noted a t noted => exact hw.noted noted
  | crashed => exact hw.crash

theorem sound_of_reachable {w : World} (hw : (world env ext).Reachable w) : w.Sound :=
  hw.invariant World.initial_sound fun _ _ _ hs h => hs.step h

/-- Whenever an execution resolves, it is one of a job type and key
whose side-effect was performed by it or an earlier execution of the same type
and key; and a duplicate's data is the result recorded last for that type and key. -/
theorem success_is_performed {w : World} (hw : (world env ext).Reachable w)
    {newer older : List WorkEvent} {e : Nat} {job : Job} {result : JobExecutionResult}
    (hjournal : w.journal = newer ++ .resolved e job result :: older) :
    ∃ t key, job.name = t.text ∧ idempotencyKeyOf job.data = some key ∧
      (∃ e' ≤ e, BeganAs older e' t key ∧ Performed older e' t key) ∧
      (result.isDuplicate = some true → ∃ stored, latestSuccess t.text key older = some stored ∧
        Json.parse stored.stringify = some result.data ∧ result.data = stored) := by
  have howed := (sound_of_reachable hw).owed
  rw [hjournal] at howed
  obtain ⟨t, key, hname, hkey, -, -, hdone, hdup⟩ := howed.at
  refine ⟨t, key, hname, hkey, hdone, fun hduplicate => ?_⟩
  obtain ⟨stored, hstored, hdata⟩ := hdup hduplicate
  refine ⟨stored, hstored, hdata, ?_⟩
  rw [Json.parse_stringify] at hdata
  exact (Option.some.inj hdata).symm

def steady : Inputs := ⟨fun _ => 0, js "x1y2z3", fun _ => none⟩

def atSign : External := ⟨fun s => s.contains 0x40, fun _ => js "[]", fun s => s⟩

def webhookJob (key : JsString) : Job where
  id := js "webhook_" ++ key
  name := js "WEBHOOK_DELIVERY"
  data := .object [(js "destination", .string (js "DEMO_AVAILABLE")),
    (js "event", .string (js "order.paid")), (js "payload", .object []),
    (js "idempotencyKey", .string key)]
  attemptsMade := 0
  attempts := some 3
  stacktrace := none

def deliveredTwice : List WorkAction :=
  [.begin (webhookJob (js "k")) steady, .answer 0 200, .settle 0 steady,
    .begin (webhookJob (js "k")) steady]

def lastResolved : List WorkEvent → Option (Nat × JobExecutionResult)
  | .resolved e _ result :: _ => some (e, result)
  | _ => none

theorem lastResolved_eq_some {journal : List WorkEvent} {e : Nat} {result : JobExecutionResult}
    (h : lastResolved journal = some (e, result)) :
    ∃ job older, journal = .resolved e job result :: older := by
  unfold lastResolved at h
  split at h
  · rename_i e' job result' older
    obtain ⟨rfl, rfl⟩ := Prod.mk.inj (Option.some.inj h)
    exact ⟨job, older, rfl⟩
  · cases h

theorem success_is_performed_deliveredTwice :
    ∃ w job result older, (world .default atSign).Reachable w ∧
      w.journal = .resolved 1 job result :: older ∧ result.isDuplicate = some true ∧
      ∃ t key, job.name = t.text ∧ idempotencyKeyOf job.data = some key ∧
        (∃ e' ≤ 1, BeganAs older e' t key ∧ Performed older e' t key) ∧
        (result.isDuplicate = some true → ∃ stored, latestSuccess t.text key older = some stored ∧
          Json.parse stored.stringify = some result.data ∧ result.data = stored) := by
  have hrun : ((world .default atSign).run .initial deliveredTwice).map (fun w =>
      (lastResolved w.journal).map fun x => (x.1, x.2.isDuplicate)) =
      some (some (1, some true)) := by decide +kernel
  obtain ⟨w, hw, hlast⟩ := Option.map_eq_some_iff.1 hrun
  obtain ⟨⟨e, result⟩, hresolved, hfields⟩ := Option.map_eq_some_iff.1 hlast
  obtain ⟨rfl, hdup⟩ := Prod.mk.inj hfields
  obtain ⟨job, older, hjournal⟩ := lastResolved_eq_some hresolved
  have hreach : (world .default atSign).Reachable w := ⟨deliveredTwice, hw⟩
  have hjournal' : w.journal = [] ++ .resolved 1 job result :: older := hjournal
  exact ⟨w, job, result, older, hreach, hjournal, hdup, success_is_performed hreach hjournal'⟩

end TaskQueue

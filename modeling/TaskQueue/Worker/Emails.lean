import TaskQueue.Worker.Absorbing

/-!
# How often an email is sent

An email is sent and recorded in one turn, so only the store can have it sent again: a
record that could not be written, or one that was overwritten.  The emails of a key are
accounted for exactly, in every interleaving of executions, handlers and crashes between
their turns.
-/

namespace TaskQueue

open Ecma

variable {env : Environment} {ext : External}

def WorkEvent.sendsEmail (key : JsString) : WorkEvent → Bool
  | .did _ (.emailed k) => k == key
  | _ => false

def World.emailsSent (w : World) (key : JsString) : Nat :=
  w.journal.countP (WorkEvent.sendsEmail key)

def World.recorded (w : World) (key : JsString) : Nat :=
  if w.db.Completed JobName.emailNotification.text key then 1 else 0

/-! ## Kinds of steps -/

/-- The job is an email job of the key that its record schema takes. -/
def Job.isEmailOf (ext : External) (key : JsString) (job : Job) : Bool :=
  job.name == JobName.emailNotification.text &&
    match parseEmailJobRecord ext.isEmail job.data with
    | .ok data => data.idempotencyKey == key
    | .error _ => false

/-- An execution begins that gets to its side-effect: the store is read, and says that the key
is not completed. -/
def SendsEmail (ext : External) (key : JsString) (w : World) : WorkAction → Bool
  | .begin job inp => job.isEmailOf ext key && (inp.fault 0).isNone &&
      !decide (w.db.Completed JobName.emailNotification.text key)
  | _ => false

def LeavesUnrecorded (ext : External) (key : JsString) (w : World) : WorkAction → Bool
  | .begin job inp => SendsEmail ext key w (.begin job inp) && (inp.fault 1).isSome
  | _ => false

def OverwritesEmail (key : JsString) (w : World) : WorkAction → Bool
  | .failed (some job) _ inp => job.terminal && (inp.fault 0).isNone &&
      (job.name == JobName.emailNotification.text) && (failedKey job == some key) &&
      decide (w.db.Completed JobName.emailNotification.text key)
  | _ => false

/-! ## One turn of the processor -/

theorem processEmailJob_quiet {inp : Inputs} {job : Job} {m : Machine}
    (h : ∀ data, parseEmailJobRecord ext.isEmail job.data = .ok data → inp.fault 0 = none →
      m.db.Completed JobName.emailNotification.text data.idempotencyKey) :
    ∃ result, (processEmailJob ext inp job).run m = (result, m) := by
  unfold processEmailJob
  cases hparse : parseEmailJobRecord ext.isEmail job.data with
  | error issues => exact ⟨_, rfl⟩
  | ok data =>
      cases hfault : inp.fault 0 with
      | some err => exact ⟨_, rfl⟩
      | none =>
          have hdone := h data hparse hfault
          have hparsed : (parsed ext (.ok data)).run m = (.ok data, m) := rfl
          have hcheck := hasBeenProcessed_none JobName.emailNotification.text data.idempotencyKey m
          rw [Turn.bind_of_ok hparsed, Turn.bind_of_ok hcheck, if_pos (decide_eq_true hdone)]
          rcases replayStored_cases ext inp .emailNotification data.idempotencyKey m with
            ⟨err, herr⟩ | ⟨result, hresult, -⟩
          · exact ⟨_, herr⟩
          · exact ⟨_, hresult⟩

/-- Otherwise the email is sent, and recorded unless that write throws. -/
theorem processEmailJob_of_fresh {inp : Inputs} {job : Job} {m : Machine} {data : EmailJobData}
    (hparse : parseEmailJobRecord ext.isEmail job.data = .ok data) (hread : inp.fault 0 = none)
    (hfresh : ¬m.db.Completed JobName.emailNotification.text data.idempotencyKey) :
    (∃ err, inp.fault 1 = some err ∧ (processEmailJob ext inp job).run m =
      (.error err, { m with effects := .emailed data.idempotencyKey :: m.effects })) ∨
    (inp.fault 1 = none ∧ ∃ result : JobExecutionResult, (processEmailJob ext inp job).run m =
      (.ok result, { m with
        db := m.db.put (JobName.emailNotification.text, data.idempotencyKey)
          (successRow (inp.clock 3) data.idempotencyKey JobName.emailNotification.text result.data)
        effects :=
          .recordedSuccess JobName.emailNotification.text data.idempotencyKey result.data ::
            .emailed data.idempotencyKey :: m.effects })) := by
  have hparsed : (parsed ext (.ok data)).run m = (.ok data, m) := rfl
  have hcheck := hasBeenProcessed_none JobName.emailNotification.text data.idempotencyKey m
  unfold processEmailJob
  rw [hparse, hread, Turn.bind_of_ok hparsed, Turn.bind_of_ok hcheck,
    if_neg (by simpa using hfresh)]
  cases hwrite : inp.fault 1 with
  | some err => exact Or.inl ⟨err, rfl, rfl⟩
  | none => exact Or.inr ⟨rfl, _, rfl⟩

/-! ## One step -/

/-- What a step does to the emails of a key and to its record. -/
def Accounts (ext : External) (key : JsString) (w : World) (a : WorkAction) (t : World) : Prop :=
  t.emailsSent key = w.emailsSent key + (if SendsEmail ext key w a then 1 else 0) ∧
    t.recorded key + (if LeavesUnrecorded ext key w a || OverwritesEmail key w a then 1 else 0) =
      w.recorded key + if SendsEmail ext key w a then 1 else 0

theorem accounts_of_quiet {key : JsString} {w t : World} {a : WorkAction}
    (hsends : SendsEmail ext key w a = false) (hover : OverwritesEmail key w a = false)
    (hjournal : t.emailsSent key = w.emailsSent key)
    (hdb : t.db.Completed JobName.emailNotification.text key ↔
      w.db.Completed JobName.emailNotification.text key) : Accounts ext key w a t := by
  have hunrecorded : LeavesUnrecorded ext key w a = false := by
    cases a with
    | begin job inp => rw [LeavesUnrecorded, hsends, Bool.false_and]
    | _ => rfl
  have hrecorded : t.recorded key = w.recorded key := by
    unfold World.recorded
    simp only [hdb]
  rw [Accounts, hsends, hunrecorded, hover]
  exact ⟨hjournal, hrecorded⟩

theorem World.begin_of_quiet {w : World} {job : Job} {inp : Inputs}
    {result : Except JsError WebhookProgress}
    (h : (processJob env ext inp job).run w.machine = (result, w.machine))
    (hreturns : ∀ request delivery, result ≠ .ok (.awaiting request delivery)) (key : JsString) :
    (w.begin env ext job inp).emailsSent key = w.emailsSent key ∧
      (w.begin env ext job inp).db = w.db := by
  unfold World.begin World.emailsSent
  simp only [h]
  cases result with
  | error err => exact ⟨by simp [WorkEvent.sendsEmail, World.log, World.after, World.machine], rfl⟩
  | ok progress =>
      cases progress with
      | awaiting request delivery => exact absurd rfl (hreturns request delivery)
      | returned value =>
          exact ⟨by simp [WorkEvent.sendsEmail, World.log, World.after, World.machine], rfl⟩

theorem processJob_email {job : Job} {inp : Inputs} {m n : Machine}
    {result : Except JsError JobExecutionResult} (hname : job.name = JobName.emailNotification.text)
    (h : (processEmailJob ext inp job).run m = (result, n)) :
    (processJob env ext inp job).run m = (result.map .returned, n) := by
  unfold processJob
  rw [getProcessorForJob_eq_ok.2 hname]
  cases result with
  | ok value => exact Turn.bind_of_ok h
  | error err => exact Turn.bind_of_error h

theorem isEmailOf_iff {job : Job} {key : JsString} :
    job.isEmailOf ext key = true ↔ job.name = JobName.emailNotification.text ∧
      ∃ data, parseEmailJobRecord ext.isEmail job.data = .ok data ∧ data.idempotencyKey = key := by
  unfold Job.isEmailOf
  cases parseEmailJobRecord ext.isEmail job.data with
  | error issues => simp
  | ok data => simp

theorem sendsEmail_begin_iff {key : JsString} {w : World} {job : Job} {inp : Inputs} :
    SendsEmail ext key w (.begin job inp) = true ↔ job.isEmailOf ext key = true ∧
      inp.fault 0 = none ∧ ¬w.db.Completed JobName.emailNotification.text key := by
  simp [SendsEmail, and_assoc]

theorem accounts_of_sent {key : JsString} {w t : World} {job : Job} {inp : Inputs}
    {data : EmailJobData} (hname : job.name = JobName.emailNotification.text)
    (hparse : parseEmailJobRecord ext.isEmail job.data = .ok data) (hread : inp.fault 0 = none)
    (hfresh : ¬w.db.Completed JobName.emailNotification.text data.idempotencyKey)
    (hjournal : t.emailsSent key =
      w.emailsSent key + if data.idempotencyKey == key then 1 else 0)
    (hwrite : (∃ err, inp.fault 1 = some err ∧ t.db = w.db) ∨
      (inp.fault 1 = none ∧ ∃ now result, t.db =
        w.db.put (JobName.emailNotification.text, data.idempotencyKey)
          (successRow now data.idempotencyKey JobName.emailNotification.text result))) :
    Accounts ext key w (.begin job inp) t := by
  have hover : OverwritesEmail key w (.begin job inp) = false := rfl
  have hemail : job.isEmailOf ext key = true ↔ data.idempotencyKey = key := by
    rw [isEmailOf_iff]
    constructor
    · rintro ⟨-, data', hdata', hkey⟩
      obtain rfl := Except.ok.inj (hparse.symm.trans hdata')
      exact hkey
    · exact fun hkey => ⟨hname, data, hparse, hkey⟩
  by_cases hkey : data.idempotencyKey = key
  · subst hkey
    have hsends : SendsEmail ext data.idempotencyKey w (.begin job inp) = true :=
      sendsEmail_begin_iff.2 ⟨hemail.2 rfl, hread, hfresh⟩
    have hold : w.recorded data.idempotencyKey = 0 := if_neg hfresh
    rw [beq_self_eq_true, if_pos rfl] at hjournal
    rw [Accounts, hsends, hover, LeavesUnrecorded, hsends, hold]
    refine ⟨hjournal, ?_⟩
    rcases hwrite with ⟨err, hfault, hdb⟩ | ⟨hfault, now, result, hdb⟩
    · have hnew : t.recorded data.idempotencyKey = 0 := by
        rw [World.recorded, hdb, if_neg hfresh]
      rw [hnew, hfault]
      rfl
    · have hnew : t.recorded data.idempotencyKey = 1 := by
        rw [World.recorded, hdb, if_pos]
        exact ⟨_, Table.get_put_self _ _ _, rfl⟩
      rw [hnew, hfault]
      rfl
  · have hsends : SendsEmail ext key w (.begin job inp) = false := by
      rw [Bool.eq_false_iff]
      intro hsends
      exact hkey (hemail.1 (sendsEmail_begin_iff.1 hsends).1)
    rw [if_neg (by simpa using hkey), Nat.add_zero] at hjournal
    refine accounts_of_quiet hsends hover hjournal ?_
    rcases hwrite with ⟨err, hfault, hdb⟩ | ⟨hfault, now, result, hdb⟩
    · rw [hdb]
    · have hne : (JobName.emailNotification.text, key) ≠
          (JobName.emailNotification.text, data.idempotencyKey) := fun heq =>
        hkey (Prod.mk.inj heq).2.symm
      rw [hdb]
      unfold IdempotencyRows.Completed
      rw [Table.get_put_of_ne _ _ hne]

/-- An execution of a job that is no email job sends no email, and begins without a write. -/
theorem World.begin_of_other {w : World} {job : Job} {inp : Inputs}
    (hname : job.name ≠ JobName.emailNotification.text) (key : JsString) :
    (w.begin env ext job inp).emailsSent key = w.emailsSent key ∧
      (w.begin env ext job inp).db = w.db := by
  have hbegun := w.begin_cases env ext job inp
  generalize w.begin env ext job inp = t at hbegun ⊢
  unfold World.emailsSent
  cases hbegun with
  | refused err => exact ⟨by simp [WorkEvent.sendsEmail], rfl⟩
  | replayed u k result name => exact ⟨by simp [WorkEvent.sendsEmail], rfl⟩
  | unrecorded k err name => exact absurd name hname
  | emailed k result now name => exact absurd name hname
  | posted data startTime => exact ⟨by simp [WorkEvent.sendsEmail], rfl⟩

theorem accounts_begin (env : Environment) (ext : External) (key : JsString) (w : World)
    (job : Job) (inp : Inputs) :
    Accounts ext key w (.begin job inp) (w.begin env ext job inp) := by
  have hover : OverwritesEmail key w (.begin job inp) = false := rfl
  by_cases hname : job.name = JobName.emailNotification.text
  · by_cases hquiet : ∀ data, parseEmailJobRecord ext.isEmail job.data = .ok data →
        inp.fault 0 = none → w.db.Completed JobName.emailNotification.text data.idempotencyKey
    · obtain ⟨result, hrun⟩ : ∃ result, (processEmailJob ext inp job).run w.machine =
          (result, w.machine) := processEmailJob_quiet hquiet
      have hprocess : (processJob env ext inp job).run w.machine =
          (result.map .returned, w.machine) := processJob_email hname hrun
      have hreturns : ∀ request delivery,
          result.map WebhookProgress.returned ≠ .ok (.awaiting request delivery) := by
        intro request delivery
        cases result <;> simp [Except.map]
      obtain ⟨hjournal, hdb⟩ := World.begin_of_quiet hprocess hreturns key
      refine accounts_of_quiet ?_ hover hjournal (by rw [hdb])
      rw [Bool.eq_false_iff]
      intro hsends
      obtain ⟨hemail, hread, hfresh⟩ := sendsEmail_begin_iff.1 hsends
      obtain ⟨-, data, hparse, rfl⟩ := isEmailOf_iff.1 hemail
      exact hfresh (hquiet data hparse hread)
    · obtain ⟨data, hfirst⟩ := not_forall.1 hquiet
      obtain ⟨hparse, hrest⟩ := Classical.not_imp.1 hfirst
      obtain ⟨hread, hfresh⟩ := Classical.not_imp.1 hrest
      have hturn := processEmailJob_of_fresh (m := w.machine) hparse hread hfresh
      rcases hturn with ⟨err, hfault, hrun⟩ | ⟨hfault, result, hrun⟩
      · have hprocess : (processJob env ext inp job).run w.machine = _ :=
          processJob_email hname hrun
        refine accounts_of_sent hname hparse hread hfresh ?_ (Or.inl ⟨err, hfault, ?_⟩)
        · unfold World.begin World.emailsSent
          simp only [hprocess, Except.map]
          simp [World.log, World.after, World.machine, WorkEvent.sendsEmail, List.countP_cons]
        · unfold World.begin
          simp only [hprocess, Except.map]
          rfl
      · have hprocess : (processJob env ext inp job).run w.machine = _ :=
          processJob_email hname hrun
        refine accounts_of_sent hname hparse hread hfresh ?_
          (Or.inr ⟨hfault, inp.clock 3, result.data, ?_⟩)
        · unfold World.begin World.emailsSent
          simp only [hprocess, Except.map]
          simp [World.log, World.after, World.machine, WorkEvent.sendsEmail, List.countP_cons]
        · unfold World.begin
          simp only [hprocess, Except.map]
          rfl
  · obtain ⟨hjournal, hdb⟩ := World.begin_of_other hname key
    refine accounts_of_quiet ?_ hover hjournal (by rw [hdb])
    rw [Bool.eq_false_iff]
    intro hsends
    exact hname (isEmailOf_iff.1 (sendsEmail_begin_iff.1 hsends).1).1

theorem World.Resumed.email {w t : World} {e : Nat} {reply : FetchReply} (h : w.Resumed e reply t)
    (key : JsString) : t.emailsSent key = w.emailsSent key ∧
      (t.db.Completed JobName.emailNotification.text key ↔
        w.db.Completed JobName.emailNotification.text key) := by
  unfold World.emailsSent
  cases h with
  | threw job delivery err get => exact ⟨by simp [WorkEvent.sendsEmail], Iff.rfl⟩
  | delivered job delivery status now result get =>
      refine ⟨by simp [WorkEvent.sendsEmail], ?_⟩
      have hne : (JobName.emailNotification.text, key) ≠
          (JobName.webhookDelivery.text, delivery.data.idempotencyKey) := fun heq =>
        absurd (Prod.mk.inj heq).1 (by decide)
      unfold IdempotencyRows.Completed
      rw [Table.get_put_of_ne _ _ hne]

theorem overwritesEmail_failed_iff {key : JsString} {w : World} {job : Option Job} {err : JsError}
    {inp : Inputs} : OverwritesEmail key w (.failed job err inp) = true ↔
      ∃ j, job = some j ∧ j.terminal = true ∧ inp.fault 0 = none ∧
        j.name = JobName.emailNotification.text ∧ failedKey j = some key ∧
          w.db.Completed JobName.emailNotification.text key := by
  cases job with
  | none => simp [OverwritesEmail]
  | some j => simp [OverwritesEmail, and_assoc]

theorem World.Handled.accounts {w t : World} {job : Option Job} {err : JsError} {inp : Inputs}
    (h : w.Handled job err inp t) (key : JsString) :
    Accounts ext key w (.failed job err inp) t := by
  have hsends : SendsEmail ext key w (.failed job err inp) = false := rfl
  cases h with
  | counted metrics pending =>
      refine accounts_of_quiet hsends ?_ (by simp [World.emailsSent, WorkEvent.sendsEmail]) Iff.rfl
      rw [Bool.eq_false_iff]
      intro hover
      obtain ⟨j, hjob, hterminal, -⟩ := overwritesEmail_failed_iff.1 hover
      simp [pending j hjob] at hterminal
  | routed j metrics add hjob terminal unrecorded =>
      refine accounts_of_quiet hsends ?_ (by simp [World.emailsSent, WorkEvent.sendsEmail]) Iff.rfl
      rw [Bool.eq_false_iff]
      intro hover
      obtain ⟨j', hjob', -, hwrite, -, hkey, -⟩ := overwritesEmail_failed_iff.1 hover
      obtain rfl := Option.some.inj (hjob.symm.trans hjob')
      rcases unrecorded with hnone | hfault
      · rw [hnone] at hkey
        cases hkey
      · exact hfault hwrite
  | recorded j k metrics add hjob terminal hkey write =>
      have hover : OverwritesEmail key w (.failed job err inp) = true ↔
          (JobName.emailNotification.text, key) = (j.name, k) ∧
            w.db.Completed JobName.emailNotification.text key := by
        rw [overwritesEmail_failed_iff]
        constructor
        · rintro ⟨j', hjob', -, -, hname, hkey', hdone⟩
          obtain rfl := Option.some.inj (hjob.symm.trans hjob')
          obtain rfl := Option.some.inj (hkey.symm.trans hkey')
          exact ⟨by rw [hname], hdone⟩
        · rintro ⟨hsame, hdone⟩
          obtain ⟨hname, rfl⟩ := Prod.mk.inj hsame
          exact ⟨j, hjob, terminal, write, hname.symm, hkey, hdone⟩
      by_cases hlost : OverwritesEmail key w (.failed job err inp) = true
      · obtain ⟨hsame, hdone⟩ := hover.1 hlost
        obtain ⟨hname, rfl⟩ := Prod.mk.inj hsame
        have hold : w.recorded key = 1 := if_pos hdone
        rw [Accounts, hsends, hlost, Bool.or_true, hold]
        refine ⟨by simp [World.emailsSent, WorkEvent.sendsEmail], ?_⟩
        have hnew : World.recorded { w with
            db := w.db.put (j.name, key) (failureRow (inp.clock 0) key j.name err.message)
            metrics
            journal := .routed j add :: .did none (.recordedFailure j.name key err.message) ::
              .did none .invalidatedSnapshot :: w.journal } key = 0 := by
          refine if_neg fun hstill => ?_
          exact ((completed_put_failure _ _ _ _).1 hstill).1 hsame
        rw [hnew]
        rfl
      · refine accounts_of_quiet hsends (by simpa using hlost)
          (by simp [World.emailsSent, WorkEvent.sendsEmail]) ?_
        rw [completed_put_failure]
        exact ⟨fun h => h.2, fun hdone => ⟨fun hsame => hlost (hover.2 ⟨hsame, hdone⟩), hdone⟩⟩

theorem World.Noted.email {w t : World} (h : w.Noted t) (key : JsString) :
    t.emailsSent key = w.emailsSent key ∧ t.db = w.db := by
  unfold World.emailsSent
  cases h with
  | unchanged => exact ⟨rfl, rfl⟩
  | invalidated metrics => exact ⟨by simp [WorkEvent.sendsEmail], rfl⟩

theorem accounts_step {key : JsString} {w t : World} {a : WorkAction}
    (h : w.step env ext a = some t) : Accounts ext key w a t := by
  cases a with
  | begin job inp =>
      obtain rfl := Option.some.inj h
      exact accounts_begin env ext key w job inp
  | answer e status =>
      obtain ⟨k, -, rfl⟩ := World.answer_eq_some.1 h
      exact accounts_of_quiet rfl rfl (by simp [World.emailsSent, WorkEvent.sendsEmail]) Iff.rfl
  | drop e =>
      obtain ⟨k, -, rfl⟩ := World.drop_eq_some.1 h
      exact accounts_of_quiet rfl rfl rfl Iff.rfl
  | settle e inp =>
      obtain ⟨k, status, -, hresumed⟩ := World.settle_cases h
      exact accounts_of_quiet rfl rfl (hresumed.email key).1 (hresumed.email key).2
  | lose e message inp =>
      have hresume : w.resume e (.failed message) inp = some t := h
      have hresumed := World.resume_cases hresume
      exact accounts_of_quiet rfl rfl (hresumed.email key).1 (hresumed.email key).2
  | failed job err inp =>
      obtain rfl := Option.some.inj h
      exact (w.failed_cases job err inp).accounts key
  | completed job =>
      obtain rfl := Option.some.inj h
      have hnoted := (w.completed_noted job).email key
      exact accounts_of_quiet rfl rfl hnoted.1 (by rw [hnoted.2])
  | deadLettered reply =>
      obtain rfl := Option.some.inj h
      have hnoted := (w.deadLettered_noted reply).email key
      exact accounts_of_quiet rfl rfl hnoted.1 (by rw [hnoted.2])
  | crash =>
      obtain rfl := Option.some.inj h
      have hjournal : w.crash.emailsSent key = w.emailsSent key := by
        simp [World.emailsSent, World.crash, WorkEvent.sendsEmail]
      exact accounts_of_quiet rfl rfl hjournal Iff.rfl

/-! ## Whole runs -/

/-- The emails sent for a key are the one its record tells of, and one more for every write of
the record that threw and for every overwriting of it. -/
theorem emails_accounted (key : JsString) {as : List WorkAction} {w : World}
    (hrun : (world env ext).run .initial as = some w) :
    w.emailsSent key = w.recorded key +
      (world env ext).tally (LeavesUnrecorded ext key) .initial as +
      (world env ext).tally (OverwritesEmail key) .initial as := by
  have hsent := Automaton.run_balances (m := fun w => w.emailsSent key) (c := SendsEmail ext key)
    (d := fun _ _ => false) (fun w a t hstep => (accounts_step hstep).1) hrun
  have hstock := Automaton.run_balances (m := fun w => w.recorded key) (c := SendsEmail ext key)
    (d := fun w a => LeavesUnrecorded ext key w a || OverwritesEmail key w a)
    (fun w a t hstep => (accounts_step hstep).2) hrun
  have hapart : ∀ w a, LeavesUnrecorded ext key w a = true → OverwritesEmail key w a = false := by
    intro w a hleaves
    cases a with
    | begin job inp => rfl
    | _ => cases hleaves
  have hnone : World.initial.emailsSent key = 0 := rfl
  have hempty : World.initial.recorded key = 0 := by
    refine if_neg ?_
    rintro ⟨record, hrecord, -⟩
    cases hrecord
  rw [Automaton.tally_false, hnone] at hsent
  rw [Automaton.tally_or hapart, hempty] at hstock
  omega

def emailJob (key : JsString) (attemptsMade : Nat) : Job where
  id := js "email_" ++ key
  name := js "EMAIL_NOTIFICATION"
  data := .object [(js "to", .string (js "a@b.co")), (js "subject", .string (js "s")),
    (js "body", .string (js "b")), (js "idempotencyKey", .string key)]
  attemptsMade
  attempts := some 3
  stacktrace := none

def readOnly : Inputs where
  __ := steady
  fault call := if call = 0 then none else some ⟨js "SqliteError", js "database is locked"⟩

/-- The first attempt cannot record its email, the second does; the last attempt of a job of the
key submitted again cannot read the store, and its failure is recorded; a third job follows. -/
def sentThrice : List WorkAction :=
  let err : JsError := ⟨js "SqliteError", js "database is locked"⟩
  [.begin (emailJob (js "k") 0) readOnly, .failed (some (emailJob (js "k") 1)) err steady,
    .begin (emailJob (js "k") 1) steady,
    .begin (emailJob (js "k") 2) busy, .failed (some (emailJob (js "k") 3)) err steady,
    .begin (emailJob (js "k") 0) steady]

theorem emails_accounted_sentThrice :
    ∃ w, (world .default atSign).run .initial sentThrice = some w ∧
      w.recorded (js "k") = 1 ∧ w.emailsSent (js "k") = 1 +
        (world .default atSign).tally (LeavesUnrecorded atSign (js "k")) .initial sentThrice +
        (world .default atSign).tally (OverwritesEmail (js "k")) .initial sentThrice ∧
      w.emailsSent (js "k") = 3 := by
  have hrun : ((world .default atSign).run .initial sentThrice).map
      (fun w => (w.recorded (js "k"), w.emailsSent (js "k"))) = some (1, 3) := by decide +kernel
  obtain ⟨w, hw, hcounts⟩ := Option.map_eq_some_iff.1 hrun
  obtain ⟨hrecorded, hsent⟩ := Prod.mk.inj hcounts
  exact ⟨w, hw, hrecorded, hrecorded ▸ emails_accounted (js "k") hw, hsent⟩

end TaskQueue

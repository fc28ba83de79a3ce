import TaskQueue.Service.DeadLetters

/-!
# What a step leaves behind

Most steps write no `FAILED` record, route nothing and count no failure.  A failed
attempt is counted, and the last one is routed and recorded as well.  So is a failure
that was deferred, where it uses up the attempts; otherwise it is counted only.
-/

namespace TaskQueue

open Ecma JobQueue

variable {env : Environment} {ext : External} {options : JobOptions}

/-! ## The books -/

def IdempotencyRows.Failed (rows : IdempotencyRows) (jobName key : JsString) : Prop :=
  ∃ record ∈ rows.get (jobName, key), record.status = .failed

def Service.failedTotal (s : Service) : Nat := Table.total s.world.metrics.jobsFailedTotal

def ServiceAction.failedJob : ServiceAction → Option JsString
  | .fail id _ _ _ => some id
  | _ => none

/-! ## Records and counters of a turn -/

theorem IdempotencyRows.failed_put_success {rows : IdempotencyRows} {jobName key : JsString}
    {now : Nat} {k n : JsString} {result : Json}
    (h : IdempotencyRows.Failed (rows.put (n, k) (successRow now k n result)) jobName key) :
    rows.Failed jobName key := by
  obtain ⟨record, hrecord, hstatus⟩ := h
  rcases Table.get_put_eq_some.1 hrecord with ⟨-, rfl⟩ | ⟨-, hold⟩
  · cases hstatus
  · exact ⟨record, hold, hstatus⟩

theorem IdempotencyRows.failed_put_failure {rows : IdempotencyRows} {jobName key : JsString}
    {now : Nat} {k n error : JsString}
    (h : IdempotencyRows.Failed (rows.put (n, k) (failureRow now k n error)) jobName key) :
    (jobName = n ∧ key = k) ∨ rows.Failed jobName key := by
  obtain ⟨record, hrecord, hstatus⟩ := h
  rcases Table.get_put_eq_some.1 hrecord with ⟨hkey, -⟩ | ⟨-, hold⟩
  · exact Or.inl (Prod.mk.inj hkey)
  · exact Or.inr ⟨record, hold, hstatus⟩

/-- A step of the worker that runs no `failed` handler writes no `FAILED` record and
counts no failure. -/
structure World.Unfailing (w t : World) : Prop where
  records : ∀ jobName key, t.db.Failed jobName key → w.db.Failed jobName key
  metrics : t.metrics = w.metrics

theorem World.Begun.unfailing {w t : World} {job : Job} {inp : Inputs}
    (h : w.Begun env ext job inp t) : w.Unfailing t := by
  cases h with
  | emailed => exact ⟨fun _ _ => IdempotencyRows.failed_put_success, rfl⟩
  | _ => exact ⟨fun _ _ hfailed => hfailed, rfl⟩

theorem World.Resumed.unfailing {w t : World} {e : Nat} {reply : FetchReply}
    (h : w.Resumed e reply t) : w.Unfailing t := by
  cases h with
  | threw => exact ⟨fun _ _ hfailed => hfailed, rfl⟩
  | delivered => exact ⟨fun _ _ => IdempotencyRows.failed_put_success, rfl⟩

theorem Counter.total_inc (c : Counter) (labels : JsString × JsString) :
    Table.total (c.inc labels) = Table.total c + 1 := by
  have hput := Table.total_put c labels ((c.get labels).getD 0 + 1)
  unfold Counter.inc
  omega

/-! ## The handler -/

theorem Service.failed_total (job : Job) (err : JsError) (inp : Inputs) (reply : AddReply)
    (s : Service) : (s.failed job err inp reply).failedTotal = s.failedTotal + 1 := by
  have hcount : Table.total (s.world.failed (some job) err inp).metrics.jobsFailedTotal =
      s.failedTotal + 1 := by
    have hrecord : ∀ m : Machine, ((recordTerminal inp job err).run m).2.metrics = m.metrics := by
      intro m
      rcases recordTerminal_cases inp job err m with ⟨-, h⟩ | ⟨key, -, -, h⟩ <;> rw [h]
    unfold World.failed
    rw [run_failedHandler]
    by_cases hterminal : job.terminal = true
    · rw [routeTerminal_of_terminal inp err _ hterminal]
      change Table.total ((recordTerminal inp job err).run _).2.metrics.jobsFailedTotal = _
      rw [hrecord]
      exact Counter.total_inc _ _
    · rw [routeTerminal_of_not_terminal inp err _ (by simpa using hterminal)]
      exact Counter.total_inc _ _
  unfold Service.failed Service.failedTotal
  split
  · exact hcount
  · cases reply <;> exact hcount

/-- A `FAILED` record is written under the name and key of a terminal job only. -/
theorem Service.failed_records {job : Job} {err : JsError} {inp : Inputs} {reply : AddReply}
    {s : Service} {jobName key : JsString}
    (h : (s.failed job err inp reply).world.db.Failed jobName key) :
    s.world.db.Failed jobName key ∨
      (job.terminal = true ∧ jobName = job.name ∧ idempotencyKeyOf job.data = some key) := by
  have hdb : (s.failed job err inp reply).world.db = (s.world.failed (some job) err inp).db := by
    unfold Service.failed
    split
    · rfl
    · cases reply <;> rfl
  rw [hdb] at h
  have hhandled := World.failed_cases (some job) err inp s.world
  generalize s.world.failed (some job) err inp = w at h hhandled
  cases hhandled with
  | counted => exact Or.inl h
  | routed => exact Or.inl h
  | recorded j k metrics add hjob terminal hkey write =>
      obtain rfl := Option.some.inj hjob
      rcases IdempotencyRows.failed_put_failure h with ⟨rfl, rfl⟩ | hold
      · exact Or.inr ⟨terminal, rfl, (Option.filter_eq_some_iff.1 hkey).1⟩
      · exact Or.inl hold

theorem Service.failed_dlq_of_not_terminal {job : Job} (h : job.terminal = false) (err : JsError)
    (inp : Inputs) (reply : AddReply) (s : Service) :
    (s.failed job err inp reply).dlq = s.dlq := by
  unfold Service.failed
  rw [World.deadLetter_of_not_terminal h]

theorem Service.recorded_of_follows {s : Service} {id : JsString} {e e' : TaskEntry}
    (h : e.Follows e') {tasks : Tasks} {err : JsError} {inp : Inputs} {reply : AddReply}
    (jobName key : JsString)
    (hrecord : ({ s with tasks }.failed (jobOf id e') err inp reply).world.db.Failed jobName key) :
    s.world.db.Failed jobName key ∨
      (jobName = e.data.name ∧ idempotencyKeyOf e.data.data = some key) := by
  rcases Service.failed_records hrecord with hold | ⟨-, hname, hkey⟩
  · exact Or.inl hold
  · rw [← h.data]
    exact Or.inr ⟨hname, hkey⟩

theorem Service.unrecorded_of_not_terminal {s : Service} {job : Job} (h : job.terminal = false)
    {tasks : Tasks} {err : JsError} {inp : Inputs} {reply : AddReply} (jobName key : JsString)
    (hrecord : ({ s with tasks }.failed job err inp reply).world.db.Failed jobName key) :
    s.world.db.Failed jobName key := by
  rcases Service.failed_records hrecord with hold | ⟨hterminal, -⟩
  · exact hold
  · rw [h] at hterminal
    cases hterminal

/-! ## What a step leaves behind -/

inductive Service.Books (s : Service) : ServiceAction → Service → Prop
  | quiet (a : ServiceAction) (t : Service) (attempt : a.failedJob = none)
      (records : ∀ jobName key, t.world.db.Failed jobName key → s.world.db.Failed jobName key)
      (dlq : t.dlq = s.dlq) (count : a ≠ .crash → t.failedTotal = s.failedTotal) : Books s a t
  /-- An attempt failed, and it was not the last one. -/
  | retried (id : JsString) (trace : List JsString) (inp : Inputs) (reply : AddReply)
      (e e' : TaskEntry) (t : Service) (get : s.tasks.get id = some e)
      (fail : e.fail trace = some e')
      (tasks : t.tasks = s.tasks.put id e') (unfailed : e'.state ≠ .failed)
      (records : ∀ jobName key, t.world.db.Failed jobName key → s.world.db.Failed jobName key)
      (dlq : t.dlq = s.dlq) (count : t.failedTotal = s.failedTotal + 1) :
      Books s (.fail id trace inp reply) t
  /-- The last attempt failed. -/
  | ended (id : JsString) (trace : List JsString) (inp : Inputs) (reply : AddReply)
      (e e' : TaskEntry) (err : JsError) (t : Service) (get : s.tasks.get id = some e)
      (fail : e.fail trace = some e') (tasks : t.tasks = s.tasks.put id e')
      (failed : e'.state = .failed)
      (records : ∀ jobName key, t.world.db.Failed jobName key →
        s.world.db.Failed jobName key ∨
          (jobName = e.data.name ∧ idempotencyKeyOf e.data.data = some key))
      (dlq : t.dlq =
        addDeadLetter (sendToDLQ (jobOf id e') err (inp.clock 1) (inp.clock 2)) reply s.dlq)
      (count : t.failedTotal = s.failedTotal + 1) : Books s (.fail id trace inp reply) t
  /-- A deferred failure ended a job with attempts left. -/
  | cutShort (id : JsString) (trace : List JsString) (counted : Bool) (inp : Inputs)
      (reply : AddReply) (t : Service)
      (records : ∀ jobName key, t.world.db.Failed jobName key → s.world.db.Failed jobName key)
      (dlq : t.dlq = s.dlq) (count : t.failedTotal = s.failedTotal + 1) :
      Books s (.failDeferred id trace counted inp reply) t
  /-- A deferred failure ended a job with none left. -/
  | usedUp (id : JsString) (trace : List JsString) (counted : Bool) (inp : Inputs)
      (reply : AddReply) (e e' : TaskEntry) (t : Service) (get : s.tasks.get id = some e)
      (records : ∀ jobName key, t.world.db.Failed jobName key →
        s.world.db.Failed jobName key ∨
          (jobName = e.data.name ∧ idempotencyKeyOf e.data.data = some key))
      (dlq : t.dlq = addDeadLetter
        (sendToDLQ (jobOf id e') stalledError (inp.clock 1) (inp.clock 2)) reply s.dlq)
      (count : t.failedTotal = s.failedTotal + 1) :
      Books s (.failDeferred id trace counted inp reply) t

theorem Service.books_of_unfailing {s t : Service} {a : ServiceAction}
    (attempt : a.failedJob = none)
    (h : s.world.Unfailing t.world) (dlq : t.dlq = s.dlq) : s.Books a t :=
  .quiet a t attempt h.records dlq fun _ => by rw [failedTotal, h.metrics, failedTotal]

theorem Service.Sound.books {s t : Service} (hs : s.Sound) {a : ServiceAction}
    (h : s.step env ext options a = some t) : s.Books a t := by
  cases Service.step_cases h with
  | activated id inp e e' =>
      exact Service.books_of_unfailing rfl
        (World.begin_cases env ext (jobOf id e') inp s.world).unfailing rfl
  | failed id trace inp reply e e' err outcome hget hfail =>
      have hterminal := terminal_of_fail_iff id hfail (hs.tasks id e hget).1
      by_cases hfailed : e'.state = .failed
      · exact .ended id trace inp reply e e' err _ hget hfail (Service.failed_tasks ..) hfailed
          (Service.recorded_of_follows (Entry.follows_fail hfail))
          (Service.failed_of_terminal (hterminal.2 hfailed) err inp reply _).1
          (Service.failed_total ..)
      · have hpending : (jobOf id e').terminal = false := by simpa using mt hterminal.1 hfailed
        exact .retried id trace inp reply e e' _ hget hfail (Service.failed_tasks ..) hfailed
          (Service.unrecorded_of_not_terminal hpending)
          (Service.failed_dlq_of_not_terminal hpending ..) (Service.failed_total ..)
  | failedDeferred id trace counted inp reply e e' hget hfail =>
      by_cases hterminal : (jobOf id e').terminal = true
      · exact .usedUp id trace counted inp reply e e' _ hget
          (Service.recorded_of_follows (Entry.follows_failDeferred hfail))
          (Service.failed_of_terminal hterminal stalledError inp reply _).1
          (Service.failed_total ..)
      · have hpending : (jobOf id e').terminal = false := by simpa using hterminal
        exact .cutShort id trace counted inp reply _
          (Service.unrecorded_of_not_terminal hpending)
          (Service.failed_dlq_of_not_terminal hpending ..) (Service.failed_total ..)
  | answered e status w answer =>
      obtain ⟨_, -, rfl⟩ := World.answer_eq_some.1 answer
      exact Service.books_of_unfailing rfl ⟨fun _ _ hfailed => hfailed, rfl⟩ rfl
  | dropped e w drop =>
      obtain ⟨_, -, rfl⟩ := World.drop_eq_some.1 drop
      exact Service.books_of_unfailing rfl ⟨fun _ _ hfailed => hfailed, rfl⟩ rfl
  | settled e inp w settle =>
      obtain ⟨_, _, -, hresumed⟩ := World.settle_cases settle
      exact Service.books_of_unfailing rfl hresumed.unfailing rfl
  | lost e message inp w resume =>
      exact Service.books_of_unfailing rfl (World.resume_cases resume).unfailing rfl
  | crashed => exact .quiet _ _ rfl (fun _ _ hfailed => hfailed) rfl fun hne => absurd rfl hne
  | _ => exact .quiet _ _ rfl (fun _ _ hfailed => hfailed) rfl fun _ => rfl

def ServiceAction.deferredJob : ServiceAction → Option JsString
  | .failDeferred id _ _ _ _ => some id
  | _ => none

theorem Service.attemptsMade_of_step {s t : Service} {a : ServiceAction}
    (h : s.step env ext options a = some t) {id : JsString} (hrun : a.deferredJob ≠ some id)
    {e e' : TaskEntry} (hget : s.tasks.get id = some e) (hget' : t.tasks.get id = some e') :
    e'.attemptsMade = e.attemptsMade + if a.failedJob = some id then 1 else 0 := by
  have hsame : s.tasks.get id = some e' → e'.attemptsMade = e.attemptsMade := by
    intro hsame
    rw [Option.some.inj (hsame.symm.trans hget)]
  have hput : ∀ {k} {x y : TaskEntry}, s.tasks.get k = some x → y.attemptsMade = x.attemptsMade →
      (s.tasks.put k y).get id = some e' → e'.attemptsMade = e.attemptsMade := by
    intro k x y hk hmade hput
    rcases Table.get_put_eq_some.1 hput with ⟨rfl, rfl⟩ | ⟨-, hold⟩
    · rw [hmade, Option.some.inj (hk.symm.trans hget)]
    · exact hsame hold
  cases Service.step_cases h with
  | added d reply r add =>
      have hkept : (addTask options add reply s.tasks).get id = some e := by
        unfold addTask
        split
        · exact Queue.add_keeps hget _ _ _
        · exact hget
      rw [Option.some.inj (hkept.symm.trans hget')]
      rfl
  | activated k inp x y hk activate => exact hput hk (Entry.attemptsMade_activate activate) hget'
  | completed k x y hk complete => exact hput hk (Entry.attemptsMade_complete complete) hget'
  | failed k trace inp reply x y err outcome hk fail =>
      rw [Service.failed_tasks] at hget'
      rcases Table.get_put_eq_some.1 hget' with ⟨rfl, rfl⟩ | ⟨hne, hold⟩
      · obtain rfl := Option.some.inj (hk.symm.trans hget)
        rw [Entry.attemptsMade_fail fail, ServiceAction.failedJob, if_pos rfl]
      · have hother : (ServiceAction.fail k trace inp reply).failedJob ≠ some id := by
          simpa [ServiceAction.failedJob] using Ne.symm hne
        rw [if_neg hother]
        exact hsame hold
  | promoted k x y hk promote => exact hput hk (Entry.attemptsMade_promote promote) hget'
  | stalled k x y hk stall => exact hput hk (Entry.attemptsMade_stall stall) hget'
  | failedDeferred k trace counted inp reply x y hk fail =>
      have hne : id ≠ k := by
        rintro rfl
        exact hrun rfl
      rw [Service.failed_tasks] at hget'
      exact hsame ((Table.get_put_of_ne _ _ hne).symm.trans hget')
  | pruned k => exact hsame (Table.get_remove_eq_some.1 hget').2
  | _ => exact hsame hget'

end TaskQueue

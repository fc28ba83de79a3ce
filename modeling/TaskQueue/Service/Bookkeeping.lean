import TaskQueue.Service.Books

/-!
# Terminal bookkeeping

What the `failed` handler leaves behind for a job from its `add` to its end: a
`FAILED` record and an entry in the dead letter queue once its attempts are used
up, and neither before; and one count for every attempt that failed.
-/

namespace TaskQueue

open Ecma JobQueue

variable {env : Environment} {ext : External} {options : JobOptions}

/-! ## Entries of the dead letter queue -/

def Service.RoutedSince (s t : Service) (id k : JsString) (held : Entry DlqAdd JsString) : Prop :=
  t.dlq.get k = some held ∧ held.data.payload.originalJobId = id ∧ s.dlq.get k = none

/-- The id of an entry tells the job: the number after the last underscore has none. -/
theorem dlqJobId_injective {i j : JsString} {m n : Nat} (h : dlqJobId i m = dlqJobId j n) :
    i = j ∧ m = n := by
  have hunderscore : ∀ k : Nat, (0x5F : UInt16) ∉ decimal k := by
    intro k hk
    exact absurd (isDigit_of_mem_decimal hk) (by decide)
  have hprefix : i ++ 0x5F :: decimal m = j ++ 0x5F :: decimal n := by
    simp only [dlqJobId, List.append_assoc] at h
    exact List.append_cancel_left h
  obtain ⟨hid, hdecimal⟩ := append_cons_inj_right (hunderscore m) (hunderscore n) hprefix
  exact ⟨hid, decimal_injective hdecimal⟩

theorem addDeadLetter_get {add : DlqAdd} {reply : AddReply} {dlq : DeadLetters} {k : JsString}
    {held : Entry DlqAdd JsString} (h : (addDeadLetter add reply dlq).get k = some held) :
    dlq.get k = some held ∨ (k = add.jobId ∧ held.data = add) := by
  unfold addDeadLetter at h
  split at h
  · cases hget : dlq.get add.jobId with
    | some old =>
        rw [Queue.add_of_some hget] at h
        exact Or.inl h
    | none =>
        rw [Queue.add_of_none hget] at h
        rcases Table.get_put_eq_some.1 h with ⟨hk, rfl⟩ | ⟨-, hold⟩
        · exact Or.inr ⟨hk, rfl⟩
        · exact Or.inl hold
  · exact Or.inl h

/-- Every entry is stored under an id of its job. -/
def Service.Named (s : Service) : Prop :=
  ∀ k held, s.dlq.get k = some held → ∃ now, k = dlqJobId held.data.payload.originalJobId now

theorem Service.Named.of_routed {s t : Service} (h : s.Named) {job : Job} {err : JsError}
    {inp : Inputs} {reply : AddReply}
    (hdlq : t.dlq = addDeadLetter (sendToDLQ job err (inp.clock 1) (inp.clock 2)) reply s.dlq) :
    t.Named := by
  intro k held hget
  rw [hdlq] at hget
  rcases addDeadLetter_get hget with hold | ⟨rfl, hdata⟩
  · exact h k held hold
  · rw [hdata]
    exact ⟨inp.clock 2, rfl⟩

theorem Service.named_of_reachable {s : Service} (hs : (service env ext options).Reachable s) :
    s.Named := by
  refine hs.invariant_of_reachable (I := Service.Named) (fun k held h => ?_) ?_
  · simp [service, Service.initial] at h
  · intro s a t hreach hnamed h
    have hbooks := (Service.sound_of_reachable hreach).books h
    cases hbooks with
    | quiet _ _ attempt records dlq => exact fun k held hget => hnamed k held (dlq ▸ hget)
    | retried id trace inp reply e e' _ get fail tasks unfailed records dlq =>
        exact fun k held hget => hnamed k held (dlq ▸ hget)
    | ended id trace inp reply e e' err _ get fail tasks failed records dlq =>
        exact hnamed.of_routed dlq
    | cutShort id trace counted inp reply _ records dlq =>
        exact fun k held hget => hnamed k held (dlq ▸ hget)
    | usedUp id trace counted inp reply e e' _ get records dlq => exact hnamed.of_routed dlq

/-! ## The life of a job -/

/-- The job is kept, it ends by a success or by its last attempt, and its entry is
then carried out, in a millisecond in which no earlier job of the id was routed. -/
def Orderly (id : JsString) (s : Service) : ServiceAction → Prop
  | .prune k => k ≠ id
  | .failDeferred k _ _ _ _ => k ≠ id
  | .fail k _ inp reply => k = id → ∀ e ∈ s.tasks.get id, e.attempts ≤ e.attemptsMade + 1 →
      reply.written = true ∧
        ∀ held ∈ s.dlq.get (dlqJobId id (inp.clock 2)), held.data.payload.originalJobId ≠ id
  | _ => True

instance (id : JsString) (s : Service) : ∀ a, Decidable (Orderly id s a)
  | .prune k => inferInstanceAs (Decidable (k ≠ id))
  | .failDeferred k _ _ _ _ => inferInstanceAs (Decidable (k ≠ id))
  | .fail k _ inp reply => inferInstanceAs (Decidable (k = id → ∀ e ∈ s.tasks.get id,
      e.attempts ≤ e.attemptsMade + 1 → reply.written = true ∧
        ∀ held ∈ s.dlq.get (dlqJobId id (inp.clock 2)), held.data.payload.originalJobId ≠ id))
  | .receive _ | .counted .. | .added .. | .activate .. | .complete _ | .promote _ | .stall _
  | .answer .. | .drop _ | .settle .. | .lose .. | .crash => isTrue trivial

def Service.Unrouted (s t : Service) (id jobName key : JsString) : Prop :=
  ¬t.world.db.Failed jobName key ∧ ∀ k held, ¬s.RoutedSince t id k held

def Service.RoutedOnce (s t : Service) (id : JsString) (data : TaskData) (attempts : Nat) : Prop :=
  ∃ k held, s.RoutedSince t id k held ∧ held.data.payload.attemptsMade = attempts ∧
    held.data.payload.data = data.data ∧ ∀ k' held', s.RoutedSince t id k' held' → k' = k

/-- The books of a job: it is unrouted with attempts left, or has failed for good
with none and is routed once. -/
def Service.Settled (s t : Service) (id jobName key : JsString) (data : TaskData) (attempts : Nat)
    (e : TaskEntry) : Prop :=
  (e.state ≠ .failed ∧ e.attemptsMade < attempts ∧ s.Unrouted t id jobName key) ∨
  (e.state = .failed ∧ e.attemptsMade = attempts ∧ s.RoutedOnce t id data attempts)

theorem Service.entry_of_step {s t : Service} {a : ServiceAction}
    (h : s.step env ext options a = some t) {id : JsString} {e : TaskEntry}
    (hget : s.tasks.get id = some e) (hkept : a ≠ .prune id) :
    ∃ e', t.tasks.get id = some e' ∧ (e' = e ∨ e.Follows e') := by
  have hput : ∀ {k} {x y : TaskEntry}, s.tasks.get k = some x → x.Follows y →
      ∃ e', (s.tasks.put k y).get id = some e' ∧ (e' = e ∨ e.Follows e') := by
    intro k x y hk hfollows
    by_cases hid : id = k
    · subst hid
      obtain rfl := Option.some.inj (hk.symm.trans hget)
      exact ⟨y, Table.get_put_self _ _ _, Or.inr hfollows⟩
    · exact ⟨e, by rw [Table.get_put_of_ne _ _ hid, hget], Or.inl rfl⟩
  have hmoves := Service.step_tasks h
  generalize t.tasks = tasks at hmoves
  cases hmoves with
  | same => exact ⟨e, hget, Or.inl rfl⟩
  | added d reply r add dispatch free =>
      have hne : id ≠ add.jobId := by
        rintro rfl
        rw [hget] at free
        cases free
      exact ⟨e, by rw [Table.get_put_of_ne _ _ hne, hget], Or.inl rfl⟩
  | advanced a k x y get follows => exact hput get follows
  | failed k trace inp reply x y get fail => exact hput get (Entry.follows_fail fail)
  | failedDeferred k trace counted inp reply x y get fail =>
      exact hput get (Entry.follows_failDeferred fail)
  | pruned k x get finished =>
      have hne : id ≠ k := by
        rintro rfl
        exact hkept rfl
      exact ⟨e, by rw [Table.get_remove_of_ne _ hne, hget], Or.inl rfl⟩

theorem Service.kept_of_step {s t : Service} {a : ServiceAction}
    (h : s.step env ext options a = some t) {id : JsString} (horderly : Orderly id s a)
    {e : TaskEntry} (hget : s.tasks.get id = some e) :
    ∃ e', t.tasks.get id = some e' ∧ e'.data = e.data ∧ e'.attempts = e.attempts := by
  have hnotPruned : a ≠ .prune id := by
    rintro rfl
    exact horderly rfl
  obtain ⟨e', hget', rfl | hfollows⟩ := Service.entry_of_step h hget hnotPruned
  · exact ⟨e', hget', rfl, rfl⟩
  · exact ⟨e', hget', hfollows.data, hfollows.attempts⟩

/-- A step that fails no attempt of a job neither ends nor revives it. -/
theorem Service.failed_iff_of_step {s t : Service} {a : ServiceAction} {id : JsString}
    (h : s.step env ext options a = some t) (horderly : Orderly id s a)
    (hattempt : a.failedJob ≠ some id) {e e' : TaskEntry} (hget : s.tasks.get id = some e)
    (hget' : t.tasks.get id = some e') : e'.state = .failed ↔ e.state = .failed := by
  constructor
  · intro hfailed
    by_contra hbefore
    have hends : s.Ends t id e' := by
      refine ⟨hget', hfailed, fun old hold => ?_⟩
      obtain rfl := Option.some.inj (hget.symm.trans hold)
      exact hbefore
    rcases Service.ends_cases h hends with ⟨trace, inp, reply, x, rfl, -, -⟩ |
      ⟨trace, counted, inp, reply, x, rfl, -, -⟩
    · exact hattempt rfl
    · exact horderly rfl
  · intro hfailed
    rw [Service.finished_of_step h hget (Entry.pending_of_failed hfailed) hget']
    exact hfailed

section Step

variable {s₀ s t : Service} {id jobName key : JsString} {data : TaskData} {attempts : Nat}
  {e e' : TaskEntry}

theorem Service.routedSince_of_dlq (h : t.dlq = s.dlq) (k : JsString)
    (held : Entry DlqAdd JsString) :
    s₀.RoutedSince t id k held ↔ s₀.RoutedSince s id k held := by
  unfold Service.RoutedSince
  rw [h]

theorem Service.Settled.mono (h : s₀.Settled s id jobName key data attempts e)
    (hrecord : t.world.db.Failed jobName key → s.world.db.Failed jobName key)
    (hrouted : ∀ k held, s₀.RoutedSince t id k held ↔ s₀.RoutedSince s id k held)
    (hstate : e'.state = .failed ↔ e.state = .failed) (hmade : e'.attemptsMade = e.attemptsMade) :
    s₀.Settled t id jobName key data attempts e' := by
  rcases h with ⟨hunfailed, hleft, hclean, hnone⟩ | ⟨hfailed, hlast, k, held, hheld, hn, hd, honly⟩
  · refine Or.inl ⟨mt hstate.1 hunfailed, hmade ▸ hleft, mt hrecord hclean, fun k held hnew => ?_⟩
    exact hnone k held ((hrouted k held).1 hnew)
  · refine Or.inr ⟨hstate.2 hfailed, hmade ▸ hlast, k, held, (hrouted k held).2 hheld, hn, hd, ?_⟩
    intro k' held' hnew
    exact honly k' held' ((hrouted k' held').1 hnew)

/-- The last attempt of a job settles its books: there is one entry, where there was none. -/
theorem Service.Unrouted.ended (h : s₀.Unrouted s id jobName key)
    (hkept : ∀ k held, s₀.dlq.get k = some held → s.dlq.get k = some held) (hnamed : s.Named)
    {inp : Inputs} {reply : AddReply} {err : JsError} (hwritten : reply.written = true)
    (hfree : ∀ held ∈ s.dlq.get (dlqJobId id (inp.clock 2)), held.data.payload.originalJobId ≠ id)
    (hdlq : t.dlq =
      addDeadLetter (sendToDLQ (jobOf id e') err (inp.clock 1) (inp.clock 2)) reply s.dlq) :
    s₀.RoutedOnce t id e'.data e'.attemptsMade := by
  have hnone : s.dlq.get (dlqJobId id (inp.clock 2)) = none := by
    cases hget : s.dlq.get (dlqJobId id (inp.clock 2)) with
    | none => rfl
    | some held =>
        obtain ⟨now, hid⟩ := hnamed _ held hget
        exact absurd (dlqJobId_injective hid).1.symm (hfree held hget)
  have hput : (sendToDLQ (jobOf id e') err (inp.clock 1) (inp.clock 2)).jobId =
      dlqJobId id (inp.clock 2) := rfl
  have hentry : t.dlq.get (dlqJobId id (inp.clock 2)) =
      some (.new 0 (sendToDLQ (jobOf id e') err (inp.clock 1) (inp.clock 2))) := by
    rw [hdlq, addDeadLetter, if_pos hwritten, hput, Queue.add_of_none hnone, Table.get_put_self]
  refine ⟨_, _, ⟨hentry, rfl, ?_⟩, rfl, rfl, fun k held hnew => ?_⟩
  · cases hold : s₀.dlq.get (dlqJobId id (inp.clock 2)) with
    | none => rfl
    | some held =>
        rw [hkept _ held hold] at hnone
        cases hnone
  · have hcases := hnew.1
    rw [hdlq] at hcases
    rcases addDeadLetter_get hcases with hold | ⟨hk, -⟩
    · exact absurd ⟨hold, hnew.2⟩ (h.2 k held)
    · exact hk

theorem Service.Settled.unrouted (h : s₀.Settled s id jobName key data attempts e)
    (hpending : e.pending = true) :
    e.attemptsMade < attempts ∧ s₀.Unrouted s id jobName key := by
  rcases h with ⟨-, hleft, hunrouted⟩ | ⟨hfailed, -⟩
  · exact ⟨hleft, hunrouted⟩
  · exact absurd hfailed (Entry.ne_failed_of_pending hpending)

theorem Service.Settled.retried (h : s₀.Settled s id jobName key data attempts e)
    {trace : List JsString} (hfail : e.fail trace = some e') (hattempts : e'.attempts = attempts)
    (hunfailed : e'.state ≠ .failed)
    (hrecord : t.world.db.Failed jobName key → s.world.db.Failed jobName key)
    (hdlq : t.dlq = s.dlq) : s₀.Settled t id jobName key data attempts e' := by
  obtain ⟨-, hclean, hnone⟩ := h.unrouted (Entry.follows_fail hfail).pending
  have hleft := mt (Entry.failed_of_fail_iff hfail).2 hunfailed
  refine Or.inl ⟨hunfailed, by omega, mt hrecord hclean, fun k held hnew => ?_⟩
  exact hnone k held ((Service.routedSince_of_dlq hdlq k held).1 hnew)

theorem Service.Settled.ended (h : s₀.Settled s id jobName key data attempts e)
    {trace : List JsString} (hfail : e.fail trace = some e') (hlive : e.Live)
    (hdata : e'.data = data) (hattempts : e'.attempts = attempts) (hfailed : e'.state = .failed)
    (hkept : ∀ k held, s₀.dlq.get k = some held → s.dlq.get k = some held) (hnamed : s.Named)
    {inp : Inputs} {reply : AddReply} {err : JsError} (hwritten : reply.written = true)
    (hfree : ∀ held ∈ s.dlq.get (dlqJobId id (inp.clock 2)), held.data.payload.originalJobId ≠ id)
    (hdlq : t.dlq =
      addDeadLetter (sendToDLQ (jobOf id e') err (inp.clock 1) (inp.clock 2)) reply s.dlq) :
    s₀.Settled t id jobName key data attempts e' := by
  have hfollows := Entry.follows_fail hfail
  obtain ⟨-, hunrouted⟩ := h.unrouted hfollows.pending
  have hleft := hlive hfollows.pending
  have hsame := hfollows.attempts
  have hmade := Entry.attemptsMade_fail hfail
  have hlast := (Entry.failed_of_fail_iff hfail).1 hfailed
  have hall : e'.attemptsMade = attempts := by omega
  have hrouted := hunrouted.ended hkept hnamed hwritten hfree hdlq
  rw [hdata, hall] at hrouted
  exact Or.inr ⟨hfailed, hall, hrouted⟩

theorem Service.routedSince_of_other {other : JsString} (hne : other ≠ id) {inp : Inputs}
    {reply : AddReply} {err : JsError}
    (hdlq : t.dlq =
      addDeadLetter (sendToDLQ (jobOf other e') err (inp.clock 1) (inp.clock 2)) reply s.dlq)
    (k : JsString) (held : Entry DlqAdd JsString) :
    s₀.RoutedSince t id k held ↔ s₀.RoutedSince s id k held := by
  constructor
  · rintro ⟨hget, hid, hold⟩
    rw [hdlq] at hget
    rcases addDeadLetter_get hget with hkept | ⟨-, hdata⟩
    · exact ⟨hkept, hid, hold⟩
    · rw [hdata] at hid
      exact absurd hid hne
  · rintro ⟨hget, hid, hold⟩
    have hkept := addDeadLetter_keeps hget
      (sendToDLQ (jobOf other e') err (inp.clock 1) (inp.clock 2)) reply
    rw [← hdlq] at hkept
    exact ⟨hkept, hid, hold⟩

end Step

/-- A job is in the queue with the data it was added with, its books are settled, and
no entry has gone from the dead letter queue. -/
def Service.Bookkept (options : JobOptions) (s₀ : Service) (jobName : JobName) (key : JsString)
    (data : TaskData) (s : Service) : Prop :=
  (∀ k held, s₀.dlq.get k = some held → s.dlq.get k = some held) ∧
  ∃ e, s.tasks.get (jobIdOf jobName key) = some e ∧ e.data = data ∧
    e.attempts = options.attempts ∧
    s₀.Settled s (jobIdOf jobName key) jobName.text key data options.attempts e

theorem Service.Sound.unrecorded_of_other {s t : Service} (hs : s.Sound) {id : JsString}
    {x : TaskEntry} (hget : s.tasks.get id = some x) {jobName : JobName} {key : JsString}
    (hother : id ≠ jobIdOf jobName key)
    (hrecords : ∀ name k, t.world.db.Failed name k → s.world.db.Failed name k ∨
      (name = x.data.name ∧ idempotencyKeyOf x.data.data = some k))
    (hrecord : t.world.db.Failed jobName.text key) : s.world.db.Failed jobName.text key := by
  rcases hrecords _ _ hrecord with hold | ⟨hname, hkey⟩
  · exact hold
  · obtain ⟨-, t', key', hid', hname', hkey'⟩ := hs.tasks id x hget
    obtain rfl := JobName.text_injective (hname.trans hname')
    obtain rfl := Option.some.inj (hkey.symm.trans hkey')
    exact absurd hid' hother

theorem Orderly.deferredJob {id : JsString} {s : Service} {a : ServiceAction}
    (h : Orderly id s a) : a.deferredJob ≠ some id := by
  cases a with
  | failDeferred k trace counted inp reply => exact fun heq => h (Option.some.inj heq)
  | _ => exact nofun

theorem Service.Bookkept.step {s₀ s t : Service} {a : ServiceAction} {jobName : JobName}
    {key : JsString} {data : TaskData} (hb : Service.Bookkept options s₀ jobName key data s)
    (hs : s.Sound) (hnamed : s.Named) (horderly : Orderly (jobIdOf jobName key) s a)
    (h : s.step env ext options a = some t) :
    Service.Bookkept options s₀ jobName key data t := by
  obtain ⟨hkept, e, hget, hdata, hattempts, hsettled⟩ := hb
  obtain ⟨e', hget', hdata', hattempts'⟩ := Service.kept_of_step h horderly hget
  rw [hdata] at hdata'
  rw [hattempts] at hattempts'
  refine ⟨fun k held hheld => Service.step_dlq_keeps h (hkept k held hheld), e', hget', hdata',
    hattempts', ?_⟩
  have hmade := Service.attemptsMade_of_step h horderly.deferredJob hget hget'
  -- A step that fails no attempt of this job leaves its books as they are.
  have hother : a.failedJob ≠ some (jobIdOf jobName key) →
      (t.world.db.Failed jobName.text key → s.world.db.Failed jobName.text key) →
      (∀ k held, s₀.RoutedSince t (jobIdOf jobName key) k held ↔
        s₀.RoutedSince s (jobIdOf jobName key) k held) →
      s₀.Settled t (jobIdOf jobName key) jobName.text key data options.attempts e' := by
    intro hne hrecord hrouted
    rw [if_neg hne, Nat.add_zero] at hmade
    exact hsettled.mono hrecord hrouted
      (Service.failed_iff_of_step h horderly hne hget hget') hmade
  have hbooks := hs.books h
  cases hbooks with
  | quiet _ _ attempt records dlq =>
      apply hother
      · rw [attempt]
        simp
      · exact records _ _
      · exact Service.routedSince_of_dlq dlq
  | retried id trace inp reply x y _ get fail tasks unfailed records dlq =>
      by_cases hid : id = jobIdOf jobName key
      · subst hid
        obtain rfl := Option.some.inj (get.symm.trans hget)
        rw [tasks, Table.get_put_self] at hget'
        obtain rfl := Option.some.inj hget'
        exact hsettled.retried fail hattempts' unfailed (records _ _) dlq
      · apply hother
        · simpa [ServiceAction.failedJob] using hid
        · exact records _ _
        · exact Service.routedSince_of_dlq dlq
  | ended id trace inp reply x y err _ get fail tasks failed records dlq =>
      by_cases hid : id = jobIdOf jobName key
      · subst hid
        obtain rfl := Option.some.inj (get.symm.trans hget)
        rw [tasks, Table.get_put_self] at hget'
        obtain rfl := Option.some.inj hget'
        have hsame := (Entry.follows_fail fail).attempts
        have hmade' := Entry.attemptsMade_fail fail
        have hlast := (Entry.failed_of_fail_iff fail).1 failed
        obtain ⟨hwritten, hfree⟩ := horderly rfl _ hget (by omega)
        exact hsettled.ended fail (hs.tasks _ _ hget).1 hdata' hattempts' failed hkept hnamed
          hwritten hfree dlq
      · apply hother
        · simpa [ServiceAction.failedJob] using hid
        · exact hs.unrecorded_of_other get hid records
        · exact Service.routedSince_of_other hid dlq
  | cutShort id trace counted inp reply _ records dlq =>
      apply hother
      · simp [ServiceAction.failedJob]
      · exact records _ _
      · exact Service.routedSince_of_dlq dlq
  | usedUp id trace counted inp reply x y _ get records dlq =>
      apply hother
      · simp [ServiceAction.failedJob]
      · exact hs.unrecorded_of_other get horderly records
      · exact Service.routedSince_of_other horderly dlq

/-- Nothing but attempts ends a job, and the counters live on. -/
def CountsAttempts (_ : Service) : ServiceAction → Prop
  | .failDeferred .. => False
  | .crash => False
  | _ => True

instance (s : Service) : ∀ a, Decidable (CountsAttempts s a)
  | .failDeferred .. => isFalse id
  | .crash => isFalse id
  | .receive _ | .counted .. | .added .. | .activate .. | .complete _ | .fail .. | .promote _
  | .prune _ | .stall _ | .answer .. | .drop _ | .settle .. | .lose .. => isTrue trivial

theorem Service.Sound.failedTotal_step {s t : Service} (hs : s.Sound) {a : ServiceAction}
    (hcounts : CountsAttempts s a) (h : s.step env ext options a = some t) :
    t.failedTotal = s.failedTotal + if a.failedJob.isSome then 1 else 0 := by
  have hbooks := hs.books h
  cases hbooks with
  | quiet _ _ attempt records dlq count =>
      have hlives : a ≠ .crash := by
        rintro rfl
        exact hcounts
      rw [attempt, count hlives]
      rfl
  | retried id trace inp reply x y _ get fail tasks unfailed records dlq count => exact count
  | ended id trace inp reply x y err _ get fail tasks failed records dlq count => exact count
  | cutShort => exact hcounts.elim
  | usedUp => exact hcounts.elim

/-! ## Runs -/

theorem Service.attemptsMade_of_run {s₀ s : Service} {jobName : JobName} {key : JsString}
    {e₀ e : TaskEntry} {as : List ServiceAction}
    (hreach : (service env ext options).Reachable s₀)
    (hmeets : (service env ext options).Meets (Orderly (jobIdOf jobName key)) s₀ as)
    (hrun : (service env ext options).run s₀ as = some s)
    (hget₀ : s₀.tasks.get (jobIdOf jobName key) = some e₀)
    (hget : s.tasks.get (jobIdOf jobName key) = some e) :
    e.attemptsMade =
      e₀.attemptsMade + as.countP fun a => a.failedJob = some (jobIdOf jobName key) := by
  have hcount := hmeets.count
    (I := fun s => ∃ e, s.tasks.get (jobIdOf jobName key) = some e)
    (m := fun s => ((s.tasks.get (jobIdOf jobName key)).map Entry.attemptsMade).getD 0)
    (p := fun a => a.failedJob = some (jobIdOf jobName key)) ?_ hreach ⟨e₀, hget₀⟩ hrun
  · simpa [hget₀, hget] using hcount
  · rintro s a t - ⟨e, hget⟩ horderly h
    obtain ⟨e', hget', -, -⟩ := Service.kept_of_step h horderly hget
    have hmade := Service.attemptsMade_of_step h horderly.deferredJob hget hget'
    exact ⟨⟨e', hget'⟩, by simpa [hget, hget'] using hmade⟩

/-- From its `add` on, whatever else runs and whatever its record's writes do, a job is
unrouted until its last attempt has failed, and has exactly one entry from then on;
the failures are counted one by one; and entries of different jobs never share an id. -/
theorem terminal_bookkeeping {s₀ s : Service} {jobName : JobName} {key : JsString} {data : TaskData}
    {as : List ServiceAction} (hreach : (service env ext options).Reachable s₀)
    (hjob : s₀.tasks.get (jobIdOf jobName key) = some (.new options.attempts data))
    (hrecord : s₀.world.db.get (jobName.text, key) = none)
    (hmeets : (service env ext options).Meets (Orderly (jobIdOf jobName key)) s₀ as)
    (hrun : (service env ext options).run s₀ as = some s) :
    (∃ e, s.tasks.get (jobIdOf jobName key) = some e ∧ e.data = data ∧
      e.attemptsMade = as.countP (fun a => a.failedJob = some (jobIdOf jobName key)) ∧
      s₀.Settled s (jobIdOf jobName key) jobName.text key data options.attempts e) ∧
    ((service env ext options).Meets CountsAttempts s₀ as →
      s.failedTotal = s₀.failedTotal + as.countP fun a => a.failedJob.isSome) ∧
    ∀ i j m n, dlqJobId i m = dlqJobId j n → i = j := by
  have hstart : Service.Bookkept options s₀ jobName key data s₀ := by
    refine ⟨fun _ _ hheld => hheld, _, hjob, rfl, rfl, Or.inl ⟨?_, options.attempts_pos, ?_, ?_⟩⟩
    · simp [Entry.new]
    · rintro ⟨record, hmem, -⟩
      rw [hrecord] at hmem
      cases hmem
    · rintro k held ⟨hget, -, hnone⟩
      rw [hget] at hnone
      cases hnone
  have hend : Service.Bookkept options s₀ jobName key data s :=
    hmeets.preserves (fun s a t hr hb horderly h => hb.step (Service.sound_of_reachable hr)
      (Service.named_of_reachable hr) horderly h) hreach hstart hrun
  obtain ⟨-, e, hget, hdata, -, hsettled⟩ := hend
  have hmade := Service.attemptsMade_of_run hreach hmeets hrun hjob hget
  refine ⟨⟨e, hget, hdata, by simpa [Entry.new] using hmade, hsettled⟩, fun hcounts => ?_,
    fun i j m n h => (dlqJobId_injective h).1⟩
  exact hcounts.count (I := fun _ => True) (m := Service.failedTotal)
    (fun s a t hr _ hC h => ⟨trivial, (Service.sound_of_reachable hr).failedTotal_step hC h⟩)
    hreach trivial hrun

def submitted : List ServiceAction :=
  [.receive (unavailableRequest (js "k") (js "a")), .counted 0 none, .added 0 .done]

/-- It is rejected three times, and its `FAILED` record cannot be written. -/
def rejectedUnrecorded : List ServiceAction :=
  let id := js "webhook_k"
  let locked : Inputs := { steady with fault := fun _ => some (.plain (js "database is locked")) }
  rejectedAttempt id 0 ++ [.promote id] ++ rejectedAttempt id 1 ++ [.promote id] ++
    (rejectedAttempt id 2).dropLast ++ [.fail id [] locked .done]

theorem terminal_bookkeeping_rejectedUnrecorded :
    ∃ s₀ s data e, (service .default atSign defaultJobOptions).run .initial submitted = some s₀ ∧
      (service .default atSign defaultJobOptions).run s₀ rejectedUnrecorded = some s ∧
      s.tasks.get (js "webhook_k") = some e ∧ e.state = .failed ∧
      s₀.RoutedOnce s (js "webhook_k") data 3 ∧ s.failedTotal = s₀.failedTotal + 3 := by
  have hfirst : ((service .default atSign defaultJobOptions).run .initial submitted).map (fun s =>
      ((s.tasks.get (js "webhook_k")).map fun e => decide (e.attempts = 3 ∧ e.attemptsMade = 0 ∧
        e.stalledCount = 0 ∧ e.deferredFailure = false ∧ e.stacktrace = [] ∧ e.state = .waiting),
        (s.world.db.get (JobName.webhookDelivery.text, js "k")).isNone)) =
      some (some true, true) := by decide +kernel
  have hlast : ((service .default atSign defaultJobOptions).run .initial
      (submitted ++ rejectedUnrecorded)).map (fun s =>
        (s.tasks.get (js "webhook_k")).map Entry.state) = some (some .failed) := by decide +kernel
  have horderly : (service .default atSign defaultJobOptions).Meets (Orderly (js "webhook_k"))
      .initial (submitted ++ rejectedUnrecorded) := by decide +kernel
  have hcounts : (service .default atSign defaultJobOptions).Meets CountsAttempts
      .initial (submitted ++ rejectedUnrecorded) := by decide +kernel
  obtain ⟨s₀, hs₀, hentry⟩ := Option.map_eq_some_iff.1 hfirst
  obtain ⟨hjob, hrecord⟩ := Prod.mk.inj hentry
  obtain ⟨e₀, he₀, hfields⟩ := Option.map_eq_some_iff.1 hjob
  have hnew : e₀ = .new 3 e₀.data := by
    obtain ⟨hattempts, hmade, hstalled, hdeferred, htrace, hstate⟩ := of_decide_eq_true hfields
    cases e₀
    simp_all [Entry.new]
  obtain ⟨s, hs, hstate⟩ := Option.map_eq_some_iff.1 hlast
  obtain ⟨e, he, hfailed⟩ := Option.map_eq_some_iff.1 hstate
  obtain ⟨t, ht, hrun⟩ := (Automaton.run_append_eq_some _).1 hs
  obtain rfl : s₀ = t := Option.some.inj (hs₀.symm.trans ht)
  have hadded : s₀.tasks.get (jobIdOf .webhookDelivery (js "k")) =
      some (.new defaultJobOptions.attempts e₀.data) := he₀.trans (congrArg some hnew)
  obtain ⟨⟨e', he', -, -, hsettled⟩, hcount, -⟩ :=
    terminal_bookkeeping ⟨submitted, hs₀⟩ hadded (Option.isNone_iff_eq_none.1 hrecord)
      ((Automaton.meets_append hs₀).1 horderly).2 hrun
  obtain rfl := Option.some.inj (he.symm.trans he')
  rcases hsettled with ⟨hunfailed, -⟩ | ⟨-, -, hrouted⟩
  · exact absurd hfailed hunfailed
  · exact ⟨s₀, s, e₀.data, e, hs₀, hrun, he, hfailed, hrouted,
      hcount ((Automaton.meets_append hs₀).1 hcounts).2⟩

end TaskQueue

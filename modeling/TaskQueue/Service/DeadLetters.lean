import TaskQueue.Service.Acceptance

/-!
# Which failed jobs reach the dead letter queue

The `failed` handler tells a terminal failure by the attempts a job has made.
The queue ends a job in two ways, and one of them may leave attempts unused.
-/

namespace TaskQueue

open Ecma JobQueue

variable {env : Environment} {ext : External} {options : JobOptions}

def Service.Ends (s t : Service) (id : JsString) (e : TaskEntry) : Prop :=
  t.tasks.get id = some e ∧ e.state = .failed ∧ ∀ e' ∈ s.tasks.get id, e'.state ≠ .failed

structure DlqAdd.Preserves (add : DlqAdd) (id : JsString) (job : TaskData) : Prop where
  originalJobId : add.payload.originalJobId = id
  jobName : add.payload.jobName = job.name
  data : add.payload.data = job.data

def ServiceAction.dlqReply : ServiceAction → Option AddReply
  | .fail _ _ _ reply => some reply
  | .failDeferred _ _ _ _ reply => some reply
  | _ => none

/-- For every job that ends in the step the handler calls `sendToDLQ`, and if the
`add` is carried out, the dead letter queue has its entry. -/
def RoutesTerminal (env : Environment) (ext : External) (options : JobOptions) (s : Service)
    (a : ServiceAction) : Prop :=
  ∀ t ∈ s.step env ext options a, ∀ id e, s.Ends t id e →
    ∃ add events, t.world.journal = events ++ s.world.journal ∧
      .routed (jobOf id e) add ∈ events ∧ add.Preserves id e.data ∧
      ∀ reply ∈ a.dlqReply, reply.written = true →
        ∃ held, t.dlq.get add.jobId = some held ∧ held.data.Preserves id e.data

/-- If it is carried out, the entry of the job does not share its id with that of another job. -/
def Service.RoutedApart (s : Service) (id : JsString) (e : TaskEntry) (inp : Inputs)
    (reply : AddReply) : Prop :=
  reply.written = true →
    ∀ held ∈ s.dlq.get (dlqJobId id (inp.clock 2)), held.data.Preserves id e.data

/-- A job that ends has made all its attempts by then, the one that may be counted for
its end included, and its entry is routed apart. -/
def EndsByAttempts (s : Service) : ServiceAction → Prop
  | .fail id _ inp reply => ∀ err e, s.outcome id = some (.error err) → s.tasks.get id = some e →
      e.attempts ≤ e.attemptsMade + 1 → s.RoutedApart id e inp reply
  | .failDeferred id _ counted inp reply => ∀ e, s.tasks.get id = some e → e.state = .waiting →
      e.deferredFailure = true →
        e.attempts ≤ e.attemptsMade + counted.toNat ∧ s.RoutedApart id e inp reply
  | _ => True

/-! ## The ends of a job -/

theorem maxAttempts_jobOf (id : JsString) {e : TaskEntry} (hpos : 0 < e.attempts) :
    maxAttempts (some (jobOf id e)) = e.attempts := by
  unfold maxAttempts
  split
  · rename_i h
    exact absurd (Option.some.inj h) (by omega)
  · rename_i n h
    exact (Option.some.inj h).symm
  · rename_i h
    cases h

theorem terminal_jobOf_iff (id : JsString) {e : TaskEntry} (hpos : 0 < e.attempts) :
    (jobOf id e).terminal = true ↔ e.attempts ≤ e.attemptsMade := by
  rw [Job.terminal, maxAttempts_jobOf id hpos]
  exact decide_eq_true_iff

theorem attempts_pos_of_follows {e e' : TaskEntry} (h : e.Follows e') (hlive : e.Live) :
    0 < e'.attempts := by
  have hleft := hlive h.pending
  rw [h.attempts]
  omega

/-- After a failed attempt the handler sees the job as terminal exactly when the
queue ended it. -/
theorem terminal_of_fail_iff (id : JsString) {e e' : TaskEntry} {trace : List JsString}
    (h : e.fail trace = some e') (hlive : e.Live) :
    (jobOf id e').terminal = true ↔ e'.state = .failed := by
  have hpos := attempts_pos_of_follows (Entry.follows_fail h) hlive
  rw [Entry.failed_of_fail_iff h, terminal_jobOf_iff id hpos]

/-- A job ends when its attempt failed, or when its deferred failure is taken up. -/
theorem Service.ends_cases {s t : Service} {a : ServiceAction}
    (h : s.step env ext options a = some t) {id : JsString} {e' : TaskEntry}
    (hends : s.Ends t id e') :
    (∃ trace inp reply e, a = .fail id trace inp reply ∧ s.tasks.get id = some e ∧
      e.fail trace = some e') ∨
    (∃ trace counted inp reply e, a = .failDeferred id trace counted inp reply ∧
      s.tasks.get id = some e ∧ e.failDeferred trace counted = some e') := by
  obtain ⟨hget, hfailed, hnew⟩ := hends
  have hput : ∀ {k e}, (s.tasks.put k e).get id = some e' → id = k ∧ e = e' := by
    intro k e hk
    rcases Table.get_put_eq_some.1 hk with hnow | ⟨-, hold⟩
    · exact hnow
    · exact absurd hfailed (hnew e' hold)
  have hmoves := Service.step_tasks h
  generalize t.tasks = tasks at hmoves hget
  cases hmoves with
  | same => exact absurd hfailed (hnew e' hget)
  | added d reply r add dispatch free =>
      obtain ⟨-, rfl⟩ := hput hget
      cases hfailed
  | advanced a k e e'' get follows unfailed =>
      obtain ⟨-, rfl⟩ := hput hget
      exact absurd hfailed unfailed
  | failed k trace inp reply e e'' get fail =>
      obtain ⟨rfl, rfl⟩ := hput hget
      exact Or.inl ⟨trace, inp, reply, e, rfl, get, fail⟩
  | failedDeferred k trace counted inp reply e e'' get fail =>
      obtain ⟨rfl, rfl⟩ := hput hget
      exact Or.inr ⟨trace, counted, inp, reply, e, rfl, get, fail⟩
  | pruned k e get finished =>
      have hold := (Table.get_remove_eq_some.1 hget).2
      exact absurd hfailed (hnew e' hold)

/-! ## What the handler does -/

theorem World.deadLetter_of_terminal {job : Job} (h : job.terminal = true) (err : JsError)
    (inp : Inputs) (w : World) :
    w.deadLetter job err inp = some (sendToDLQ job err (inp.clock 1) (inp.clock 2)) := by
  unfold World.deadLetter
  rw [run_failedHandler, routeTerminal_of_terminal inp err _ h]

theorem World.deadLetter_of_not_terminal {job : Job} (h : job.terminal = false) (err : JsError)
    (inp : Inputs) (w : World) : w.deadLetter job err inp = none := by
  unfold World.deadLetter
  rw [run_failedHandler, routeTerminal_of_not_terminal inp err _ (by simpa using h)]

theorem World.failed_of_terminal {job : Job} (h : job.terminal = true) (err : JsError)
    (inp : Inputs) (w : World) :
    ∃ events, (w.failed (some job) err inp).journal = events ++ w.journal ∧
      ∀ j add, .routed j add ∈ events ↔
        j = job ∧ add = sendToDLQ job err (inp.clock 1) (inp.clock 2) := by
  unfold World.failed
  rw [run_failedHandler, routeTerminal_of_terminal inp err _ h]
  rcases recordTerminal_cases inp job err (w.machine.countFailure (some job) err) with
    ⟨-, hrun⟩ | ⟨key, -, -, hrun⟩
  · rw [hrun]
    exact ⟨[.routed job _, .did none .invalidatedSnapshot], rfl, by simp⟩
  · rw [hrun]
    exact ⟨[.routed job _, .did none (.recordedFailure job.name key err.message),
      .did none .invalidatedSnapshot], rfl, by simp⟩

theorem Service.failed_of_terminal {job : Job} (h : job.terminal = true) (err : JsError)
    (inp : Inputs) (reply : AddReply) (s : Service) :
    (s.failed job err inp reply).dlq =
        addDeadLetter (sendToDLQ job err (inp.clock 1) (inp.clock 2)) reply s.dlq ∧
      ∃ events, (s.failed job err inp reply).world.journal = events ++ s.world.journal ∧
        ∀ j add, .routed j add ∈ events ↔
          j = job ∧ add = sendToDLQ job err (inp.clock 1) (inp.clock 2) := by
  obtain ⟨events, hjournal, hrouted⟩ := World.failed_of_terminal h err inp s.world
  unfold Service.failed
  rw [World.deadLetter_of_terminal h err inp s.world]
  refine ⟨rfl, ?_⟩
  dsimp only
  have hnoted := World.deadLettered_noted reply.result (s.world.failed (some job) err inp)
  generalize World.handle (resumeFailedHandler reply.result)
    (s.world.failed (some job) err inp) = w at hnoted
  cases hnoted with
  | unchanged => exact ⟨events, hjournal, hrouted⟩
  | invalidated metrics =>
      refine ⟨.did none .invalidatedSnapshot :: events, ?_, fun j add => ?_⟩
      · rw [List.cons_append, ← hjournal]
      · rw [List.mem_cons, hrouted]
        simp

theorem Service.failed_of_not_terminal {job : Job} (h : job.terminal = false) (err : JsError)
    (inp : Inputs) (reply : AddReply) (s : Service) :
    (s.failed job err inp reply).world.journal =
      .did none .invalidatedSnapshot :: s.world.journal := by
  unfold Service.failed
  rw [World.deadLetter_of_not_terminal h err inp s.world]
  unfold World.failed
  rw [run_failedHandler, routeTerminal_of_not_terminal inp err _ (by simpa using h)]
  rfl

theorem sendToDLQ_preserves (id : JsString) (e : TaskEntry) (err : JsError) (m n : Nat) :
    (sendToDLQ (jobOf id e) err m n).Preserves id e.data := ⟨rfl, rfl, rfl⟩

/-- A carried out `add` leaves an entry of the job exactly when no other entry has its id. -/
theorem addDeadLetter_preserves_iff {add : DlqAdd} {id : JsString} {job : TaskData}
    (hadd : add.Preserves id job) {reply : AddReply} (hwritten : reply.written = true)
    (dlq : DeadLetters) :
    (∃ held, (addDeadLetter add reply dlq).get add.jobId = some held ∧ held.data.Preserves id job) ↔
      ∀ held ∈ dlq.get add.jobId, held.data.Preserves id job := by
  unfold addDeadLetter
  rw [if_pos hwritten]
  cases hget : dlq.get add.jobId with
  | none =>
      refine iff_of_true ⟨.new 0 add, ?_, hadd⟩ (fun held hheld => by cases hheld)
      rw [Queue.add_of_none hget, Table.get_put_self]
  | some held => simp [Queue.add_of_some hget, hget]

/-! ## One step -/

theorem Service.fail_of_lock {s : Service} {id : JsString} {e e' : TaskEntry}
    {trace : List JsString} {err : JsError} (houtcome : s.outcome id = some (.error err))
    (hget : s.tasks.get id = some e) (hfail : e.fail trace = some e') (inp : Inputs)
    (reply : AddReply) :
    s.step env ext options (.fail id trace inp reply) =
      some ({ s with tasks := s.tasks.put id e' }.failed (jobOf id e') err inp reply) := by
  have hmove : s.tasks.move id (Entry.fail trace) = some (e', s.tasks.put id e') :=
    Queue.move_eq_some.2 ⟨e, hget, hfail, rfl⟩
  simp only [Service.step, Service.fail, houtcome, hmove, Option.map_some]

theorem Service.failDeferred_of_waiting {s : Service} {id : JsString} {e e' : TaskEntry}
    {trace : List JsString} {counted : Bool} (hget : s.tasks.get id = some e)
    (hfail : e.failDeferred trace counted = some e') (inp : Inputs) (reply : AddReply) :
    s.step env ext options (.failDeferred id trace counted inp reply) =
      some ({ s with tasks := s.tasks.put id e' }.failed (jobOf id e') stalledError inp reply) := by
  have hmove : s.tasks.move id (Entry.failDeferred trace counted) = some (e', s.tasks.put id e') :=
    Queue.move_eq_some.2 ⟨e, hget, hfail, rfl⟩
  simp only [Service.step, Service.failDeferred, hmove, Option.map_some]

theorem Service.ends_failed {s : Service} {id : JsString} {e e' : TaskEntry}
    (hget : s.tasks.get id = some e) (hpending : e.pending = true) (hfailed : e'.state = .failed)
    (err : JsError) (inp : Inputs) (reply : AddReply) :
    s.Ends ({ s with tasks := s.tasks.put id e' }.failed (jobOf id e') err inp reply) id e' := by
  refine ⟨?_, hfailed, fun old hold => ?_⟩
  · rw [Service.failed_tasks, Table.get_put_self]
  · obtain rfl := Option.some.inj (hget.symm.trans hold)
    exact Entry.ne_failed_of_pending hpending

section Ends

variable {s : Service} {a : ServiceAction} {id : JsString} {e e' : TaskEntry} {err : JsError}
  {inp : Inputs} {reply : AddReply}

/-- A job that ends with attempts left ends without a call of `sendToDLQ`. -/
theorem Service.not_routes_of_left
    (hstep : s.step env ext options a =
      some ({ s with tasks := s.tasks.put id e' }.failed (jobOf id e') err inp reply))
    (hget : s.tasks.get id = some e) (hfollows : e.Follows e') (hfailed : e'.state = .failed)
    (hpending : (jobOf id e').terminal = false) : ¬RoutesTerminal env ext options s a := by
  intro hroutes
  obtain ⟨add, events, hjournal, hrouted, -⟩ := hroutes _ hstep id e'
    (Service.ends_failed hget hfollows.pending hfailed err inp reply)
  rw [Service.failed_of_not_terminal hpending] at hjournal
  have hevents : [.did none .invalidatedSnapshot] = events := List.append_cancel_right hjournal
  simp [← hevents] at hrouted

/-- One that ends with none left is routed exactly when its entry is routed apart. -/
theorem Service.routes_iff_of_terminal
    (hstep : s.step env ext options a =
      some ({ s with tasks := s.tasks.put id e' }.failed (jobOf id e') err inp reply))
    (hreply : a.dlqReply = some reply) (hget : s.tasks.get id = some e) (hfollows : e.Follows e')
    (hfailed : e'.state = .failed) (hterminal : (jobOf id e').terminal = true) :
    RoutesTerminal env ext options s a ↔ s.RoutedApart id e inp reply := by
  have hend := Service.ends_failed hget hfollows.pending hfailed err inp reply
  have hdata := hfollows.data
  obtain ⟨hdlq, events, hjournal, hrouted⟩ := Service.failed_of_terminal hterminal err inp reply
    { s with tasks := s.tasks.put id e' }
  have hpreserves := sendToDLQ_preserves id e' err (inp.clock 1) (inp.clock 2)
  constructor
  · intro hroutes hwritten
    obtain ⟨add, events', hjournal', hcalled, -, hheld⟩ := hroutes _ hstep id e' hend
    obtain rfl := List.append_cancel_right (hjournal'.symm.trans hjournal)
    obtain ⟨-, rfl⟩ := (hrouted _ _).1 hcalled
    have hentry := hheld reply hreply hwritten
    rw [hdlq, addDeadLetter_preserves_iff hpreserves hwritten, hdata] at hentry
    exact hentry
  · intro hfree t ht id' x hends
    obtain rfl := Option.some.inj (hstep.symm.trans ht)
    obtain ⟨rfl, rfl⟩ : id' = id ∧ x = e' := by
      have hx := hends.1
      rw [Service.failed_tasks] at hx
      rcases Table.get_put_eq_some.1 hx with ⟨hid, heq⟩ | ⟨-, hold⟩
      · exact ⟨hid, heq.symm⟩
      · exact absurd hends.2.1 (hends.2.2 x hold)
    refine ⟨_, events, hjournal, (hrouted _ _).2 ⟨rfl, rfl⟩, hpreserves, fun r hr hwritten => ?_⟩
    obtain rfl := Option.some.inj (hreply.symm.trans hr)
    rw [hdlq, addDeadLetter_preserves_iff hpreserves hwritten, hdata]
    exact hfree hwritten

end Ends

theorem Service.Sound.routes_fail_iff {s : Service} (hs : s.Sound) {id : JsString}
    {e e' : TaskEntry} {trace : List JsString} {err : JsError}
    (houtcome : s.outcome id = some (.error err)) (hget : s.tasks.get id = some e)
    (hfail : e.fail trace = some e') (hfailed : e'.state = .failed) (inp : Inputs)
    (reply : AddReply) :
    RoutesTerminal env ext options s (.fail id trace inp reply) ↔
      s.RoutedApart id e inp reply :=
  Service.routes_iff_of_terminal (Service.fail_of_lock houtcome hget hfail inp reply) rfl hget
    (Entry.follows_fail hfail) hfailed
    ((terminal_of_fail_iff id hfail (hs.tasks id e hget).1).2 hfailed)

/-- A deferred failure may end its job with attempts left. -/
theorem Service.Sound.routes_failDeferred_iff {s : Service} (hs : s.Sound) {id : JsString}
    {e e' : TaskEntry} {trace : List JsString} {counted : Bool} (hget : s.tasks.get id = some e)
    (hfail : e.failDeferred trace counted = some e') (inp : Inputs) (reply : AddReply) :
    RoutesTerminal env ext options s (.failDeferred id trace counted inp reply) ↔
      e'.attempts ≤ e'.attemptsMade ∧ s.RoutedApart id e inp reply := by
  have hfollows := Entry.follows_failDeferred hfail
  have hstep : s.step env ext options (.failDeferred id trace counted inp reply) = some _ :=
    Service.failDeferred_of_waiting hget hfail inp reply
  have hfailed : e'.state = .failed := by
    obtain ⟨-, -, rfl⟩ := Entry.failDeferred_eq_some.1 hfail
    rfl
  have hterminal := terminal_jobOf_iff id (attempts_pos_of_follows hfollows (hs.tasks id e hget).1)
  by_cases hlast : e'.attempts ≤ e'.attemptsMade
  · rw [Service.routes_iff_of_terminal hstep rfl hget hfollows hfailed (hterminal.2 hlast)]
    exact (and_iff_right hlast).symm
  · have hpending : (jobOf id e').terminal = false := by simpa using mt hterminal.1 hlast
    exact iff_of_false (Service.not_routes_of_left hstep hget hfollows hfailed hpending)
      fun h => hlast h.1

theorem Service.Sound.routesTerminal_iff {s : Service} (hs : s.Sound) (a : ServiceAction) :
    RoutesTerminal env ext options s a ↔ EndsByAttempts s a := by
  constructor
  · intro hroutes
    unfold EndsByAttempts
    split
    · rename_i id trace inp reply
      intro err e houtcome hget hlast
      obtain ⟨lock, hlock⟩ : ∃ lock, e.lock = some lock := by
        obtain ⟨lock, hlock, -⟩ := Option.bind_eq_some_iff.1 houtcome
        rw [hget] at hlock
        exact ⟨lock, hlock⟩
      obtain ⟨e', hfail⟩ : ∃ e', e.fail trace = some e' :=
        ⟨_, Option.map_eq_some_iff.2 ⟨lock, hlock, rfl⟩⟩
      have hfailed : e'.state = .failed := by
        rw [Entry.failed_of_fail_iff hfail]
        obtain ⟨_, -, rfl⟩ := Option.map_eq_some_iff.1 hfail
        exact hlast
      exact (hs.routes_fail_iff houtcome hget hfail hfailed inp reply).1 hroutes
    · rename_i id trace counted inp reply
      intro e hget hwaiting hdeferred
      have hfail : e.failDeferred trace counted = some _ :=
        Entry.failDeferred_eq_some.2 ⟨hwaiting, hdeferred, rfl⟩
      exact (hs.routes_failDeferred_iff hget hfail inp reply).1 hroutes
    · trivial
  · intro hends t ht id e' hend
    rcases Service.ends_cases ht hend with ⟨trace, inp, reply, e, rfl, hget, hfail⟩ |
      ⟨trace, counted, inp, reply, e, rfl, hget, hfail⟩
    · obtain ⟨err, houtcome⟩ : ∃ err, s.outcome id = some (.error err) := by
        cases Service.step_cases ht with
        | failed _ _ _ _ x y err outcome => exact ⟨err, outcome⟩
      have hlast : e.attempts ≤ e.attemptsMade + 1 := by
        have hend' := (Entry.failed_of_fail_iff hfail).1 hend.2.1
        obtain ⟨_, -, rfl⟩ := Option.map_eq_some_iff.1 hfail
        exact hend'
      exact (hs.routes_fail_iff houtcome hget hfail hend.2.1 inp reply).2
        (hends err e houtcome hget hlast) t ht id e' hend
    · obtain ⟨hwaiting, hdeferred, rfl⟩ := Entry.failDeferred_eq_some.1 hfail
      exact (hs.routes_failDeferred_iff hget hfail inp reply).2
        (hends e hget hwaiting hdeferred) t ht id _ hend

/-! ## Runs -/

theorem addDeadLetter_keeps {dlq : DeadLetters} {k : JsString} {held : Entry DlqAdd JsString}
    (h : dlq.get k = some held) (add : DlqAdd) (reply : AddReply) :
    (addDeadLetter add reply dlq).get k = some held := by
  unfold addDeadLetter
  split
  · exact Queue.add_keeps h _ _ _
  · exact h

theorem Service.failed_dlq_keeps {s : Service} {k : JsString} {held : Entry DlqAdd JsString}
    (h : s.dlq.get k = some held) (job : Job) (err : JsError) (inp : Inputs) (reply : AddReply) :
    (s.failed job err inp reply).dlq.get k = some held := by
  unfold Service.failed
  split
  · exact h
  · exact addDeadLetter_keeps h _ _

theorem Service.step_dlq_keeps {s t : Service} {a : ServiceAction}
    (h : s.step env ext options a = some t) {k : JsString} {held : Entry DlqAdd JsString}
    (hheld : s.dlq.get k = some held) : t.dlq.get k = some held := by
  cases Service.step_cases h with
  | failed =>
      apply Service.failed_dlq_keeps
      exact hheld
  | failedDeferred =>
      apply Service.failed_dlq_keeps
      exact hheld
  | _ => exact hheld

/-- A finished job is not touched again, until it is removed. -/
theorem Service.finished_of_step {s t : Service} {a : ServiceAction}
    (h : s.step env ext options a = some t) {id : JsString} {e e' : TaskEntry}
    (hget : s.tasks.get id = some e) (hfinished : e.pending = false)
    (hget' : t.tasks.get id = some e') : e' = e := by
  have hput : ∀ {k x y}, s.tasks.get k = some x → x.Follows y →
      (s.tasks.put k y).get id = some e' → s.tasks.get id = some e' := by
    intro k x y hk hfollows hput
    rcases Table.get_put_eq_some.1 hput with ⟨rfl, -⟩ | ⟨-, hold⟩
    · obtain rfl := Option.some.inj (hget.symm.trans hk)
      rw [hfollows.pending] at hfinished
      cases hfinished
    · exact hold
  have hmoves := Service.step_tasks h
  generalize t.tasks = tasks at hmoves hget'
  suffices s.tasks.get id = some e' from Option.some.inj (this.symm.trans hget)
  cases hmoves with
  | same => exact hget'
  | added d reply r add dispatch free =>
      have hne : id ≠ add.jobId := by
        rintro rfl
        rw [hget] at free
        cases free
      rwa [Table.get_put_of_ne _ _ hne] at hget'
  | advanced a k x y get follows => exact hput get follows hget'
  | failed k trace inp reply x y get fail => exact hput get (Entry.follows_fail fail) hget'
  | failedDeferred k trace counted inp reply x y get fail =>
      exact hput get (Entry.follows_failDeferred fail) hget'
  | pruned k x get finished => exact (Table.get_remove_eq_some.1 hget').2

def Service.Preserved (s : Service) : Prop :=
  ∀ id e, s.tasks.get id = some e → e.state = .failed →
    ∃ k held, s.dlq.get k = some held ∧ held.data.Preserves id e.data

def Delivers (a : ServiceAction) : Prop := ∀ reply ∈ a.dlqReply, reply.written = true

theorem Service.Preserved.step {s t : Service} (hp : s.Preserved) (hs : s.Sound)
    {a : ServiceAction} (hends : EndsByAttempts s a) (hdelivers : Delivers a)
    (h : s.step env ext options a = some t) : t.Preserved := by
  intro id e hget hfailed
  by_cases hnew : ∀ e' ∈ s.tasks.get id, e'.state ≠ .failed
  · have hend : s.Ends t id e := ⟨hget, hfailed, hnew⟩
    obtain ⟨add, events, -, -, -, hheld⟩ := (hs.routesTerminal_iff a).2 hends t h id e hend
    have hreply : ∃ reply, a.dlqReply = some reply := by
      rcases Service.ends_cases h hend with ⟨_, _, reply, _, rfl, -⟩ |
        ⟨_, _, _, reply, _, rfl, -⟩ <;> exact ⟨reply, rfl⟩
    obtain ⟨reply, hreply⟩ := hreply
    obtain ⟨held, hk, hpreserves⟩ := hheld reply hreply (hdelivers reply hreply)
    exact ⟨_, held, hk, hpreserves⟩
  · simp only [not_forall, not_not] at hnew
    obtain ⟨old, hold, hstate⟩ := hnew
    obtain rfl := Service.finished_of_step h hold (Entry.pending_of_failed hstate) hget
    obtain ⟨k, held, hk, hpreserves⟩ := hp id e hold hstate
    exact ⟨k, held, Service.step_dlq_keeps h hk, hpreserves⟩

/-- In every run, every job that ends is routed exactly when every one ends by its
attempts; and then, while the dead letter queue carries out its adds, it has an
entry for each job that failed for good. -/
theorem routes_terminal_iff (as : List ServiceAction) :
    ((service env ext options).Meets (RoutesTerminal env ext options) .initial as ↔
      (service env ext options).Meets EndsByAttempts .initial as) ∧
    ∀ s, (service env ext options).run .initial as = some s →
      (service env ext options).Meets (fun s a => EndsByAttempts s a ∧ Delivers a) .initial as →
      ∀ id e, s.tasks.get id = some e → e.state = .failed →
        ∃ k held, s.dlq.get k = some held ∧ held.data.Preserves id e.data := by
  refine ⟨Automaton.meets_congr (I := Service.Sound) (fun _ _ _ _ hs _ h => hs.step h)
    (fun _ a _ hs => hs.routesTerminal_iff a) .start Service.initial_sound as,
    fun s hrun hmeets => ?_⟩
  exact hmeets.preserves (I := Service.Preserved)
    (fun s a t hreach hp hC h => hp.step (Service.sound_of_reachable hreach) hC.1 hC.2 h) .start
    (fun id e hget => by simp [service, Service.initial] at hget) hrun

def rejectedThreeTimes : List ServiceAction :=
  let id := js "webhook_k"
  [.receive (unavailableRequest (js "k") (js "a")), .counted 0 none, .added 0 .done] ++
    rejectedAttempt id 0 ++ [.promote id] ++ rejectedAttempt id 1 ++ [.promote id] ++
    rejectedAttempt id 2

def firstFailure (s : Service) : ServiceAction → Bool
  | .failDeferred .. => false
  | .fail id _ inp reply => reply.written && (s.dlq.get (dlqJobId id (inp.clock 2))).isNone
  | _ => true

theorem routes_terminal_iff_rejectedThreeTimes :
    ∃ s e, (service .default atSign defaultJobOptions).run .initial rejectedThreeTimes = some s ∧
      s.tasks.get (js "webhook_k") = some e ∧ e.state = .failed ∧
      ∃ k held, s.dlq.get k = some held ∧ held.data.Preserves (js "webhook_k") e.data := by
  have hrun : ((service .default atSign defaultJobOptions).run .initial rejectedThreeTimes).map
      (fun s => (s.tasks.get (js "webhook_k")).map Entry.state) = some (some .failed) := by
    decide +kernel
  have hfirst : (service .default atSign defaultJobOptions).Meets
      (fun s a => firstFailure s a = true) .initial rejectedThreeTimes := by
    decide +kernel
  obtain ⟨s, hs, hstate⟩ := Option.map_eq_some_iff.1 hrun
  obtain ⟨e, he, hfailed⟩ := Option.map_eq_some_iff.1 hstate
  refine ⟨s, e, hs, he, hfailed, (routes_terminal_iff rejectedThreeTimes).2 s hs ?_ _ e he hfailed⟩
  refine hfirst.mono fun s a hquiet => ?_
  cases a with
  | failDeferred => cases hquiet
  | fail id trace inp reply =>
      obtain ⟨hwritten, hnone⟩ := Bool.and_eq_true_iff.1 hquiet
      rw [Option.isNone_iff_eq_none] at hnone
      refine ⟨fun _ _ _ _ _ _ held hheld => ?_, fun r hr => ?_⟩
      · rw [hnone] at hheld
        cases hheld
      · cases hr
        exact hwritten
  | _ => exact ⟨trivial, fun r hr => by cases hr⟩

/-! ## The other end -/

/-- The process dies twice while it works on a job, on its first attempt, and its lock expires. -/
def stalledTwice : List ServiceAction :=
  let id := js "webhook_k"
  [.receive (unavailableRequest (js "k") (js "a")), .counted 0 none, .added 0 .done,
    .activate id steady, .crash, .stall id, .activate id steady, .crash, .stall id]

/-- The job is failed for good when it is taken again, one attempt counted of three;
`sendToDLQ` is not called, and the dead letter queue stays empty. -/
theorem stalled_job_is_not_routed :
    ∃ s t e, (service .default atSign defaultJobOptions).run .initial stalledTwice = some s ∧
      s.step .default atSign defaultJobOptions
        (.failDeferred (js "webhook_k") [] true steady .done) = some t ∧
      s.Ends t (js "webhook_k") e ∧ e.attemptsMade = 1 ∧ t.dlq.size = 0 ∧
      ¬RoutesTerminal .default atSign defaultJobOptions s
        (.failDeferred (js "webhook_k") [] true steady .done) := by
  have hrun : ((service .default atSign defaultJobOptions).run .initial stalledTwice).map
      (fun s => ((s.tasks.get (js "webhook_k")).map fun e =>
        (e.state, e.deferredFailure, e.attempts, e.attemptsMade), s.dlq.size)) =
      some (some (.waiting, true, 3, 0), 0) := by decide +kernel
  obtain ⟨s, hs, hstate⟩ := Option.map_eq_some_iff.1 hrun
  obtain ⟨hentry, hdlq⟩ := Prod.mk.inj hstate
  obtain ⟨e, he, hfields⟩ := Option.map_eq_some_iff.1 hentry
  obtain ⟨hwaiting, hrest⟩ := Prod.mk.inj hfields
  obtain ⟨hdeferred, hcounts⟩ := Prod.mk.inj hrest
  obtain ⟨hattempts, hmade⟩ := Prod.mk.inj hcounts
  have hsound : s.Sound := Service.sound_of_reachable ⟨stalledTwice, hs⟩
  obtain ⟨e', hfail, he'⟩ : ∃ e', e.failDeferred [] true = some e' ∧ e' = { e with
      attemptsMade := e.attemptsMade + 1, stacktrace := e.stacktrace ++ [], state := .failed } :=
    ⟨_, Entry.failDeferred_eq_some.2 ⟨hwaiting, hdeferred, rfl⟩, rfl⟩
  have hfollows := Entry.follows_failDeferred hfail
  have hleft : ¬e'.attempts ≤ e'.attemptsMade := by
    rw [he']
    simp only
    omega
  have hpos := attempts_pos_of_follows hfollows (hsound.tasks _ e he).1
  have hpending : (jobOf (js "webhook_k") e').terminal = false := by
    simpa using mt (terminal_jobOf_iff _ hpos).1 hleft
  refine ⟨s, _, e', hs, Service.failDeferred_of_waiting he hfail steady .done,
    Service.ends_failed he hfollows.pending (by rw [he']) _ _ _, by rw [he', hmade], ?_,
    fun hroutes => hleft ((hsound.routes_failDeferred_iff he hfail _ _).1 hroutes).1⟩
  unfold Service.failed
  rw [World.deadLetter_of_not_terminal hpending]
  exact hdlq

end TaskQueue

import TaskQueue.Service.DeadLetters

/-!
# The life of the process

One process is the HTTP server and the worker.  The worker starts once the server
listens; a signal stops the server first, and the worker when the last connection
has ended.  Webhooks are delivered to that same server, and a fetch that finds it
not accepting is refused.
-/

namespace TaskQueue

open Ecma JobQueue

inductive Listener
  /-- `app.listen` was called. -/
  | starting
  | listening
  /-- `server.close` was called, and connections are left. -/
  | closing
  | closed
  deriving DecidableEq

inductive WorkerPhase
  | absent
  | running
  /-- `worker.close` was called: it takes no jobs, and waits for those it has. -/
  | closing
  deriving DecidableEq

structure Process where
  service : Service
  listener : Listener
  worker : WorkerPhase
  /-- Calls of `gracefulShutdown`. -/
  shutdowns : Nat
  exited : Bool
  /-- Executions whose fetch found the server not accepting. -/
  refused : List Nat

def Process.initial (service : Service) : Process := ⟨service, .starting, .absent, 0, false, []⟩

inductive ProcessAction
  /-- The callback of `app.listen`. -/
  | listening
  /-- `SIGINT` or `SIGTERM`. -/
  | signal
  /-- The last connection of the closing server ended: the callbacks of `server.close` run. -/
  | serverClosed
  /-- `worker.close` resolves, and the rest is closed. -/
  | workerClosed
  /-- The timer of a shutdown runs out. -/
  | forceExit
  /-- Anything the service does. -/
  | work (action : ServiceAction)

/-! ## Start-up and shutdown -/

def WorkerPhase.initializeTaskWorker : WorkerPhase → WorkerPhase
  | .absent => .running
  | phase => phase

def WorkerPhase.stopTaskWorker : WorkerPhase → WorkerPhase
  | .running => .closing
  | phase => phase

/-- `server.close`; a server that is closed already stays so. -/
def Listener.close : Listener → Listener
  | .starting => .closing
  | .listening => .closing
  | listener => listener

def Process.gracefulShutdown (p : Process) : Process :=
  { p with shutdowns := p.shutdowns + 1, listener := p.listener.close }

/-! ## The service in its process -/

def WorkEvent.isPosted : WorkEvent → Bool
  | .did _ (.posted _) => true
  | _ => false

def World.fetches (w : World) : Nat := w.journal.countP WorkEvent.isPosted

def fetchedBy (s t : Service) : Option Nat :=
  if s.world.fetches < t.world.fetches then some s.world.started else none

/-- What the service can do in the current phase: requests come over open connections,
jobs are taken by a running worker and settled by one that is not gone, and a
refused fetch is not answered. -/
def Process.permits (p : Process) : ServiceAction → Bool
  | .receive _ => p.listener = .listening || p.listener = .closing
  | .activate .. => p.worker = .running
  | .stall _ => p.worker = .running
  | .failDeferred .. => p.worker = .running
  | .complete _ => p.worker ≠ .absent
  | .fail .. => p.worker ≠ .absent
  | .answer e _ => e ∉ p.refused
  | .crash => false
  | _ => true

section

variable (env : Environment) (ext : External) (options : JobOptions)

def Process.work (p : Process) (a : ServiceAction) : Option Process :=
  if p.permits a then
    (p.service.step env ext options a).map fun service =>
      { p with
        service
        refused := if p.listener = .listening then p.refused
          else (fetchedBy p.service service).toList ++ p.refused }
  else none

def Process.step (p : Process) (a : ProcessAction) : Option Process :=
  if p.exited then none
  else match a with
    | .listening =>
        if p.listener = .starting then
          some { p with listener := .listening, worker := p.worker.initializeTaskWorker }
        else none
    | .signal => some p.gracefulShutdown
    | .serverClosed =>
        if p.listener = .closing then
          some { p with listener := .closed, worker := p.worker.stopTaskWorker }
        else none
    | .workerClosed =>
        if p.listener = .closed ∧ (p.worker = .closing → p.service.world.running.size = 0) then
          some { p with worker := .absent, exited := true }
        else none
    | .forceExit => if p.shutdowns = 0 then none else some { p with exited := true }
    | .work a => p.work env ext options a

def process (service : Service) : Automaton Process ProcessAction where
  start := .initial service
  step := Process.step env ext options

end

variable {env : Environment} {ext : External} {options : JobOptions}

/-! ## Fetches -/

/-- The execution begun for a waiting job issues its fetch: the job is a valid
webhook job, and the store is read and has its key not completed. -/
def Service.IssuesFetch (s : Service) (id : JsString) (inp : Inputs) : Prop :=
  ∃ e data, s.tasks.get id = some e ∧ e.data.name = JobName.webhookDelivery.text ∧
    parseWebhookJobRecord e.data.data = .ok data ∧ inp.fault 0 = none ∧
    ¬s.world.db.Completed JobName.webhookDelivery.text data.idempotencyKey

theorem World.fetches_begin {job : Job} {inp : Inputs} {w t : World}
    (h : w.Begun env ext job inp t) (hfetches : t.fetches ≠ w.fetches) :
    t.fetches = w.fetches + 1 ∧ job.name = JobName.webhookDelivery.text ∧ inp.fault 0 = none ∧
      ∃ data, parseWebhookJobRecord job.data = .ok data ∧
        ¬w.db.Completed JobName.webhookDelivery.text data.idempotencyKey := by
  cases h with
  | posted data startTime name parse fresh read =>
      exact ⟨by simp [World.fetches, List.countP_cons, WorkEvent.isPosted], name, read, data,
        parse, fresh⟩
  | _ => exact absurd (by simp [World.fetches, WorkEvent.isPosted]) hfetches

theorem World.fetches_of_fresh (env : Environment) (ext : External) {job : Job} {inp : Inputs}
    {w : World} {data : WebhookJobData} (hname : job.name = JobName.webhookDelivery.text)
    (hparse : parseWebhookJobRecord job.data = .ok data) (hread : inp.fault 0 = none)
    (hfresh : ¬w.db.Completed JobName.webhookDelivery.text data.idempotencyKey) :
    (w.begin env ext job inp).fetches = w.fetches + 1 := by
  have hturn := processWebhookJob_of_fresh env ext (m := w.machine) hparse hread hfresh
  unfold World.begin processJob
  rw [getProcessorForJob_eq_ok.2 hname]
  simp only [hturn]
  simp [World.fetches, List.countP_cons, WorkEvent.isPosted, World.after, World.log, World.machine]

theorem World.fetches_resume {e : Nat} {reply : FetchReply} {w t : World}
    (h : w.Resumed e reply t) : t.fetches = w.fetches := by
  cases h <;> simp [World.fetches, WorkEvent.isPosted]

theorem World.fetches_handled {job : Option Job} {err : JsError} {inp : Inputs} {w t : World}
    (h : w.Handled job err inp t) : t.fetches = w.fetches := by
  cases h <;> simp [World.fetches, WorkEvent.isPosted]

theorem World.fetches_noted {w t : World} (h : w.Noted t) : t.fetches = w.fetches := by
  cases h <;> simp [World.fetches, WorkEvent.isPosted]

theorem Service.fetches_failed (job : Job) (err : JsError) (inp : Inputs) (reply : AddReply)
    (s : Service) : (s.failed job err inp reply).world.fetches = s.world.fetches := by
  have hhandled := World.fetches_handled (World.failed_cases (some job) err inp s.world)
  unfold Service.failed
  split
  · exact hhandled
  · exact (World.fetches_noted (World.deadLettered_noted reply.result _)).trans hhandled

/-- A step issues a fetch exactly when the worker takes a job that does. -/
theorem Service.fetches_step {s t : Service} {a : ServiceAction}
    (h : s.step env ext options a = some t) :
    (t.world.fetches = s.world.fetches ∧
      ∀ id inp, a = .activate id inp → ¬s.IssuesFetch id inp) ∨
    (t.world.fetches = s.world.fetches + 1 ∧
      ∃ id inp, a = .activate id inp ∧ s.IssuesFetch id inp) := by
  cases Service.step_cases h with
  | activated id inp e e' hget activate =>
      have hdata : e'.data = e.data := (Entry.follows_activate activate).data
      by_cases hissues : s.IssuesFetch id inp
      · refine Or.inr ⟨?_, id, inp, rfl, hissues⟩
        obtain ⟨x, data, hx, hname, hparse, hread, hfresh⟩ := hissues
        obtain rfl := Option.some.inj (hget.symm.trans hx)
        rw [← hdata] at hname hparse
        have hposted : (s.world.begin env ext (jobOf id e') inp).fetches = s.world.fetches + 1 :=
          World.fetches_of_fresh env ext hname hparse hread hfresh
        exact hposted
      · refine Or.inl ⟨?_, ?_⟩
        · by_contra hfetches
          obtain ⟨-, hname, hread, data, hparse, hfresh⟩ := World.fetches_begin
            (World.begin_cases env ext (jobOf id e') inp s.world) hfetches
          refine hissues ⟨e, data, hget, ?_, ?_, hread, hfresh⟩
          · rw [← hdata]
            exact hname
          · rw [← hdata]
            exact hparse
        · rintro id' inp' heq
          cases heq
          exact hissues
  | completed id e e' =>
      exact Or.inl ⟨World.fetches_noted (World.completed_noted (jobOf id e') s.world), by simp⟩
  | failed id trace inp reply e e' err =>
      exact Or.inl ⟨Service.fetches_failed (jobOf id e') err inp reply
        { s with tasks := s.tasks.put id e' }, by simp⟩
  | failedDeferred id trace counted inp reply e e' =>
      exact Or.inl ⟨Service.fetches_failed (jobOf id e') stalledError inp reply
        { s with tasks := s.tasks.put id e' }, by simp⟩
  | answered e status w answer =>
      obtain ⟨_, -, rfl⟩ := World.answer_eq_some.1 answer
      exact Or.inl ⟨by simp [World.fetches, WorkEvent.isPosted], by simp⟩
  | dropped e w drop =>
      obtain ⟨_, -, rfl⟩ := World.drop_eq_some.1 drop
      exact Or.inl ⟨rfl, by simp⟩
  | settled e inp w settle =>
      obtain ⟨_, _, -, hresumed⟩ := World.settle_cases settle
      exact Or.inl ⟨World.fetches_resume hresumed, by simp⟩
  | lost e message inp w resume =>
      exact Or.inl ⟨World.fetches_resume (World.resume_cases resume), by simp⟩
  | crashed => exact Or.inl ⟨by simp [World.fetches, WorkEvent.isPosted, World.crash], by simp⟩
  | _ => exact Or.inl ⟨rfl, by simp⟩

/-! ## Order of the phases -/

/-- Until a shutdown begins the server is starting or listening, and no worker runs
while it is starting. -/
structure Process.Ordered (p : Process) : Prop where
  undisturbed : p.shutdowns = 0 ↔ p.listener = .starting ∨ p.listener = .listening
  started : p.worker = .running → p.listener ≠ .starting

theorem Process.Ordered.listening_iff {p : Process} (hp : p.Ordered)
    (hworker : p.worker = .running) :
    p.listener = .listening ↔ p.shutdowns = 0 := by
  rw [hp.undisturbed]
  constructor
  · exact Or.inr
  · rintro (hstarting | hlistening)
    · exact absurd hstarting (hp.started hworker)
    · exact hlistening

theorem Process.initial_ordered (service : Service) : (Process.initial service).Ordered where
  undisturbed := by simp [Process.initial]
  started := by simp [Process.initial]

theorem Process.work_eq_some {p q : Process} {a : ServiceAction}
    (h : p.work env ext options a = some q) :
    p.permits a = true ∧ ∃ service, p.service.step env ext options a = some service ∧
      q = { p with
        service
        refused := if p.listener = .listening then p.refused
          else (fetchedBy p.service service).toList ++ p.refused } := by
  unfold Process.work at h
  split at h
  · rename_i hpermits
    obtain ⟨service, hstep, rfl⟩ := Option.map_eq_some_iff.1 h
    exact ⟨hpermits, service, hstep, rfl⟩
  · cases h

theorem Process.step_cases {p q : Process} {a : ProcessAction}
    (h : p.step env ext options a = some q) :
    (q.refused = p.refused ∧ (p.Ordered → q.Ordered) ∧ ∀ action, a ≠ .work action) ∨
    (∃ action, a = .work action ∧ p.work env ext options action = some q) := by
  unfold Process.step at h
  split at h
  · cases h
  · cases a with
    | listening =>
        simp only at h
        split at h
        · rename_i hstarting
          obtain rfl := Option.some.inj h
          refine Or.inl ⟨rfl, fun hp => ⟨?_, by simp⟩, by simp⟩
          simp [hp.undisturbed.2 (Or.inl hstarting)]
        · cases h
    | signal =>
        obtain rfl := Option.some.inj h
        refine Or.inl ⟨rfl, fun _ => ⟨?_, ?_⟩, by simp⟩
        · cases hlistener : p.listener <;> simp [gracefulShutdown, Listener.close, hlistener]
        · cases hlistener : p.listener <;> simp [gracefulShutdown, Listener.close, hlistener]
    | serverClosed =>
        simp only at h
        split at h
        · rename_i hclosing
          obtain rfl := Option.some.inj h
          refine Or.inl ⟨rfl, fun hp => ⟨?_, by simp⟩, by simp⟩
          have hdisturbed : p.shutdowns ≠ 0 := by
            rw [Ne, hp.undisturbed, hclosing]
            simp
          simp [hdisturbed]
        · cases h
    | workerClosed =>
        simp only at h
        split at h
        · obtain rfl := Option.some.inj h
          exact Or.inl ⟨rfl, fun hp => ⟨hp.undisturbed, by simp⟩, by simp⟩
        · cases h
    | forceExit =>
        simp only at h
        split at h
        · cases h
        · obtain rfl := Option.some.inj h
          exact Or.inl ⟨rfl, fun hp => ⟨hp.undisturbed, hp.started⟩, by simp⟩
    | work action => exact Or.inr ⟨action, rfl, h⟩

theorem Process.service_step {p q : Process} {a : ProcessAction}
    (h : p.step env ext options a = some q) :
    (q.service = p.service ∧ ∀ action, a ≠ .work action) ∨
    (∃ action, a = .work action ∧ p.service.step env ext options action = some q.service) := by
  unfold Process.step at h
  obtain ⟨-, h⟩ := Option.ite_none_left_eq_some.1 h
  cases a with
  | listening =>
      obtain ⟨-, heq⟩ := Option.ite_none_right_eq_some.1 h
      obtain rfl := Option.some.inj heq
      exact Or.inl ⟨rfl, nofun⟩
  | signal =>
      obtain rfl := Option.some.inj h
      exact Or.inl ⟨rfl, nofun⟩
  | serverClosed =>
      obtain ⟨-, heq⟩ := Option.ite_none_right_eq_some.1 h
      obtain rfl := Option.some.inj heq
      exact Or.inl ⟨rfl, nofun⟩
  | workerClosed =>
      obtain ⟨-, heq⟩ := Option.ite_none_right_eq_some.1 h
      obtain rfl := Option.some.inj heq
      exact Or.inl ⟨rfl, nofun⟩
  | forceExit =>
      obtain ⟨-, heq⟩ := Option.ite_none_left_eq_some.1 h
      obtain rfl := Option.some.inj heq
      exact Or.inl ⟨rfl, nofun⟩
  | work action =>
      obtain ⟨-, service, hstep, rfl⟩ := Process.work_eq_some h
      exact Or.inr ⟨action, rfl, hstep⟩

theorem Process.Ordered.step {p q : Process} (hp : p.Ordered) {a : ProcessAction}
    (h : p.step env ext options a = some q) : q.Ordered := by
  rcases Process.step_cases h with ⟨-, hordered, -⟩ | ⟨action, rfl, hwork⟩
  · exact hordered hp
  · obtain ⟨-, service, -, rfl⟩ := Process.work_eq_some hwork
    exact ⟨hp.undisturbed, hp.started⟩

/-! ## Refused fetches -/

def TakesNoDelivery (p : Process) (a : ProcessAction) : Prop :=
  ∀ id inp, a = .work (.activate id inp) → p.shutdowns ≠ 0 → ¬p.service.IssuesFetch id inp

theorem Process.refused_mono {p q : Process} {a : ProcessAction}
    (h : p.step env ext options a = some q) : p.refused.length ≤ q.refused.length := by
  rcases Process.step_cases h with ⟨hsame, -⟩ | ⟨action, rfl, hwork⟩
  · rw [hsame]
  · obtain ⟨-, service, -, rfl⟩ := Process.work_eq_some hwork
    split
    · exact Nat.le_refl _
    · rw [List.length_append]
      exact Nat.le_add_left _ _

/-- A step refuses a fetch exactly when it takes a delivery after a shutdown began. -/
theorem Process.Ordered.refused_iff {p q : Process} (hp : p.Ordered) {a : ProcessAction}
    (hnone : p.refused.length ≤ 0) (h : p.step env ext options a = some q) :
    q.refused.length ≤ 0 ↔ TakesNoDelivery p a := by
  rcases Process.step_cases h with ⟨hsame, -, hphase⟩ | ⟨action, rfl, hwork⟩
  · rw [hsame]
    refine iff_of_true hnone fun id inp heq => absurd heq (hphase _)
  · obtain ⟨hpermits, service, hstep, rfl⟩ := Process.work_eq_some hwork
    rcases Service.fetches_step hstep with ⟨hfetches, hquiet⟩ | ⟨hfetches, id, inp, rfl, hissues⟩
    · have hfetched : fetchedBy p.service service = none := by
        rw [fetchedBy, hfetches, if_neg (Nat.lt_irrefl _)]
      refine iff_of_true ?_ fun id inp heq _ => hquiet id inp (ProcessAction.work.inj heq)
      simpa [hfetched] using hnone
    · have hfetched : fetchedBy p.service service = some p.service.world.started := by
        rw [fetchedBy, hfetches, if_pos (Nat.lt_succ_self _)]
      have hworker : p.worker = .running := by simpa [Process.permits] using hpermits
      have hlistening := hp.listening_iff hworker
      constructor
      · intro hafter id' inp' heq hdisturbed
        rw [if_neg (mt hlistening.1 hdisturbed), hfetched] at hafter
        simp at hafter
      · intro htakes
        have hquiet : p.shutdowns = 0 := by
          by_contra hdisturbed
          exact htakes id inp rfl hdisturbed hissues
        rw [if_pos (hlistening.2 hquiet)]
        exact hnone

/-- In every run of a process, over whatever was left in the queues, no fetch finds the
server not accepting exactly when no delivery is taken once a shutdown has begun.
In particular the start-up refuses none. -/
theorem no_fetch_refused_iff {s : Service} {as : List ProcessAction} {p : Process}
    (hrun : (process env ext options s).run (.initial s) as = some p) :
    p.refused = [] ↔ (process env ext options s).Meets TakesNoDelivery (.initial s) as := by
  rw [← List.length_eq_zero_iff, ← Nat.le_zero]
  refine Automaton.measure_le_iff_meets (m := fun p : Process => p.refused.length)
    (I := Process.Ordered) (Q := fun _ _ => True) (fun p a q h => Process.refused_mono h)
    (fun p a q hp _ h => hp.step h) (fun p a q hp _ hnone h => hp.refused_iff hnone h)
    (Process.initial_ordered s) (Nat.le_refl 0) (Automaton.meets_of_forall (fun _ _ => trivial) _ _)
    hrun

def availableRequest : JobRequest :=
  { unavailableRequest (js "k") (js "a") with
    body := .object [(js "destination", .string (js "DEMO_AVAILABLE")),
      (js "event", .string (js "order.paid")), (js "idempotencyKey", .string (js "k"))] }

def submitDelivery : List ProcessAction :=
  [.listening, .work (.receive availableRequest), .work (.counted 0 none), .work (.added 0 .done)]

def deliveredBeforeShutdown : List ProcessAction :=
  let id := js "webhook_k"
  submitDelivery ++ [.work (.activate id steady), .work (.answer 0 200), .work (.settle 0 steady),
    .work (.complete id), .signal, .serverClosed, .workerClosed]

def takenBeforeShutdown (p : Process) : ProcessAction → Bool
  | .work (.activate ..) => p.shutdowns = 0
  | _ => true

theorem no_fetch_refused_iff_deliveredBeforeShutdown :
    ∃ p, (process .default atSign defaultJobOptions .initial).run (.initial .initial)
        deliveredBeforeShutdown = some p ∧ p.exited = true ∧ p.refused = [] := by
  have hrun : ((process .default atSign defaultJobOptions .initial).run (.initial .initial)
      deliveredBeforeShutdown).map Process.exited = some true := by decide +kernel
  have hbefore : (process .default atSign defaultJobOptions .initial).Meets
      (fun p a => takenBeforeShutdown p a = true) (.initial .initial) deliveredBeforeShutdown := by
    decide +kernel
  obtain ⟨p, hp, hexited⟩ := Option.map_eq_some_iff.1 hrun
  refine ⟨p, hp, hexited, (no_fetch_refused_iff hp).2 (hbefore.mono fun p a htaken => ?_)⟩
  rintro id inp rfl hdisturbed
  exact absurd (of_decide_eq_true htaken) hdisturbed

/-! ## Deliveries during a shutdown -/

def refusedAttempt (execution : Nat) : List ProcessAction :=
  let id := js "webhook_k"
  [.work (.activate id steady), .work (.lose execution (some (js "fetch failed")) steady),
    .work (.fail id [] steady .done)]

/-- A connection outlasts the retries of a delivery. -/
def retriedWhileClosing : List ProcessAction :=
  let id := js "webhook_k"
  submitDelivery ++ [.signal] ++ refusedAttempt 0 ++ [.work (.promote id)] ++ refusedAttempt 1 ++
    [.work (.promote id)] ++ refusedAttempt 2

/-- The worker goes on while the server closes: every attempt is refused, and the
delivery ends in the dead letter queue. -/
theorem shutdown_refuses_deliveries :
    ∃ p, (process .default atSign defaultJobOptions .initial).run (.initial .initial)
        retriedWhileClosing = some p ∧ p.listener = .closing ∧ p.refused = [2, 1, 0] ∧
      p.service.dlq.size = 1 := by
  have hrun : ((process .default atSign defaultJobOptions .initial).run (.initial .initial)
      retriedWhileClosing).map (fun p => (p.listener, p.refused, p.service.dlq.size)) =
      some (.closing, [2, 1, 0], 1) := by decide +kernel
  obtain ⟨p, hp, hfields⟩ := Option.map_eq_some_iff.1 hrun
  simp only [Prod.mk.injEq] at hfields
  exact ⟨p, hp, hfields⟩

end TaskQueue

import TaskQueue.Service.Service
import TaskQueue.Worker.PerformedWork

/-!
# What a `202` promises

An `add` under an id that still exists changes nothing, and ids are made of
client-chosen keys; a dispatch resolves all the same, with the job it would
have added.  The reply is right when the id is free, when the job that has it is
pending and is the one described, or when its work is already recorded as done.
-/

namespace TaskQueue

open Ecma JobQueue

variable {env : Environment} {ext : External} {options : JobOptions}

/-- The job the reply names is pending and is the one it describes, or the store
has its work as completed. -/
def Service.Truthful (s : Service) (r : JobRequest) (reply : AcceptedReply) : Prop :=
  (∃ e, s.tasks.get reply.jobId = some e ∧ e.pending = true ∧ e.data.name = r.jobName.text ∧
    idempotencyKeyOf e.data.data = reply.idempotencyKey ∧
    correlationIdOf e.data.data = some reply.correlationId ∧
    (r.jobName = .webhookDelivery → destinationOf e.data.data = reply.destination)) ∨
  ∃ key, reply.idempotencyKey = some key ∧ s.world.db.Completed r.jobName.text key

/-- Whenever the dispatch of a request settles in the step and is answered `202`, the
reply is truthful. -/
def AcceptsTruthfully (env : Environment) (ext : External) (options : JobOptions) (s : Service)
    (a : ServiceAction) : Prop :=
  ∀ t ∈ s.step env ext options a, ∀ d r step body, t.dispatches.get d = some (r, step) →
    s.dispatches.get d ≠ some (r, step) → r.reply step = some (.accepted body) →
    t.Truthful r body

/-- No job has the id, or a pending one with the same correlation id and
destination, or the key is recorded as completed. -/
def Service.Admits (s : Service) (r : JobRequest) (add : TaskAdd) : Prop :=
  s.tasks.get add.jobId = none ∨
  (∃ e ∈ s.tasks.get add.jobId, e.pending = true ∧
    correlationIdOf e.data.data = correlationIdOf add.data ∧
    (r.jobName = .webhookDelivery → destinationOf e.data.data = destinationOf add.data)) ∨
  ∃ key ∈ idempotencyKeyOf add.data, s.world.db.Completed r.jobName.text key

instance (s : Service) (r : JobRequest) (add : TaskAdd) : Decidable (s.Admits r add) :=
  inferInstanceAs (Decidable (s.tasks.get add.jobId = none ∨
    (∃ e ∈ s.tasks.get add.jobId, e.pending = true ∧
      correlationIdOf e.data.data = correlationIdOf add.data ∧
      (r.jobName = .webhookDelivery → destinationOf e.data.data = destinationOf add.data)) ∨
    ∃ key ∈ idempotencyKeyOf add.data, s.world.db.Completed r.jobName.text key))

def Service.adding (s : Service) (d : Nat) : Option (JobRequest × TaskAdd) :=
  match s.dispatches.get d with
  | some (r, .adding add) => some (r, add)
  | _ => none

def AddsAdmitted (s : Service) : ServiceAction → Prop
  | .added d .done => ∀ x ∈ s.adding d, s.Admits x.1 x.2
  | _ => True

/-! ## Resolved dispatches -/

theorem withDepth_ne_resolved (submission : Submission) (depth : Nat) (job : TaskAdd) :
    submission.withDepth env depth ≠ .resolved job := by
  unfold Submission.withDepth
  split <;> simp

theorem enqueue_ne_resolved (depthCache : Option DepthCacheEntry) (submission : Submission)
    (job : TaskAdd) : enqueue env depthCache submission ≠ .resolved job := by
  unfold enqueue
  split
  · exact withDepth_ne_resolved _ _ _
  · simp

theorem JobRequest.dispatch_ne_resolved (isEmail : JsString → Bool)
    (depthCache : Option DepthCacheEntry) (r : JobRequest) (job : TaskAdd) :
    r.dispatch env isEmail depthCache ≠ .resolved job := by
  unfold JobRequest.dispatch
  rcases dispatchJob_cases env isEmail depthCache r.jobName r.body (some r.correlationId) r.now with
    ⟨issues, -, hdispatch⟩ | ⟨d, -, hdispatch⟩
  · rw [hdispatch]
    simp
  · rw [hdispatch]
    exact enqueue_ne_resolved _ _ _

theorem resumeCounting_ne_resolved (depthCache : Option DepthCacheEntry)
    (submission : Submission) (reply : Except (Option JsString) JobCounts) (job : TaskAdd) :
    (resumeCounting env depthCache submission reply).1 ≠ .resolved job := by
  cases reply with
  | ok counts => exact withDepth_ne_resolved _ _ _
  | error cause => simp [resumeCounting]

/-- A dispatch resolves only with what it added, when its `add` succeeds. -/
theorem Service.resolved_of_step {s t : Service} {a : ServiceAction}
    (h : s.step env ext options a = some t) {d : Nat} {r : JobRequest} {job : TaskAdd}
    (hresolved : t.dispatches.get d = some (r, .resolved job)) :
    s.dispatches.get d = some (r, .resolved job) ∨
      (a = .added d .done ∧ s.dispatches.get d = some (r, .adding job)) := by
  rcases Service.step_dispatch h hresolved with hold | ⟨-, hstep⟩ | ⟨_, _, -, hstep⟩ |
    ⟨add, reply, rfl, hold, hstep⟩
  · exact Or.inl hold
  · exact absurd hstep.symm (r.dispatch_ne_resolved _ _ _)
  · exact absurd hstep.symm (resumeCounting_ne_resolved _ _ _ _)
  · cases reply with
    | done =>
        cases hstep
        exact Or.inr ⟨rfl, hold⟩
    | refused err => cases hstep
    | lost err => cases hstep

/-! ## Acceptance -/

theorem Service.adding_eq_some {s : Service} {d : Nat} {r : JobRequest} {add : TaskAdd} :
    s.adding d = some (r, add) ↔ s.dispatches.get d = some (r, .adding add) := by
  unfold Service.adding
  split
  · rename_i hget
    simp [hget]
  · rename_i hget
    simpa using hget r add

def Service.accept (options : JobOptions) (d : Nat) (r : JobRequest) (add : TaskAdd)
    (s : Service) : Service :=
  { s with
    tasks := s.tasks.add options.attempts add.jobId ⟨add.name, add.data⟩
    dispatches := s.dispatches.put d (r, .resolved add) }

/-- The reply to an `add` that succeeded is truthful exactly when it was admitted. -/
theorem Service.Sound.truthful_iff {s : Service} (hs : s.Sound) {d : Nat} {r : JobRequest}
    {add : TaskAdd} (hget : s.dispatches.get d = some (r, .adding add)) :
    (s.accept options d r add).Truthful r (r.accepted add) ↔ s.Admits r add := by
  obtain ⟨key, hadds⟩ := hs.dispatches d r _ hget
  unfold Service.Truthful Service.Admits
  simp only [r.accepted_jobId, r.accepted_idempotencyKey, r.accepted_correlationId]
  cases hold : s.tasks.get add.jobId with
  | none =>
      -- A free id: the job that is stored is the one described.
      refine iff_of_true (Or.inl ⟨.new options.attempts ⟨add.name, add.data⟩, ?_, rfl,
        hadds.name, rfl, hadds.correlationId, fun hwebhook => ?_⟩) (Or.inl rfl)
      · simp only [Service.accept, Queue.add_of_none hold, Table.get_put_self]
      · exact (JobRequest.accepted_destination hwebhook add).symm
  | some e =>
      -- A taken id: the job under it is of the same type and key, and stays as it was.
      obtain ⟨-, t, k, hid, hname, hkey⟩ := hs.tasks add.jobId e hold
      obtain ⟨rfl, rfl⟩ := jobIdOf_injective (hid.symm.trans hadds.jobId)
      simp only [Service.accept, Queue.add_of_some hold, hold, hadds.idempotencyKey,
        hadds.correlationId, Option.some.injEq, Option.mem_def, reduceCtorEq, false_or,
        exists_eq_left', hname, hkey, true_and]
      refine or_congr (and_congr_right fun _ => and_congr_right fun _ =>
        forall_congr' fun hwebhook => ?_) Iff.rfl
      rw [JobRequest.accepted_destination hwebhook add]

theorem Service.Sound.acceptsTruthfully_iff {s : Service} (hs : s.Sound) (a : ServiceAction) :
    AcceptsTruthfully env ext options s a ↔ AddsAdmitted s a := by
  have hstep : ∀ {d r add}, s.dispatches.get d = some (r, .adding add) →
      s.step env ext options (.added d .done) = some (s.accept options d r add) :=
    fun hget => Service.added_eq_some.2 ⟨_, _, hget, rfl⟩
  constructor
  · intro htruthful
    unfold AddsAdmitted
    split
    · rename_i d
      rintro ⟨r, add⟩ hadding
      have hget := Service.adding_eq_some.1 hadding
      have hnew : s.dispatches.get d ≠ some (r, .resolved add) := by simp [hget]
      have hresolved : (s.accept options d r add).dispatches.get d = some (r, .resolved add) :=
        Table.get_put_self _ _ _
      exact (hs.truthful_iff hget).1 (htruthful _ (hstep hget) d r _ _ hresolved hnew rfl)
    · trivial
  · intro hadmitted t ht d r step body hresolved hnew hreply
    obtain ⟨job, rfl, rfl⟩ := JobRequest.reply_eq_accepted.1 hreply
    rcases Service.resolved_of_step ht hresolved with hold | ⟨rfl, hget⟩
    · exact absurd hold hnew
    · obtain rfl := Option.some.inj ((hstep hget).symm.trans ht)
      exact (hs.truthful_iff hget).2 (hadmitted (r, job) (Service.adding_eq_some.2 hget))

/-- In every run, all accepted submissions are answered truthfully exactly when
every `add` that succeeds is admitted. -/
theorem accepts_truthfully_iff (as : List ServiceAction) :
    (service env ext options).Meets (AcceptsTruthfully env ext options) .initial as ↔
      (service env ext options).Meets AddsAdmitted .initial as :=
  Automaton.meets_congr (I := Service.Sound) (fun _ _ _ _ hs _ h => hs.step h)
    (fun _ a _ hs => hs.acceptsTruthfully_iff a) .start Service.initial_sound as

/-! ## Replies that are not -/

def unavailableRequest (key id : JsString) : JobRequest where
  jobName := .webhookDelivery
  body := .object [(js "destination", .string (js "DEMO_UNAVAILABLE")),
    (js "event", .string (js "order.paid")), (js "idempotencyKey", .string key)]
  header := some id
  randomUUID := ⟨List.replicate 36 0x30, by decide, by decide⟩
  now := 0

def rejectedAttempt (id : JsString) (execution : Nat) : List ServiceAction :=
  [.activate id steady, .answer execution 404, .settle execution steady, .fail id [] steady .done]

def resubmittedAfterFailure : List ServiceAction :=
  let id := js "webhook_k"
  [.receive (unavailableRequest (js "k") (js "a")), .counted 0 none, .added 0 .done] ++
    rejectedAttempt id 0 ++ [.promote id] ++ rejectedAttempt id 1 ++ [.promote id] ++
    rejectedAttempt id 2 ++ [.receive (unavailableRequest (js "k") (js "b"))]

def resubmittedWhilePending : List ServiceAction :=
  [.receive (unavailableRequest (js "k") (js "a")), .counted 0 none, .added 0 .done,
    .receive (unavailableRequest (js "k") (js "b"))]

def RepliesUntruthfully (as : List ServiceAction) : Prop :=
  ∃ s, (service .default atSign defaultJobOptions).run .initial as = some s ∧
    ¬AcceptsTruthfully .default atSign defaultJobOptions s (.added 1 .done)

theorem repliesUntruthfully_of_not_admitted {as : List ServiceAction}
    (h : ((service .default atSign defaultJobOptions).run .initial as).map (fun s =>
      (s.adding 1).map fun x => decide (s.Admits x.1 x.2)) = some (some false)) :
    RepliesUntruthfully as := by
  obtain ⟨s, hs, hadding⟩ := Option.map_eq_some_iff.1 h
  obtain ⟨x, hx, hadmits⟩ := Option.map_eq_some_iff.1 hadding
  refine ⟨s, hs, fun htruthful => ?_⟩
  have hsound : s.Sound := Service.sound_of_reachable ⟨as, hs⟩
  exact of_decide_eq_false hadmits ((hsound.acceptsTruthfully_iff _).1 htruthful x hx)

theorem untruthful_replies :
    RepliesUntruthfully resubmittedAfterFailure ∧ RepliesUntruthfully resubmittedWhilePending := by
  refine ⟨repliesUntruthfully_of_not_admitted ?_, repliesUntruthfully_of_not_admitted ?_⟩
  · decide +kernel
  · decide +kernel

end TaskQueue

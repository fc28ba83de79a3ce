import TaskQueue.Service.Acceptance

/-!
# The depth ceiling

A submission is judged on a reading of the queue's depth, its own or a memoised
one, and its `add` comes an await later.  The reading bounds what the `add` can
make of the queue, together with the adds that were carried out in between.
-/

namespace TaskQueue

open Ecma JobQueue

variable {env : Environment} {ext : External} {options : JobOptions}

def Service.pendingJobs (s : Service) : Nat := s.tasks.count Entry.pending

def Service.creates (s : Service) : ServiceAction → Bool
  | .added d reply => reply.written && (s.adding d).any fun x => (s.tasks.get x.2.jobId).isNone
  | _ => false

theorem getJobCounts_sum (tasks : Tasks) :
    (getJobCounts tasks).waiting + (getJobCounts tasks).active + (getJobCounts tasks).delayed =
      tasks.count Entry.pending :=
  Queue.count_pending tasks

/-- Only a step that creates a job makes more of them pending. -/
theorem Service.pendingJobs_step {s t : Service} {a : ServiceAction}
    (h : s.step env ext options a = some t) :
    t.pendingJobs ≤ s.pendingJobs + if s.creates a then 1 else 0 := by
  have hmoves := Service.step_tasks h
  unfold Service.pendingJobs
  by_cases hadded : ∃ d reply, a = .added d reply
  · obtain ⟨d, reply, rfl⟩ := hadded
    obtain ⟨r, add, hget, rfl⟩ := Service.added_eq_some.1 h
    have hcreates : s.creates (.added d reply) =
        (reply.written && (s.tasks.get add.jobId).isNone) := by
      simp [Service.creates, Service.adding_eq_some.2 hget]
    change (addTask options add reply s.tasks).count Entry.pending ≤ _
    rw [hcreates]
    unfold addTask
    split
    · rename_i hwritten
      cases hfree : s.tasks.get add.jobId with
      | none =>
          rw [Queue.add_of_none hfree, Queue.count_put_of_none hfree, hwritten]
          exact Nat.le_refl _
      | some e =>
          rw [Queue.add_of_some hfree]
          exact Nat.le_add_right _ _
    · exact Nat.le_add_right _ _
  · generalize t.tasks = tasks at hmoves
    cases hmoves with
    | same => omega
    | added d reply => exact absurd ⟨d, reply, rfl⟩ hadded
    | advanced a id e e' get follows =>
        have := Queue.count_pending_put_le get follows
        omega
    | failed id trace inp reply e e' get fail =>
        have := Queue.count_pending_put_le get (Entry.follows_fail fail)
        omega
    | failedDeferred id trace counted inp reply e e' get fail =>
        have := Queue.count_pending_put_le get (Entry.follows_failDeferred fail)
        omega
    | pruned id e get finished =>
        have := Queue.count_remove_le s.tasks id Entry.pending
        omega

/-! ## Admission -/

theorem cachedDepth_eq_some {depthCache : Option DepthCacheEntry} {now depth : Nat} :
    cachedDepth depthCache now = some depth ↔
      ∃ entry, depthCache = some entry ∧ now < entry.expiresAt ∧ entry.depth = depth := by
  unfold cachedDepth
  simp only [Option.map_eq_some_iff, Option.filter_eq_some_iff, decide_eq_true_eq, and_assoc]

theorem depth_lt_of_withDepth {submission : Submission} {depth : Nat} {add : TaskAdd}
    (h : submission.withDepth env depth = .adding add) : depth < env.maxQueueDepth := by
  unfold Submission.withDepth at h
  split at h
  · cases h
  · omega

theorem depth_lt_of_enqueue {depthCache : Option DepthCacheEntry} {submission : Submission}
    {add : TaskAdd} (h : enqueue env depthCache submission = .adding add) :
    ∃ depth, cachedDepth depthCache submission.now = some depth ∧ depth < env.maxQueueDepth := by
  unfold enqueue at h
  split at h
  · rename_i depth hcached
    exact ⟨depth, hcached, depth_lt_of_withDepth h⟩
  · cases h

theorem JobRequest.dispatch_eq_adding {isEmail : JsString → Bool}
    {depthCache : Option DepthCacheEntry} {r : JobRequest} {add : TaskAdd}
    (h : r.dispatch env isEmail depthCache = .adding add) :
    ∃ depth, cachedDepth depthCache r.now = some depth ∧ depth < env.maxQueueDepth := by
  unfold JobRequest.dispatch at h
  rcases dispatchJob_cases env isEmail depthCache r.jobName r.body (some r.correlationId) r.now with
    ⟨issues, -, hdispatch⟩ | ⟨d, -, hdispatch⟩
  · rw [hdispatch] at h
    cases h
  · rw [hdispatch] at h
    exact depth_lt_of_enqueue h

structure Service.SameIntake (s t : Service) : Prop where
  depthCache : t.depthCache = s.depthCache
  dispatches : t.dispatches = s.dispatches

inductive Service.Intake (env : Environment) (ext : External) (s : Service) :
    ServiceAction → Service → Prop
  | other (a : ServiceAction) (t : Service) (same : s.SameIntake t) : Intake env ext s a t
  | received (r : JobRequest) (t : Service) (depthCache : t.depthCache = s.depthCache)
      (dispatches : t.dispatches =
        s.dispatches.put s.received (r, r.dispatch env ext.isEmail s.depthCache)) :
      Intake env ext s (.receive r) t
  | counted (d : Nat) (r : JobRequest) (submission : Submission) (t : Service)
      (get : s.dispatches.get d = some (r, .counting submission))
      (depthCache :
        t.depthCache = some ⟨s.pendingJobs, submission.now + env.queueDepthCacheTtlMs⟩)
      (dispatches :
        t.dispatches = s.dispatches.put d (r, submission.withDepth env s.pendingJobs)) :
      Intake env ext s (.counted d none) t
  /-- A dispatch settled. -/
  | settled (a : ServiceAction) (d : Nat) (r : JobRequest) (step : DispatchStep) (t : Service)
      (depthCache : t.depthCache = s.depthCache)
      (dispatches : t.dispatches = s.dispatches.put d (r, step))
      (settled : ∀ add, step ≠ .adding add) : Intake env ext s a t
  | crashed (t : Service) (depthCache : t.depthCache = none) (dispatches : t.dispatches = ∅) :
      Intake env ext s .crash t

theorem resumeAdding_ne_adding (add job : TaskAdd) (reply : Except (Option JsString) Unit) :
    (resumeAdding add reply).1 ≠ .adding job := by
  cases reply <;> simp [resumeAdding]

theorem Service.failed_sameIntake (job : Job) (err : JsError) (inp : Inputs) (reply : AddReply)
    (s : Service) : s.SameIntake (s.failed job err inp reply) := by
  unfold Service.failed
  split <;> exact ⟨rfl, rfl⟩

theorem Service.step_intake {s t : Service} {a : ServiceAction}
    (h : s.step env ext options a = some t) : s.Intake env ext a t := by
  cases Service.step_cases h with
  | received r => exact .received r _ rfl rfl
  | counted d r submission hget =>
      have hcounts := getJobCounts_sum s.tasks
      refine .counted d r submission _ hget ?_ ?_
      · simp only [Service.resumed, resumeCounting, hcounts]
        rfl
      · simp only [Service.resumed, resumeCounting, hcounts]
        rfl
  | uncounted d err r submission hget =>
      exact .settled _ d r (.rejected (.queueUnavailable (some err.message))) _ rfl rfl (by simp)
  | added d reply r add hget =>
      exact .settled _ d r _ _ rfl rfl fun job => resumeAdding_ne_adding add job _
  | failed id trace inp reply e e' err =>
      have hsame := Service.failed_sameIntake (jobOf id e') err inp reply
        { s with tasks := s.tasks.put id e' }
      exact .other _ _ ⟨hsame.depthCache, hsame.dispatches⟩
  | failedDeferred id trace counted inp reply e e' =>
      have hsame := Service.failed_sameIntake (jobOf id e') stalledError inp reply
        { s with tasks := s.tasks.put id e' }
      exact .other _ _ ⟨hsame.depthCache, hsame.dispatches⟩
  | crashed => exact .crashed _ rfl rfl
  | _ => exact .other _ _ ⟨rfl, rfl⟩

/-! ## Readings -/

/-- In the run a dispatch read the depth, when it had asked for it at `askedAt`. -/
def HasRead (env : Environment) (ext : External) (options : JobOptions) (as : List ServiceAction)
    (d depth askedAt : Nat) : Prop :=
  ∃ bs cs m r submission, as = bs ++ .counted d none :: cs ∧
    (service env ext options).run .initial bs = some m ∧
    m.dispatches.get d = some (r, .counting submission) ∧ submission.now = askedAt ∧
    m.pendingJobs = depth

theorem HasRead.step {as : List ServiceAction} {d depth askedAt : Nat}
    (h : HasRead env ext options as d depth askedAt) (a : ServiceAction) :
    HasRead env ext options (as ++ [a]) d depth askedAt := by
  obtain ⟨bs, cs, m, r, submission, rfl, hread⟩ := h
  exact ⟨bs, cs ++ [a], m, r, submission, by simp, hread⟩

/-- The cached depth and every dispatch at its `add` come from a reading: the dispatch's
own, or one that was cached when the dispatch began. -/
structure Service.Measured (env : Environment) (ext : External) (options : JobOptions)
    (as : List ServiceAction) (s : Service) : Prop where
  cached : ∀ entry ∈ s.depthCache, ∃ d askedAt, HasRead env ext options as d entry.depth askedAt ∧
    entry.expiresAt = askedAt + env.queueDepthCacheTtlMs
  adding : ∀ d r add, s.dispatches.get d = some (r, .adding add) →
    ∃ reader depth askedAt, HasRead env ext options as reader depth askedAt ∧
      depth < env.maxQueueDepth ∧ (reader = d ∨ r.now < askedAt + env.queueDepthCacheTtlMs)

theorem Service.Measured.step {as : List ServiceAction} {s t : Service} {a : ServiceAction}
    (hrun : (service env ext options).run .initial as = some s)
    (hs : s.Measured env ext options as) (h : s.step env ext options a = some t) :
    t.Measured env ext options (as ++ [a]) := by
  have hcached : t.depthCache = s.depthCache → ∀ entry ∈ t.depthCache, ∃ d askedAt,
      HasRead env ext options (as ++ [a]) d entry.depth askedAt ∧
        entry.expiresAt = askedAt + env.queueDepthCacheTtlMs := by
    intro hsame entry hentry
    obtain ⟨d, askedAt, hread, hexpires⟩ := hs.cached entry (hsame ▸ hentry)
    exact ⟨d, askedAt, hread.step a, hexpires⟩
  have hadding : ∀ d r add, s.dispatches.get d = some (r, .adding add) →
      ∃ reader depth askedAt, HasRead env ext options (as ++ [a]) reader depth askedAt ∧
        depth < env.maxQueueDepth ∧
        (reader = d ∨ r.now < askedAt + env.queueDepthCacheTtlMs) := by
    intro d r add hget
    obtain ⟨reader, depth, askedAt, hread, hlt, hrecent⟩ := hs.adding d r add hget
    exact ⟨reader, depth, askedAt, hread.step a, hlt, hrecent⟩
  have hintake := Service.step_intake h
  cases hintake with
  | other _ _ same =>
      refine ⟨hcached same.depthCache, fun d r add hget => ?_⟩
      rw [same.dispatches] at hget
      exact hadding d r add hget
  | received r _ depthCache dispatches =>
      refine ⟨hcached depthCache, fun d r' add hget => ?_⟩
      rw [dispatches] at hget
      rcases Table.get_put_eq_some.1 hget with ⟨rfl, heq⟩ | ⟨-, hold⟩
      · obtain ⟨rfl, hdispatch⟩ := Prod.mk.inj heq
        obtain ⟨depth, hcache, hlt⟩ := JobRequest.dispatch_eq_adding hdispatch
        obtain ⟨entry, hentry, hrecent, rfl⟩ := cachedDepth_eq_some.1 hcache
        obtain ⟨reader, askedAt, hread, hexpires⟩ := hs.cached entry hentry
        exact ⟨reader, entry.depth, askedAt, hread.step _, hlt, Or.inr (hexpires ▸ hrecent)⟩
      · exact hadding d r' add hold
  | counted d r submission _ get depthCache dispatches =>
      have hread : HasRead env ext options (as ++ [.counted d none]) d s.pendingJobs
          submission.now := ⟨as, [], s, r, submission, rfl, hrun, get, rfl, rfl⟩
      refine ⟨fun entry hentry => ?_, fun d' r' add hget => ?_⟩
      · rw [depthCache] at hentry
        obtain rfl := Option.some.inj hentry
        exact ⟨d, submission.now, hread, rfl⟩
      · rw [dispatches] at hget
        rcases Table.get_put_eq_some.1 hget with ⟨rfl, heq⟩ | ⟨-, hold⟩
        · obtain ⟨rfl, hadds⟩ := Prod.mk.inj heq
          exact ⟨d', s.pendingJobs, submission.now, hread, depth_lt_of_withDepth hadds, Or.inl rfl⟩
        · exact hadding d' r' add hold
  | settled _ d r step _ depthCache dispatches settled =>
      refine ⟨hcached depthCache, fun d' r' add hget => ?_⟩
      rw [dispatches] at hget
      rcases Table.get_put_eq_some.1 hget with ⟨-, heq⟩ | ⟨-, hold⟩
      · exact absurd (Prod.mk.inj heq).2 (settled add)
      · exact hadding d' r' add hold
  | crashed _ depthCache dispatches =>
      refine ⟨fun entry hentry => ?_, fun d r add hget => ?_⟩
      · rw [depthCache] at hentry
        cases hentry
      · rw [dispatches, Table.get_empty] at hget
        cases hget

theorem Service.measured {as : List ServiceAction} {s : Service}
    (hrun : (service env ext options).run .initial as = some s) :
    s.Measured env ext options as := by
  refine Automaton.run_history (I := fun as s => s.Measured env ext options as) ⟨?_, ?_⟩
    (fun as s a t hrun hs h => hs.step hrun h) hrun
  · intro entry hentry
    cases hentry
  · intro d r add hget
    simp [service, Service.initial] at hget

/-! ## The ceiling -/

/-- A submission that gets to its `add` was judged on a reading below the ceiling,
its own or one younger than the cache's lifetime.  Its `add` leaves at most as
many jobs pending as were read and created since: where no other was created,
it stays within the ceiling. -/
theorem pendingJobs_le_of_reading {as : List ServiceAction} {s t : Service} {d : Nat}
    {r : JobRequest} {add : TaskAdd} {reply : AddReply}
    (hrun : (service env ext options).run .initial as = some s)
    (hadding : s.dispatches.get d = some (r, .adding add))
    (h : s.step env ext options (.added d reply) = some t) :
    ∃ bs reader cs m r' submission, as = bs ++ .counted reader none :: cs ∧
      (service env ext options).run .initial bs = some m ∧
      m.dispatches.get reader = some (r', .counting submission) ∧
      (reader = d ∨ r.now < submission.now + env.queueDepthCacheTtlMs) ∧
      m.pendingJobs < env.maxQueueDepth ∧
      t.pendingJobs ≤ m.pendingJobs +
        (service env ext options).tally Service.creates m (.counted reader none :: cs) + 1 ∧
      ((service env ext options).tally Service.creates m (.counted reader none :: cs) = 0 →
        t.pendingJobs ≤ env.maxQueueDepth) := by
  obtain ⟨reader, depth, askedAt, ⟨bs, cs, m, r', submission, rfl, hm, hget, rfl, rfl⟩, hlt,
    hrecent⟩ := (Service.measured hrun).adding d r add hadding
  obtain ⟨m', hm', hsince⟩ := (Automaton.run_append_eq_some _).1 hrun
  obtain rfl : m = m' := Option.some.inj (hm.symm.trans hm')
  have hcreated := Automaton.run_le_tally (fun s a t => Service.pendingJobs_step) hsince
  have hstep := Service.pendingJobs_step h
  have hone : (if s.creates (.added d reply) = true then 1 else 0) ≤ 1 := by
    split <;> omega
  exact ⟨bs, reader, cs, m, r', submission, rfl, hm, hget, hrecent, hlt, by omega, by omega⟩

def onCachedDepth : List ServiceAction :=
  [.receive (unavailableRequest (js "k") (js "a")), .counted 0 none, .added 0 .done,
    .receive (unavailableRequest (js "l") (js "b"))]

/-- It was judged on the reading of the first, whose job was created since. -/
theorem pendingJobs_le_of_reading_onCachedDepth :
    ∃ s t m, (service .default atSign defaultJobOptions).run .initial onCachedDepth = some s ∧
      s.step .default atSign defaultJobOptions (.added 1 .done) = some t ∧
      (service .default atSign defaultJobOptions).run .initial (onCachedDepth.take 1) = some m ∧
      m.pendingJobs < 1000 ∧
      (service .default atSign defaultJobOptions).tally Service.creates m
        (onCachedDepth.drop 1) = 1 ∧ t.pendingJobs ≤ m.pendingJobs + 1 + 1 := by
  have hrun : ((service .default atSign defaultJobOptions).run .initial onCachedDepth).map (fun s =>
      ((s.adding 1).isSome, (s.step .default atSign defaultJobOptions (.added 1 .done)).isSome)) =
      some (true, true) := by decide +kernel
  obtain ⟨s, hs, hboth⟩ := Option.map_eq_some_iff.1 hrun
  obtain ⟨hadding, hstep⟩ := Prod.mk.inj hboth
  obtain ⟨⟨r, add⟩, hget⟩ := Option.isSome_iff_exists.1 hadding
  obtain ⟨t, ht⟩ := Option.isSome_iff_exists.1 hstep
  obtain ⟨bs, reader, cs, m, r', submission, hsplit, hm, -, -, hlt, hle, -⟩ :=
    pendingJobs_le_of_reading hs (Service.adding_eq_some.1 hget) ht
  -- There is one reading in the run.
  obtain ⟨rfl, hcs⟩ : bs = onCachedDepth.take 1 ∧
      .counted reader none :: cs = onCachedDepth.drop 1 := by
    cases bs with
    | nil => cases (List.cons.inj hsplit).1
    | cons first bs =>
        obtain ⟨rfl, hrest⟩ := List.cons.inj hsplit
        cases bs with
        | nil => exact ⟨rfl, hrest.symm⟩
        | cons second bs =>
            have hmem : ServiceAction.counted reader none ∈ onCachedDepth.drop 2 := by
              have htail : onCachedDepth.drop 2 = bs ++ .counted reader none :: cs :=
                (List.cons.inj hrest).2
              rw [htail]
              exact List.mem_append_right bs List.mem_cons_self
            simp [onCachedDepth] at hmem
  have htally : ((service .default atSign defaultJobOptions).run .initial
      (onCachedDepth.take 1)).map (fun m => (service .default atSign defaultJobOptions).tally
        Service.creates m (onCachedDepth.drop 1)) = some 1 := by decide +kernel
  rw [hm, Option.map_some] at htally
  have hone : (service .default atSign defaultJobOptions).tally Service.creates m
      (onCachedDepth.drop 1) = 1 := Option.some.inj htally
  rw [hcs, hone] at hle
  exact ⟨s, t, m, hs, ht, hm, hlt, hone, hle⟩

/-! ## Submissions on one reading -/

def KeepsCeiling (env : Environment) (ext : External) (options : JobOptions) (s : Service)
    (a : ServiceAction) : Prop :=
  ∀ t ∈ s.step env ext options a, ∀ d, a = .added d .done →
    s.pendingJobs ≤ env.maxQueueDepth → t.pendingJobs ≤ env.maxQueueDepth

def roomForOne (queueDepthCacheTtlMs : Nat) : Environment :=
  { Environment.default with
    maxQueueDepth := 1
    queueDepthCacheTtlMs
    maxQueueDepth_pos := by decide }

def beforeEitherAdd : List ServiceAction :=
  [.receive (unavailableRequest (js "k") (js "a")), .receive (unavailableRequest (js "l") (js "b")),
    .counted 0 none, .counted 1 none, .added 0 .done]

theorem not_keepsCeiling {env : Environment} {as : List ServiceAction}
    (h : ((service env atSign options).run .initial as).map (fun s =>
      decide (s.pendingJobs ≤ env.maxQueueDepth ∧ ∃ t ∈ s.step env atSign options (.added 1 .done),
        env.maxQueueDepth < t.pendingJobs)) = some true) :
    ∃ s, (service env atSign options).run .initial as = some s ∧
      ¬KeepsCeiling env atSign options s (.added 1 .done) := by
  obtain ⟨s, hs, hdecide⟩ := Option.map_eq_some_iff.1 h
  obtain ⟨hbefore, t, ht, hafter⟩ := of_decide_eq_true hdecide
  refine ⟨s, hs, fun hkeeps => ?_⟩
  have := hkeeps t ht 1 rfl hbefore
  omega

/-- With a cached depth, and without. -/
theorem submissions_pass_on_one_reading :
    (∃ s, (service (roomForOne 5000) atSign defaultJobOptions).run .initial onCachedDepth = some s ∧
      ¬KeepsCeiling (roomForOne 5000) atSign defaultJobOptions s (.added 1 .done)) ∧
    (∃ s, (service (roomForOne 0) atSign defaultJobOptions).run .initial beforeEitherAdd = some s ∧
      ¬KeepsCeiling (roomForOne 0) atSign defaultJobOptions s (.added 1 .done)) := by
  refine ⟨not_keepsCeiling ?_, not_keepsCeiling ?_⟩
  · decide +kernel
  · decide +kernel

end TaskQueue

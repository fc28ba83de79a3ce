import TaskQueue.Lib.Attempts
import TaskQueue.Service.Depth

/-!
# How often the depth is read

A depth reading is memoised when its answer arrives, for a time counted from
when it was asked for.  As long as only one reading is in flight at a time, the
next one comes a lifetime of the cache later or after a failure.  Nothing keeps
submissions that arrive during a reading from starting readings of their own.
-/

namespace TaskQueue

open Ecma Journal Attempts

/-! ## The service with a clock -/

/-- The service, the latest clock reading, and the calls of `getJobCounts` this
process made, latest first. -/
structure Producing where
  service : Service
  clock : Nat
  reads : List Attempt

def Producing.initial : Producing := ⟨.initial, 0, []⟩

structure TimedAction where
  action : ServiceAction
  now : Nat

def DispatchStep.isCounting : DispatchStep → Bool
  | .counting _ => true
  | _ => false

def Service.reading (s : Service) : Bool := s.dispatches.any fun x => x.2.isCounting

section

variable (env : Environment) (ext : External) (options : JobOptions)

/-- The log of readings after an action; a process that starts again has made none. -/
def Service.logRead (s : Service) (now : Nat) (reads : List Attempt) : ServiceAction → List Attempt
  | .receive r =>
      if (r.dispatch env ext.isEmail s.depthCache).isCounting then .started now :: reads else reads
  | .counted _ (some _) => .failed now :: reads
  | .crash => []
  | _ => reads

/-- Actions come in the order of time, and a submission reads the clock as it arrives. -/
def TimedAction.timely (clock : Nat) (a : TimedAction) : Bool :=
  clock ≤ a.now &&
    match a.action with
    | .receive r => r.now == a.now
    | _ => true

def Producing.step (p : Producing) (a : TimedAction) : Option Producing :=
  if a.timely p.clock then
    (p.service.step env ext options a.action).map fun service =>
      { service, clock := a.now, reads := p.service.logRead env ext a.now p.reads a.action }
  else none

def producing : Automaton Producing TimedAction where
  start := .initial
  step := Producing.step env ext options

/-- What an action owes to the cost of depth readings: no interval shorter than the
cache's lifetime and free of failures holds two calls, and a submission that
arrives during a reading makes no call. -/
structure ReadsSparsely (p : Producing) (a : TimedAction) : Prop where
  sparse : ∀ q ∈ p.step env ext options a, Sparse env.queueDepthCacheTtlMs q.reads
  shared : ∀ q ∈ p.step env ext options a, ∀ r, a.action = .receive r →
    p.service.reading = true → q.reads = p.reads

/-- The action is no submission of valid data that arrives during a reading and
finds no cached depth. -/
def NotDuringReading (p : Producing) (a : TimedAction) : Prop :=
  (p.step env ext options a).isSome = true → ∀ r, a.action = .receive r →
    p.service.reading = true → (∃ d, parseJobData ext.isEmail r.jobName r.body = .ok d) →
      cachedDepth p.service.depthCache r.now ≠ none

end

variable {env : Environment} {ext : External} {options : JobOptions}

/-! ## Readings in flight -/

def Service.Counting (s : Service) (d : Nat) (submission : Submission) : Prop :=
  ∃ r, s.dispatches.get d = some (r, .counting submission)

theorem Service.reading_iff {s : Service} :
    s.reading = true ↔ ∃ d submission, s.Counting d submission := by
  unfold Service.reading
  rw [Table.any_eq_true]
  constructor
  · rintro ⟨d, ⟨r, step⟩, hget, hcounting⟩
    cases step with
    | counting submission => exact ⟨d, submission, r, hget⟩
    | rejected error => cases hcounting
    | adding add => cases hcounting
    | resolved job => cases hcounting
  · rintro ⟨d, submission, r, hget⟩
    exact ⟨d, _, hget, rfl⟩

theorem JobRequest.dispatch_eq_counting {isEmail : JsString → Bool}
    {depthCache : Option DepthCacheEntry} {r : JobRequest} {submission : Submission} :
    r.dispatch env isEmail depthCache = .counting submission ↔
      ∃ d, parseJobData isEmail r.jobName r.body = .ok d ∧ cachedDepth depthCache r.now = none ∧
        submission = d.submission r.jobName (some r.correlationId) r.now := by
  unfold JobRequest.dispatch
  rcases dispatchJob_cases env isEmail depthCache r.jobName r.body (some r.correlationId) r.now with
    ⟨issues, hparse, hdispatch⟩ | ⟨d, hparse, hdispatch⟩
  · rw [hdispatch, hparse]
    simp
  · rw [hdispatch, hparse, enqueue_eq_counting]
    simp [ValidJob.submission]

theorem isCounting_iff {step : DispatchStep} :
    step.isCounting = true ↔ ∃ submission, step = .counting submission := by
  cases step <;> simp [DispatchStep.isCounting]

def Service.Numbered (s : Service) : Prop := ∀ d, s.received ≤ d → s.dispatches.get d = none

inductive Service.Reads (env : Environment) (ext : External) (s : Service) :
    ServiceAction → Service → Prop
  /-- A submission starts one. -/
  | started (r : JobRequest) (submission : Submission) (t : Service)
      (dispatch : r.dispatch env ext.isEmail s.depthCache = .counting submission)
      (counting : ∀ d sub, t.Counting d sub ↔
        (d = s.received ∧ sub = submission) ∨ s.Counting d sub)
      (depthCache : t.depthCache = s.depthCache) : Reads env ext s (.receive r) t
  | answered (d depth : Nat) (submission : Submission) (t : Service)
      (dispatch : s.Counting d submission)
      (counting : ∀ i sub, t.Counting i sub ↔ i ≠ d ∧ s.Counting i sub)
      (depthCache : t.depthCache = some ⟨depth, submission.now + env.queueDepthCacheTtlMs⟩) :
      Reads env ext s (.counted d none) t
  | failed (d : Nat) (err : JsError) (submission : Submission) (t : Service)
      (dispatch : s.Counting d submission)
      (counting : ∀ i sub, t.Counting i sub ↔ i ≠ d ∧ s.Counting i sub)
      (depthCache : t.depthCache = s.depthCache) : Reads env ext s (.counted d (some err)) t
  | crashed (t : Service) (counting : ∀ d sub, ¬t.Counting d sub) : Reads env ext s .crash t
  | kept (a : ServiceAction) (t : Service) (counting : ∀ d sub, t.Counting d sub ↔ s.Counting d sub)
      (depthCache : t.depthCache = s.depthCache)
      (log : ∀ now reads, s.logRead env ext now reads a = reads) : Reads env ext s a t

theorem counting_put {s : Service} {dispatches : Table Nat (JobRequest × DispatchStep)} {d : Nat}
    {r : JobRequest} {step : DispatchStep} (h : dispatches = s.dispatches.put d (r, step))
    (hstep : ∀ submission, step ≠ .counting submission) (i : Nat) (sub : Submission) :
    (∃ r', dispatches.get i = some (r', .counting sub)) ↔ i ≠ d ∧ s.Counting i sub := by
  subst h
  constructor
  · rintro ⟨r', hget⟩
    rcases Table.get_put_eq_some.1 hget with ⟨-, heq⟩ | ⟨hne, hold⟩
    · exact absurd (Prod.mk.inj heq).2 (hstep sub)
    · exact ⟨hne, r', hold⟩
  · rintro ⟨hne, r', hold⟩
    exact ⟨r', Table.get_put_eq_some.2 (Or.inr ⟨hne, hold⟩)⟩

theorem withDepth_ne_counting (s submission : Submission) (depth : Nat) :
    s.withDepth env depth ≠ .counting submission := by
  unfold Submission.withDepth
  split <;> simp

theorem resumeAdding_ne_counting (add : TaskAdd) (reply : Except (Option JsString) Unit)
    (submission : Submission) : (resumeAdding add reply).1 ≠ .counting submission := by
  cases reply <;> simp [resumeAdding]

theorem Service.step_reads {s t : Service} (hs : s.Numbered) {a : ServiceAction}
    (h : s.step env ext options a = some t) : s.Reads env ext a t := by
  cases Service.step_cases h with
  | received r =>
      by_cases hcounting : (r.dispatch env ext.isEmail s.depthCache).isCounting = true
      · obtain ⟨submission, hdispatch⟩ := isCounting_iff.1 hcounting
        refine .started r submission _ hdispatch (fun d sub => ⟨?_, ?_⟩) rfl
        · rintro ⟨r', hget⟩
          rcases Table.get_put_eq_some.1 hget with ⟨rfl, heq⟩ | ⟨-, hold⟩
          · rw [hdispatch] at heq
            exact Or.inl ⟨rfl, (DispatchStep.counting.inj (Prod.mk.inj heq).2).symm⟩
          · exact Or.inr ⟨r', hold⟩
        · rintro (⟨rfl, rfl⟩ | ⟨r', hold⟩)
          · exact ⟨r, Table.get_put_eq_some.2 (Or.inl ⟨rfl, by rw [hdispatch]⟩)⟩
          · have hne : d ≠ s.received := by
              rintro rfl
              rw [hs _ (Nat.le_refl _)] at hold
              cases hold
            exact ⟨r', Table.get_put_eq_some.2 (Or.inr ⟨hne, hold⟩)⟩
      · refine .kept _ _ (fun d sub => ?_) rfl fun now reads => ?_
        · refine (counting_put (s := s) rfl (fun sub hdispatch => ?_) d sub).trans ?_
          · exact hcounting (isCounting_iff.2 ⟨sub, hdispatch⟩)
          · refine ⟨fun hold => hold.2, fun hold => ⟨?_, hold⟩⟩
            rintro rfl
            obtain ⟨r', hget⟩ := hold
            rw [hs _ (Nat.le_refl _)] at hget
            cases hget
        · simp only [Service.logRead, if_neg hcounting]
  | counted d r submission hget =>
      exact .answered d _ submission _ ⟨r, hget⟩
        (counting_put rfl fun sub => withDepth_ne_counting submission sub _) rfl
  | uncounted d err r submission hget =>
      exact .failed d err submission _ ⟨r, hget⟩
        (counting_put rfl fun sub => by simp [resumeCounting]) rfl
  | added d reply r add hget =>
      refine .kept _ _ (fun i sub => ?_) rfl fun _ _ => rfl
      refine (counting_put rfl (fun sub => resumeAdding_ne_counting add _ sub) i sub).trans ?_
      refine ⟨fun hold => hold.2, fun hold => ⟨?_, hold⟩⟩
      rintro rfl
      obtain ⟨r', hget'⟩ := hold
      rw [hget] at hget'
      cases hget'
  | failed id trace inp reply e e' err =>
      refine .kept _ _ (fun i sub => ?_) ?_ fun _ _ => rfl
      · rw [Service.Counting, Service.failed_dispatches, Service.Counting]
      · exact (Service.failed_sameIntake _ _ _ _ _).depthCache
  | failedDeferred id trace counted inp reply e e' =>
      refine .kept _ _ (fun i sub => ?_) ?_ fun _ _ => rfl
      · rw [Service.Counting, Service.failed_dispatches, Service.Counting]
      · exact (Service.failed_sameIntake _ _ _ _ _).depthCache
  | crashed =>
      refine .crashed _ fun d sub => ?_
      rintro ⟨r, hget⟩
      cases hget
  | _ => exact .kept _ _ (fun _ _ => Iff.rfl) rfl fun _ _ => rfl

/-! ## The numbers of the dispatches -/

theorem Service.failed_received (job : Job) (err : JsError) (inp : Inputs) (reply : AddReply)
    (s : Service) : (s.failed job err inp reply).received = s.received := by
  unfold Service.failed
  split <;> rfl

theorem Service.Numbered.put {s t : Service} (hs : s.Numbered) {d : Nat}
    {old new : JobRequest × DispatchStep} (hget : s.dispatches.get d = some old)
    (hdispatches : t.dispatches = s.dispatches.put d new) (hreceived : t.received = s.received) :
    t.Numbered := by
  intro i hi
  rw [hreceived] at hi
  have hne : i ≠ d := by
    rintro rfl
    rw [hs i hi] at hget
    cases hget
  rw [hdispatches, Table.get_put_of_ne _ _ hne]
  exact hs i hi

theorem Service.Numbered.step {s t : Service} (hs : s.Numbered) {a : ServiceAction}
    (h : s.step env ext options a = some t) : t.Numbered := by
  cases Service.step_cases h with
  | received r =>
      intro i hi
      simp only [Service.receive] at hi ⊢
      rw [Table.get_put_of_ne _ _ (by omega)]
      exact hs i (by omega)
  | counted d r submission hget => exact hs.put hget rfl rfl
  | uncounted d err r submission hget => exact hs.put hget rfl rfl
  | added d reply r add hget => exact hs.put hget rfl rfl
  | failed id trace inp reply e e' err =>
      intro i hi
      rw [Service.failed_received] at hi
      rw [Service.failed_dispatches]
      exact hs i hi
  | failedDeferred id trace counted inp reply e e' =>
      intro i hi
      rw [Service.failed_received] at hi
      rw [Service.failed_dispatches]
      exact hs i hi
  | crashed => exact fun i _ => Table.get_empty i
  | _ => exact hs

/-! ## One reading at a time -/

/-- At most one reading is in flight, and it is the latest event of the log; once it
is answered, the cached depth is its own. -/
structure Producing.Paced (env : Environment) (p : Producing) : Prop where
  numbered : p.service.Numbered
  alone : ∀ d e sub sub', p.service.Counting d sub → p.service.Counting e sub' → d = e
  flying : ∀ d sub, p.service.Counting d sub → ∃ older, p.reads = .started sub.now :: older
  settled : ∀ time older, p.reads = .started time :: older →
    (∃ d sub, p.service.Counting d sub) ∨
      ∃ depth, p.service.depthCache = some ⟨depth, time + env.queueDepthCacheTtlMs⟩
  past : ∀ e ∈ p.reads, e.time ≤ p.clock
  ordered : Ordered p.reads
  spaced : Justified (Spaced env.queueDepthCacheTtlMs) p.reads

theorem Producing.initial_paced : Producing.initial.Paced env where
  numbered := fun _ _ => rfl
  alone := fun _ _ _ _ ⟨_, hget⟩ => nomatch hget
  flying := fun _ _ ⟨_, hget⟩ => nomatch hget
  settled := fun _ _ h => nomatch h
  past := fun _ h => nomatch h
  ordered := List.Pairwise.nil
  spaced := trivial

theorem Producing.step_eq_some {p q : Producing} {a : TimedAction} :
    p.step env ext options a = some q ↔
      a.timely p.clock = true ∧ ∃ service, p.service.step env ext options a.action = some service ∧
        q = ⟨service, a.now, p.service.logRead env ext a.now p.reads a.action⟩ := by
  unfold Producing.step
  by_cases htimely : a.timely p.clock = true
  · rw [if_pos htimely, Option.map_eq_some_iff]
    simp only [htimely, true_and, eq_comm]
  · simp [htimely]

theorem TimedAction.timely_iff {a : TimedAction} {clock : Nat} :
    a.timely clock = true ↔ clock ≤ a.now ∧ ∀ r, a.action = .receive r → r.now = a.now := by
  unfold TimedAction.timely
  cases h : a.action <;> simp

/-- A call that is made while none is in flight comes a lifetime of the cache after
the last one, or after a failure. -/
theorem Producing.Paced.spaced_start {p : Producing} (hp : p.Paced env)
    (hidle : p.service.reading = false) {now : Nat}
    (hmissed : cachedDepth p.service.depthCache now = none) :
    Spaced env.queueDepthCacheTtlMs (.started now) p.reads := by
  cases hreads : p.reads with
  | nil => trivial
  | cons latest older =>
      cases latest with
      | failed time => trivial
      | started time =>
          rcases hp.settled time older hreads with hflying | ⟨depth, hcache⟩
          · rw [Service.reading_iff.2 hflying] at hidle
            cases hidle
          · -- The cached depth is that of the last call, and has expired.
            by_contra hsoon
            simp only [Spaced] at hsoon
            have hcached : cachedDepth p.service.depthCache now = some depth :=
              cachedDepth_eq_some.2 ⟨_, hcache, by simp only; omega, rfl⟩
            rw [hmissed] at hcached
            cases hcached

theorem Producing.Paced.step {p q : Producing} (hp : p.Paced env) {a : TimedAction}
    (hquiet : NotDuringReading env ext options p a) (h : p.step env ext options a = some q) :
    q.Paced env := by
  have henabled : (p.step env ext options a).isSome = true := by rw [h]; rfl
  obtain ⟨htimely, t, hstep, rfl⟩ := Producing.step_eq_some.1 h
  obtain ⟨hclock, hnow⟩ := TimedAction.timely_iff.1 htimely
  have hpast : ∀ e ∈ p.reads, e.time ≤ a.now := fun e he => Nat.le_trans (hp.past e he) hclock
  have hnumbered := hp.numbered.step hstep
  have hreads := Service.step_reads hp.numbered hstep
  generalize ha : a.action = action at hreads hstep
  cases hreads with
  | started r submission _ dispatch counting depthCache =>
      obtain ⟨d, hvalid, hmissed, hsub⟩ := JobRequest.dispatch_eq_counting.1 dispatch
      have hidle : p.service.reading = false := by
        by_contra hbusy
        exact hquiet henabled r ha (by simpa using hbusy) ⟨d, hvalid⟩ hmissed
      have hnone : ∀ d sub, ¬p.service.Counting d sub := by
        intro d sub hcounting
        rw [Service.reading_iff.2 ⟨d, sub, hcounting⟩] at hidle
        cases hidle
      have hlog : p.service.logRead env ext a.now p.reads (.receive r) =
          .started a.now :: p.reads := by
        simp [Service.logRead, dispatch, DispatchStep.isCounting]
      have hat : submission.now = a.now := by
        rw [hsub, ← hnow r ha]
        rfl
      simp only [hlog]
      refine ⟨hnumbered, ?_, ?_, ?_, ?_, hp.ordered.cons hpast, ?_, hp.spaced⟩
      · intro i j sub sub' hi hj
        rcases (counting i sub).1 hi with ⟨rfl, -⟩ | hold
        · rcases (counting j sub').1 hj with ⟨rfl, -⟩ | hold
          · rfl
          · exact absurd hold (hnone j sub')
        · exact absurd hold (hnone i sub)
      · intro i sub hi
        rcases (counting i sub).1 hi with ⟨-, rfl⟩ | hold
        · exact ⟨p.reads, by rw [hat]⟩
        · exact absurd hold (hnone i sub)
      · intro time older _
        exact Or.inl ⟨_, submission, (counting _ _).2 (Or.inl ⟨rfl, rfl⟩)⟩
      · intro e he
        rcases List.mem_cons.1 he with rfl | he
        · exact Nat.le_refl _
        · exact hpast e he
      · exact hp.spaced_start hidle (hnow r ha ▸ hmissed)
  | answered d depth submission _ dispatch counting depthCache =>
      refine ⟨hnumbered, ?_, ?_, ?_, hpast, hp.ordered, hp.spaced⟩
      · intro i j sub sub' hi hj
        exact hp.alone i j sub sub' ((counting i sub).1 hi).2 ((counting j sub').1 hj).2
      · intro i sub hi
        exact hp.flying i sub ((counting i sub).1 hi).2
      · intro time older hhead
        obtain ⟨older', hhead'⟩ := hp.flying d submission dispatch
        have heq : Attempt.started time :: older = .started submission.now :: older' :=
          hhead.symm.trans hhead'
        have htime : time = submission.now := Attempt.started.inj (List.cons.inj heq).1
        exact Or.inr ⟨depth, by rw [htime]; exact depthCache⟩
  | failed d err submission _ dispatch counting depthCache =>
      have hlast : ∀ i sub, ¬t.Counting i sub := by
        intro i sub hi
        obtain ⟨hne, hold⟩ := (counting i sub).1 hi
        exact hne (hp.alone i d sub submission hold dispatch)
      refine ⟨hnumbered, ?_, ?_, ?_, ?_, hp.ordered.cons hpast, trivial, hp.spaced⟩
      · exact fun i j sub sub' hi _ => absurd hi (hlast i sub)
      · exact fun i sub hi => absurd hi (hlast i sub)
      · exact fun time older hhead => nomatch hhead
      · intro e he
        rcases List.mem_cons.1 he with rfl | he
        · exact Nat.le_refl _
        · exact hpast e he
  | crashed _ counting =>
      refine ⟨hnumbered, ?_, ?_, ?_, ?_, List.Pairwise.nil, trivial⟩
      · exact fun i j sub sub' hi _ => absurd hi (counting i sub)
      · exact fun i sub hi => absurd hi (counting i sub)
      · exact fun time older hhead => nomatch hhead
      · exact fun e he => nomatch he
  | kept _ _ counting depthCache log =>
      simp only [log]
      refine ⟨hnumbered, ?_, ?_, ?_, hpast, hp.ordered, hp.spaced⟩
      · intro i j sub sub' hi hj
        exact hp.alone i j sub sub' ((counting i sub).1 hi) ((counting j sub').1 hj)
      · intro i sub hi
        exact hp.flying i sub ((counting i sub).1 hi)
      · intro time older hhead
        rcases hp.settled time older hhead with ⟨d, sub, hcounting⟩ | ⟨depth, hcache⟩
        · exact Or.inl ⟨d, sub, (counting d sub).2 hcounting⟩
        · exact Or.inr ⟨depth, depthCache.trans hcache⟩

/-! ## The bound -/

theorem Producing.reads_receive {p q : Producing} {a : TimedAction} {r : JobRequest}
    (h : p.step env ext options a = some q) (ha : a.action = .receive r) :
    q.reads = p.reads ↔ ¬((∃ d, parseJobData ext.isEmail r.jobName r.body = .ok d) ∧
      cachedDepth p.service.depthCache r.now = none) := by
  obtain ⟨-, t, -, rfl⟩ := Producing.step_eq_some.1 h
  simp only [ha, Service.logRead]
  by_cases hcounting : (r.dispatch env ext.isEmail p.service.depthCache).isCounting = true
  · obtain ⟨submission, hdispatch⟩ := isCounting_iff.1 hcounting
    obtain ⟨d, hvalid, hmissed, -⟩ := JobRequest.dispatch_eq_counting.1 hdispatch
    rw [if_pos hcounting]
    constructor
    · intro hsame
      exact absurd (congrArg List.length hsame) (by simp)
    · intro hnot
      exact absurd ⟨⟨d, hvalid⟩, hmissed⟩ hnot
  · rw [if_neg hcounting]
    refine ⟨fun _ hneeds => hcounting ?_, fun _ => rfl⟩
    obtain ⟨⟨d, hvalid⟩, hmissed⟩ := hneeds
    exact isCounting_iff.2 ⟨_, JobRequest.dispatch_eq_counting.2 ⟨d, hvalid, hmissed, rfl⟩⟩

/-- Depth readings cost at most one call in a lifetime of the cache, and none for a
submission that arrives during a reading, in exactly the runs where every such
submission finds a cached depth. -/
theorem reads_sparsely_iff (env : Environment) (ext : External) (options : JobOptions)
    (as : List TimedAction) :
    (producing env ext options).Meets (ReadsSparsely env ext options) .initial as ↔
      (producing env ext options).Meets (NotDuringReading env ext options) .initial as := by
  constructor
  · refine Automaton.Meets.mono fun p a hsparsely henabled r ha hreading hvalid hmissed => ?_
    obtain ⟨q, hq⟩ := Option.isSome_iff_exists.1 henabled
    exact (Producing.reads_receive hq ha).1 (hsparsely.shared q hq r ha hreading) ⟨hvalid, hmissed⟩
  · refine Automaton.Meets.mono_of (I := Producing.Paced env)
      (fun p a q _ hp hquiet hq => hp.step hquiet hq) (fun p a _ hp hquiet => ?_) .start
      Producing.initial_paced
    refine ⟨fun q hq => ?_, fun q hq r ha hreading => ?_⟩
    · have hpaced := hp.step hquiet hq
      exact sparse_of_spaced hpaced.ordered hpaced.spaced
    · refine (Producing.reads_receive hq ha).2 fun hneeds => ?_
      have henabled : (p.step env ext options a).isSome = true := by rw [hq]; rfl
      exact hquiet henabled r ha hreading hneeds.1 hneeds.2

def submittedTogether : List TimedAction :=
  [⟨.receive (unavailableRequest (js "k") (js "a")), 0⟩,
    ⟨.receive (unavailableRequest (js "l") (js "b")), 0⟩]

/-- Both submissions call `getJobCounts`, in the same millisecond. -/
theorem submittedTogether_reads_twice :
    (∃ p, (producing .default atSign defaultJobOptions).run .initial submittedTogether = some p ∧
      p.reads = [.started 0, .started 0] ∧
      ¬Sparse Environment.default.queueDepthCacheTtlMs p.reads) ∧
    ¬(producing .default atSign defaultJobOptions).Meets
      (ReadsSparsely .default atSign defaultJobOptions) .initial submittedTogether := by
  have hrun : ((producing .default atSign defaultJobOptions).run .initial submittedTogether).map
      Producing.reads = some [.started 0, .started 0] := by decide +kernel
  have hdense : ¬Sparse Environment.default.queueDepthCacheTtlMs [.started 0, .started 0] := by
    intro hsparse
    exact absurd (hsparse 0 0 (by decide) (by simp)) (by decide)
  obtain ⟨p, hp, hreads⟩ := Option.map_eq_some_iff.1 hrun
  refine ⟨⟨p, hp, hreads, hreads ▸ hdense⟩, fun hmeets => ?_⟩
  obtain ⟨q, hfirst, hrest⟩ := (Automaton.run_cons_eq_some _).1 hp
  obtain ⟨p', hsecond, hdone⟩ := (Automaton.run_cons_eq_some _).1 hrest
  obtain rfl : p' = p := Option.some.inj hdone
  have hsparse := (hmeets.2 q hfirst).1.sparse p' hsecond
  rw [hreads] at hsparse
  exact hdense hsparse

end TaskQueue

import TaskQueue.Jobs.Records
import TaskQueue.Queue.Intake

/-!
# Job ids

A job's id is made of a prefix and the caller's key as it is, and the queue has a
grammar for the ids it is given: an id that contains a colon must have exactly
three parts.  `add` throws for any other before it reaches Redis, and `enqueue`
takes whatever `add` throws for an outage.
-/

namespace TaskQueue

open Ecma Schema

/-! ## The queue's check -/

def colon : UInt16 := 0x3A

/-- `add` takes an id without a colon, or of three parts. -/
def customIdAllowed (jobId : JsString) : Bool :=
  !jobId.contains colon || (split colon jobId).length == 3

def customIdMessage : JsString := js "Custom Id cannot contain :"

structure RedisReplies where
  counts : Except (Option JsString) JobCounts
  add : Except (Option JsString) Unit

def taskQueueAdd (add : TaskAdd) (reply : Except (Option JsString) Unit) :
    Except (Option JsString) Unit :=
  if customIdAllowed add.jobId then reply else .error (some customIdMessage)

section

variable (env : Environment)

def settleAdding (redis : RedisReplies) : DispatchStep → DispatchStep
  | .adding add => (resumeAdding add (taskQueueAdd add redis.add)).1
  | step => step

def settleDispatch (depthCache : Option DepthCacheEntry) (redis : RedisReplies) :
    DispatchStep → DispatchStep
  | .counting s => settleAdding redis (resumeCounting env depthCache s redis.counts).1
  | step => settleAdding redis step

/-- The depth a dispatch decides on: the cached one, or the one it is answered. -/
def depthReading (depthCache : Option DepthCacheEntry) (now : Nat) (redis : RedisReplies) :
    Option Nat :=
  match cachedDepth depthCache now, redis.counts with
  | some depth, _ => some depth
  | none, .ok counts => some (counts.waiting + counts.active + counts.delayed)
  | none, .error _ => none

end

/-- The key of a payload that the job type's schema accepts. -/
def acceptedKey (isEmail : JsString → Bool) (jobName : JobName) (payload : Json) :
    Option JsString :=
  (parseJobData isEmail jobName payload).toOption.map ValidJob.idempotencyKey

/-! ## Keys and ids -/

/-- The keys whose ids the queue takes. -/
def KeyFits (key : JsString) : Prop := key.count colon = 0 ∨ key.count colon = 2

instance (key : JsString) : Decidable (KeyFits key) :=
  inferInstanceAs (Decidable (key.count colon = 0 ∨ key.count colon = 2))

theorem count_colon_jobIdOf (jobName : JobName) (key : JsString) :
    (jobIdOf jobName key).count colon = key.count colon := by
  have hprefix : ∀ p ∈ [js "email_", js "webhook_"], p.count colon = 0 := by decide
  cases jobName with
  | emailNotification =>
      have h := hprefix (js "email_") (by simp)
      rw [jobIdOf, List.count_append]
      omega
  | webhookDelivery =>
      have h := hprefix (js "webhook_") (by simp)
      rw [jobIdOf, List.count_append]
      omega

theorem customIdAllowed_iff (jobName : JobName) (key : JsString) :
    customIdAllowed (jobIdOf jobName key) = true ↔ KeyFits key := by
  have hcount := count_colon_jobIdOf jobName key
  have hlength := length_split colon (jobIdOf jobName key)
  have hcontains : (jobIdOf jobName key).contains colon = true ↔
      0 < (jobIdOf jobName key).count colon := by
    rw [List.contains_iff_mem, List.count_pos_iff]
  unfold customIdAllowed KeyFits
  cases hc : (jobIdOf jobName key).contains colon with
  | true =>
      have hpos := hcontains.1 hc
      simp only [Bool.not_true, Bool.false_or, beq_iff_eq]
      omega
  | false =>
      have hzero : ¬0 < (jobIdOf jobName key).count colon := by
        rw [← hcontains, hc]
        decide
      simp only [Bool.not_false, Bool.true_or, true_iff]
      omega

theorem dispatchJob_of_accepted (env : Environment) {isEmail : JsString → Bool}
    {jobName : JobName} {payload : Json} {key : JsString}
    (h : acceptedKey isEmail jobName payload = some key) (correlationId : Option JsString)
    (now : Nat) :
    ∃ s : Submission, s.jobId = jobIdOf jobName key ∧ s.now = now ∧ ∀ depthCache,
      dispatchJob env isEmail depthCache jobName payload correlationId now =
        enqueue env depthCache s := by
  obtain ⟨d, hd, rfl⟩ := Option.map_eq_some_iff.1 h
  cases hparse : parseJobData isEmail jobName payload with
  | error issues =>
      rw [hparse] at hd
      cases hd
  | ok d' =>
      rw [hparse] at hd
      obtain rfl := Option.some.inj hd
      exact ⟨d'.submission jobName correlationId now, rfl, rfl, fun depthCache =>
        dispatchJob_of_valid env hparse depthCache correlationId now⟩

/-! ## What a dispatch of an accepted payload comes to -/

def RedisReplies.Answer (redis : RedisReplies) : Prop :=
  (∃ counts, redis.counts = .ok counts) ∧ redis.add = .ok ()

/-- A dispatch is refused for capacity or outage only: with the depth below its
ceiling and Redis answering it resolves, a `503` means that Redis failed, and a `429`
that the depth was at its ceiling. -/
structure RefusedForCause (env : Environment) (depthCache : Option DepthCacheEntry) (now : Nat)
    (redis : RedisReplies) (out : DispatchStep) : Prop where
  resolves : redis.Answer → (∀ depth ∈ depthReading depthCache now redis,
    depth < env.maxQueueDepth) → ∃ job, out = .resolved job
  unavailable : ∀ cause, out = .rejected (.queueUnavailable cause) → ¬redis.Answer
  exceeded : ∀ depth limit, out = .rejected (.queueDepthExceeded depth limit) →
    ∃ reading ∈ depthReading depthCache now redis, env.maxQueueDepth ≤ reading

variable {env : Environment}

theorem settleDispatch_cases (env : Environment) (depthCache : Option DepthCacheEntry)
    (redis : RedisReplies) (s : Submission) :
    (∃ cause, redis.counts = .error cause ∧
      settleDispatch env depthCache redis (enqueue env depthCache s) =
        .rejected (.queueUnavailable cause)) ∨
    (∃ depth, depthReading depthCache s.now redis = some depth ∧ env.maxQueueDepth ≤ depth ∧
      settleDispatch env depthCache redis (enqueue env depthCache s) =
        .rejected (.queueDepthExceeded depth env.maxQueueDepth)) ∨
    (∃ depth, depthReading depthCache s.now redis = some depth ∧ depth < env.maxQueueDepth ∧
      settleDispatch env depthCache redis (enqueue env depthCache s) =
        (resumeAdding s.toAdd (taskQueueAdd s.toAdd redis.add)).1) := by
  have hdepth : ∀ depth, (env.maxQueueDepth ≤ depth ∧
        s.withDepth env depth = .rejected (.queueDepthExceeded depth env.maxQueueDepth)) ∨
      (depth < env.maxQueueDepth ∧ s.withDepth env depth = .adding s.toAdd) := by
    intro depth
    unfold Submission.withDepth
    by_cases h : env.maxQueueDepth ≤ depth
    · exact Or.inl ⟨h, if_pos h⟩
    · exact Or.inr ⟨by omega, if_neg h⟩
  unfold enqueue depthReading
  cases hcached : cachedDepth depthCache s.now with
  | some depth =>
      rcases hdepth depth with ⟨hfull, hstep⟩ | ⟨hroom, hstep⟩
      · refine Or.inr (Or.inl ⟨depth, rfl, hfull, ?_⟩)
        simp only [hstep]
        rfl
      · refine Or.inr (Or.inr ⟨depth, rfl, hroom, ?_⟩)
        simp only [hstep]
        rfl
  | none =>
      cases hcounts : redis.counts with
      | error cause =>
          refine Or.inl ⟨cause, rfl, ?_⟩
          simp only [settleDispatch, hcounts]
          rfl
      | ok counts =>
          rcases hdepth (counts.waiting + counts.active + counts.delayed) with
            ⟨hfull, hstep⟩ | ⟨hroom, hstep⟩
          · refine Or.inr (Or.inl ⟨_, rfl, hfull, ?_⟩)
            simp only [settleDispatch, hcounts, resumeCounting, hstep]
            rfl
          · refine Or.inr (Or.inr ⟨_, rfl, hroom, ?_⟩)
            simp only [settleDispatch, hcounts, resumeCounting, hstep]
            rfl

/-- With Redis answering and room for it, a submission resolves exactly when the
queue takes its id. -/
theorem settleDispatch_resolves_iff {depthCache : Option DepthCacheEntry} {redis : RedisReplies}
    {s : Submission} (hanswer : redis.Answer)
    (hroom : ∀ depth ∈ depthReading depthCache s.now redis, depth < env.maxQueueDepth) :
    (∃ job, settleDispatch env depthCache redis (enqueue env depthCache s) = .resolved job) ↔
      customIdAllowed s.jobId = true := by
  obtain ⟨⟨counts, hcounts⟩, hadd⟩ := hanswer
  rcases settleDispatch_cases env depthCache redis s with ⟨cause, hcause, -⟩ |
    ⟨depth, hdepth, hfull, -⟩ | ⟨depth, -, -, hout⟩
  · rw [hcounts] at hcause
    cases hcause
  · have := hroom depth hdepth
    omega
  · rw [hout, hadd, taskQueueAdd]
    cases hid : customIdAllowed s.jobId with
    | true =>
        refine iff_of_true ⟨s.toAdd, ?_⟩ rfl
        have hid' : customIdAllowed s.toAdd.jobId = true := hid
        rw [if_pos hid']
        rfl
    | false =>
        refine iff_of_false ?_ (by decide)
        have hid' : ¬customIdAllowed s.toAdd.jobId = true := by
          rw [show s.toAdd.jobId = s.jobId from rfl, hid]
          decide
        rw [if_neg hid']
        rintro ⟨job, hjob⟩
        cases hjob

theorem refusedForCause_of_allowed {depthCache : Option DepthCacheEntry} {redis : RedisReplies}
    {s : Submission} (hid : customIdAllowed s.jobId = true) :
    RefusedForCause env depthCache s.now redis
      (settleDispatch env depthCache redis (enqueue env depthCache s)) where
  resolves := fun hanswer hroom => (settleDispatch_resolves_iff hanswer hroom).2 hid
  unavailable := by
    rintro cause hout ⟨⟨counts, hcounts⟩, hadd⟩
    rcases settleDispatch_cases env depthCache redis s with ⟨_, hcause, -⟩ | ⟨_, -, -, hfull⟩ |
      ⟨_, -, -, hlast⟩
    · rw [hcounts] at hcause
      cases hcause
    · rw [hfull] at hout
      cases hout
    · have hid' : customIdAllowed s.toAdd.jobId = true := hid
      rw [hlast, hadd, taskQueueAdd, if_pos hid'] at hout
      cases hout
  exceeded := by
    intro depth limit hout
    rcases settleDispatch_cases env depthCache redis s with ⟨_, -, hdown⟩ |
      ⟨reading, hreading, hfull, -⟩ | ⟨_, -, -, hlast⟩
    · rw [hdown] at hout
      cases hout
    · exact ⟨reading, hreading, hfull⟩
    · rw [hlast] at hout
      cases hadd : taskQueueAdd s.toAdd redis.add with
      | ok _ =>
          rw [hadd] at hout
          cases hout
      | error cause =>
          rw [hadd] at hout
          cases hout

def quietRedis : RedisReplies := ⟨.ok ⟨0, 0, 0⟩, .ok ()⟩

/-- For every accepted payload: with Redis answering and the depth below the
ceiling a dispatch resolves exactly when its key has no colon or two of them, and
in all states it is refused for capacity or outage only exactly when that is so. -/
theorem refusedForCause_iff (env : Environment) {isEmail : JsString → Bool} {jobName : JobName}
    {payload : Json} {key : JsString} (h : acceptedKey isEmail jobName payload = some key) :
    (∀ depthCache correlationId now (redis : RedisReplies), redis.Answer →
      (∀ depth ∈ depthReading depthCache now redis, depth < env.maxQueueDepth) →
        ((∃ job, settleDispatch env depthCache redis
            (dispatchJob env isEmail depthCache jobName payload correlationId now) =
              .resolved job) ↔ KeyFits key)) ∧
    ((∀ depthCache correlationId now redis,
      RefusedForCause env depthCache now redis (settleDispatch env depthCache redis
        (dispatchJob env isEmail depthCache jobName payload correlationId now))) ↔
      KeyFits key) := by
  have hresolves : ∀ depthCache correlationId now (redis : RedisReplies), redis.Answer →
      (∀ depth ∈ depthReading depthCache now redis, depth < env.maxQueueDepth) →
        ((∃ job, settleDispatch env depthCache redis
            (dispatchJob env isEmail depthCache jobName payload correlationId now) =
              .resolved job) ↔ KeyFits key) := by
    intro depthCache correlationId now redis hanswer hroom
    obtain ⟨s, hid, rfl, hs⟩ := dispatchJob_of_accepted env h correlationId now
    rw [hs depthCache, settleDispatch_resolves_iff hanswer hroom, hid]
    exact customIdAllowed_iff jobName key
  refine ⟨hresolves, ?_⟩
  constructor
  · intro hall
    have hanswer : quietRedis.Answer := ⟨⟨_, rfl⟩, rfl⟩
    have hroom : ∀ depth ∈ depthReading none 0 quietRedis, depth < env.maxQueueDepth := by
      intro depth hdepth
      obtain rfl := Option.some.inj hdepth
      exact env.maxQueueDepth_pos
    exact (hresolves none none 0 quietRedis hanswer hroom).1
      ((hall none none 0 quietRedis).resolves hanswer hroom)
  · intro hfits depthCache correlationId now redis
    obtain ⟨s, hid, rfl, hs⟩ := dispatchJob_of_accepted env h correlationId now
    have hallowed : customIdAllowed s.jobId = true := by
      rw [hid]
      exact (customIdAllowed_iff jobName key).2 hfits
    rw [hs depthCache]
    exact refusedForCause_of_allowed hallowed

def emailBody (key : JsString) : Json :=
  .object [(js "to", .string (js "a@b.co")), (js "subject", .string (js "s")),
    (js "body", .string (js "b")), (js "idempotencyKey", .string key)]

theorem refusedForCause_iff_threeParts :
    acceptedKey (fun s => s.contains 0x40) .emailNotification (emailBody (js "a:b:c")) =
        some (js "a:b:c") ∧
      ∃ job, settleDispatch .default none quietRedis
        (dispatchJob .default (fun s => s.contains 0x40) none .emailNotification
          (emailBody (js "a:b:c")) none 0) = .resolved job := by
  have haccepted : acceptedKey (fun s => s.contains 0x40) .emailNotification
      (emailBody (js "a:b:c")) = some (js "a:b:c") := by decide
  have hroom : ∀ depth ∈ depthReading none 0 quietRedis,
      depth < Environment.default.maxQueueDepth := by
    intro depth hdepth
    obtain rfl := Option.some.inj hdepth
    decide
  exact ⟨haccepted, ((refusedForCause_iff .default haccepted).1 none none 0 quietRedis
    ⟨⟨_, rfl⟩, rfl⟩ hroom).2 (by decide)⟩

/-- A key such as `order:123` is accepted by the schema, and answered with an
outage by a Redis that answers. -/
theorem colon_refused_as_outage :
    acceptedKey (fun s => s.contains 0x40) .emailNotification (emailBody (js "order:123")) =
        some (js "order:123") ∧
      quietRedis.Answer ∧ depthReading none 0 quietRedis = some 0 ∧
      settleDispatch .default none quietRedis
        (dispatchJob .default (fun s => s.contains 0x40) none .emailNotification
          (emailBody (js "order:123")) none 0) =
        .rejected (.queueUnavailable (some customIdMessage)) := by
  refine ⟨by decide, ⟨⟨_, rfl⟩, rfl⟩, rfl, ?_⟩
  rfl

end TaskQueue

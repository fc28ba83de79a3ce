import TaskQueue.Queue.JobId
import TaskQueue.Queue.TaskQueue
import TaskQueue.Worker.TaskWorker

/-!
# The correlation id of a job

A submission is validated, stamped with the id of its request, stored as JSON,
and validated again by its processor.  The two schemas agree on what is stored,
and one id runs through all of it: the response header, the record, the scopes of
the callback and of the `failed` handler, and the entry in the dead letter queue.
-/

namespace TaskQueue

open Ecma Schema JobQueue

/-- The arguments of the `taskQueue.add` a request's dispatch gets to: on a cached
depth, or after it was counted. -/
inductive JobRequest.GetsTo (env : Environment) (isEmail : JsString → Bool) (r : JobRequest)
    (add : TaskAdd) : Prop
  | cached (depthCache : Option DepthCacheEntry)
      (dispatch : r.dispatch env isEmail depthCache = .adding add)
  | counted (depthCache later : Option DepthCacheEntry) (s : Submission)
      (reply : Except (Option JsString) JobCounts)
      (dispatch : r.dispatch env isEmail depthCache = .counting s)
      (resume : (resumeCounting env later s reply).1 = .adding add)

/-- Every turn that is taken for a job runs under an id. -/
structure Job.RunsUnder (job : Job) (id : JsString) : Prop where
  callback : jobScope job = .string id
  failed : failedScope (some job) = .string id
  deadLetter : ∀ err failedAt addedAt,
    (sendToDLQ job err failedAt addedAt).payload.data.get? (js "correlationId") =
      some (.string id)

variable {env : Environment} {isEmail : JsString → Bool}

/-! ## What is added -/

theorem withDepth_eq_adding {s : Submission} {depth : Nat} {add : TaskAdd}
    (h : s.withDepth env depth = .adding add) : add = s.toAdd := by
  unfold Submission.withDepth at h
  split at h
  · cases h
  · exact (DispatchStep.adding.inj h).symm

theorem enqueue_eq_adding {depthCache : Option DepthCacheEntry} {s : Submission} {add : TaskAdd}
    (h : enqueue env depthCache s = .adding add) : add = s.toAdd := by
  unfold enqueue at h
  split at h
  · exact withDepth_eq_adding h
  · cases h

theorem resumeCounting_eq_adding {later : Option DepthCacheEntry} {s : Submission}
    {reply : Except (Option JsString) JobCounts} {add : TaskAdd}
    (h : (resumeCounting env later s reply).1 = .adding add) : add = s.toAdd := by
  cases reply with
  | ok counts => exact withDepth_eq_adding h
  | error cause => cases h

/-- Whichever way a dispatch of valid data gets there, it adds the stamped data. -/
theorem JobRequest.getsTo_iff {r : JobRequest} {d : ValidJob}
    (h : parseJobData isEmail r.jobName r.body = .ok d) (add : TaskAdd) :
    r.GetsTo env isEmail add ↔
      add = (d.submission r.jobName (some r.correlationId) r.now).toAdd := by
  have hdispatch : ∀ depthCache, r.dispatch env isEmail depthCache =
      enqueue env depthCache (d.submission r.jobName (some r.correlationId) r.now) :=
    fun depthCache => dispatchJob_of_valid env h depthCache _ _
  constructor
  · intro hgets
    cases hgets with
    | cached depthCache dispatch =>
        rw [hdispatch] at dispatch
        exact enqueue_eq_adding dispatch
    | counted depthCache later s reply dispatch resume =>
        rw [hdispatch] at dispatch
        obtain ⟨-, rfl⟩ := enqueue_eq_counting.1 dispatch
        exact resumeCounting_eq_adding resume
  · rintro rfl
    refine .counted none none (d.submission r.jobName (some r.correlationId) r.now)
      (.ok ⟨0, 0, 0⟩) ?_ ?_
    · rw [hdispatch]
      rfl
    · have hroom : ¬env.maxQueueDepth ≤ 0 + 0 + 0 := by
        have := env.maxQueueDepth_pos
        omega
      exact if_neg hroom

theorem get_correlationId_stamped (props : List (JsString × Json)) (id : JsString) :
    (stampedRecord props id).get? (js "correlationId") = some (.string id) := by
  unfold stampedRecord Json.get?
  simp only
  rw [List.reverse_append, List.reverse_singleton, List.singleton_append, List.lookup_cons_self]

theorem Job.runsUnder_of_data {job : Job} {props : List (JsString × Json)} {id : JsString}
    (h : job.data = stampedRecord props id) : job.RunsUnder id := by
  have hget := get_correlationId_stamped props id
  rw [← h] at hget
  have hscope : jobScope job = .string id := by
    unfold jobScope
    rw [hget]
  exact ⟨hscope, hscope, fun _ _ _ => hget⟩

/-! ## From the request to the dead letter queue -/

/-- The id of a request is normal, and is the one its response tells.  What its
dispatch adds for an accepted body comes back from its JSON text through the record
schema as it was validated, and when its id is free, the job is run and routed
under that id at every attempt.  A body with any other key, a `correlationId` of its
own among them, is refused before the queue is asked anything. -/
theorem submission_runs_under_its_id (env : Environment) (isEmail : JsString → Bool)
    (options : JobOptions) (r : JobRequest) :
    NormalId r.correlationId ∧
    r.correlationHeader = (js "x-correlation-id", r.correlationId) ∧
    (∀ d, parseJobData isEmail r.jobName r.body = .ok d →
      ∃ add stored, (∀ other, r.GetsTo env isEmail other ↔ other = add) ∧
        Json.parse add.data.stringify = some stored ∧
        parseJobRecord isEmail r.jobName stored = .ok d ∧
        stored.get? (js "correlationId") = some (.string r.correlationId) ∧
        getProcessorForJob add.name = .ok r.jobName ∧
        ∀ tasks : Tasks, tasks.get add.jobId = none →
          ∃ e, (addTask options { add with data := stored } .done tasks).get add.jobId = some e ∧
            ∀ e' : TaskEntry, e'.data = e.data →
              (jobOf add.jobId e').data = stored ∧
                (jobOf add.jobId e').RunsUnder r.correlationId) ∧
    (∀ props, r.body = .object props → (∃ p ∈ props, p.1 ∉ inputKeys r.jobName) →
      ∀ depthCache, ∃ issues, r.dispatch env isEmail depthCache = .rejected (.invalid issues)) ∧
    js "correlationId" ∉ inputKeys r.jobName ∧
    (∀ raw id, normaliseCorrelationId raw = some id →
      normaliseCorrelationId (some id) = some id) := by
  have hnormal : NormalId r.correlationId := normalId_correlationMiddleware _ _
  refine ⟨hnormal, rfl, fun d hd => ?_, fun props hprops hkey depthCache => ?_, ?_,
    fun raw id hid => normaliseCorrelationId_of_normalId (normalId_of_normalise hid)⟩
  · have hpos : 1 ≤ r.correlationId.length := List.length_pos_of_ne_nil hnormal.ne_nil
    have hdata : (d.submission r.jobName (some r.correlationId) r.now).toAdd.data =
        stampedRecord d.toProps r.correlationId := stamp_of_ne_nil d.toProps hnormal.ne_nil
    obtain ⟨stored, hparse, hrecord⟩ := parseJobRecord_stamped hd hpos hnormal.length_le
    -- The text is read back as the very record that was stored.
    have hstored : stored = stampedRecord d.toProps r.correlationId :=
      Option.some.inj (hparse.symm.trans (Json.parse_stringify _))
    refine ⟨_, stored, r.getsTo_iff hd, ?_, hrecord, ?_, ?_, fun tasks hfree => ?_⟩
    · rw [hdata]
      exact hparse
    · rw [hstored]
      exact get_correlationId_stamped _ _
    · exact getProcessorForJob_eq_ok.2 rfl
    · refine ⟨.new options.attempts ⟨r.jobName.text, stored⟩, ?_, fun e' he' => ?_⟩
      · have hwritten : addTask options
            { (d.submission r.jobName (some r.correlationId) r.now).toAdd with data := stored }
              .done tasks =
            tasks.add options.attempts
              (d.submission r.jobName (some r.correlationId) r.now).toAdd.jobId
                ⟨r.jobName.text, stored⟩ := if_pos rfl
        rw [hwritten, Queue.add_of_none hfree, Table.get_put_self]
      · have hjob : ∀ id, (jobOf id e').data = stored := by
          intro id
          exact congrArg TaskData.data he'
        exact ⟨hjob _, Job.runsUnder_of_data ((hjob _).trans hstored)⟩
  · obtain ⟨issues, hissues⟩ := parseJobData_of_undeclared isEmail r.jobName hkey
    refine ⟨issues, ?_⟩
    unfold JobRequest.dispatch
    rw [hprops]
    exact dispatchJob_of_invalid env hissues _ _ _
  · cases r.jobName <;> decide

def tracedRequest : JobRequest where
  jobName := .emailNotification
  body := emailBody (js "order-1")
  header := some (js " trace 7 ")
  randomUUID := ⟨js "00000000-0000-4000-8000-000000000000", rfl, rfl⟩
  now := 0

theorem submission_runs_under_its_id_traced :
    tracedRequest.correlationHeader = (js "x-correlation-id", js "trace7") ∧
      ∃ add stored, tracedRequest.GetsTo .default (fun s => s.contains 0x40) add ∧
        Json.parse add.data.stringify = some stored ∧
        stored.get? (js "correlationId") = some (.string (js "trace7")) := by
  have hid : tracedRequest.correlationId = js "trace7" := by decide
  have hvalid : parseJobData (fun s => s.contains 0x40) tracedRequest.jobName tracedRequest.body =
      .ok (.email ⟨js "a@b.co", js "s", js "b", js "order-1"⟩) := by rfl
  obtain ⟨-, hheader, hadds, -⟩ := submission_runs_under_its_id .default
    (fun s => s.contains 0x40) defaultJobOptions tracedRequest
  obtain ⟨add, stored, hgets, hparse, -, hstored, -⟩ := hadds _ hvalid
  rw [hid] at hheader hstored
  exact ⟨hheader, add, stored, (hgets add).2 rfl, hparse, hstored⟩

end TaskQueue

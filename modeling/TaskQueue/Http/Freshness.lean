import TaskQueue.Dashboard.Renewal
import TaskQueue.Http.Provenance
import TaskQueue.Http.Responses
import TaskQueue.Service.Acceptance

/-!
# Clients see their own submissions

A dispatch that is answered 202, a job that is completed and an attempt that failed each
invalidate the dashboard before anyone can hear of it.  So whatever the dashboard serves
after that is marked as stale, or was asked for and answered by Bull Board since.
-/

namespace TaskQueue

open Ecma
open Dashboard (Mount Board BoardEvent Produced Answer dashboardChain)

variable {β : Type} {env : Environment} {ext : External} {options : JobOptions}
  {config : AppConfig} {packages : Packages} {queueNames : List JsString}

/-! ## Calls of the worker's handlers -/

theorem World.invalidations_noted {w t : World} (h : w.Noted t) :
    w.invalidations ≤ t.invalidations := by
  cases h with
  | unchanged => exact Nat.le_refl _
  | invalidated metrics =>
      unfold World.invalidations
      rw [List.countP_cons]
      exact Nat.le_add_right _ _

theorem World.invalidations_completed (job : Job) (w : World) :
    w.invalidations < (w.handle (completedHandler job)).invalidations := by
  change w.invalidations < List.countP WorkEvent.invalidates
    (.did none .invalidatedSnapshot :: w.journal)
  rw [List.countP_cons_of_pos rfl]
  exact Nat.lt_succ_self _

/-- Every call of the `failed` handler invalidates. -/
theorem World.invalidations_handled {job : Option Job} {err : JsError} {inp : Inputs} {w t : World}
    (h : w.Handled job err inp t) : w.invalidations < t.invalidations := by
  cases h <;> simp [World.invalidations, List.countP_cons, WorkEvent.invalidates]

theorem Service.invalidations_failed (job : Job) (err : JsError) (inp : Inputs) (reply : AddReply)
    (s : Service) :
    s.world.invalidations < (s.failed job err inp reply).world.invalidations := by
  have hhandled := World.invalidations_handled (World.failed_cases (some job) err inp s.world)
  unfold Service.failed
  split
  · exact hhandled
  · exact Nat.lt_of_lt_of_le hhandled
      (World.invalidations_noted (World.deadLettered_noted reply.result _))

/-! ## When a dispatch is answered -/

theorem App.settled_accepted {s : App env queueNames β} {d : Nat} {x : Response β}
    (h : s.settled d = some x) (hstatus : x.statusCode = 202) :
    ∃ r job, s.process.service.dispatches.get d = some (r, .resolved job) := by
  obtain ⟨⟨r, step⟩, hget, hsome⟩ := Option.bind_eq_some_iff.1 h
  obtain ⟨reply, hreply, rfl⟩ := Option.map_eq_some_iff.1 hsome
  cases step with
  | resolved job => exact ⟨r, job, hget⟩
  | rejected error =>
      have hrefused : reply.statusCode = error.statusCode :=
        congrArg IntakeReply.statusCode (Option.some.inj hreply).symm
      have hstatus' : reply.statusCode = 202 := hstatus
      rw [hrefused] at hstatus'
      cases error <;> cases hstatus'
  | counting submission => cases hreply
  | adding add => cases hreply

/-- What a client or the queue can tell that the dashboard has to show. -/
inductive App.Shows (s t : App env queueNames β) : AppAction β → Prop
  /-- A dispatch is answered 202. -/
  | accepted (a : AppAction β) (d : Nat) (x : Response β) (before : s.settled d = none)
      (after : t.settled d = some x) (status : x.statusCode = 202) : Shows s t a
  | completed (id : JsString) : Shows s t (.react (.work (.complete id)))
  | failed (id : JsString) (trace : List JsString) (inp : Inputs) (reply : AddReply) :
      Shows s t (.react (.work (.fail id trace inp reply)))

theorem App.Shows.invalidates {s t : App config.env queueNames β} {a : AppAction β}
    (hshows : s.Shows t a) (h : s.step ext options config packages a = some t) :
    ∃ action, a = .react action ∧ 0 < invalidationsIn s.process t.process action := by
  cases hshows with
  | accepted a d x before after status =>
      obtain ⟨r, job, hget⟩ := App.settled_accepted after status
      -- It had no response before, so this is the step that gives it one.
      have hopen : s.process.service.dispatches.get d ≠ some (r, .resolved job) := by
        intro hold
        unfold App.settled at before
        rw [hold] at before
        cases before
      rcases App.service_step h with hsame | ⟨action, hcause, hservice⟩
      · rw [hsame] at hget
        exact absurd hget hopen
      · rcases Service.resolved_of_step hservice hget with hold | ⟨rfl, -⟩
        · exact absurd hold hopen
        · rcases hcause with rfl | ⟨request, hrequest⟩
          · exact ⟨_, rfl, Nat.lt_of_lt_of_le Nat.zero_lt_one (Nat.le_add_left _ _)⟩
          · cases hrequest
  | completed id =>
      refine ⟨_, rfl, ?_⟩
      obtain ⟨-, process, hstep, rfl⟩ := App.react_eq_some h
      rcases Process.service_step hstep with ⟨-, hphase⟩ | ⟨action, haction, hservice⟩
      · exact absurd rfl (hphase _)
      · cases haction
        have hmore : s.process.service.world.invalidations <
            process.service.world.invalidations := by
          generalize process.service = u at hservice
          cases Service.step_cases hservice with
          | completed id e e' => exact World.invalidations_completed (jobOf id e') _
        exact Nat.lt_of_lt_of_le (Nat.sub_pos_of_lt hmore) (Nat.le_add_right _ _)
  | failed id trace inp reply =>
      refine ⟨_, rfl, ?_⟩
      obtain ⟨-, process, hstep, rfl⟩ := App.react_eq_some h
      rcases Process.service_step hstep with ⟨-, hphase⟩ | ⟨action, haction, hservice⟩
      · exact absurd rfl (hphase _)
      · cases haction
        have hmore : s.process.service.world.invalidations <
            process.service.world.invalidations := by
          generalize process.service = u at hservice
          cases Service.step_cases hservice with
          | failed id trace inp reply e e' err =>
              exact Service.invalidations_failed (jobOf id e') err inp reply
                { s.process.service with tasks := s.process.service.tasks.put id e' }
        exact Nat.lt_of_lt_of_le (Nat.sub_pos_of_lt hmore) (Nat.le_add_right _ _)

/-! ## The dashboard since then -/

theorem invalidateMount_board {dashboardLimiter : Dashboard.Limiter} (n : Nat)
    (m : Mount dashboardLimiter queueNames β) :
    (invalidateMount n m).board.inFlight = m.board.inFlight ∧
      (invalidateMount n m).board.cache.snapshotCache = m.board.cache.snapshotCache ∧
      (invalidateMount n m).board.cache.currentGeneration =
        m.board.cache.currentGeneration + n := by
  induction n generalizing m with
  | zero => exact ⟨rfl, rfl, rfl⟩
  | succ n ih =>
      obtain ⟨hflying, hstored, hgeneration⟩ := ih { m with board := m.board.invalidate }
      refine ⟨hflying, hstored, hgeneration.trans ?_⟩
      change m.board.cache.currentGeneration + 1 + n = m.board.cache.currentGeneration + (n + 1)
      omega

/-- The board of the application reaches what the board on its own can reach. -/
theorem App.board_reachable {service : Service} {s : App config.env queueNames β}
    (hs : (app ext options config packages queueNames β service).Reachable s) :
    (Dashboard.board config.env queueNames β).Reachable s.mount.board :=
  (Dashboard.boardView config.env packages.router _ queueNames β).reachable
    ((mountView queueNames β ext options config packages service).reachable hs)

theorem App.board_run {service : Service} {s t : App config.env queueNames β}
    {as : List (AppAction β)}
    (h : (app ext options config packages queueNames β service).run s as = some t) :
    ∃ bs, (Dashboard.board config.env queueNames β).run s.mount.board bs = some t.mount.board := by
  obtain ⟨ms, hms⟩ := (mountView queueNames β ext options config packages service).run h
  exact (Dashboard.boardView config.env packages.router _ queueNames β).run hms

theorem App.Handled.snapshot {r : HttpRequest} {now : Nat} {readings : Readings}
    {s t : App config.env queueNames β} {x : Response β} {body : β}
    (h : App.Handled ext options config packages r now readings s t (some x))
    (hcontent : x.content = .board (.snapshot body)) :
    (js "X-Dashboard-Snapshot", js "STALE") ∈ x.headers ∨
      ∃ query, (Dashboard.serveSnapshot config.env queueNames query now
        s.mount.board.cache).1 = .hit body := by
  rcases h.content with hplain | ⟨_, hreceived, -⟩ | ⟨path, headers, hboard⟩
  · rw [hcontent] at hplain
    cases hplain
  · rw [hcontent] at hreceived
    cases hreceived
  · rcases boardResponse_cases hboard with ⟨refusal, hrefused⟩ |
      ⟨req, answer, payload, hout, hheaders, hreply, hpayload⟩
    · rw [hcontent] at hrefused
      cases hrefused
    · have hsnapshot : payload = .snapshot body := Content.board.inj (hpayload.symm.trans hcontent)
      rw [hsnapshot] at hreply
      -- The answer is the one the cache gives to the query.
      have hserved : answer = (Dashboard.serveSnapshot config.env queueNames
          (r.toBoard config packages path).query now s.mount.board.cache).1 := by
        rcases Dashboard.dashboardChain_cases config.env queueNames (boardLimiter config.env)
            (r.toBoard config packages path) now s.mount.limits s.mount.board.cache with
          ⟨-, ⟨refusal, hrefused⟩, -⟩ | ⟨-, -, hpassed, -⟩ | ⟨-, -, hpolled, -⟩
        · rw [hout] at hrefused
          cases hrefused
        · rw [hout] at hpassed
          cases hpassed
        · rw [hout] at hpolled
          cases hpolled
          rfl
      cases answer with
      | hit served =>
          obtain ⟨-, heq⟩ := Prod.mk.inj (Option.some.inj hreply)
          obtain rfl := Dashboard.Payload.snapshot.inj heq
          exact Or.inr ⟨_, hserved.symm⟩
      | stale served =>
          rw [hheaders]
          exact Or.inl (List.mem_append_right _ List.mem_cons_self)
      | shed =>
          obtain ⟨-, heq⟩ := Prod.mk.inj (Option.some.inj hreply)
          cases heq
      | miss rebuild => cases hreply

/-- After a step in which a dispatch is answered 202, a job is completed or an attempt fails,
and whatever happened since, each snapshot the application serves is marked as stale, or was
asked for and answered by Bull Board after that step. -/
theorem dashboard_shows {service : Service} {as bs : List (AppAction β)} {a : AppAction β}
    {s t u v : App config.env queueNames β}
    (hbefore : (app ext options config packages queueNames β service).run
      (.initial config.env queueNames β service) as = some s)
    (hstep : s.step ext options config packages a = some t) (hshows : s.Shows t a)
    (hafter : (app ext options config packages queueNames β service).run t bs = some u)
    {r : HttpRequest} {now : Nat} {readings : Readings} {x : Response β} {body : β}
    (hhttp : u.http ext options config packages r now readings = some (v, some x))
    (hcontent : x.content = .board (.snapshot body)) :
    (js "X-Dashboard-Snapshot", js "STALE") ∈ x.headers ∨
      ∃ newer rebuild, u.mount.board.journal = newer ++ t.mount.board.journal ∧
        Produced newer rebuild body := by
  obtain ⟨action, rfl, hinvalidates⟩ := hshows.invalidates hstep
  obtain ⟨-, process, -, rfl⟩ := App.react_eq_some hstep
  have hintact : s.mount.board.Intact config.env :=
    Dashboard.intact_of_reachable (App.board_reachable ⟨as, hbefore⟩)
  obtain ⟨hflying, hstored, hgeneration⟩ :=
    invalidateMount_board (invalidationsIn s.process process action) s.mount
  have hfloor : s.mount.board.cache.currentGeneration <
      s.mount.board.cache.currentGeneration + invalidationsIn s.process process action :=
    Nat.lt_add_of_pos_right hinvalidates
  have hsince := hintact.since hfloor (Nat.le_of_eq hgeneration.symm) hflying hstored
  obtain ⟨moves, hmoves⟩ := App.board_run hafter
  obtain ⟨newer, hu⟩ := hsince.run hmoves
  obtain ⟨-, -, hhandled⟩ := App.http_cases hhttp
  rcases hhandled.snapshot hcontent with hstale | ⟨query, hhit⟩
  · exact Or.inl hstale
  · obtain ⟨rebuild, -, hproduced⟩ := hu.hit hhit
    exact Or.inr ⟨newer, rebuild, hu.journal, hproduced⟩

def Response.snapshot? (x : Response β) : Option β :=
  match x.content with
  | .board (.snapshot body) => some body
  | _ => none

theorem Response.snapshot?_eq_some {x : Response β} {body : β} (h : x.snapshot? = some body) :
    x.content = .board (.snapshot body) := by
  unfold Response.snapshot? at h
  split at h
  · rename_i served hcontent
    rw [hcontent, Option.some.inj h]
  · cases h

def pollRequest : HttpRequest :=
  { emptyEmailRequest with
    method := js "GET"
    path := js "/admin/queues/api/queues" }

def polledBefore : List (AppAction Nat) :=
  [.react .listening, .http pollRequest 1 steadyReadings, .rebuilt 0 200 40 2,
    .http jsonEmailRequest 5 steadyReadings, .react (.work (.counted 0 none))]

def polledAfter : List (AppAction Nat) :=
  [.http pollRequest 6 steadyReadings, .rebuilt 1 200 41 7]

theorem dashboard_shows_polledAfter :
    ∃ t u v x, (app atSign defaultJobOptions .default expressPackages [js "q"] Nat .initial).run
        t polledAfter = some u ∧
      u.http atSign defaultJobOptions .default expressPackages pollRequest 8 steadyReadings =
        some (v, some x) ∧ x.content = .board (.snapshot 41) ∧
      ((js "X-Dashboard-Snapshot", js "STALE") ∈ x.headers ∨
        ∃ newer rebuild, u.mount.board.journal = newer ++ t.mount.board.journal ∧
          Produced newer rebuild 41) := by
  let A := app atSign defaultJobOptions .default expressPackages [js "q"] Nat .initial
  have hrun : ((A.run (.initial AppConfig.default.env [js "q"] Nat .initial) polledBefore).bind
      fun s => (A.step s (.react (.work (.added 0 .done)))).bind fun t =>
        (A.run t polledAfter).bind fun u =>
          ((u.http atSign defaultJobOptions .default expressPackages pollRequest 8
            steadyReadings).bind Prod.snd).bind fun x => x.snapshot?.map fun body =>
              ((s.settled 0).isNone, (t.settled 0).map Response.statusCode, body)) =
      some (true, some 202, 41) := by decide +kernel
  obtain ⟨s, hs, hrest⟩ := Option.bind_eq_some_iff.1 hrun
  obtain ⟨t, ht, hrest⟩ := Option.bind_eq_some_iff.1 hrest
  obtain ⟨u, hu, hrest⟩ := Option.bind_eq_some_iff.1 hrest
  obtain ⟨x, hx, hfields⟩ := Option.bind_eq_some_iff.1 hrest
  obtain ⟨⟨v, response⟩, hhttp, rfl⟩ := Option.bind_eq_some_iff.1 hx
  obtain ⟨body, hbody, hvalues⟩ := Option.map_eq_some_iff.1 hfields
  obtain ⟨hopen, hsent, rfl⟩ : (s.settled 0).isNone = true ∧
      (t.settled 0).map Response.statusCode = some 202 ∧ body = 41 := by simpa using hvalues
  obtain ⟨answer, hanswer, hstatus⟩ := Option.map_eq_some_iff.1 hsent
  have hcontent := Response.snapshot?_eq_some hbody
  have hstep : s.step atSign defaultJobOptions .default expressPackages
      (.react (.work (.added 0 .done))) = some t := ht
  exact ⟨t, u, v, x, hu, hhttp, hcontent, dashboard_shows hs hstep
    (.accepted _ 0 answer (Option.isNone_iff_eq_none.1 hopen) hanswer hstatus) hu hhttp hcontent⟩

end TaskQueue

import TaskQueue.Http.System

/-!
# What the limiters let through

The two limiters of the job routes and the one of the dashboard over whole runs of the
application.  Windows open when requests come, so the interval a bound is stated for
need not be one of them.
-/

namespace TaskQueue

open Ecma FixedWindow RateLimit
open Dashboard (Outcome Mount dashboardChain dashboardReadOnlyGuard blockRedisStatsRoute)

/-! ## One limiter -/

/-- The traffic of a limiter is what its store has counted, and no window was granted more
than the limit. -/
structure Traffic.Metered (windowMs limit clock : Nat) (store : Store JsString) (t : Traffic) :
    Prop where
  counts : Counts windowMs store t.seen clock
  grants : Grants limit t.seen t.granted

def Traffic.during (key : JsString) (start length : Nat) (t : Traffic) : Nat :=
  spentDuring (chargesTo t.granted key) start length

variable {windowMs limit clock now : Nat} {store : Store JsString} {t : Traffic}

theorem Traffic.none_metered (windowMs limit clock : Nat) :
    Traffic.none.Metered windowMs limit clock ∅ where
  counts := counts_empty windowMs clock
  grants := grants_nil limit

theorem Traffic.Metered.mono (h : t.Metered windowMs limit clock store) (hclock : clock ≤ now) :
    t.Metered windowMs limit now store where
  counts := h.counts.mono hclock
  grants := h.grants

theorem Traffic.Metered.judged (h : t.Metered windowMs limit clock store) (hpos : 0 < windowMs)
    (hclock : clock ≤ now) (key : JsString) :
    (t.add (store.entry windowMs key now) (!store.exceeds windowMs limit key now)).Metered
      windowMs limit now (store.hit windowMs key now) where
  counts := h.counts.hit hpos hclock key
  grants := h.grants.judged h.counts hpos key now

theorem Traffic.Metered.during_le (h : t.Metered windowMs limit clock store) (key : JsString)
    (start : Nat) : t.during key start windowMs ≤ 2 * limit :=
  h.grants.spentDuring_le h.counts key start

theorem Traffic.during_le_add (entry : JsString × Charge) (granted : Bool) (key : JsString)
    (start length : Nat) :
    t.during key start length ≤ (t.add entry granted).during key start length := by
  cases granted with
  | false => exact Nat.le_refl _
  | true =>
      have hsub : (chargesTo t.granted key).Sublist (chargesTo (entry :: t.granted) key) :=
        ((List.sublist_cons_self entry t.granted).filter _).map Prod.snd
      exact hsub.countP_le

theorem Traffic.during_granted (key : JsString) (charge : Charge) {start length : Nat}
    (hstart : start ≤ charge.time) (hend : charge.time < start + length) :
    (t.add (key, charge) true).during key start length = t.during key start length + 1 := by
  show spentDuring (chargesTo ((key, charge) :: t.granted) key) start length = _
  rw [chargesTo_cons_self, spentDuring_cons, if_pos ⟨hstart, hend⟩]
  rfl

/-! ## The limiters of the application -/

variable {ext : External} {options : JobOptions} {config : AppConfig} {packages : Packages}
  {queueNames : List JsString} {β : Type}

structure App.Metered (s : App config.env queueNames β) : Prop where
  global : s.global.Metered config.env.httpRateLimitWindowMs config.env.httpRateLimitMaxGlobal
    s.clock s.intake.limiters.globalJobLimiter
  perIp : s.perIp.Metered config.env.httpRateLimitWindowMs config.env.httpRateLimitMaxPerIp
    s.clock s.intake.limiters.perIpJobLimiter
  board : s.board.Metered config.env.httpRateLimitWindowMs config.env.dashboardRateLimitMaxPerIp
    s.clock s.mount.limits

theorem App.initial_metered (service : Service) :
    (App.initial config.env queueNames β service).Metered where
  global := Traffic.none_metered _ _ _
  perIp := Traffic.none_metered _ _ _
  board := Traffic.none_metered _ _ _

theorem App.Metered.later {s : App config.env queueNames β} (h : s.Metered) {now : Nat}
    (hclock : s.clock ≤ now) : App.Metered { s with clock := now } where
  global := h.global.mono hclock
  perIp := h.perIp.mono hclock
  board := h.board.mono hclock

theorem App.Metered.charged {s : App config.env queueNames β} (h : s.Metered) {ip : JsString}
    {now : Nat} {intake : Intake} (hstep : s.intake.step config.env ⟨ip, now⟩ = some intake)
    (hclock : s.clock ≤ now) : (s.charged ip now intake).Metered := by
  have hpos := config.env.httpRateLimitWindowMs_pos
  have hglobal := h.global.judged hpos hclock globalKey
  have hperIp := h.perIp.judged hpos hclock ip
  obtain ⟨-, hlimiters, -⟩ := Intake.step_eq_some hstep
  refine ⟨?_, ?_, h.board.mono hclock⟩
  · simp only [App.charged, App.verdict]
    rcases s.intake.limiters.judge_cases config.env ip now with
      ⟨hexceeds, hjudge⟩ | ⟨hexceeds, hjudge⟩
    · rw [hlimiters, hjudge]
      rw [hexceeds] at hglobal
      exact hglobal
    · rw [hlimiters, hjudge]
      rw [hexceeds] at hglobal
      have hverdict : ((if s.intake.limiters.perIpJobLimiter.exceeds
          config.env.httpRateLimitWindowMs config.env.httpRateLimitMaxPerIp ip now
          then IntakeVerdict.refusedPerIp else .admitted) != .refusedGlobally) = true := by
        split <;> decide
      simp only [hverdict]
      exact hglobal
  · simp only [App.charged, App.verdict]
    rcases s.intake.limiters.judge_cases config.env ip now with
      ⟨hexceeds, hjudge⟩ | ⟨hexceeds, hjudge⟩
    · rw [hlimiters, hjudge]
      exact h.perIp.mono hclock
    · rw [hlimiters, hjudge]
      cases hover : s.intake.limiters.perIpJobLimiter.exceeds config.env.httpRateLimitWindowMs
          config.env.httpRateLimitMaxPerIp ip now with
      | true =>
          rw [hover] at hperIp
          exact hperIp
      | false =>
          rw [hover] at hperIp
          exact hperIp

/-- The limiter of the dashboard is asked after the guard and the stats block. -/
theorem dashboardChain_limits (req : Dashboard.Request) (now : Nat) (m : Mount
    (boardLimiter config.env) queueNames β) :
    let out := dashboardChain config.env queueNames (boardLimiter config.env) req now m.limits
      m.board.cache
    (reachesLimiter req = true ∧
      out.2.1 = ((boardLimiter config.env).allow m.limits req now).2 ∧
      (out.1.isHandled = ((boardLimiter config.env).allow m.limits req now).1)) ∨
    (reachesLimiter req = false ∧ out.2.1 = m.limits ∧ out.1.isHandled = false) := by
  intro out
  have hout : out = dashboardChain config.env queueNames (boardLimiter config.env) req now m.limits
    m.board.cache := rfl
  unfold dashboardChain at hout
  unfold reachesLimiter
  cases hguard : dashboardReadOnlyGuard req with
  | some refusal =>
      simp only [hguard] at hout
      exact Or.inr ⟨rfl, by rw [hout], by rw [hout]; rfl⟩
  | none =>
      cases hstats : blockRedisStatsRoute req with
      | some refusal =>
          simp only [hguard, hstats] at hout
          exact Or.inr ⟨rfl, by rw [hout], by rw [hout]; rfl⟩
      | none =>
          simp only [hguard, hstats] at hout
          refine Or.inl ⟨rfl, ?_⟩
          cases hallow : ((boardLimiter config.env).allow m.limits req now).1 with
          | false =>
              simp only [hallow, Bool.false_eq_true, if_false] at hout
              exact ⟨by rw [hout], by rw [hout]; rfl⟩
          | true =>
              simp only [hallow, if_true] at hout
              exact ⟨by rw [hout], by rw [hout]; rfl⟩

theorem App.Metered.dashboard {s : App config.env queueNames β} (h : s.Metered) {now : Nat}
    (hclock : s.clock ≤ now) (r : HttpRequest) (path : JsString) (headers : Headers) :
    (s.dashboard config packages r path headers now).1.Metered := by
  have hpos := config.env.httpRateLimitWindowMs_pos
  have hboard := h.board.judged hpos hclock (r.toBoard config packages path).ip
  refine ⟨h.global.mono hclock, h.perIp.mono hclock, ?_⟩
  rcases dashboardChain_limits (r.toBoard config packages path) now s.mount with
    ⟨hreaches, hlimits, -⟩ | ⟨hreaches, hlimits, -⟩
  · simp only [App.dashboard, Mount.request, hreaches, if_true, hlimits]
    exact hboard
  · simp only [App.dashboard, Mount.request, hreaches, Bool.false_eq_true, if_false, hlimits]
    exact h.board.mono hclock

theorem invalidateMount_limits {dashboardLimiter : Dashboard.Limiter} (n : Nat)
    (m : Mount dashboardLimiter queueNames β) : (invalidateMount n m).limits = m.limits := by
  induction n generalizing m with
  | zero => rfl
  | succ n ih => exact ih _

theorem App.Metered.step {s t : App config.env queueNames β} (h : s.Metered) {a : AppAction β}
    (hstep : s.step ext options config packages a = some t) : t.Metered := by
  cases a with
  | http r now readings =>
      obtain ⟨⟨u, response⟩, hhttp, rfl⟩ := Option.map_eq_some_iff.1 hstep
      obtain ⟨-, hclock, hhandled⟩ := App.http_cases hhttp
      cases hhandled with
      | answered => exact h.later hclock
      | replied => exact h.later hclock
      | boarded path headers => exact h.dashboard hclock r path headers
      | limited jobName headers body _ pass verdict counted =>
          obtain ⟨_, hintake, rfl⟩ := App.submit_eq_some counted
          exact h.charged hintake hclock
      | dispatched jobName headers body _ _ pass verdict counted begun =>
          obtain ⟨_, hintake, rfl⟩ := App.submit_eq_some counted
          obtain ⟨_, -, rfl⟩ := App.dispatch_eq_some begun
          have hcharged := h.charged hintake hclock
          exact ⟨hcharged.global, hcharged.perIp, hcharged.board⟩
  | react a =>
      obtain ⟨-, _, -, rfl⟩ := App.react_eq_some hstep
      refine ⟨h.global, h.perIp, ?_⟩
      simp only [invalidateMount_limits]
      exact h.board
  | rebuilt id statusCode body now =>
      obtain ⟨mount, hmount, rfl⟩ := Option.map_eq_some_iff.1 hstep
      obtain ⟨board, -, rfl⟩ := Option.map_eq_some_iff.1 hmount
      exact ⟨h.global, h.perIp, h.board⟩

theorem App.metered_of_reachable {service : Service} {s : App config.env queueNames β}
    (hs : (app ext options config packages queueNames β service).Reachable s) : s.Metered :=
  hs.invariant (App.initial_metered service) fun _ _ _ h hstep => h.step hstep

/-! ## Counting over runs -/

def AppAction.during (sends : HttpRequest → Bool) (start length : Nat) : AppAction β → Bool
  | .http r now _ => sends r && decide (start ≤ now ∧ now < start + length)
  | _ => false

def AppAction.isRequest : AppAction β → Bool
  | .http _ _ _ => true
  | _ => false

section

variable (ext options config packages)

def App.begins (s : App config.env queueNames β) (a : AppAction β) : Bool :=
  match s.step ext options config packages a with
  | some t => decide (s.process.service.received < t.process.service.received)
  | none => false

def App.reachesBoard (s : App config.env queueNames β) : AppAction β → Bool
  | .http r now readings =>
      match (r.pass config packages readings : Passed β) with
      | .routed (.board path) _ _ =>
          (dashboardChain config.env queueNames (boardLimiter config.env)
            (r.toBoard config packages path) now s.mount.limits s.mount.board.cache).1.isHandled
      | _ => false
  | _ => false

end

theorem App.begins_eq {s t : App config.env queueNames β} {a : AppAction β}
    (h : s.step ext options config packages a = some t) :
    s.begins ext options config packages a =
      decide (s.process.service.received < t.process.service.received) := by
  simp only [App.begins, h]

/-- A dispatch is begun by an admitted submission, which both limiters have granted. -/
theorem App.granted_of_begins {s t : App config.env queueNames β} {r : HttpRequest} {now : Nat}
    {readings : Readings} {response : Option (Response β)}
    (hhandled : App.Handled ext options config packages r now readings s t response)
    (hbegins : s.process.service.received < t.process.service.received) :
    (∃ charge, charge.time = now ∧ t.global = s.global.add (globalKey, charge) true) ∧
    (∃ charge, charge.time = now ∧
      t.perIp = s.perIp.add (r.limiterKey config packages, charge) true) := by
  cases hhandled with
  | answered => exact absurd hbegins (Nat.lt_irrefl _)
  | replied => exact absurd hbegins (Nat.lt_irrefl _)
  | boarded => exact absurd hbegins (Nat.lt_irrefl _)
  | limited jobName headers body _ pass verdict counted =>
      obtain ⟨_, -, rfl⟩ := App.submit_eq_some counted
      exact absurd hbegins (Nat.lt_irrefl _)
  | dispatched jobName headers body _ _ pass verdict counted begun =>
      obtain ⟨_, -, rfl⟩ := App.submit_eq_some counted
      obtain ⟨_, -, rfl⟩ := App.dispatch_eq_some begun
      simp only [App.charged, verdict]
      exact ⟨⟨⟨now, _⟩, rfl, rfl⟩, ⟨⟨now, _⟩, rfl, rfl⟩⟩

theorem App.Handled.during_le {s t : App config.env queueNames β} {r : HttpRequest} {now : Nat}
    {readings : Readings} {response : Option (Response β)}
    (h : App.Handled ext options config packages r now readings s t response) (key : JsString)
    (start length : Nat) :
    s.global.during key start length ≤ t.global.during key start length ∧
      s.perIp.during key start length ≤ t.perIp.during key start length ∧
      s.board.during key start length ≤ t.board.during key start length := by
  have hsubmit : ∀ (ip : JsString) (intake : Intake),
      s.global.during key start length ≤
        (s.charged ip now intake).global.during key start length ∧
      s.perIp.during key start length ≤
        (s.charged ip now intake).perIp.during key start length := by
    intro ip intake
    simp only [App.charged]
    refine ⟨Traffic.during_le_add _ _ _ _ _, ?_⟩
    split
    · exact Nat.le_refl _
    · exact Traffic.during_le_add _ _ _ _ _
  cases h with
  | answered => exact ⟨Nat.le_refl _, Nat.le_refl _, Nat.le_refl _⟩
  | replied => exact ⟨Nat.le_refl _, Nat.le_refl _, Nat.le_refl _⟩
  | boarded path headers =>
      refine ⟨Nat.le_refl _, Nat.le_refl _, ?_⟩
      simp only [App.dashboard]
      split
      · exact Traffic.during_le_add _ _ _ _ _
      · exact Nat.le_refl _
  | limited jobName headers body _ pass verdict counted =>
      obtain ⟨intake, -, rfl⟩ := App.submit_eq_some counted
      have hle := hsubmit (r.limiterKey config packages) intake
      exact ⟨hle.1, hle.2, Nat.le_refl _⟩
  | dispatched jobName headers body _ _ pass verdict counted begun =>
      obtain ⟨intake, -, rfl⟩ := App.submit_eq_some counted
      obtain ⟨_, -, rfl⟩ := App.dispatch_eq_some begun
      have hle := hsubmit (r.limiterKey config packages) intake
      exact ⟨hle.1, hle.2, Nat.le_refl _⟩

/-- A step that is no request leaves the traffic as it is. -/
theorem App.traffic_of_not_request {s t : App config.env queueNames β} {a : AppAction β}
    (h : s.step ext options config packages a = some t) (hother : a.isRequest = false) :
    t.global = s.global ∧ t.perIp = s.perIp ∧ t.board = s.board := by
  cases a with
  | http r now readings => cases hother
  | react a =>
      obtain ⟨-, _, -, rfl⟩ := App.react_eq_some h
      exact ⟨rfl, rfl, rfl⟩
  | rebuilt id statusCode body now =>
      obtain ⟨mount, -, rfl⟩ := Option.map_eq_some_iff.1 h
      exact ⟨rfl, rfl, rfl⟩

theorem App.granted_of_reachesBoard {s t : App config.env queueNames β} {r : HttpRequest}
    {now : Nat} {readings : Readings} {response : Option (Response β)}
    (hhandled : App.Handled ext options config packages r now readings s t response)
    (hreaches : s.reachesBoard config packages (.http r now readings) = true) :
    ∃ charge, charge.time = now ∧
      t.board = s.board.add (r.limiterKey config packages, charge) true := by
  unfold App.reachesBoard at hreaches
  cases hhandled with
  | answered response pass =>
      simp only [pass] at hreaches
      cases hreaches
  | replied endpoint headers body response pass unboarded =>
      cases endpoint with
      | board path => exact absurd rfl (unboarded path)
      | _ =>
          simp only [pass] at hreaches
          cases hreaches
  | boarded path headers body pass =>
      simp only [pass] at hreaches
      rcases dashboardChain_limits (r.toBoard config packages path) now s.mount with
        ⟨hlimiter, -, hallow⟩ | ⟨-, -, hrefused⟩
      · rw [hreaches] at hallow
        have hgrant : (!Store.exceeds config.env.httpRateLimitWindowMs
            config.env.dashboardRateLimitMaxPerIp s.mount.limits
            (r.toBoard config packages path).ip now) = true := hallow.symm
        simp only [App.dashboard, hlimiter, if_true, hgrant]
        exact ⟨⟨now, _⟩, rfl, rfl⟩
      · rw [hrefused] at hreaches
        cases hreaches
  | limited jobName headers body _ pass =>
      simp only [pass] at hreaches
      cases hreaches
  | dispatched jobName headers body _ _ pass =>
      simp only [pass] at hreaches
      cases hreaches

/-- One of the limiters, by its traffic. -/
structure App.Limited (ext : External) (options : JobOptions) (config : AppConfig)
    (packages : Packages) (traffic : App config.env queueNames β → Traffic) (limit : Nat) :
    Prop where
  metered : ∀ s, App.Metered s → ∃ clock store,
    (traffic s).Metered config.env.httpRateLimitWindowMs limit clock store
  none : ∀ service, traffic (.initial config.env queueNames β service) = .none
  mono : ∀ s a t, s.step ext options config packages a = some t → ∀ key start length,
    (traffic s).during key start length ≤ (traffic t).during key start length

theorem App.during_le_step {s t : App config.env queueNames β} {a : AppAction β}
    (h : s.step ext options config packages a = some t) (key : JsString) (start length : Nat) :
    s.global.during key start length ≤ t.global.during key start length ∧
      s.perIp.during key start length ≤ t.perIp.during key start length ∧
      s.board.during key start length ≤ t.board.during key start length := by
  cases hrequest : a.isRequest with
  | true =>
      cases a with
      | http r now readings =>
          obtain ⟨⟨u, response⟩, hhttp, rfl⟩ := Option.map_eq_some_iff.1 h
          obtain ⟨-, -, hhandled⟩ := App.http_cases hhttp
          exact hhandled.during_le key start length
      | _ => cases hrequest
  | false =>
      obtain ⟨hglobal, hperIp, hboard⟩ := App.traffic_of_not_request h hrequest
      rw [hglobal, hperIp, hboard]
      exact ⟨Nat.le_refl _, Nat.le_refl _, Nat.le_refl _⟩

section

variable (ext options config packages queueNames β)

theorem App.global_limited : App.Limited ext options config packages
    (App.global : App config.env queueNames β → Traffic) config.env.httpRateLimitMaxGlobal where
  metered := fun s h => ⟨s.clock, s.intake.limiters.globalJobLimiter, h.global⟩
  none := fun _ => rfl
  mono := fun _ _ _ h key start length => (App.during_le_step h key start length).1

theorem App.perIp_limited : App.Limited ext options config packages
    (App.perIp : App config.env queueNames β → Traffic) config.env.httpRateLimitMaxPerIp where
  metered := fun s h => ⟨s.clock, s.intake.limiters.perIpJobLimiter, h.perIp⟩
  none := fun _ => rfl
  mono := fun _ _ _ h key start length => (App.during_le_step h key start length).2.1

theorem App.board_limited : App.Limited ext options config packages
    (App.board : App config.env queueNames β → Traffic)
    config.env.dashboardRateLimitMaxPerIp where
  metered := fun s h => ⟨s.clock, s.mount.limits, h.board⟩
  none := fun _ => rfl
  mono := fun _ _ _ h key start length => (App.during_le_step h key start length).2.2

end

/-- Steps that each are granted a request of a key in an interval of a window's length are
no more than twice the limit. -/
theorem App.Limited.tally_le {traffic : App config.env queueNames β → Traffic} {limit : Nat}
    (hlimited : App.Limited ext options config packages traffic limit)
    (key : JsString) (start : Nat)
    {c : App config.env queueNames β → AppAction β → Bool}
    (hgranted : ∀ s a t, s.step ext options config packages a = some t → c s a = true →
      ∃ charge, start ≤ charge.time ∧
        charge.time < start + config.env.httpRateLimitWindowMs ∧
        traffic t = (traffic s).add (key, charge) true)
    {service : Service} {as : List (AppAction β)} {s : App config.env queueNames β}
    (hrun : (app ext options config packages queueNames β service).run
      (.initial config.env queueNames β service) as = some s) :
    (app ext options config packages queueNames β service).tally c
      (.initial config.env queueNames β service) as ≤ 2 * limit := by
  have hle := Automaton.tally_le_run (A := app ext options config packages queueNames β service)
    (m := fun s => (traffic s).during key start config.env.httpRateLimitWindowMs) (c := c)
    (fun s a t h => by
      have hstep : s.step ext options config packages a = some t := h
      cases hc : c s a with
      | false => exact hlimited.mono s a t hstep key start _
      | true =>
          obtain ⟨charge, hstart, hend, hadd⟩ := hgranted s a t hstep hc
          simp only [if_true, hadd, Traffic.during_granted key charge hstart hend]
          exact Nat.le_refl _) hrun
  have hmetered : s.Metered := App.metered_of_reachable ⟨as, hrun⟩
  obtain ⟨clock, store, hs⟩ := hlimited.metered s hmetered
  have hbound := hs.during_le key start
  omega

theorem App.granted_of_begins_during {s t : App config.env queueNames β} {a : AppAction β}
    {sends : HttpRequest → Bool} {start length : Nat}
    (h : s.step ext options config packages a = some t)
    (hc : (a.during sends start length && s.begins ext options config packages a) = true) :
    ∃ r, sends r = true ∧
      (∃ charge, start ≤ charge.time ∧ charge.time < start + length ∧
        t.global = s.global.add (globalKey, charge) true) ∧
      (∃ charge, start ≤ charge.time ∧ charge.time < start + length ∧
        t.perIp = s.perIp.add (r.limiterKey config packages, charge) true) := by
  rw [Bool.and_eq_true, App.begins_eq h, decide_eq_true_eq] at hc
  cases a with
  | http r now readings =>
      rw [AppAction.during, Bool.and_eq_true, decide_eq_true_eq] at hc
      obtain ⟨⟨u, response⟩, hhttp, rfl⟩ := Option.map_eq_some_iff.1 h
      obtain ⟨-, -, hhandled⟩ := App.http_cases hhttp
      obtain ⟨⟨charge, rfl, hglobal⟩, ⟨charge', htime, hperIp⟩⟩ :=
        App.granted_of_begins hhandled hc.2
      refine ⟨r, hc.1.1, ⟨charge, hc.1.2.1, hc.1.2.2, hglobal⟩, ⟨charge', ?_, ?_, hperIp⟩⟩
      · rw [htime]
        exact hc.1.2.1
      · rw [htime]
        exact hc.1.2.2
  | _ => cases hc.1

theorem App.received_step {s t : App config.env queueNames β} {a : AppAction β}
    (h : s.step ext options config packages a = some t) :
    t.process.service.received =
      s.process.service.received +
        if a.isRequest && s.begins ext options config packages a then 1 else 0 := by
  rw [App.begins_eq h]
  cases a with
  | http r now readings =>
      obtain ⟨⟨u, response⟩, hhttp, rfl⟩ := Option.map_eq_some_iff.1 h
      obtain ⟨-, -, hhandled⟩ := App.http_cases hhttp
      rcases hhandled.process with hsame | ⟨request, hstep⟩
      · simp [hsame]
      · have hreceived : u.process.service.received = s.process.service.received + 1 :=
          Process.received_step hstep
        simp [AppAction.isRequest, hreceived]
  | react a =>
      obtain ⟨hother, process, hstep, rfl⟩ := App.react_eq_some h
      have hreceived := Process.received_step hstep
      rw [hother] at hreceived
      simp [hreceived]
  | rebuilt id statusCode body now =>
      obtain ⟨mount, -, rfl⟩ := Option.map_eq_some_iff.1 h
      rfl

/-! ## Over whole runs -/

/-- In every run the dispatches begun in an interval as long as the limiters' window are at
most twice the ceiling, those begun by requests under one key at most twice the limit of an
address, and every dispatch of the process is begun by a request. -/
theorem dispatches_limited {service : Service} {as : List (AppAction β)}
    {s : App config.env queueNames β}
    (hrun : (app ext options config packages queueNames β service).run
      (.initial config.env queueNames β service) as = some s) :
    let tally := fun c => (app ext options config packages queueNames β service).tally
      (fun s a => c a && App.begins ext options config packages s a)
      (.initial config.env queueNames β service) as
    let windowMs := config.env.httpRateLimitWindowMs
    (∀ start, tally (AppAction.during (fun _ => true) start windowMs) ≤
        2 * config.env.httpRateLimitMaxGlobal) ∧
      (∀ key start, tally (AppAction.during
          (fun r => r.limiterKey config packages == key) start windowMs) ≤
        2 * config.env.httpRateLimitMaxPerIp) ∧
      s.process.service.received = service.received + tally AppAction.isRequest := by
  intro tally windowMs
  refine ⟨fun start => ?_, fun key start => ?_, ?_⟩
  · refine (App.global_limited ext options config packages queueNames β).tally_le
      globalKey start (fun s a t h hc => ?_) hrun
    obtain ⟨r, -, hglobal, -⟩ := App.granted_of_begins_during h hc
    exact hglobal
  · refine (App.perIp_limited ext options config packages queueNames β).tally_le
      key start (fun s a t h hc => ?_) hrun
    obtain ⟨r, hkey, -, hperIp⟩ := App.granted_of_begins_during h hc
    rw [beq_iff_eq.1 hkey] at hperIp
    exact hperIp
  · have hbalance := Automaton.run_balances
      (A := app ext options config packages queueNames β service)
      (m := fun s => s.process.service.received)
      (c := fun s a => a.isRequest && App.begins ext options config packages s a)
      (d := fun _ _ => false) (fun s a t h => App.received_step h) hrun
    rw [Automaton.tally_false, Nat.add_zero] at hbalance
    exact hbalance

theorem dispatches_limited_twoRequests :
    ∃ s, (app atSign defaultJobOptions .default expressPackages [js "q"] Nat .initial).run
        (.initial Environment.default [js "q"] Nat .initial) firstRequests = some s ∧
      s.process.service.received = 2 ∧
      (app atSign defaultJobOptions .default expressPackages [js "q"] Nat .initial).tally
        (fun s a => a.isRequest && App.begins atSign defaultJobOptions .default expressPackages s a)
        (.initial Environment.default [js "q"] Nat .initial) firstRequests = 2 := by
  have hrun : ((app atSign defaultJobOptions .default expressPackages [js "q"] Nat .initial).run
      (.initial Environment.default [js "q"] Nat .initial) firstRequests).map
        (fun s => s.process.service.received) = some 2 := by decide +kernel
  obtain ⟨s, hs, hreceived⟩ := Option.map_eq_some_iff.1 hrun
  have hlimited := dispatches_limited hs
  refine ⟨s, hs, hreceived, ?_⟩
  have htotal := hlimited.2.2
  rw [hreceived] at htotal
  exact (htotal.trans (Nat.zero_add _)).symm

/-- A client behind proxies, however it writes its header: when there are no more hops than
proxies, it begins in no interval more dispatches than twice the limit of an address, and
gets no more requests past the limiter of the dashboard than twice that one's. -/
theorem client_limited {proxies : List JsString} (hproxies : ∀ proxy ∈ proxies, IsAddress proxy)
    (hhops : config.trustProxyHops ≤ proxies.length) {client : JsString}
    (hclient : IsAddress client) {sends : HttpRequest → Bool}
    (hsends : ∀ r, sends r = true →
      ∃ header, (r.remoteAddress, r.forwardedFor) = relay client header proxies)
    {service : Service} {as : List (AppAction β)} {s : App config.env queueNames β}
    (hrun : (app ext options config packages queueNames β service).run
      (.initial config.env queueNames β service) as = some s) (start : Nat) :
    let tally := fun c => (app ext options config packages queueNames β service).tally
      (fun s a => a.during sends start config.env.httpRateLimitWindowMs && c s a)
      (.initial config.env queueNames β service) as
    tally (App.begins ext options config packages) ≤ 2 * config.env.httpRateLimitMaxPerIp ∧
      tally (App.reachesBoard config packages) ≤ 2 * config.env.dashboardRateLimitMaxPerIp := by
  intro tally
  -- All requests of the client count under one key.
  let key := packages.rateLimitKey
    (packages.forwarded.clientIp config.trustProxyHops client none proxies)
  have hkey : ∀ r, sends r = true → r.limiterKey config packages = key := by
    intro r hr
    obtain ⟨header, hrelay⟩ := hsends r hr
    obtain ⟨haddress, hforwarded⟩ := Prod.mk.inj hrelay
    unfold HttpRequest.limiterKey HttpRequest.ip
    rw [haddress, hforwarded]
    exact congrArg packages.rateLimitKey
      (ForwardedHeader.clientIp_congr hclient hproxies hhops header none)
  constructor
  · refine (App.perIp_limited ext options config packages queueNames β).tally_le
      key start (fun s a t h hc => ?_) hrun
    obtain ⟨r, hr, -, hperIp⟩ := App.granted_of_begins_during h hc
    rw [hkey r hr] at hperIp
    exact hperIp
  · refine (App.board_limited ext options config packages queueNames β).tally_le
      key start (fun s a t h hc => ?_) hrun
    rw [Bool.and_eq_true] at hc
    cases a with
    | http r now readings =>
        rw [AppAction.during, Bool.and_eq_true, decide_eq_true_eq] at hc
        obtain ⟨⟨u, response⟩, hhttp, rfl⟩ := Option.map_eq_some_iff.1 h
        obtain ⟨-, -, hhandled⟩ := App.http_cases hhttp
        obtain ⟨charge, htime, hboard⟩ := App.granted_of_reachesBoard hhandled hc.2
        rw [hkey r hc.1.1] at hboard
        refine ⟨charge, ?_, ?_, hboard⟩
        · rw [htime]
          exact hc.1.2.1
        · rw [htime]
          exact hc.1.2.2
    | _ => cases hc.1

def fromClient (r : HttpRequest) : Bool :=
  r.remoteAddress == js "10.0.0.9" && r.forwardedFor == some (js "203.0.113.7")

theorem client_limited_twoRequests :
    ∃ s, (app atSign defaultJobOptions .default expressPackages [js "q"] Nat .initial).run
        (.initial Environment.default [js "q"] Nat .initial) firstRequests = some s ∧
      (app atSign defaultJobOptions .default expressPackages [js "q"] Nat .initial).tally
        (fun s a => a.during fromClient 0 60000 &&
          App.begins atSign defaultJobOptions .default expressPackages s a)
        (.initial Environment.default [js "q"] Nat .initial) firstRequests ≤ 2 * 20 := by
  have hrun : ((app atSign defaultJobOptions .default expressPackages [js "q"] Nat .initial).run
      (.initial Environment.default [js "q"] Nat .initial) firstRequests).map
        (fun s => s.process.service.received) = some 2 := by decide +kernel
  obtain ⟨s, hs, -⟩ := Option.map_eq_some_iff.1 hrun
  have hproxies : ∀ proxy ∈ [js "10.0.0.9"], IsAddress proxy := by
    intro proxy hproxy
    rw [List.mem_singleton.1 hproxy]
    exact ⟨by decide, by decide, by decide⟩
  have hclient : IsAddress (js "203.0.113.7") := ⟨by decide, by decide, by decide⟩
  have hsends : ∀ r, fromClient r = true →
      ∃ header, (r.remoteAddress, r.forwardedFor) =
        relay (js "203.0.113.7") header [js "10.0.0.9"] := by
    intro r hr
    rw [fromClient, Bool.and_eq_true, beq_iff_eq, beq_iff_eq] at hr
    exact ⟨none, by rw [hr.1, hr.2]; rfl⟩
  exact ⟨s, hs, (client_limited hproxies (by decide) hclient hsends hs 0).1⟩

end TaskQueue

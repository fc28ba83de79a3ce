import TaskQueue.Dashboard.Chain
import TaskQueue.Http.App
import TaskQueue.Lib.Projection
import TaskQueue.Middleware.RateLimit
import TaskQueue.Process.Lifecycle
import TaskQueue.Service.Acceptance
import TaskQueue.Service.DepthReads

/-!
# The application as a system

Requests to the application in any order and at any time, interleaved with all that
the process does on its own: its phases, its worker and its queues.  The three
systems it is composed of, the process, the intake limiters and the mounted
dashboard, move by runs of their own.
-/

namespace TaskQueue

open Ecma FixedWindow RateLimit
open Dashboard (Mount MountAction Limiter Outcome Handling Answer dashboardChain mounted
  dashboardReadOnlyGuard blockRedisStatsRoute rateLimitMessage)

/-! ## Limiters and what they let through -/

/-- `dashboardLimiter`, in a store of its own. -/
def boardLimiter (env : Environment) : Limiter where
  State := Store JsString
  initial := (∅ : Table JsString Bucket)
  allow store req now :=
    (!Store.exceeds env.httpRateLimitWindowMs env.dashboardRateLimitMaxPerIp store req.ip now,
      Store.hit env.httpRateLimitWindowMs store req.ip now)

/-- The requests a limiter saw, and those it let through, newest first. -/
structure Traffic where
  seen : List (JsString × Charge)
  granted : List (JsString × Charge)

def Traffic.none : Traffic := ⟨[], []⟩

def Traffic.add (entry : JsString × Charge) (granted : Bool) (t : Traffic) : Traffic where
  seen := entry :: t.seen
  granted := if granted then entry :: t.granted else t.granted

/-- The application: its process, its limiters, its dashboard, the headers of the
responses to come, and the record of what its limiters did. -/
structure App (env : Environment) (queueNames : List JsString) (β : Type) where
  process : Process
  intake : Intake
  mount : Mount (boardLimiter env) queueNames β
  clock : Nat
  /-- The headers set for the dispatches begun. -/
  responses : Table Nat Headers
  global : Traffic
  perIp : Traffic
  board : Traffic

variable {env : Environment} {queueNames : List JsString} {β : Type}

def App.initial (env : Environment) (queueNames : List JsString) (β : Type) (service : Service) :
    App env queueNames β where
  process := .initial service
  intake := .initial
  mount := .initial (boardLimiter env) queueNames β
  clock := 0
  responses := ∅
  global := .none
  perIp := .none
  board := .none

inductive AppAction (β : Type)
  /-- A request arrives. -/
  | http (r : HttpRequest) (now : Nat) (readings : Readings)
  /-- Anything the process does, but the dispatches, which requests begin. -/
  | react (action : ProcessAction)
  /-- Bull Board's handler answers a rebuild. -/
  | rebuilt (id : Nat) (statusCode : Nat) (body : β) (now : Nat)

/-! ## Invalidation -/

def WorkEvent.invalidates : WorkEvent → Bool
  | .did _ .invalidatedSnapshot => true
  | _ => false

def World.invalidations (w : World) : Nat := w.journal.countP WorkEvent.invalidates

/-- The call `enqueue` makes once its `add` resolved. -/
def ProcessAction.invalidations : ProcessAction → Nat
  | .work (.added _ .done) => 1
  | _ => 0

def invalidationsIn (p q : Process) (a : ProcessAction) : Nat :=
  q.service.world.invalidations - p.service.world.invalidations + a.invalidations

def invalidateMount {dashboardLimiter : Limiter} : Nat →
    Mount dashboardLimiter queueNames β → Mount dashboardLimiter queueNames β
  | 0, m => m
  | n + 1, m => invalidateMount n { m with board := m.board.invalidate }

/-! ## Requests -/

section

variable (ext : External) (options : JobOptions) (config : AppConfig) (packages : Packages)

def ProcessAction.isReceive : ProcessAction → Bool
  | .work (.receive _) => true
  | _ => false

def Process.accepts (p : Process) : Bool :=
  !p.exited && (p.listener == .listening || p.listener == .closing)

def HttpRequest.toJob (r : HttpRequest) (jobName : JobName) (body : Json) (now : Nat)
    (readings : Readings) : JobRequest where
  jobName
  body
  header := r.correlationId
  randomUUID := readings.randomUUID
  now

def App.verdict (ip : JsString) (now : Nat) (s : App env queueNames β) : IntakeVerdict :=
  (s.intake.limiters.judge env ip now).1

def App.charged (ip : JsString) (now : Nat) (intake : Intake) (s : App env queueNames β) :
    App env queueNames β :=
  let windowMs := env.httpRateLimitWindowMs
  let store := s.intake.limiters
  let verdict := s.verdict ip now
  { s with
    intake
    clock := now
    global := s.global.add (store.globalJobLimiter.entry windowMs globalKey now)
      (verdict != .refusedGlobally)
    perIp := match verdict with
      | .refusedGlobally => s.perIp
      | _ => s.perIp.add (store.perIpJobLimiter.entry windowMs ip now) (verdict == .admitted) }

def App.submit (ip : JsString) (now : Nat) (s : App env queueNames β) :
    Option (App env queueNames β) :=
  (s.intake.step env ⟨ip, now⟩).map fun intake => s.charged ip now intake

def App.dispatch (request : JobRequest) (headers : Headers) (s : App env queueNames β) :
    Option (App env queueNames β) :=
  (s.process.step env ext options (.work (.receive request))).map fun process =>
    { s with process, responses := s.responses.put s.process.service.received headers }

def limitedResponse (headers : Headers) : Response β :=
  ⟨429, headers, .error rateLimitMessage.error⟩

def App.job (r : HttpRequest) (jobName : JobName) (body : Json) (headers : Headers) (now : Nat)
    (readings : Readings) (s : App config.env queueNames β) :
    Option (App config.env queueNames β × Option (Response β)) :=
  let ip := r.limiterKey config packages
  (s.submit ip now).bind fun counted =>
    if s.verdict ip now = .admitted then
      (counted.dispatch ext options (r.toJob jobName body now readings) headers).map fun t =>
        (t, none)
    else some (counted, some (limitedResponse headers))

def HttpRequest.toBoard (r : HttpRequest) (path : JsString) : Dashboard.Request where
  method := r.method
  path
  query := r.query
  ip := r.limiterKey config packages

/-- The request gets as far as the dashboard's limiter. -/
def reachesLimiter (req : Dashboard.Request) : Bool :=
  (dashboardReadOnlyGuard req).isNone && (blockRedisStatsRoute req).isNone

def Dashboard.Outcome.isHandled : Outcome queueNames β → Bool
  | .refused _ => false
  | .handled _ => true

/-- What the chain answers itself; what it passes on Bull Board answers. -/
def boardResponse (headers : Headers) : Outcome queueNames β → Option (Response β)
  | .refused refusal =>
      some ⟨refusal.statusCode, headers ++ refusal.headers, .error refusal.error⟩
  | .handled (.polled _ answer) =>
      answer.reply.map fun reply =>
        ⟨reply.1, headers ++ answer.headers config.env, .board reply.2⟩
  | .handled (.passed _) => none

def App.dashboard (r : HttpRequest) (path : JsString) (headers : Headers) (now : Nat)
    (s : App config.env queueNames β) :
    App config.env queueNames β × Option (Response β) :=
  let req := r.toBoard config packages path
  let store : Store JsString := s.mount.limits
  let windowMs := config.env.httpRateLimitWindowMs
  let out := dashboardChain config.env queueNames (boardLimiter config.env) req now
    s.mount.limits s.mount.board.cache
  let board :=
    if reachesLimiter req then
      s.board.add (store.entry windowMs req.ip now)
        (!store.exceeds windowMs config.env.dashboardRateLimitMaxPerIp req.ip now)
    else s.board
  ({ s with
      mount := s.mount.request config.env packages.router req now
      clock := now
      board },
    boardResponse config headers out.1)

def App.serve (r : HttpRequest) (now : Nat) (readings : Readings) (headers : Headers) (body : Json)
    (s : App config.env queueNames β) :
    Endpoint → Option (App config.env queueNames β × Option (Response β))
  | .index => some ({ s with clock := now }, some ⟨200, headers, .index⟩)
  | .board path => some (s.dashboard config packages r path headers now)
  | .health => some ({ s with clock := now }, some (healthHandler readings headers))
  | .metrics =>
      some ({ s with clock := now }, some (metricsRoute config packages r readings headers))
  | .job jobName => s.job ext options config packages r jobName body headers now readings
  | .webhookSink =>
      some ({ s with clock := now }, some (sinkHandler config packages r readings headers))
  | .unserved => some ({ s with clock := now }, some (notFoundHandler r headers))

def App.http (r : HttpRequest) (now : Nat) (readings : Readings)
    (s : App config.env queueNames β) :
    Option (App config.env queueNames β × Option (Response β)) :=
  if s.process.accepts && decide (s.clock ≤ now) then
    match (r.pass config packages readings : Passed β) with
    | .answered response => some ({ s with clock := now }, some response)
    | .routed endpoint headers body =>
        s.serve ext options config packages r now readings headers body endpoint
  else none

def App.settled (dispatch : Nat) (s : App env queueNames β) : Option (Response β) :=
  (s.process.service.dispatches.get dispatch).bind fun entry =>
    (entry.1.reply entry.2).map fun reply =>
      ⟨reply.statusCode, (s.responses.get dispatch).getD [], .intake reply⟩

/-! ## Steps -/

def App.react (a : ProcessAction) (s : App config.env queueNames β) :
    Option (App config.env queueNames β) :=
  if a.isReceive then none
  else
    (s.process.step config.env ext options a).map fun process =>
      { s with
        process
        mount := invalidateMount (invalidationsIn s.process process a) s.mount }

def App.step (s : App config.env queueNames β) :
    AppAction β → Option (App config.env queueNames β)
  | .http r now readings => (s.http ext options config packages r now readings).map Prod.fst
  | .react a => s.react ext options config a
  | .rebuilt id statusCode body now =>
      (s.mount.step config.env packages.router (.complete id statusCode body now)).map
        fun mount => { s with mount }

/-- Every run of the application in a process over `service`. -/
def app (queueNames : List JsString) (β : Type) (service : Service) :
    Automaton (App config.env queueNames β) (AppAction β) where
  start := .initial config.env queueNames β service
  step := App.step ext options config packages

end

variable {ext : External} {options : JobOptions} {config : AppConfig} {packages : Packages}

/-! ## What a step can do -/

/-- Everything a request can do, with the response it gets at once. -/
inductive App.Handled (ext : External) (options : JobOptions) (config : AppConfig)
    (packages : Packages) (r : HttpRequest) (now : Nat) (readings : Readings)
    (s : App config.env queueNames β) : App config.env queueNames β → Option (Response β) → Prop
  | answered (response : Response β) (pass : r.pass config packages readings = .answered response) :
      Handled ext options config packages r now readings s { s with clock := now } (some response)
  /-- By a handler that keeps no state. -/
  | replied (endpoint : Endpoint) (headers : Headers) (body : Json) (response : Response β)
      (pass : (r.pass config packages readings : Passed β) = .routed endpoint headers body)
      (unboarded : ∀ path, endpoint ≠ .board path) (unlimited : ∀ jobName, endpoint ≠ .job jobName)
      (serve : s.serve ext options config packages r now readings headers body endpoint =
        some ({ s with clock := now }, some response)) :
      Handled ext options config packages r now readings s { s with clock := now } (some response)
  | boarded (path : JsString) (headers : Headers) (body : Json)
      (pass : (r.pass config packages readings : Passed β) = .routed (.board path) headers body) :
      Handled ext options config packages r now readings s
        (s.dashboard config packages r path headers now).1
        (s.dashboard config packages r path headers now).2
  | limited (jobName : JobName) (headers : Headers) (body : Json)
      (t : App config.env queueNames β)
      (pass : (r.pass config packages readings : Passed β) = .routed (.job jobName) headers body)
      (verdict : s.verdict (r.limiterKey config packages) now ≠ .admitted)
      (counted : s.submit (r.limiterKey config packages) now = some t) :
      Handled ext options config packages r now readings s t (some (limitedResponse headers))
  | dispatched (jobName : JobName) (headers : Headers) (body : Json)
      (u t : App config.env queueNames β)
      (pass : (r.pass config packages readings : Passed β) = .routed (.job jobName) headers body)
      (verdict : s.verdict (r.limiterKey config packages) now = .admitted)
      (counted : s.submit (r.limiterKey config packages) now = some u)
      (begun : u.dispatch ext options (r.toJob jobName body now readings) headers = some t) :
      Handled ext options config packages r now readings s t none

theorem App.job_cases {r : HttpRequest} {jobName : JobName} {body : Json} {headers : Headers}
    {now : Nat} {readings : Readings} {s t : App config.env queueNames β}
    {response : Option (Response β)}
    (pass : (r.pass config packages readings : Passed β) = .routed (.job jobName) headers body)
    (h : s.job ext options config packages r jobName body headers now readings =
      some (t, response)) :
    App.Handled ext options config packages r now readings s t response := by
  obtain ⟨u, hcounted, hrest⟩ := Option.bind_eq_some_iff.1 h
  split at hrest
  · rename_i hverdict
    obtain ⟨v, hbegun, hpair⟩ := Option.map_eq_some_iff.1 hrest
    cases hpair
    exact .dispatched jobName headers body u t pass hverdict hcounted hbegun
  · rename_i hverdict
    cases hrest
    exact .limited jobName headers body t pass hverdict hcounted

/-- A request is taken by a server that accepts it, and not before an earlier one. -/
theorem App.http_cases {r : HttpRequest} {now : Nat} {readings : Readings}
    {s t : App config.env queueNames β} {response : Option (Response β)}
    (h : s.http ext options config packages r now readings = some (t, response)) :
    s.process.accepts = true ∧ s.clock ≤ now ∧
      App.Handled ext options config packages r now readings s t response := by
  unfold App.http at h
  split at h
  · rename_i hopen
    rw [Bool.and_eq_true, decide_eq_true_eq] at hopen
    refine ⟨hopen.1, hopen.2, ?_⟩
    split at h
    · rename_i response hpass
      cases h
      exact .answered response hpass
    · rename_i endpoint headers body hpass
      cases endpoint with
      | board path =>
          obtain ⟨rfl, rfl⟩ := Prod.mk.inj (Option.some.inj h)
          exact .boarded path headers body hpass
      | job jobName => exact App.job_cases hpass h
      | index =>
          cases h
          exact .replied .index headers body _ hpass nofun nofun rfl
      | health =>
          cases h
          exact .replied .health headers body _ hpass nofun nofun rfl
      | metrics =>
          cases h
          exact .replied .metrics headers body _ hpass nofun nofun rfl
      | webhookSink =>
          cases h
          exact .replied .webhookSink headers body _ hpass nofun nofun rfl
      | unserved =>
          cases h
          exact .replied .unserved headers body _ hpass nofun nofun rfl
  · cases h

theorem App.submit_eq_some {ip : JsString} {now : Nat} {s t : App env queueNames β}
    (h : s.submit ip now = some t) :
    ∃ intake, s.intake.step env ⟨ip, now⟩ = some intake ∧ t = s.charged ip now intake := by
  obtain ⟨intake, hintake, rfl⟩ := Option.map_eq_some_iff.1 h
  exact ⟨intake, hintake, rfl⟩

theorem App.dispatch_eq_some {request : JobRequest} {headers : Headers}
    {s t : App env queueNames β} (h : s.dispatch ext options request headers = some t) :
    ∃ process, s.process.step env ext options (.work (.receive request)) = some process ∧
      t = { s with
        process
        responses := s.responses.put s.process.service.received headers } := by
  obtain ⟨process, hprocess, rfl⟩ := Option.map_eq_some_iff.1 h
  exact ⟨process, hprocess, rfl⟩

theorem App.react_eq_some {a : ProcessAction} {s t : App config.env queueNames β}
    (h : s.react ext options config a = some t) :
    a.isReceive = false ∧ ∃ process, s.process.step config.env ext options a = some process ∧
      t = { s with
        process
        mount := invalidateMount (invalidationsIn s.process process a) s.mount } := by
  unfold App.react at h
  split at h
  · cases h
  · rename_i hother
    obtain ⟨process, hprocess, rfl⟩ := Option.map_eq_some_iff.1 h
    exact ⟨by simpa using hother, process, hprocess, rfl⟩

/-! ## The parts -/

theorem App.Handled.process {r : HttpRequest} {now : Nat} {readings : Readings}
    {s t : App config.env queueNames β} {response : Option (Response β)}
    (h : App.Handled ext options config packages r now readings s t response) :
    t.process = s.process ∨
      ∃ request, s.process.step config.env ext options (.work (.receive request)) =
        some t.process := by
  cases h with
  | answered => exact Or.inl rfl
  | replied => exact Or.inl rfl
  | boarded => exact Or.inl rfl
  | limited jobName headers body _ pass verdict counted =>
      obtain ⟨_, -, rfl⟩ := App.submit_eq_some counted
      exact Or.inl rfl
  | dispatched jobName headers body u _ pass verdict counted begun =>
      obtain ⟨_, -, rfl⟩ := App.submit_eq_some counted
      obtain ⟨process, hstep, rfl⟩ := App.dispatch_eq_some begun
      exact Or.inr ⟨_, hstep⟩

/-- A step leaves the service as it is, or is a step of it: a dispatch that a request begins,
or what the process does. -/
theorem App.service_step {s t : App config.env queueNames β} {a : AppAction β}
    (h : s.step ext options config packages a = some t) :
    t.process.service = s.process.service ∨
      ∃ action, (a = .react (.work action) ∨ ∃ request, action = .receive request) ∧
        s.process.service.step config.env ext options action = some t.process.service := by
  cases a with
  | http r now readings =>
      obtain ⟨⟨u, response⟩, hhttp, rfl⟩ := Option.map_eq_some_iff.1 h
      obtain ⟨-, -, hhandled⟩ := App.http_cases hhttp
      rcases hhandled.process with hsame | ⟨request, hstep⟩
      · exact Or.inl (congrArg Process.service hsame)
      · rcases Process.service_step hstep with ⟨-, hphase⟩ | ⟨action, haction, hservice⟩
        · exact absurd rfl (hphase _)
        · cases haction
          exact Or.inr ⟨_, Or.inr ⟨request, rfl⟩, hservice⟩
  | react a =>
      obtain ⟨-, process, hstep, rfl⟩ := App.react_eq_some h
      rcases Process.service_step hstep with ⟨hsame, -⟩ | ⟨action, rfl, hservice⟩
      · exact Or.inl hsame
      · exact Or.inr ⟨action, Or.inl rfl, hservice⟩
  | rebuilt id statusCode body now =>
      obtain ⟨mount, -, rfl⟩ := Option.map_eq_some_iff.1 h
      exact Or.inl rfl

theorem App.Handled.intake {r : HttpRequest} {now : Nat} {readings : Readings}
    {s t : App config.env queueNames β} {response : Option (Response β)}
    (h : App.Handled ext options config packages r now readings s t response) :
    t.intake = s.intake ∨
      s.intake.step config.env ⟨r.limiterKey config packages, now⟩ = some t.intake := by
  cases h with
  | answered => exact Or.inl rfl
  | replied => exact Or.inl rfl
  | boarded => exact Or.inl rfl
  | limited jobName headers body _ pass verdict counted =>
      obtain ⟨_, hstep, rfl⟩ := App.submit_eq_some counted
      exact Or.inr hstep
  | dispatched jobName headers body u _ pass verdict counted begun =>
      obtain ⟨_, hstep, rfl⟩ := App.submit_eq_some counted
      obtain ⟨process, -, rfl⟩ := App.dispatch_eq_some begun
      exact Or.inr hstep

/-- What it does to the dashboard is to pass its chain, or nothing. -/
theorem App.Handled.mount {r : HttpRequest} {now : Nat} {readings : Readings}
    {s t : App config.env queueNames β} {response : Option (Response β)}
    (h : App.Handled ext options config packages r now readings s t response) :
    t.mount = s.mount ∨
      ∃ path, t.mount =
        s.mount.request config.env packages.router (r.toBoard config packages path) now := by
  cases h with
  | answered => exact Or.inl rfl
  | replied => exact Or.inl rfl
  | boarded path => exact Or.inr ⟨path, rfl⟩
  | limited jobName headers body _ pass verdict counted =>
      obtain ⟨_, -, rfl⟩ := App.submit_eq_some counted
      exact Or.inl rfl
  | dispatched jobName headers body u _ pass verdict counted begun =>
      obtain ⟨_, -, rfl⟩ := App.submit_eq_some counted
      obtain ⟨process, -, rfl⟩ := App.dispatch_eq_some begun
      exact Or.inl rfl

theorem invalidateMount_run (env : Environment) (router : Dashboard.Router)
    {dashboardLimiter : Limiter} (n : Nat) (m : Mount dashboardLimiter queueNames β) :
    (mounted env router dashboardLimiter queueNames β).run m
      (List.replicate n .invalidate) = some (invalidateMount n m) := by
  induction n generalizing m with
  | zero => rfl
  | succ n ih =>
      rw [List.replicate_succ]
      exact (Automaton.run_cons_eq_some _).2 ⟨_, rfl, ih _⟩

section

variable (ext options config packages queueNames β) (service : Service)

/-- The application moves its process by the process's own steps. -/
def processView :
    Projection (app ext options config packages queueNames β service)
      (process config.env ext options service) where
  view := App.process
  start := rfl
  step := by
    intro s a t h
    cases a with
    | http r now readings =>
        obtain ⟨⟨u, response⟩, hhttp, rfl⟩ := Option.map_eq_some_iff.1 h
        obtain ⟨-, -, hhandled⟩ := App.http_cases hhttp
        rcases hhandled.process with hsame | ⟨request, hstep⟩
        · exact ⟨[], by rw [Automaton.run_nil, hsame]⟩
        · have hone : (process config.env ext options service).step s.process
              (.work (.receive request)) = some u.process := hstep
          exact ⟨[_], (Automaton.run_cons_eq_some _).2 ⟨_, hone, rfl⟩⟩
    | react a =>
        obtain ⟨-, process', hstep, rfl⟩ := App.react_eq_some h
        have hone : (process config.env ext options service).step s.process a = some process' :=
          hstep
        exact ⟨[a], (Automaton.run_cons_eq_some _).2 ⟨_, hone, rfl⟩⟩
    | rebuilt id statusCode body now =>
        obtain ⟨mount, -, rfl⟩ := Option.map_eq_some_iff.1 h
        exact ⟨[], rfl⟩

/-- The submissions of the job routes are those of the intake limiters. -/
def intakeView :
    Projection (app ext options config packages queueNames β service) (intake config.env) where
  view := App.intake
  start := rfl
  step := by
    intro s a t h
    cases a with
    | http r now readings =>
        obtain ⟨⟨u, response⟩, hhttp, rfl⟩ := Option.map_eq_some_iff.1 h
        obtain ⟨-, -, hhandled⟩ := App.http_cases hhttp
        rcases hhandled.intake with hsame | hstep
        · exact ⟨[], by rw [Automaton.run_nil, hsame]⟩
        · have hone : (intake config.env).step s.intake ⟨r.limiterKey config packages, now⟩ =
              some u.intake := hstep
          exact ⟨[_], (Automaton.run_cons_eq_some _).2 ⟨_, hone, rfl⟩⟩
    | react a =>
        obtain ⟨-, process, -, rfl⟩ := App.react_eq_some h
        exact ⟨[], rfl⟩
    | rebuilt id statusCode body now =>
        obtain ⟨mount, -, rfl⟩ := Option.map_eq_some_iff.1 h
        exact ⟨[], rfl⟩

/-- The requests below the mount point, the rebuilds and the invalidations are those
of the mounted dashboard. -/
def mountView :
    Projection (app ext options config packages queueNames β service)
      (mounted config.env packages.router (boardLimiter config.env) queueNames β) where
  view := App.mount
  start := rfl
  step := by
    intro s a t h
    cases a with
    | http r now readings =>
        obtain ⟨⟨u, response⟩, hhttp, rfl⟩ := Option.map_eq_some_iff.1 h
        obtain ⟨-, -, hhandled⟩ := App.http_cases hhttp
        rcases hhandled.mount with hsame | ⟨path, hmount⟩
        · exact ⟨[], by rw [Automaton.run_nil, hsame]⟩
        · exact ⟨[.request (r.toBoard config packages path) now],
            (Automaton.run_cons_eq_some _).2 ⟨_, rfl, by rw [Automaton.run_nil, hmount]⟩⟩
    | react a =>
        obtain ⟨-, process, -, rfl⟩ := App.react_eq_some h
        exact ⟨_, invalidateMount_run config.env packages.router _ s.mount⟩
    | rebuilt id statusCode body now =>
        obtain ⟨mount, hmount, rfl⟩ := Option.map_eq_some_iff.1 h
        have hone : (mounted config.env packages.router (boardLimiter config.env) queueNames
            β).step s.mount (.complete id statusCode body now) = some mount := hmount
        exact ⟨[_], (Automaton.run_cons_eq_some _).2 ⟨_, hone, rfl⟩⟩

end

/-! ## Dispatches of the process -/

theorem Service.received_step {s t : Service} {a : ServiceAction}
    (h : s.step env ext options a = some t) :
    t.received = s.received + if (ProcessAction.work a).isReceive then 1 else 0 := by
  cases Service.step_cases h with
  | failed => exact Service.failed_received _ _ _ _ _
  | failedDeferred => exact Service.failed_received _ _ _ _ _
  | _ => rfl

/-- Only a request begins a dispatch. -/
theorem Process.received_step {p q : Process} {a : ProcessAction}
    (h : p.step env ext options a = some q) :
    q.service.received = p.service.received + if a.isReceive then 1 else 0 := by
  rcases Process.service_step h with ⟨hservice, hphase⟩ | ⟨action, rfl, hstep⟩
  · cases a with
    | work action => exact absurd rfl (hphase action)
    | _ =>
        rw [hservice]
        rfl
  · exact Service.received_step hstep

/-! ## The packages -/

/-- What `helmet` sets, but for the two policies that are turned off. -/
def helmetHeaders : Headers :=
  [(js "Cross-Origin-Opener-Policy", js "same-origin"),
    (js "Cross-Origin-Resource-Policy", js "same-origin"),
    (js "Origin-Agent-Cluster", js "?1"),
    (js "Referrer-Policy", js "no-referrer"),
    (js "Strict-Transport-Security", js "max-age=31536000; includeSubDomains"),
    (js "X-Content-Type-Options", js "nosniff"),
    (js "X-DNS-Prefetch-Control", js "off"),
    (js "X-Download-Options", js "noopen"),
    (js "X-Frame-Options", js "SAMEORIGIN"),
    (js "X-Permitted-Cross-Domain-Policies", js "none"),
    (js "X-XSS-Protection", js "0")]

/-- The packages with their documented behaviour, over the digests of a few texts. -/
def expressPackages : Packages where
  forwarded := expressForwarded
  json := expressJson 16384
  helmet := helmetHeaders
  helmet_names := by decide
  helmet_allow := by decide
  rateLimitKey := id
  sha256 := knownDigest
  fromBase64 := Base64.decode
  router := Dashboard.expressRouter

def AppConfig.default : AppConfig where
  env := .default
  trustProxyHops := 1
  corsAllowedOrigins := parseOriginList (js "https://slakedesign.com,https://www.slakedesign.com")
  admin := ⟨[], []⟩
  isExplicitDevelopment := false

def steadyReadings : Readings where
  randomUUID := (unavailableRequest [] []).randomUUID
  redis := .ready
  sqlite := true
  metrics := none
  timestamp := js "2026-01-01T00:00:00.000Z"

def emptyEmailRequest : HttpRequest where
  method := js "POST"
  path := js "/api/jobs/email"
  query := []
  remoteAddress := js "10.0.0.9"
  forwardedFor := some (js "203.0.113.7")
  origin := none
  correlationId := none
  authorization := none
  contentType := none
  body := []

def firstRequests : List (AppAction Nat) :=
  [.react .listening, .http emptyEmailRequest 5 steadyReadings,
    .http emptyEmailRequest 7 steadyReadings]

end TaskQueue

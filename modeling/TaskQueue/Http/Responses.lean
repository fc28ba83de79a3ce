import TaskQueue.Http.System

/-!
# What every response carries

The middlewares set the correlation id and the headers of the origin before any route
is matched, and what comes later adds to the headers but replaces none of these.  A
dispatch is answered when it has settled, which may be many steps after its request.
-/

namespace TaskQueue

open Ecma JobQueue
open Dashboard (Refusal Outcome Answer dashboardChain dashboardReadOnlyGuard blockRedisStatsRoute
  rateLimitMessage)

/-! ## Headers -/

def Headers.Neutral (headers : Headers) : Prop :=
  ∀ h ∈ headers, h.1 ≠ correlationHeaderName ∧ h.1 ≠ accessControlAllowOrigin

theorem Headers.get_append (headers more : Headers) (name : JsString) :
    Headers.get (headers ++ more) name = (headers.get name).or (more.get name) := by
  unfold Headers.get
  rw [List.find?_append, Option.map_or]

theorem Headers.get_eq_none {headers : Headers} {name : JsString}
    (h : ∀ x ∈ headers, x.1 ≠ name) : headers.get name = none := by
  unfold Headers.get
  rw [Option.map_eq_none_iff, List.find?_eq_none]
  intro x hx
  simpa using h x hx

theorem Headers.neutral_of_names {headers : Headers}
    (h : ∀ name ∈ headers.map Prod.fst,
      name ≠ correlationHeaderName ∧ name ≠ accessControlAllowOrigin) : headers.Neutral :=
  fun _ hx => h _ (List.mem_map_of_mem hx)

theorem Headers.neutral_nil : Headers.Neutral [] := fun _ h => absurd h List.not_mem_nil

def Headers.correlations (headers : Headers) : Headers :=
  headers.filter fun h => h.1 == correlationHeaderName

theorem Headers.correlations_append (headers more : Headers) :
    Headers.correlations (headers ++ more) = headers.correlations ++ more.correlations :=
  List.filter_append _ _

theorem Headers.Neutral.correlations {headers : Headers} (h : headers.Neutral) :
    headers.correlations = [] := by
  unfold Headers.correlations
  rw [List.filter_eq_nil_iff]
  intro x hx
  simpa using (h x hx).1

theorem Headers.Neutral.get {headers : Headers} (h : headers.Neutral) :
    headers.get accessControlAllowOrigin = none :=
  Headers.get_eq_none fun x hx => (h x hx).2

/-- The headers have the id of the request's scope, once, and grant the use of the response
exactly to a listed origin. -/
structure Tagged (config : AppConfig) (r : HttpRequest) (readings : Readings)
    (headers : Headers) : Prop where
  correlations : headers.correlations =
    [(correlationHeaderName, correlationMiddleware r.correlationId readings.randomUUID)]
  origin : ∀ value, headers.get accessControlAllowOrigin = some value ↔
    GrantedTo config.corsAllowedOrigins r.origin value

variable {ext : External} {options : JobOptions} {config : AppConfig} {packages : Packages}
  {queueNames : List JsString} {β : Type} {r : HttpRequest} {readings : Readings}

theorem Tagged.append {headers more : Headers} (h : Tagged config r readings headers)
    (hmore : more.Neutral) : Tagged config r readings (headers ++ more) where
  correlations := by
    rw [Headers.correlations_append, h.correlations, hmore.correlations, List.append_nil]
  origin := by
    intro value
    rw [Headers.get_append, hmore.get, Option.or_none]
    exact h.origin value

theorem Tagged.get {headers : Headers} (h : Tagged config r readings headers) :
    headers.get correlationHeaderName =
      some (correlationMiddleware r.correlationId readings.randomUUID) := by
  unfold Headers.get
  rw [← List.head?_filter]
  exact congrArg (fun hs => (List.head? hs).map Prod.snd) h.correlations

/-! ## The middlewares -/

theorem corsMiddleware_headers {corsAllowedOrigins : List JsString} {method : JsString}
    {origin : Option JsString} :
    (corsMiddleware corsAllowedOrigins method origin).headers.correlations = [] := by
  have hgrant : ∀ value, Headers.correlations (grantHeaders value) = [] := fun _ => rfl
  unfold corsMiddleware
  dsimp only
  split
  · split <;> rfl
  · split
    · split
      · exact hgrant _
      · exact hgrant _
    · split <;> rfl

theorem tagged_cors (config : AppConfig) (packages : Packages) (r : HttpRequest)
    (readings : Readings) :
    Tagged config r readings (r.baseHeaders packages readings ++
      (corsMiddleware config.corsAllowedOrigins r.method r.origin).headers) where
  correlations := by
    have hhelmet : Headers.correlations packages.helmet = [] :=
      Headers.Neutral.correlations packages.helmet_names
    rw [Headers.correlations_append, corsMiddleware_headers, HttpRequest.baseHeaders,
      Headers.correlations_append, hhelmet]
    rfl
  origin := by
    intro value
    have hhelmet : Headers.get packages.helmet accessControlAllowOrigin = none :=
      Headers.Neutral.get packages.helmet_names
    have hid : Headers.get [(correlationHeaderName,
        correlationMiddleware r.correlationId readings.randomUUID)] accessControlAllowOrigin =
        none := rfl
    rw [Headers.get_append, HttpRequest.baseHeaders, Headers.get_append, hhelmet, hid]
    exact allowOrigin_eq_some_iff

def Passed.headers : Passed β → Headers
  | .answered response => response.headers
  | .routed _ headers _ => headers

theorem tagged_pass (β : Type) (config : AppConfig) (packages : Packages) (r : HttpRequest)
    (readings : Readings) :
    Tagged config r readings (r.pass config packages readings : Passed β).headers := by
  have htagged := tagged_cors config packages r readings
  unfold HttpRequest.pass
  dsimp only
  cases hcors : corsMiddleware config.corsAllowedOrigins r.method r.origin with
  | noContent headers =>
      rw [hcors] at htagged
      exact htagged
  | refused refusal =>
      rw [hcors] at htagged
      exact htagged
  | next headers =>
      rw [hcors] at htagged
      simp only [HttpRequest.parsed]
      cases packages.json.parse r.contentType r.body with
      | error error => exact htagged
      | ok body => exact htagged

/-! ## The routes -/

theorem requireAdminAuth_headers {authorization : Option JsString} {refusal : Refusal}
    (h : requireAdminAuth packages.sha256 packages.fromBase64 config.admin authorization =
      some refusal) : Headers.Neutral refusal.headers := by
  have hnames : ∀ name ∈ [js "WWW-Authenticate"],
      name ≠ correlationHeaderName ∧ name ≠ accessControlAllowOrigin := by decide
  have hchallenge : ∀ error, Headers.Neutral (unauthorized error).headers := fun _ =>
    Headers.neutral_of_names hnames
  unfold requireAdminAuth at h
  dsimp only at h
  split at h
  · obtain rfl := Option.some.inj h
    exact Headers.neutral_nil
  · split at h
    · obtain rfl := Option.some.inj h
      exact hchallenge _
    · split at h
      · obtain rfl := Option.some.inj h
        exact hchallenge _
      · cases h

theorem tagged_metricsHandler {headers : Headers} (h : Tagged config r readings headers) :
    Tagged config r readings (metricsHandler readings headers : Response β).headers := by
  unfold metricsHandler
  split
  · have hnames : ∀ name ∈ [js "Content-Type"],
        name ≠ correlationHeaderName ∧ name ≠ accessControlAllowOrigin := by decide
    exact h.append (Headers.neutral_of_names hnames)
  · exact h

theorem tagged_metricsRoute {headers : Headers} (h : Tagged config r readings headers) :
    Tagged config r readings (metricsRoute config packages r readings headers :
      Response β).headers := by
  unfold metricsRoute
  split
  · exact tagged_metricsHandler h
  · split
    · rename_i refusal hrefusal
      exact h.append (requireAdminAuth_headers hrefusal)
    · exact tagged_metricsHandler h

theorem tagged_sinkHandler {headers : Headers} (h : Tagged config r readings headers) :
    Tagged config r readings (sinkHandler config packages r readings headers :
      Response β).headers := by
  unfold sinkHandler
  split
  · exact h
  · exact h

theorem dashboardChain_neutral (env : Environment) (queueNames : List JsString)
    {dashboardLimiter : Dashboard.Limiter} (req : Dashboard.Request) (now : Nat)
    (limits : dashboardLimiter.State)
    (cache : Dashboard.CacheState β) :
    match (dashboardChain env queueNames dashboardLimiter req now limits cache).1 with
    | .refused refusal => Headers.Neutral refusal.headers
    | .handled _ => True := by
  unfold dashboardChain
  cases hguard : dashboardReadOnlyGuard req with
  | some refusal =>
      unfold dashboardReadOnlyGuard at hguard
      split at hguard
      · cases hguard
      · obtain rfl := Option.some.inj hguard
        have hnames : ∀ name ∈ [js "Allow"],
            name ≠ correlationHeaderName ∧ name ≠ accessControlAllowOrigin := by decide
        exact Headers.neutral_of_names hnames
  | none =>
      cases hstats : blockRedisStatsRoute req with
      | some refusal =>
          unfold blockRedisStatsRoute at hstats
          split at hstats
          · obtain rfl := Option.some.inj hstats
            exact Headers.neutral_nil
          · cases hstats
      | none =>
          dsimp only
          split
          · rename_i refusal hout
            split at hout
            · cases hout
            · obtain rfl := Outcome.refused.inj hout
              exact Headers.neutral_nil
          · trivial

theorem Answer.headers_neutral (env : Environment) (answer : Answer queueNames β) :
    Headers.Neutral (answer.headers env) := by
  have hnames : ∀ name ∈ [js "X-Dashboard-Snapshot", js "Cache-Control", js "Retry-After"],
      name ≠ correlationHeaderName ∧ name ≠ accessControlAllowOrigin := by decide
  refine Headers.neutral_of_names fun name hname => hnames name ?_
  cases answer with
  | shed => exact hname
  | _ =>
      simp only [Answer.headers, List.map_cons, List.map_nil, List.mem_cons, List.not_mem_nil,
        or_false] at hname
      rcases hname with rfl | rfl
      · exact List.mem_cons_self
      · exact List.mem_cons_of_mem _ List.mem_cons_self

theorem tagged_dashboard {headers : Headers} (h : Tagged config r readings headers)
    {s : App config.env queueNames β} {path : JsString} {now : Nat} {response : Response β}
    (hresponse : (s.dashboard config packages r path headers now).2 = some response) :
    Tagged config r readings response.headers := by
  have hneutral := dashboardChain_neutral config.env queueNames
    (r.toBoard config packages path) now s.mount.limits s.mount.board.cache
  unfold App.dashboard boardResponse at hresponse
  dsimp only at hresponse
  split at hresponse
  · rename_i refusal hout
    rw [hout] at hneutral
    obtain rfl := Option.some.inj hresponse
    exact h.append hneutral
  · obtain ⟨reply, -, rfl⟩ := Option.map_eq_some_iff.1 hresponse
    exact h.append (Answer.headers_neutral config.env _)
  · cases hresponse

/-- Whatever is sent at once is tagged. -/
theorem App.Handled.tagged {s t : App config.env queueNames β} {now : Nat} {response : Response β}
    (h : App.Handled ext options config packages r now readings s t (some response)) :
    Tagged config r readings response.headers := by
  have hpass := tagged_pass β config packages r readings
  generalize hsent : some response = sent at h
  cases h with
  | answered response' pass =>
      obtain rfl := Option.some.inj hsent
      rw [pass] at hpass
      exact hpass
  | replied endpoint headers body response' pass unboarded unlimited serve =>
      obtain rfl := Option.some.inj hsent
      rw [pass] at hpass
      cases endpoint with
      | index =>
          cases serve
          exact hpass
      | board path => exact absurd rfl (unboarded path)
      | health =>
          cases serve
          exact hpass
      | metrics =>
          cases serve
          exact tagged_metricsRoute hpass
      | job jobName => exact absurd rfl (unlimited jobName)
      | webhookSink =>
          cases serve
          exact tagged_sinkHandler hpass
      | unserved =>
          cases serve
          exact hpass
  | boarded path headers body pass =>
      rw [pass] at hpass
      exact tagged_dashboard hpass hsent.symm
  | limited jobName headers body _ pass =>
      obtain rfl := Option.some.inj hsent
      rw [pass] at hpass
      exact hpass
  | dispatched => cases hsent

/-! ## What a response holds -/

/-- Neither the answer of the sink nor one of the dashboard's cache. -/
def Content.isPlain : Content β → Bool
  | .received _ => false
  | .board _ => false
  | _ => true

theorem errorHandler_content (error : HttpError) :
    ∃ text, (errorHandler (.http error) : Nat × Content β).2 = .error text := by
  unfold errorHandler
  dsimp only
  split
  · exact ⟨_, rfl⟩
  · split
    · exact ⟨_, rfl⟩
    · exact ⟨_, rfl⟩

theorem content_pass {x : Response β}
    (h : (r.pass config packages readings : Passed β) = .answered x) :
    x.content = .empty ∨ ∃ text, x.content = .error text := by
  unfold HttpRequest.pass at h
  dsimp only at h
  split at h
  · obtain rfl := Passed.answered.inj h
    exact Or.inl rfl
  · obtain rfl := Passed.answered.inj h
    exact Or.inr ⟨_, rfl⟩
  · unfold HttpRequest.parsed at h
    split at h
    · obtain rfl := Passed.answered.inj h
      exact Or.inr (errorHandler_content _)
    · cases h

theorem plain_pass {x : Response β}
    (h : (r.pass config packages readings : Passed β) = .answered x) :
    x.content.isPlain = true := by
  rcases content_pass h with hempty | ⟨text, herror⟩
  · rw [hempty]
    rfl
  · rw [herror]
    rfl

theorem plain_metricsRoute (headers : Headers) :
    (metricsRoute config packages r readings headers : Response β).content.isPlain = true := by
  have hhandler : (metricsHandler readings headers : Response β).content.isPlain = true := by
    unfold metricsHandler
    split <;> rfl
  unfold metricsRoute
  split
  · exact hhandler
  · split
    · rfl
    · exact hhandler

/-- The sink answers a loopback address, and others like any other route. -/
theorem sinkHandler_content (headers : Headers) :
    (sinkHandler config packages r readings headers : Response β).content.isPlain = true ∨
      r.ip config packages ∈ loopbackAddresses := by
  unfold sinkHandler
  split
  · rename_i hcontains
    exact Or.inr (List.contains_iff_mem.1 hcontains)
  · exact Or.inl rfl

/-- A response that is sent at once is plain, or the sink's to a loopback address, or made by
the dashboard's chain. -/
theorem App.Handled.content {s t : App config.env queueNames β} {now : Nat} {x : Response β}
    (h : App.Handled ext options config packages r now readings s t (some x)) :
    x.content.isPlain = true ∨
      (∃ timestamp, x.content = .received timestamp ∧ r.ip config packages ∈ loopbackAddresses) ∨
      ∃ path headers, boardResponse config headers
        (dashboardChain config.env queueNames (boardLimiter config.env)
          (r.toBoard config packages path) now s.mount.limits s.mount.board.cache).1 = some x := by
  obtain ⟨sent, hsent⟩ : ∃ sent, some x = sent := ⟨_, rfl⟩
  rw [hsent] at h
  cases h with
  | answered answer pass =>
      obtain rfl := Option.some.inj hsent
      exact Or.inl (plain_pass pass)
  | replied endpoint headers body answer pass unboarded unlimited serve =>
      obtain rfl := Option.some.inj hsent
      cases endpoint with
      | webhookSink =>
          obtain rfl := Option.some.inj (Prod.mk.inj (Option.some.inj serve)).2
          have hsink : (sinkHandler config packages r readings headers : Response β).content.isPlain
              = true ∨ r.ip config packages ∈ loopbackAddresses := sinkHandler_content headers
          rcases hsink with hplain | hlocal
          · exact Or.inl hplain
          · refine Or.inr (Or.inl ⟨readings.timestamp, ?_, hlocal⟩)
            rw [sinkHandler, if_pos (List.contains_iff_mem.2 hlocal)]
      | metrics =>
          obtain rfl := Option.some.inj (Prod.mk.inj (Option.some.inj serve)).2
          exact Or.inl (plain_metricsRoute headers)
      | board path => exact absurd rfl (unboarded path)
      | job jobName => exact absurd rfl (unlimited jobName)
      | _ =>
          obtain rfl := Option.some.inj (Prod.mk.inj (Option.some.inj serve)).2
          exact Or.inl rfl
  | boarded path headers body pass => exact Or.inr (Or.inr ⟨path, headers, hsent.symm⟩)
  | limited jobName headers body _ pass verdict counted =>
      obtain rfl := Option.some.inj hsent
      exact Or.inl rfl
  | dispatched => cases hsent

/-- What the chain answers itself is a refusal, or a reply of the cache with its headers. -/
theorem boardResponse_cases {headers : Headers} {out : Outcome queueNames β} {x : Response β}
    (h : boardResponse config headers out = some x) :
    (∃ refusal : Dashboard.Refusal, x.content = .error refusal.error) ∨
      ∃ req answer payload, out = .handled (.polled req answer) ∧
        x.headers = headers ++ answer.headers config.env ∧
        answer.reply = some (x.statusCode, payload) ∧ x.content = .board payload := by
  unfold boardResponse at h
  split at h
  · rename_i refusal
    obtain rfl := Option.some.inj h
    exact Or.inl ⟨refusal, rfl⟩
  · rename_i req answer
    obtain ⟨reply, hreply, rfl⟩ := Option.map_eq_some_iff.1 h
    exact Or.inr ⟨req, answer, reply.2, rfl, rfl, hreply, rfl⟩
  · cases h

/-! ## Dispatches -/

/-- A dispatch begun for a request, and the headers its response is to have. -/
structure App.Begun (d : Nat) (request : JobRequest) (headers : Headers)
    (s : App config.env queueNames β) : Prop where
  number : d < s.process.service.received
  dispatch : ∃ step, s.process.service.dispatches.get d = some (request, step)
  headers : s.responses.get d = some headers

theorem Process.dispatch_kept {env : Environment} {p q : Process} {a : ProcessAction}
    (h : p.step env ext options a = some q) {d : Nat} (hd : d < p.service.received)
    {request : JobRequest} {step : DispatchStep}
    (hget : p.service.dispatches.get d = some (request, step)) :
    ∃ step', q.service.dispatches.get d = some (request, step') ∧
      ∀ reply, request.reply step = some reply → step' = step := by
  rcases Process.service_step h with ⟨hservice, -⟩ | ⟨action, rfl, hstep⟩
  · exact ⟨step, by rw [hservice]; exact hget, fun _ _ => rfl⟩
  · refine Service.dispatch_kept hstep ?_ hd hget
    rintro rfl
    -- A process that dies is not the one that is started again.
    obtain ⟨-, hwork⟩ := Option.ite_none_left_eq_some.1 h
    obtain ⟨hpermits, -⟩ := Process.work_eq_some hwork
    cases hpermits

theorem App.step_dispatches {s t : App config.env queueNames β} {a : AppAction β}
    (h : s.step ext options config packages a = some t) :
    (t.process = s.process ∧ t.responses = s.responses) ∨
    (∃ action, action.isReceive = false ∧
      s.process.step config.env ext options action = some t.process ∧
      t.responses = s.responses) ∨
    (∃ request headers,
      s.process.step config.env ext options (.work (.receive request)) = some t.process ∧
      t.responses = s.responses.put s.process.service.received headers) := by
  cases a with
  | http r now readings =>
      obtain ⟨⟨u, response⟩, hhttp, rfl⟩ := Option.map_eq_some_iff.1 h
      obtain ⟨-, -, hhandled⟩ := App.http_cases hhttp
      cases hhandled with
      | answered => exact Or.inl ⟨rfl, rfl⟩
      | replied => exact Or.inl ⟨rfl, rfl⟩
      | boarded => exact Or.inl ⟨rfl, rfl⟩
      | limited jobName headers body _ pass verdict counted =>
          obtain ⟨_, -, rfl⟩ := App.submit_eq_some counted
          exact Or.inl ⟨rfl, rfl⟩
      | dispatched jobName headers body _ _ pass verdict counted begun =>
          obtain ⟨_, -, rfl⟩ := App.submit_eq_some counted
          obtain ⟨_, hstep, rfl⟩ := App.dispatch_eq_some begun
          exact Or.inr (Or.inr ⟨_, headers, hstep, rfl⟩)
  | react a =>
      obtain ⟨hother, _, hstep, rfl⟩ := App.react_eq_some h
      exact Or.inr (Or.inl ⟨a, hother, hstep, rfl⟩)
  | rebuilt id statusCode body now =>
      obtain ⟨mount, -, rfl⟩ := Option.map_eq_some_iff.1 h
      exact Or.inl ⟨rfl, rfl⟩

theorem App.Begun.step {d : Nat} {request : JobRequest} {headers : Headers}
    {s t : App config.env queueNames β} (hs : s.Begun d request headers) {a : AppAction β}
    (h : s.step ext options config packages a = some t) : t.Begun d request headers := by
  obtain ⟨hnumber, ⟨step, hget⟩, hheaders⟩ := hs
  rcases App.step_dispatches h with ⟨hprocess, hresponses⟩ | ⟨action, -, hstep, hresponses⟩ |
    ⟨request', headers', hstep, hresponses⟩
  · exact ⟨by rwa [hprocess], ⟨step, by rwa [hprocess]⟩, by rwa [hresponses]⟩
  · obtain ⟨step', hget', -⟩ := Process.dispatch_kept hstep hnumber hget
    have hreceived := Process.received_step hstep
    exact ⟨by omega, ⟨step', hget'⟩, by rwa [hresponses]⟩
  · obtain ⟨step', hget', -⟩ := Process.dispatch_kept hstep hnumber hget
    have hreceived := Process.received_step hstep
    have hne : d ≠ s.process.service.received := Nat.ne_of_lt hnumber
    refine ⟨by omega, ⟨step', hget'⟩, ?_⟩
    rw [hresponses, Table.get_put_of_ne _ _ hne]
    exact hheaders

theorem App.Begun.run {d : Nat} {request : JobRequest} {headers : Headers} {service : Service}
    {s t : App config.env queueNames β} (hs : s.Begun d request headers)
    {as : List (AppAction β)}
    (hrun : (app ext options config packages queueNames β service).run s as = some t) :
    t.Begun d request headers :=
  Automaton.run_preserves (I := App.Begun d request headers) (fun _ _ _ h hstep => h.step hstep)
    hs hrun

theorem App.Begun.settled_step {d : Nat} {request : JobRequest} {headers : Headers}
    {s t : App config.env queueNames β} (hs : s.Begun d request headers) {x : Response β}
    (hx : s.settled d = some x) {a : AppAction β}
    (h : s.step ext options config packages a = some t) : t.settled d = some x := by
  have ht := hs.step h
  obtain ⟨step, hget⟩ := hs.dispatch
  have hkept : t.process.service.dispatches.get d = some (request, step) := by
    unfold App.settled at hx
    rw [hget] at hx
    obtain ⟨reply, hreply, -⟩ := Option.map_eq_some_iff.1 hx
    rcases App.step_dispatches h with ⟨hprocess, -⟩ | ⟨action, -, hstep, -⟩ | ⟨_, _, hstep, -⟩
    · rwa [hprocess]
    · obtain ⟨step', hget', hsame⟩ := Process.dispatch_kept hstep hs.number hget
      rwa [hsame reply hreply] at hget'
    · obtain ⟨step', hget', hsame⟩ := Process.dispatch_kept hstep hs.number hget
      rwa [hsame reply hreply] at hget'
  unfold App.settled at hx ⊢
  rw [hkept, ht.headers]
  rwa [hget, hs.headers] at hx

theorem App.Begun.settled_run {d : Nat} {request : JobRequest} {headers : Headers}
    {service : Service} {s t : App config.env queueNames β} (hs : s.Begun d request headers)
    {x : Response β} (hx : s.settled d = some x) {as : List (AppAction β)}
    (hrun : (app ext options config packages queueNames β service).run s as = some t) :
    t.settled d = some x :=
  (Automaton.run_preserves (I := fun s => App.Begun d request headers s ∧ s.settled d = some x)
    (fun _ _ _ h hstep => ⟨h.1.step hstep, h.1.settled_step h.2 hstep⟩) ⟨hs, hx⟩ hrun).2

theorem Process.receive_eq_some {env : Environment} {p q : Process} {request : JobRequest}
    (h : p.step env ext options (.work (.receive request)) = some q) :
    q.service = p.service.receive env ext request := by
  rcases Process.service_step h with ⟨-, hphase⟩ | ⟨action, haction, hstep⟩
  · exact absurd rfl (hphase _)
  · cases haction
    exact (Option.some.inj hstep).symm

/-- A request that begins a dispatch is one of a job route, and is answered later. -/
theorem App.Handled.begun {s t : App config.env queueNames β} {now : Nat}
    {response : Option (Response β)}
    (h : App.Handled ext options config packages r now readings s t response)
    (hreceived : t.process.service.received ≠ s.process.service.received) :
    ∃ jobName headers body,
      (r.pass config packages readings : Passed β) = .routed (.job jobName) headers body ∧
      response = none ∧
      t.Begun s.process.service.received (r.toJob jobName body now readings) headers ∧
      t.process.service.dispatches.get s.process.service.received =
        some (r.toJob jobName body now readings,
          (r.toJob jobName body now readings).dispatch config.env ext.isEmail
            s.process.service.depthCache) := by
  cases h with
  | answered => exact absurd rfl hreceived
  | replied => exact absurd rfl hreceived
  | boarded => exact absurd rfl hreceived
  | limited jobName headers body _ pass verdict counted =>
      obtain ⟨_, -, rfl⟩ := App.submit_eq_some counted
      exact absurd rfl hreceived
  | dispatched jobName headers body _ _ pass verdict counted begun =>
      obtain ⟨_, -, rfl⟩ := App.submit_eq_some counted
      obtain ⟨process, hstep, rfl⟩ := App.dispatch_eq_some begun
      have hservice := Process.receive_eq_some hstep
      have hget : process.service.dispatches.get s.process.service.received =
          some (r.toJob jobName body now readings,
            (r.toJob jobName body now readings).dispatch config.env ext.isEmail
              s.process.service.depthCache) := by
        rw [hservice]
        exact Table.get_put_self _ _ _
      refine ⟨jobName, headers, body, pass, rfl, ⟨?_, ⟨_, hget⟩, ?_⟩, hget⟩
      · show s.process.service.received < process.service.received
        rw [hservice]
        exact Nat.lt_succ_self _
      · exact Table.get_put_self _ _ _

/-- What a dispatch is answered with, in any run after its request, is tagged as the request
is, and a `202` tells the id of the request. -/
theorem App.Handled.settled {s t u : App config.env queueNames β} {now : Nat}
    {response : Option (Response β)}
    (h : App.Handled ext options config packages r now readings s t response)
    (hreceived : t.process.service.received ≠ s.process.service.received) {service : Service}
    {as : List (AppAction β)}
    (hrun : (app ext options config packages queueNames β service).run t as = some u)
    {x : Response β} (hx : u.settled s.process.service.received = some x) :
    Tagged config r readings x.headers ∧
      ∀ body, x.content = .intake (.accepted body) →
        x.headers.get correlationHeaderName = some body.correlationId := by
  obtain ⟨jobName, headers, body, hpass, -, hbegun, -⟩ := h.begun hreceived
  have htagged := tagged_pass β config packages r readings
  rw [hpass] at htagged
  obtain ⟨-, ⟨step, hget⟩, hheaders⟩ := hbegun.run hrun
  -- The dispatch is still that of the request, and so are its headers.
  unfold App.settled at hx
  rw [hget, hheaders] at hx
  obtain ⟨reply, hreply, rfl⟩ := Option.map_eq_some_iff.1 hx
  refine ⟨htagged, fun accepted haccepted => ?_⟩
  obtain rfl : reply = .accepted accepted := Content.intake.inj haccepted
  obtain ⟨job, -, rfl⟩ := JobRequest.reply_eq_accepted.1 hreply
  rw [JobRequest.accepted_correlationId]
  exact htagged.get

/-! ## Every response -/

/-- Whatever the request, and however the run goes on: the response the application gives it
itself, at once or when its dispatch has settled, has the id of its scope once, in its normal
form, and grants the use of itself exactly to a listed origin; and the id that a `202` tells in
its body is the one in its headers.  What Bull Board answers, when the dashboard's chain passes
a request on to it, is no response of the model. -/
theorem responses_tagged {s t : App config.env queueNames β} {now : Nat}
    {response : Option (Response β)}
    (h : s.http ext options config packages r now readings = some (t, response)) :
    NormalId (correlationMiddleware r.correlationId readings.randomUUID) ∧
      (∀ x, response = some x → Tagged config r readings x.headers) ∧
      (t.process.service.received ≠ s.process.service.received →
        ∀ service as u x,
          (app ext options config packages queueNames β service).run t as = some u →
          u.settled s.process.service.received = some x →
          Tagged config r readings x.headers ∧
            ∀ body, x.content = .intake (.accepted body) →
              x.headers.get correlationHeaderName = some body.correlationId) := by
  obtain ⟨-, -, hhandled⟩ := App.http_cases h
  refine ⟨normalId_correlationMiddleware _ _, ?_, fun hreceived service as u x hrun hx => ?_⟩
  · rintro x rfl
    exact hhandled.tagged
  · exact hhandled.settled hreceived hrun hx

def listeningApp : App AppConfig.default.env [js "q"] Nat :=
  { App.initial Environment.default [js "q"] Nat .initial with
    process := { Process.initial .initial with listener := .listening, worker := .running } }

def healthCheck : HttpRequest where
  method := js "GET"
  path := js "/health"
  query := []
  remoteAddress := js "10.0.0.9"
  forwardedFor := some (js "203.0.113.7")
  origin := some (js "https://slakedesign.com")
  correlationId := some (js " trace 1 ")
  authorization := none
  contentType := none
  body := []

theorem responses_tagged_healthCheck :
    ∃ t x, listeningApp.http atSign defaultJobOptions .default expressPackages healthCheck 5
        steadyReadings = some (t, some x) ∧
      Tagged .default healthCheck steadyReadings x.headers ∧
      x.headers.get correlationHeaderName = some (js "trace1") := by
  have hsome : ((listeningApp.http atSign defaultJobOptions .default expressPackages healthCheck 5
      steadyReadings).bind Prod.snd).isSome = true := by decide +kernel
  obtain ⟨x, hx⟩ := Option.isSome_iff_exists.1 hsome
  obtain ⟨⟨t, response⟩, hhttp, hresponse⟩ := Option.bind_eq_some_iff.1 hx
  obtain rfl : response = some x := hresponse
  have htagged := (responses_tagged hhttp).2.1 x rfl
  have hid : correlationMiddleware healthCheck.correlationId steadyReadings.randomUUID =
      js "trace1" := by decide
  exact ⟨t, x, hhttp, htagged, htagged.get.trans (congrArg some hid)⟩

end TaskQueue

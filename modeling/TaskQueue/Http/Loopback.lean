import TaskQueue.Http.Responses

/-!
# Webhooks come back to the application

The worker delivers to the server of its own process.  What the application answers
such a POST depends on the destination and on whether the body fits, and on nothing
else: no state, no limiter, no number of trusted hops.  When every POST is answered
by the application itself, only deliveries to the served destination succeed.
-/

namespace TaskQueue

open Ecma Unicode

variable {β : Type} {env : Environment} {ext : External} {options : JobOptions}
  {config : AppConfig} {packages : Packages} {queueNames : List JsString}

/-! ## A fetch of the process itself -/

def loopbackBase (env : Environment) : JsString := js "http://127.0.0.1:" ++ decimal env.port

/-- What the server gets of a `fetch` of its own process. -/
structure FetchRequest.Arrives (env : Environment) (request : FetchRequest) (r : HttpRequest) :
    Prop where
  url : request.url = loopbackBase env ++ r.path
  method : r.method = request.method
  contentType : r.contentType = request.headers.lookup (js "Content-Type")
  body : r.body = utf8Encode request.body
  fromLoopback : r.remoteAddress ∈ loopbackAddresses
  forwardedFor : r.forwardedFor = none
  origin : r.origin = none

def WebhookDestination.path : WebhookDestination → JsString
  | .demoAvailable => webhookSinkPath
  | .demoUnavailable => webhookUnavailablePath

def WebhookDestination.status : WebhookDestination → Nat
  | .demoAvailable => 200
  | .demoUnavailable => 404

/-- The body of a delivery is within the limit of the body parser. -/
def WebhookJobData.Fits (env : Environment) (limit : Nat) (data : WebhookJobData) : Prop :=
  (utf8Encode (webhookRequest env data).body).length ≤ limit

instance (limit : Nat) (data : WebhookJobData) : Decidable (data.Fits env limit) :=
  inferInstanceAs (Decidable (_ ≤ _))

def WebhookJobData.loopbackStatus (env : Environment) (limit : Nat) (data : WebhookJobData) : Nat :=
  if data.Fits env limit then data.destination.status else 413

theorem WebhookJobData.isOk_loopbackStatus {limit : Nat} {data : WebhookJobData} :
    isOk (data.loopbackStatus env limit) = true ↔
      data.Fits env limit ∧ data.destination = .demoAvailable := by
  unfold loopbackStatus
  by_cases hfits : data.Fits env limit
  · rw [if_pos hfits]
    cases data.destination <;> simp [hfits, WebhookDestination.status, isOk]
  · rw [if_neg hfits]
    simp [hfits, isOk]

theorem webhookRequest_url (env : Environment) (data : WebhookJobData) :
    (webhookRequest env data).url = loopbackBase env ++ data.destination.path := by
  unfold webhookRequest resolveWebhookDestination loopbackBase WebhookDestination.path
  cases data.destination <;> rfl

section

variable {data : WebhookJobData} {r : HttpRequest}
  (h : (webhookRequest config.env data).Arrives config.env r)

include h

theorem FetchRequest.Arrives.path_eq : r.path = data.destination.path := by
  have hurl := h.url
  rw [webhookRequest_url] at hurl
  exact (List.append_cancel_left hurl).symm

theorem FetchRequest.Arrives.parse :
    (data.Fits config.env packages.json.limit →
      ∃ value, packages.json.parse r.contentType r.body = .ok value) ∧
    (¬data.Fits config.env packages.json.limit →
      ∃ type, packages.json.parse r.contentType r.body = .error ⟨413, type⟩) := by
  have htype : r.contentType = some applicationJson := h.contentType.trans rfl
  rw [htype, h.body]
  constructor
  · intro hfits
    exact ⟨_, packages.json.parse_stringify rfl hfits⟩
  · intro hlarge
    exact packages.json.tooLarge _ (Nat.lt_of_not_le hlarge)

/-- It comes from loopback, however many hops are trusted. -/
theorem FetchRequest.Arrives.ip_eq : r.ip config packages = r.remoteAddress := by
  rw [HttpRequest.ip, h.forwardedFor, packages.forwarded.hopRule]
  change [r.remoteAddress].getD (min config.trustProxyHops 0) r.remoteAddress = r.remoteAddress
  rw [Nat.min_zero]
  rfl

theorem FetchRequest.Arrives.endpoint_eq :
    endpoint r.method r.path =
      match data.destination with
      | .demoAvailable => .webhookSink
      | .demoUnavailable => .unserved := by
  have hmethod : r.method = js "POST" := h.method
  rw [hmethod, h.path_eq]
  cases data.destination <;> decide

theorem FetchRequest.Arrives.pass (readings : Readings) :
    (r.pass config packages readings : Passed β) =
      r.parsed packages (r.baseHeaders packages readings ++ []) := by
  have hmethod : r.method = js "POST" := h.method
  have hcors : corsMiddleware config.corsAllowedOrigins r.method r.origin = .next [] := by
    rw [h.origin, hmethod]
    rfl
  unfold HttpRequest.pass
  rw [hcors]

/-- In every state in which the server accepts requests the delivery is answered at once,
and leaves the rest as it is. -/
theorem App.http_loopback {now : Nat} {readings : Readings} {s : App config.env queueNames β}
    (haccepts : s.process.accepts = true) (hclock : s.clock ≤ now) :
    ∃ response, s.http ext options config packages r now readings =
        some ({ s with clock := now }, some response) ∧
      response.statusCode = data.loopbackStatus config.env packages.json.limit := by
  have hopen : (s.process.accepts && decide (s.clock ≤ now)) = true := by
    rw [haccepts, decide_eq_true hclock]
    rfl
  unfold App.http WebhookJobData.loopbackStatus
  rw [if_pos hopen, h.pass readings, HttpRequest.parsed]
  by_cases hfits : data.Fits config.env packages.json.limit
  · obtain ⟨value, hvalue⟩ := h.parse.1 hfits
    rw [if_pos hfits, hvalue]
    simp only
    rw [h.endpoint_eq]
    cases hdestination : data.destination with
    | demoAvailable =>
        refine ⟨_, rfl, ?_⟩
        have hip : loopbackAddresses.contains (r.ip config packages) = true := by
          rw [h.ip_eq]
          exact List.contains_iff_mem.2 h.fromLoopback
        rw [sinkHandler, if_pos hip]
        rfl
    | demoUnavailable => exact ⟨_, rfl, rfl⟩
  · obtain ⟨type, herror⟩ := h.parse.2 hfits
    rw [if_neg hfits, herror]
    exact ⟨_, rfl, rfl⟩

end

/-! ## Requests from outside -/

/-- With no more hops than proxies, the address is the client's or that of the proxy the
hop count leads to. -/
theorem ForwardedHeader.clientIp_cases {forwarded : ForwardedHeader} {client : JsString}
    {proxies : List JsString} (hclient : IsAddress client)
    (hproxies : ∀ proxy ∈ proxies, IsAddress proxy) {hops : Nat} (hle : hops ≤ proxies.length)
    (header : Option JsString) :
    forwarded.clientIp hops client header proxies = client ∨
      proxies.reverse[hops]? = some (forwarded.clientIp hops client header proxies) := by
  rcases Nat.lt_or_eq_of_le hle with hlt | rfl
  · have hlength : hops < proxies.reverse.length := by
      rw [List.length_reverse]
      exact hlt
    rw [clientIp_of_lt hclient hproxies hlt, List.getD_eq_getElem _ _ hlength]
    exact Or.inr (List.getElem?_eq_getElem hlength)
  · exact Or.inl (clientIp_of_eq hclient hproxies header)

/-- In every state a delivery of the process itself is answered by its destination and its
size alone, and well exactly when it fits and goes to the served destination.  With no more
hops than proxies, and no proxy on loopback where the hop count leads, no client outside is
answered by the sink, whatever address it claims. -/
theorem sink_for_loopback_only (ext : External) (options : JobOptions) (config : AppConfig)
    (packages : Packages) (queueNames : List JsString) (β : Type) {proxies : List JsString}
    (hproxies : ∀ proxy ∈ proxies, IsAddress proxy)
    (hhops : config.trustProxyHops ≤ proxies.length)
    (hseen : ∀ proxy ∈ proxies.reverse[config.trustProxyHops]?, proxy ∉ loopbackAddresses) :
    (∀ (s : App config.env queueNames β) (data : WebhookJobData) (r : HttpRequest) (now : Nat)
        (readings : Readings), (webhookRequest config.env data).Arrives config.env r →
      s.process.accepts = true → s.clock ≤ now →
      ∃ response, s.http ext options config packages r now readings =
          some ({ s with clock := now }, some response) ∧
        response.statusCode = data.loopbackStatus config.env packages.json.limit ∧
        (isOk response.statusCode = true ↔
          data.Fits config.env packages.json.limit ∧ data.destination = .demoAvailable)) ∧
      ∀ (s t : App config.env queueNames β) (r : HttpRequest) (now : Nat) (readings : Readings)
        (client : JsString) (header : Option JsString) (response : Response β),
      IsAddress client → client ∉ loopbackAddresses →
      (r.remoteAddress, r.forwardedFor) = relay client header proxies →
      s.http ext options config packages r now readings = some (t, some response) →
      ∀ timestamp, response.content ≠ .received timestamp := by
  constructor
  · intro s data r now readings harrives haccepts hclock
    obtain ⟨response, hhttp, hstatus⟩ : ∃ response,
        s.http ext options config packages r now readings =
          some ({ s with clock := now }, some response) ∧
        response.statusCode = data.loopbackStatus config.env packages.json.limit :=
      App.http_loopback harrives haccepts hclock
    refine ⟨response, hhttp, hstatus, ?_⟩
    rw [hstatus]
    exact WebhookJobData.isOk_loopbackStatus
  · intro s t r now readings client header response hclient houtside hrelay hhttp timestamp hcontent
    obtain ⟨-, -, hhandled⟩ := App.http_cases hhttp
    have hlocal : r.ip config packages ∈ loopbackAddresses := by
      rcases hhandled.content with hplain | ⟨_, -, hlocal⟩ | ⟨path, headers, hboard⟩
      · rw [hcontent] at hplain
        cases hplain
      · exact hlocal
      · rcases boardResponse_cases hboard with ⟨refusal, hrefused⟩ | ⟨_, _, _, -, -, -, hanswered⟩
        · rw [hcontent] at hrefused
          cases hrefused
        · rw [hcontent] at hanswered
          cases hanswered
    obtain ⟨haddress, hforwarded⟩ := Prod.mk.inj hrelay
    have hip : r.ip config packages =
        packages.forwarded.clientIp config.trustProxyHops client header proxies := by
      rw [HttpRequest.ip, haddress, hforwarded, ForwardedHeader.clientIp]
    rw [hip] at hlocal
    have hcases : packages.forwarded.clientIp config.trustProxyHops client header proxies =
        client ∨ proxies.reverse[config.trustProxyHops]? =
          some (packages.forwarded.clientIp config.trustProxyHops client header proxies) :=
      ForwardedHeader.clientIp_cases hclient hproxies hhops header
    rcases hcases with heq | hproxy
    · exact houtside (heq ▸ hlocal)
    · exact hseen _ hproxy hlocal

def loopbackPost (env : Environment) (data : WebhookJobData) : HttpRequest where
  method := js "POST"
  path := data.destination.path
  query := []
  remoteAddress := js "127.0.0.1"
  forwardedFor := none
  origin := none
  correlationId := none
  authorization := none
  contentType := some applicationJson
  body := utf8Encode (webhookRequest env data).body

theorem loopbackPost_arrives (env : Environment) (data : WebhookJobData) :
    (webhookRequest env data).Arrives env (loopbackPost env data) where
  url := webhookRequest_url env data
  method := rfl
  contentType := rfl
  body := rfl
  fromLoopback := List.mem_cons_self
  forwardedFor := rfl
  origin := rfl

def orderPaid : WebhookJobData := ⟨.demoAvailable, js "order.paid", [], js "k"⟩

def spoofedPost : HttpRequest :=
  { loopbackPost .default orderPaid with
    remoteAddress := js "10.0.0.9"
    forwardedFor := some (js "127.0.0.1, 203.0.113.7") }

theorem sink_for_loopback_only_spoofed :
    (∃ t x, listeningApp.http atSign defaultJobOptions .default expressPackages
        (loopbackPost .default orderPaid) 5 steadyReadings = some (t, some x) ∧
      x.statusCode = 200) ∧
    ∀ t x, listeningApp.http atSign defaultJobOptions .default expressPackages spoofedPost 5
        steadyReadings = some (t, some x) → ∀ timestamp, x.content ≠ .received timestamp := by
  have hproxies : ∀ proxy ∈ [js "10.0.0.9"], IsAddress proxy := by
    intro proxy hproxy
    rw [List.mem_singleton.1 hproxy]
    exact ⟨by decide, by decide, by decide⟩
  obtain ⟨hlocal, houtside⟩ := sink_for_loopback_only atSign defaultJobOptions .default
    expressPackages [js "q"] Nat hproxies (by decide) nofun
  constructor
  · obtain ⟨x, hx, hstatus, -⟩ := hlocal listeningApp orderPaid _ 5 steadyReadings
      (loopbackPost_arrives .default orderPaid) rfl (by decide)
    refine ⟨_, x, hx, hstatus.trans ?_⟩
    decide +kernel
  · intro t x hx
    exact houtside listeningApp t spoofedPost 5 steadyReadings (js "203.0.113.7")
      (some (js "127.0.0.1")) x ⟨by decide, by decide, by decide⟩ (by decide) rfl hx

end TaskQueue

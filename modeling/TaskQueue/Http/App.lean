import TaskQueue.Http.Body
import TaskQueue.Http.Cors
import TaskQueue.Http.Proxy
import TaskQueue.Processors.Processors
import TaskQueue.Queue.Intake

/-!
# The application

`buildApp`: the middlewares every request passes, the routes in their order, what
the routes without state answer, and the error handler.  Express matches routes
whatever the letter case and with one trailing slash, and serves `HEAD` by the
handlers of `GET`.
-/

namespace TaskQueue

open Ecma
open Dashboard (Query Refusal Payload Router asciiLower routeMatches)

/-! ## Requests and responses -/

structure HttpRequest where
  method : JsString
  path : JsString
  query : Query
  /-- The address of the socket. -/
  remoteAddress : JsString
  forwardedFor : Option JsString
  origin : Option JsString
  correlationId : Option JsString
  authorization : Option JsString
  contentType : Option JsString
  body : List UInt8

/-- The body of a response; a body of Bull Board's has type `β`. -/
inductive Content (β : Type)
  | empty
  | error (error : JsString)
  | text (text : JsString)
  | index
  | health (redis sqlite : Bool) (timestamp : JsString)
  | received (timestamp : JsString)
  | intake (reply : IntakeReply)
  | board (payload : Payload β)

structure Response (β : Type) where
  statusCode : Nat
  headers : Headers
  content : Content β

/-! ## Configuration -/

/-- `config`, beside the settings of `Environment`. -/
structure AppConfig where
  env : Environment
  trustProxyHops : Nat
  corsAllowedOrigins : List JsString
  admin : AdminConfig
  /-- `NODE_ENV` is set, and set to `development`. -/
  isExplicitDevelopment : Bool

def correlationHeaderName : JsString := js "x-correlation-id"

structure Packages where
  forwarded : ForwardedHeader
  json : BodyParser
  /-- What `helmet` sets. -/
  helmet : Headers
  helmet_names : ∀ h ∈ helmet, h.1 ≠ correlationHeaderName ∧ h.1 ≠ accessControlAllowOrigin
  helmet_allow : ∀ h ∈ helmet, h.1 ≠ js "Access-Control-Allow-Headers"
  /-- The key `express-rate-limit` counts an address under. -/
  rateLimitKey : JsString → JsString
  sha256 : List UInt8 → Digest
  fromBase64 : JsString → List UInt8
  router : Router

inductive RedisProbe
  /-- The connection is ready, and is not asked. -/
  | ready
  | pinged (reply : JsString)
  | timedOut
  | failed

structure Readings where
  randomUUID : Uuid
  redis : RedisProbe
  /-- The store answered. -/
  sqlite : Bool
  /-- The rendered metrics with their content type, unless that failed. -/
  metrics : Option (JsString × JsString)
  timestamp : JsString

/-! ## Routes -/

inductive Endpoint
  | index
  /-- The dashboard, at a path below its mount point. -/
  | board (path : JsString)
  | health
  | metrics
  | job (jobName : JobName)
  | webhookSink
  | unserved
  deriving DecidableEq

def mountPath : JsString := js "/admin/queues"

/-- The path as a handler mounted at `mount` sees it. -/
def pathBelow (mount path : JsString) : Option JsString :=
  if (path.take mount.length).map asciiLower = mount then
    match path.drop mount.length with
    | [] => some (js "/")
    | u :: rest =>
        if u = 0x2F then some (if rest.head? = some 0x2F then rest else 0x2F :: rest) else none
  else none

def jobPath : JobName → JsString
  | .emailNotification => js "/api/jobs/email"
  | .webhookDelivery => js "/api/jobs/webhook"

def isGet (method : JsString) : Bool := method == js "GET" || method == js "HEAD"

def isPost (method : JsString) : Bool := method == js "POST"

def endpoint (method path : JsString) : Endpoint :=
  if isGet method && path == js "/" then .index
  else
    match pathBelow mountPath path with
    | some below => .board below
    | none =>
        if isGet method && routeMatches (js "/health") path then .health
        else if isGet method && routeMatches (js "/metrics") path then .metrics
        else if isPost method && routeMatches (jobPath .emailNotification) path then
          .job .emailNotification
        else if isPost method && routeMatches (jobPath .webhookDelivery) path then
          .job .webhookDelivery
        else if isPost method && routeMatches webhookSinkPath path then .webhookSink
        else .unserved

/-! ## Errors -/

inductive AppError
  | dispatch (error : DispatchError)
  | http (error : HttpError)

variable {β : Type}

def errorHandler : AppError → Nat × Content β
  | .dispatch error =>
      (error.statusCode,
        .intake (.refused error.statusCode error.publicMessage error.details))
  | .http error =>
      if error.status = 400 ∧ error.type = js "entity.parse.failed" then
        (400, .error (js "Malformed JSON body."))
      else if error.status = 413 then (413, .error (js "Request body too large."))
      else (500, .error (js "Internal server error."))

/-! ## The middlewares -/

section

variable (config : AppConfig) (packages : Packages)

/-- `req.ip`. -/
def HttpRequest.ip (r : HttpRequest) : JsString :=
  packages.forwarded.reqIp config.trustProxyHops r.remoteAddress r.forwardedFor

def HttpRequest.limiterKey (r : HttpRequest) : JsString :=
  packages.rateLimitKey (r.ip config packages)

/-- What every response carries before the origin is looked at. -/
def HttpRequest.baseHeaders (r : HttpRequest) (readings : Readings) : Headers :=
  packages.helmet ++
    [(correlationHeaderName, correlationMiddleware r.correlationId readings.randomUUID)]

inductive Passed (β : Type)
  | answered (response : Response β)
  | routed (endpoint : Endpoint) (headers : Headers) (body : Json)

/-- `express.json` and the routing, once the headers of the origin are set. -/
def HttpRequest.parsed (r : HttpRequest) (headers : Headers) : Passed β :=
  match packages.json.parse r.contentType r.body with
  | .error error =>
      let answer : Nat × Content β := errorHandler (.http error)
      .answered ⟨answer.1, headers, answer.2⟩
  | .ok body => .routed (endpoint r.method r.path) headers body

/-- `helmet`, `correlationMiddleware`, `corsMiddleware`, `express.json`, and the routing. -/
def HttpRequest.pass (r : HttpRequest) (readings : Readings) : Passed β :=
  let base := r.baseHeaders packages readings
  match corsMiddleware config.corsAllowedOrigins r.method r.origin with
  | .noContent headers => .answered ⟨204, base ++ headers, .empty⟩
  | .refused refusal =>
      .answered ⟨refusal.statusCode, base ++ refusal.headers, .error refusal.error⟩
  | .next headers => r.parsed packages (base ++ headers)

/-! ## Handlers without state -/

def RedisProbe.isUp : RedisProbe → Bool
  | .ready => true
  | .pinged reply => reply == js "PONG"
  | .timedOut => false
  | .failed => false

def healthHandler (readings : Readings) (headers : Headers) : Response β :=
  let isHealthy := readings.redis.isUp && readings.sqlite
  ⟨if isHealthy then 200 else 503, headers,
    .health readings.redis.isUp readings.sqlite readings.timestamp⟩

def metricsHandler (readings : Readings) (headers : Headers) : Response β :=
  match readings.metrics with
  | some rendered =>
      ⟨200, headers ++ [(js "Content-Type", rendered.1)], .text rendered.2⟩
  | none => ⟨500, headers, .text (js "Metrics generation error")⟩

def metricsRoute (r : HttpRequest) (readings : Readings) (headers : Headers) : Response β :=
  if config.isExplicitDevelopment then metricsHandler readings headers
  else
    match requireAdminAuth packages.sha256 packages.fromBase64 config.admin r.authorization with
    | some refusal =>
        ⟨refusal.statusCode, headers ++ refusal.headers, .error refusal.error⟩
    | none => metricsHandler readings headers

def loopbackAddresses : List JsString := [js "127.0.0.1", js "::1", js "::ffff:127.0.0.1"]

def sinkHandler (r : HttpRequest) (readings : Readings) (headers : Headers) : Response β :=
  if loopbackAddresses.contains (r.ip config packages) then
    ⟨200, headers, .received readings.timestamp⟩
  else ⟨403, headers, .error (js "This endpoint is reachable from loopback only.")⟩

def notFoundHandler (r : HttpRequest) (headers : Headers) : Response β :=
  ⟨404, headers, .error (js "Cannot " ++ r.method ++ js " " ++ r.path)⟩

end

/-! ## What a route tells of its request -/

theorem isPost_iff {method : JsString} : isPost method = true ↔ method = js "POST" := beq_iff_eq

theorem not_isGet_of_post {method : JsString} (h : isPost method = true) :
    isGet method = false := by
  rw [isPost_iff.1 h]
  decide

theorem map_asciiLower_of_routeMatches {route path : JsString}
    (h : routeMatches route path = true) :
    path.map asciiLower = route ∨ path.map asciiLower = route ++ js "/" := by
  rw [routeMatches, Bool.or_eq_true, beq_iff_eq, beq_iff_eq] at h
  exact h

theorem take_of_routeMatches {route path : JsString} (h : routeMatches route path = true) {n : Nat}
    (hn : n ≤ route.length) : (path.take n).map asciiLower = route.take n := by
  rw [List.map_take]
  rcases map_asciiLower_of_routeMatches h with heq | heq
  · rw [heq]
  · rw [heq, List.take_append_of_le_length hn]

/-- A path of a route that begins otherwise than the mount point is not below it. -/
theorem pathBelow_eq_none_of_routeMatches {route path : JsString} (hlength : 3 ≤ route.length)
    (hroute : route.take 3 ≠ mountPath.take 3) (h : routeMatches route path = true) :
    pathBelow mountPath path = none := by
  refine if_neg fun hmount => hroute ?_
  calc route.take 3 = (path.take 3).map asciiLower := (take_of_routeMatches h hlength).symm
    _ = ((path.take mountPath.length).map asciiLower).take 3 := by
        rw [← List.map_take, List.take_take]
        rfl
    _ = mountPath.take 3 := by rw [hmount]

/-- The jobs' routes are told apart by the length of their paths. -/
theorem routeMatches_jobPath_injective {jobName jobName' : JobName} {path : JsString}
    (h : routeMatches (jobPath jobName) path = true)
    (h' : routeMatches (jobPath jobName') path = true) : jobName = jobName' := by
  have hlength : 11 ≤ (jobPath jobName).length ∧ 11 ≤ (jobPath jobName').length := by
    cases jobName <;> cases jobName' <;> decide
  have htake : (jobPath jobName).take 11 = (jobPath jobName').take 11 :=
    (take_of_routeMatches h hlength.1).symm.trans (take_of_routeMatches h' hlength.2)
  cases jobName <;> cases jobName'
  · rfl
  · exact absurd htake (by decide)
  · exact absurd htake (by decide)
  · rfl

inductive Serves (method path : JsString) : Endpoint → Prop
  | index (get : isGet method = true) (root : path = js "/") : Serves method path .index
  | board (below : JsString) (mounted : pathBelow mountPath path = some below) :
      Serves method path (.board below)
  | health (get : isGet method = true) (route : routeMatches (js "/health") path = true) :
      Serves method path .health
  | metrics (get : isGet method = true) (route : routeMatches (js "/metrics") path = true) :
      Serves method path .metrics
  | job (jobName : JobName) (post : isPost method = true)
      (route : routeMatches (jobPath jobName) path = true) : Serves method path (.job jobName)
  | webhookSink (post : isPost method = true)
      (route : routeMatches webhookSinkPath path = true) : Serves method path .webhookSink
  | unserved : Serves method path .unserved

theorem endpoint_serves (method path : JsString) : Serves method path (endpoint method path) := by
  have hand : ∀ {a b : Bool}, (a && b) = true → a = true ∧ b = true := by simp
  unfold endpoint
  split
  · rename_i h
    exact .index (hand h).1 (beq_iff_eq.1 (hand h).2)
  · split
    · rename_i below h
      exact .board below h
    · split
      · rename_i h
        exact .health (hand h).1 (hand h).2
      · split
        · rename_i h
          exact .metrics (hand h).1 (hand h).2
        · split
          · rename_i h
            exact .job _ (hand h).1 (hand h).2
          · split
            · rename_i h
              exact .job _ (hand h).1 (hand h).2
            · split
              · rename_i h
                exact .webhookSink (hand h).1 (hand h).2
              · exact .unserved

/-- A `POST` that is not below the mount point goes by its path. -/
theorem endpoint_of_post {method path : JsString} (hpost : isPost method = true)
    (hnone : pathBelow mountPath path = none) :
    endpoint method path =
      if routeMatches (jobPath .emailNotification) path then .job .emailNotification
      else if routeMatches (jobPath .webhookDelivery) path then .job .webhookDelivery
      else if routeMatches webhookSinkPath path then .webhookSink else .unserved := by
  have hget : isGet method = false := not_isGet_of_post hpost
  unfold endpoint
  simp only [hget, hnone, hpost, Bool.false_and, Bool.true_and, Bool.false_eq_true, if_false]

/-- Exactly a `POST` to the path of a job type is taken by its route. -/
theorem endpoint_eq_job_iff {method path : JsString} {jobName : JobName} :
    endpoint method path = .job jobName ↔
      method = js "POST" ∧ routeMatches (jobPath jobName) path = true := by
  constructor
  · intro h
    have hserves := endpoint_serves method path
    rw [h] at hserves
    cases hserves with
    | job _ post route => exact ⟨isPost_iff.1 post, route⟩
  · rintro ⟨hmethod, hmatches⟩
    have hnone : pathBelow mountPath path = none := by
      refine pathBelow_eq_none_of_routeMatches ?_ ?_ hmatches
      · cases jobName <;> decide
      · cases jobName <;> decide
    rw [endpoint_of_post (isPost_iff.2 hmethod) hnone]
    cases jobName with
    | emailNotification => rw [if_pos hmatches]
    | webhookDelivery =>
        have hemail : ¬routeMatches (jobPath .emailNotification) path = true := fun hemail => by
          cases routeMatches_jobPath_injective hemail hmatches
        rw [if_neg hemail, if_pos hmatches]

/-! ## What a route gets -/

/-- A request that gets through the middlewares is routed by its method and path, and its
body is what the parser made of it. -/
theorem HttpRequest.pass_eq_routed {config : AppConfig} {packages : Packages} {r : HttpRequest}
    {readings : Readings} {e : Endpoint} {headers : Headers} {body : Json}
    (h : (r.pass config packages readings : Passed β) = .routed e headers body) :
    endpoint r.method r.path = e ∧ packages.json.parse r.contentType r.body = .ok body := by
  unfold HttpRequest.pass at h
  dsimp only at h
  split at h
  · cases h
  · cases h
  · unfold HttpRequest.parsed at h
    split at h
    · cases h
    · rename_i body' hparse
      obtain ⟨hendpoint, -, rfl⟩ := Passed.routed.inj h
      exact ⟨hendpoint, hparse⟩

theorem HttpRequest.body_of_otherType {config : AppConfig} {packages : Packages} {r : HttpRequest}
    {readings : Readings} {e : Endpoint} {headers : Headers} {body : Json}
    (htype : r.contentType.map essence ≠ some applicationJson)
    (h : (r.pass config packages readings : Passed β) = .routed e headers body) :
    body = .object [] := by
  obtain ⟨-, hparse⟩ := HttpRequest.pass_eq_routed h
  rw [packages.json.otherType _ _ htype] at hparse
  exact (Except.ok.inj hparse).symm

/-- The empty object is no job of either type. -/
theorem parseJobData_empty (isEmail : JsString → Bool) (jobName : JobName) :
    ∃ issues, parseJobData isEmail jobName (.object []) = .error issues := by
  cases jobName <;> exact ⟨_, rfl⟩

end TaskQueue

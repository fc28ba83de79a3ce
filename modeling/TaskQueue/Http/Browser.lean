import TaskQueue.Http.Responses
import TaskQueue.Http.Traffic

/-!
# Pages of other origins

A browser sends what a page asks for with the page's origin: at once when the request is
one a form could make, and otherwise only after a preflight that allows it.  The page
may read the response when it grants the origin.  Pages whose origin is not listed are
left with requests that no job comes of.
-/

namespace TaskQueue

open Ecma
open Dashboard (asciiLower)

/-! ## What a browser does -/

def isSimpleMethod (method : JsString) : Bool :=
  method == js "GET" || method == js "HEAD" || method == js "POST"

def simpleTypes : List JsString :=
  [js "application/x-www-form-urlencoded", js "multipart/form-data", js "text/plain"]

def isSimpleType (contentType : Option JsString) : Bool :=
  contentType.all fun value => simpleTypes.contains (essence value)

/-- The headers of a request that a form cannot set. -/
def HttpRequest.unsafeHeaders (r : HttpRequest) : List JsString :=
  (if isSimpleType r.contentType then [] else [js "content-type"]) ++
    (if r.authorization.isSome then [js "authorization"] else []) ++
    (if r.correlationId.isSome then [correlationHeaderName] else [])

/-- The request is sent without a preflight. -/
def HttpRequest.isSimple (r : HttpRequest) : Bool :=
  isSimpleMethod r.method && r.unsafeHeaders.isEmpty

def HttpRequest.preflight (r : HttpRequest) : HttpRequest :=
  { r with
    method := js "OPTIONS"
    correlationId := none
    authorization := none
    contentType := none
    body := [] }

def Headers.elements (headers : Headers) (name : JsString) : List JsString :=
  match headers.get name with
  | none => []
  | some value => (split 0x2C value).map trim

/-- A page at the origin may read a response with these headers. -/
def readableBy (origin : JsString) (headers : Headers) : Bool :=
  headers.get accessControlAllowOrigin == some origin ||
    headers.get accessControlAllowOrigin == some (js "*")

/-- The response to a preflight allows the request of a page at the origin. -/
def HttpRequest.allowedBy {β : Type} (r : HttpRequest) (origin : JsString) (x : Response β) :
    Bool :=
  decide (200 ≤ x.statusCode ∧ x.statusCode < 300) && readableBy origin x.headers &&
    (isSimpleMethod r.method ||
      (x.headers.elements (js "Access-Control-Allow-Methods")).contains r.method) &&
    r.unsafeHeaders.all fun name =>
      ((x.headers.elements (js "Access-Control-Allow-Headers")).map
        (List.map asciiLower)).contains name

/-- The browser sends the request of a page at the origin. -/
def SentFrom (config : AppConfig) (packages : Packages) (β : Type) (origin : JsString)
    (r : HttpRequest) : Prop :=
  r.origin = some origin ∧ (r.isSimple = true ∨
    ∃ readings x, (r.preflight.pass config packages readings : Passed β) = .answered x ∧
      r.allowedBy origin x = true)

variable {ext : External} {options : JobOptions} {config : AppConfig} {packages : Packages}
  {queueNames : List JsString} {β : Type} {r : HttpRequest} {readings : Readings}
  {raw origin : JsString}

/-! ## Reading -/

theorem grantedTo_iff (horigin : SerializedOrigin origin)
    (hlist : config.corsAllowedOrigins = parseOriginList raw) (value : JsString) :
    GrantedTo config.corsAllowedOrigins (some origin) value ↔
      value = origin ∧ Listed raw origin := by
  rw [hlist]
  constructor
  · rintro ⟨sent, hsent, -, rfl, hmem⟩
    obtain rfl := Option.some.inj hsent
    rw [stripSlash_origin horigin] at hmem ⊢
    exact ⟨rfl, (mem_parseOriginList_iff horigin).1 hmem⟩
  · rintro ⟨rfl, hlisted⟩
    exact ⟨value, rfl, horigin.ne_nil, (stripSlash_origin horigin).symm,
      (mem_parseOriginList_iff horigin).2 hlisted⟩

/-- A page may read a response exactly when its origin is listed. -/
theorem readableBy_iff (horigin : SerializedOrigin origin)
    (hlist : config.corsAllowedOrigins = parseOriginList raw) (hsent : r.origin = some origin)
    {headers : Headers} (htagged : Tagged config r readings headers) :
    readableBy origin headers = true ↔ Listed raw origin := by
  have hvalue : ∀ value, headers.get accessControlAllowOrigin = some value ↔
      value = origin ∧ Listed raw origin := by
    intro value
    rw [htagged.origin, hsent]
    exact grantedTo_iff horigin hlist value
  rw [readableBy, Bool.or_eq_true, beq_iff_eq, beq_iff_eq, hvalue, hvalue]
  constructor
  · rintro (⟨-, hlisted⟩ | ⟨-, hlisted⟩)
    · exact hlisted
    · exact hlisted
  · exact fun hlisted => Or.inl ⟨rfl, hlisted⟩

/-! ## Preflights -/

/-- A preflight ends in the middleware of the origins. -/
theorem pass_preflight (β : Type) (config : AppConfig) (packages : Packages)
    (horigin : SerializedOrigin origin) (hsent : r.origin = some origin) (readings : Readings) :
    (r.preflight.pass config packages readings : Passed β) =
      if origin ∈ config.corsAllowedOrigins then
        .answered ⟨204, r.preflight.baseHeaders packages readings ++ grantHeaders origin, .empty⟩
      else
        .answered ⟨403, r.preflight.baseHeaders packages readings ++ [],
          .error (js "Origin not allowed.")⟩ := by
  have hcors : corsMiddleware config.corsAllowedOrigins r.preflight.method r.preflight.origin = _ :=
    corsMiddleware_options rfl hsent horigin.ne_nil
  rw [stripSlash_origin horigin] at hcors
  unfold HttpRequest.pass
  simp only [hcors]
  by_cases hmem : origin ∈ config.corsAllowedOrigins
  · rw [if_pos hmem, if_pos hmem]
  · rw [if_neg hmem, if_neg hmem]

/-- A page whose origin is not listed has only simple requests sent. -/
theorem isSimple_of_sentFrom (horigin : SerializedOrigin origin)
    (hlist : config.corsAllowedOrigins = parseOriginList raw) (hunlisted : ¬Listed raw origin)
    (hsent : SentFrom config packages β origin r) : r.isSimple = true := by
  obtain ⟨horiginr, hsimple | ⟨readings, x, hpass, hallowed⟩⟩ := hsent
  · exact hsimple
  · have hmem : origin ∉ config.corsAllowedOrigins := by
      rw [hlist]
      exact fun hmem => hunlisted ((mem_parseOriginList_iff horigin).1 hmem)
    rw [pass_preflight β config packages horigin horiginr, if_neg hmem] at hpass
    obtain rfl := Passed.answered.inj hpass
    simp [HttpRequest.allowedBy] at hallowed

def allowedNames : List JsString :=
  [js "content-type", js "authorization", js "x-requested-with"]

theorem elements_grantHeaders (origin : JsString) (packages : Packages) (r : HttpRequest)
    (readings : Readings) :
    (Headers.elements (r.baseHeaders packages readings ++ grantHeaders origin)
      (js "Access-Control-Allow-Headers")).map (List.map asciiLower) = allowedNames := by
  have hbase : Headers.get (r.baseHeaders packages readings) (js "Access-Control-Allow-Headers") =
      none := by
    rw [HttpRequest.baseHeaders, Headers.get_append, Headers.get_eq_none packages.helmet_allow]
    rfl
  have hget : (grantHeaders origin).get (js "Access-Control-Allow-Headers") =
      some allowedHeaders := rfl
  unfold Headers.elements
  rw [Headers.get_append, hbase, Option.none_or, hget]
  decide

/-- Of the headers that a form cannot set, only the correlation id is not allowed. -/
theorem unsafeHeaders_allowed_iff :
    (r.unsafeHeaders.all fun name => allowedNames.contains name) = true ↔
      r.correlationId = none := by
  have htype : allowedNames.contains (js "content-type") = true := by decide
  have hauthorization : allowedNames.contains (js "authorization") = true := by decide
  have hid : allowedNames.contains correlationHeaderName = false := by decide
  unfold HttpRequest.unsafeHeaders
  rw [List.all_append, List.all_append, Bool.and_eq_true, Bool.and_eq_true]
  constructor
  · rintro ⟨-, hlast⟩
    by_contra hset
    rw [if_pos (Option.isSome_iff_ne_none.2 hset), List.all_cons, hid, Bool.false_and] at hlast
    cases hlast
  · intro hunset
    refine ⟨⟨?_, ?_⟩, ?_⟩
    · split
      · rfl
      · rw [List.all_cons, htype]
        rfl
    · split
      · rw [List.all_cons, hauthorization]
        rfl
      · rfl
    · rw [hunset]
      rfl

/-- A listed page has its `POST`s sent, but those that set a correlation id. -/
theorem sentFrom_iff_of_listed (horigin : SerializedOrigin origin)
    (hlist : config.corsAllowedOrigins = parseOriginList raw) (hlisted : Listed raw origin)
    (hsent : r.origin = some origin) (hmethod : r.method = js "POST") :
    SentFrom config packages β origin r ↔ r.correlationId = none := by
  have hmem : origin ∈ config.corsAllowedOrigins := by
    rw [hlist]
    exact (mem_parseOriginList_iff horigin).2 hlisted
  have hsimple : isSimpleMethod r.method = true := by
    rw [hmethod]
    decide
  have hpass : ∀ readings, (r.preflight.pass config packages readings : Passed β) =
      .answered
        ⟨204, r.preflight.baseHeaders packages readings ++ grantHeaders origin, .empty⟩ := by
    intro readings
    rw [pass_preflight β config packages horigin hsent readings, if_pos hmem]
  have hreadable : ∀ readings, readableBy origin
      (r.preflight.baseHeaders packages readings ++ grantHeaders origin) = true := by
    intro readings
    have htagged := tagged_pass β config packages r.preflight readings
    rw [hpass] at htagged
    exact (readableBy_iff (r := r.preflight) horigin hlist hsent htagged).2 hlisted
  have hallowed : ∀ readings, r.allowedBy origin (⟨204, r.preflight.baseHeaders packages readings ++
      grantHeaders origin, .empty⟩ : Response β) = true ↔ r.correlationId = none := by
    intro readings
    unfold HttpRequest.allowedBy
    simp only [elements_grantHeaders, hreadable, hsimple, Bool.true_or, Bool.and_true,
      Bool.and_eq_true, unsafeHeaders_allowed_iff]
    exact and_iff_right rfl
  constructor
  · rintro ⟨-, hplain | ⟨readings, x, hanswer, hx⟩⟩
    · -- A request without a preflight sets no such header at all.
      have hnone : r.unsafeHeaders = [] :=
        List.isEmpty_iff.1 (Bool.and_eq_true_iff.1 hplain).2
      rw [← unsafeHeaders_allowed_iff, hnone]
      rfl
    · rw [hpass] at hanswer
      obtain rfl := Passed.answered.inj hanswer
      exact (hallowed readings).1 hx
  · intro hid
    exact ⟨hsent, Or.inr ⟨steadyReadings, _, hpass steadyReadings,
      (hallowed steadyReadings).2 hid⟩⟩

/-! ## Jobs -/

/-- The bodies of forms are not read, and what is left is no job. -/
theorem dispatch_of_simple {jobName : JobName} {headers : Headers} {body : Json}
    (hsimple : r.isSimple = true)
    (hpass : (r.pass config packages readings : Passed β) = .routed (.job jobName) headers body)
    (env : Environment) (isEmail : JsString → Bool) (depthCache : Option DepthCacheEntry)
    (now : Nat) :
    ∃ issues, (r.toJob jobName body now readings).dispatch env isEmail depthCache =
      .rejected (.invalid issues) := by
  have htype : r.contentType.map essence ≠ some applicationJson := by
    intro hjson
    obtain ⟨value, hvalue, hessence⟩ := Option.map_eq_some_iff.1 hjson
    have hunsafe : isSimpleType r.contentType = false := by
      rw [isSimpleType, hvalue, Option.all_some, hessence]
      decide
    simp [HttpRequest.isSimple, HttpRequest.unsafeHeaders, hunsafe] at hsimple
  obtain rfl := HttpRequest.body_of_otherType htype hpass
  obtain ⟨issues, hparse⟩ := parseJobData_empty isEmail jobName
  exact ⟨issues, dispatchJob_of_invalid env hparse depthCache _ now⟩

/-! ## What is left to a page -/

/-- A page may read the responses to its requests, those sent at once and those its dispatches
settle with in any run from there, exactly when the setting lists its origin.  Of a page that is
not listed, no request that its browser sends puts a job in the queue: its dispatch is answered
`400`, which the page cannot read.  Of a listed page, which sets no headers but those of an
`HttpRequest`, exactly the submissions are sent that do not set a correlation id. -/
theorem foreign_page_powerless (horigin : SerializedOrigin origin)
    (hlist : config.corsAllowedOrigins = parseOriginList raw) :
    (∀ (r : HttpRequest) now readings (s t : App config.env queueNames β) response,
      r.origin = some origin →
      s.http ext options config packages r now readings = some (t, response) →
        (∀ x, response = some x → (readableBy origin x.headers = true ↔ Listed raw origin)) ∧
        (t.process.service.received ≠ s.process.service.received →
          ∀ service as u x,
            (app ext options config packages queueNames β service).run t as = some u →
            u.settled s.process.service.received = some x →
              (readableBy origin x.headers = true ↔ Listed raw origin))) ∧
    (¬Listed raw origin → ∀ (r : HttpRequest) now readings (s t : App config.env queueNames β)
      response, SentFrom config packages β origin r →
      s.http ext options config packages r now readings = some (t, response) →
      t.process.service.received ≠ s.process.service.received →
        ∀ service as u,
          (app ext options config packages queueNames β service).run t as = some u →
          ∃ x, u.settled s.process.service.received = some x ∧ x.statusCode = 400 ∧
            readableBy origin x.headers = false) ∧
    (Listed raw origin → ∀ r : HttpRequest, r.origin = some origin → r.method = js "POST" →
      (SentFrom config packages β origin r ↔ r.correlationId = none)) := by
  refine ⟨fun r now readings s t response hsent h => ?_,
    fun hunlisted r now readings s t response hsent h hreceived service as u hrun => ?_,
    fun hlisted r hsent hmethod => sentFrom_iff_of_listed horigin hlist hlisted hsent hmethod⟩
  · obtain ⟨-, -, hhandled⟩ := App.http_cases h
    constructor
    · rintro x rfl
      exact readableBy_iff horigin hlist hsent hhandled.tagged
    · intro hreceived service as u x hrun hx
      exact readableBy_iff horigin hlist hsent (hhandled.settled hreceived hrun hx).1
  · obtain ⟨-, -, hhandled⟩ := App.http_cases h
    obtain ⟨jobName, headers, body, hpass, -, hbegun, hget⟩ := hhandled.begun hreceived
    have hsimple := isSimple_of_sentFrom horigin hlist hunlisted hsent
    obtain ⟨issues, hdispatch⟩ := dispatch_of_simple hsimple hpass config.env ext.isEmail
      s.process.service.depthCache now
    -- The dispatch is settled from the start.
    have hsettled : ∃ x, t.settled s.process.service.received = some x ∧ x.statusCode = 400 := by
      unfold App.settled
      rw [hget, hdispatch, hbegun.headers]
      exact ⟨_, rfl, rfl⟩
    obtain ⟨x, hx, hstatus⟩ := hsettled
    have hsame := hbegun.settled_run hx hrun
    refine ⟨x, hsame, hstatus, ?_⟩
    rw [Bool.eq_false_iff]
    intro hreads
    exact hunlisted ((readableBy_iff horigin hlist hsent.1
      (hhandled.settled hreceived hrun hsame).1).1 hreads)

def foreignForm : HttpRequest :=
  { emptyEmailRequest with
    origin := some (js "https://example.com")
    contentType := some (js "text/plain;charset=UTF-8") }

theorem foreign_page_powerless_form :
    ∃ t, listeningApp.http atSign defaultJobOptions .default expressPackages foreignForm 5
        steadyReadings = some (t, none) ∧
      ∃ x, t.settled 0 = some x ∧ x.statusCode = 400 ∧
        readableBy (js "https://example.com") x.headers = false := by
  have horigin : SerializedOrigin (js "https://example.com") := ⟨by decide, by decide, by decide⟩
  have hunlisted : ¬Listed (js "https://slakedesign.com,https://www.slakedesign.com")
      (js "https://example.com") := by
    rw [← mem_parseOriginList_iff horigin]
    decide
  have hsent : SentFrom .default expressPackages Nat (js "https://example.com") foreignForm :=
    ⟨rfl, Or.inl (by decide)⟩
  have hbegins : (listeningApp.http atSign defaultJobOptions .default expressPackages foreignForm 5
      steadyReadings).map (fun out => (out.1.process.service.received, out.2.isNone)) =
      some (1, true) := by decide +kernel
  obtain ⟨⟨t, response⟩, hhttp, hvalues⟩ := Option.map_eq_some_iff.1 hbegins
  obtain ⟨hreceived, hnone⟩ := Prod.mk.inj hvalues
  obtain rfl : response = none := Option.isNone_iff_eq_none.1 hnone
  refine ⟨t, hhttp, (foreign_page_powerless horigin rfl).2.1 hunlisted foreignForm 5 steadyReadings
    listeningApp t none hsent hhttp ?_ .initial [] t rfl⟩
  rw [hreceived]
  decide

end TaskQueue

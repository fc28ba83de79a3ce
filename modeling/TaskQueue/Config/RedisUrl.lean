import TaskQueue.Lib.Url

/-!
# The Redis connection

`REDIS_URL` is read twice.  The start-up validator hands the value as it stands to the
URL parser; the connection builder trims and rewrites it first, by tests on its whole
text, and parses the result.
-/

namespace TaskQueue

open Ecma Percent Cutting

/-! ## Configuration -/

structure RedisConfig where
  redisUrl : JsString
  redisHost : JsString
  redisPort : Nat
  redisPassword : JsString

def RedisConfig.ofUrl (redisUrl : JsString) : RedisConfig where
  redisUrl
  redisHost := js "localhost"
  redisPort := 6379
  redisPassword := []

/-- What the URL parser makes of what follows a special scheme. -/
abbrev SpecialParser := JsString → JsString → Option Url.Authority

def noSpecial : SpecialParser := fun _ _ => none

/-! ## The validator -/

/-- `s.replace(/^pat/, rep)`. -/
def replaceStart (pat rep s : JsString) : JsString :=
  if pat.isPrefixOf s then rep ++ s.drop pat.length else s

def validatedText (rawUrl : JsString) : JsString :=
  replaceStart (js "http://") (js "redis://")
    (replaceStart (js "https://") (js "rediss://") rawUrl)

def parsedUrl (special : SpecialParser) (rawUrl : JsString) : Option Url.Parsed :=
  Url.parse special (validatedText rawUrl)

/-- `validateRedisUrl`, which returns or throws a message. -/
def validateRedisUrl (special : SpecialParser) (rawUrl : JsString) : Except JsString Unit :=
  if rawUrl = [] then .ok ()
  else
    match parsedUrl special rawUrl with
    | none =>
        .error (js "REDIS_URL is set but is not a parseable URL. Expected form: " ++
          js "rediss://<user>:<password>@<host>:<port>. " ++
          js "The value has been withheld from this message.")
    | some url =>
        if !([js "redis:", js "rediss:"].contains url.protocol) then
          .error (js "REDIS_URL has unsupported protocol \"" ++ url.protocol ++
            js "\". Expected redis: or rediss:.")
        else if url.authority.hostname = [] then
          .error (js "REDIS_URL is missing a hostname. " ++
            js "The value has been withheld from this message.")
        else .ok ()

/-! ## The connection builder -/

def withTcpScheme (url : JsString) : JsString :=
  if (js "https://").isPrefixOf url then replaceFirst (js "https://") (js "rediss://") url
  else if (js "http://").isPrefixOf url then replaceFirst (js "http://") (js "redis://") url
  else url

def withTls (url : JsString) : JsString :=
  if includes url (js "upstash.io") && (js "redis://").isPrefixOf url then
    replaceFirst (js "redis://") (js "rediss://") url
  else url

/-- Upstash hosts get port 6379 if they seem to have none. -/
def withPort (url : JsString) : JsString :=
  if includes url (js "upstash.io") && !includes url (js ":6379") && !includes url (js ":443") then
    replaceFirst (js ".upstash.io") (js ".upstash.io:6379") url
  else url

def getNormalizedRedisUrl (config : RedisConfig) : JsString :=
  let url := trim config.redisUrl
  if url = [] then [] else withPort (withTls (withTcpScheme url))

structure TlsOptions where
  rejectUnauthorized : Bool

/-- `RedisOptions`; an absent field is `undefined`. -/
structure RedisOptions where
  host : JsString
  /-- Absent if it is `NaN`. -/
  port : Option Nat
  username : Option JsString := none
  password : Option JsString
  family : Nat
  /-- Absent for `null`. -/
  maxRetriesPerRequest : Option Nat
  enableReadyCheck : Bool
  keepAlive : Nat
  tls : Option TlsOptions := none
  retryStrategy : Nat → Nat

def maxReconnectDelayMs : Nat := 3000

def boundedRetryStrategy (times : Nat) : Nat := min (times * 200) maxReconnectDelayMs

/-- `parseInt(s, 10)` of a text that starts with no sign or space. -/
def parseInt10 (s : JsString) : Option Nat := parseDigits 10 (s.takeWhile isDigit)

/-- `part ? decodeURIComponent(part) : undefined`; `none` where it throws. -/
def decodedPart (part : JsString) : Option (Option JsString) :=
  if part = [] then some none else (decodeURIComponent part).map some

def urlOptions (parsed : Url.Parsed) (isTls : Bool) (username password : Option JsString) :
    RedisOptions where
  host := parsed.authority.hostname
  port := parseInt10 (if parsed.port = [] then js "6379" else parsed.port)
  username
  password
  family := 4
  maxRetriesPerRequest := none
  enableReadyCheck := false
  keepAlive := 10000
  tls := if isTls then some { rejectUnauthorized := false } else none
  retryStrategy := boundedRetryStrategy

def discreteOptions (config : RedisConfig) : RedisOptions where
  host := config.redisHost
  port := some config.redisPort
  password := if config.redisPassword = [] then none else some config.redisPassword
  family := 4
  maxRetriesPerRequest := none
  enableReadyCheck := false
  keepAlive := 10000
  retryStrategy := boundedRetryStrategy

/-- `getRedisOptions`; what is thrown inside its `try` comes out as one message. -/
def getRedisOptions (special : SpecialParser) (config : RedisConfig) :
    Except JsString RedisOptions :=
  let normUrl := getNormalizedRedisUrl config
  let unparsed : Except JsString RedisOptions :=
    .error (js "REDIS_URL could not be parsed. Expected " ++
      js "rediss://<user>:<password>@<host>:<port>. " ++
      js "The value has been withheld from this message.")
  if normUrl = [] then .ok (discreteOptions config)
  else
    match Url.parse special normUrl with
    | none => unparsed
    | some parsed =>
        let isTls := (js "rediss://").isPrefixOf normUrl
        match decodedPart parsed.authority.username, decodedPart parsed.authority.password with
        | some username, some password => .ok (urlOptions parsed isTls username password)
        | _, _ => unparsed

theorem getRedisOptions_of_parse {special : SpecialParser} {config : RedisConfig}
    {parsed : Url.Parsed} {username password : Option JsString}
    (hset : getNormalizedRedisUrl config ≠ [])
    (hparse : Url.parse special (getNormalizedRedisUrl config) = some parsed)
    (husername : decodedPart parsed.authority.username = some username)
    (hpassword : decodedPart parsed.authority.password = some password) :
    getRedisOptions special config =
      .ok (urlOptions parsed ((js "rediss://").isPrefixOf (getNormalizedRedisUrl config)) username
        password) := by
  unfold getRedisOptions
  rw [if_neg hset, hparse]
  simp only [husername, hpassword]

theorem exists_of_getRedisOptions {special : SpecialParser} {config : RedisConfig}
    {options : RedisOptions} (hset : getNormalizedRedisUrl config ≠ [])
    (h : getRedisOptions special config = .ok options) :
    ∃ parsed username password, Url.parse special (getNormalizedRedisUrl config) = some parsed ∧
      decodedPart parsed.authority.username = some username ∧
      decodedPart parsed.authority.password = some password ∧
      options = urlOptions parsed ((js "rediss://").isPrefixOf (getNormalizedRedisUrl config))
        username password := by
  unfold getRedisOptions at h
  rw [if_neg hset] at h
  split at h
  · cases h
  · rename_i parsed hparse
    simp only at h
    split at h
    · rename_i username password husername hpassword
      exact ⟨parsed, username, password, hparse, husername, hpassword, (Except.ok.inj h).symm⟩
    · cases h

/-! ## The four spellings the source tests for -/

def plainSchemes : List JsString := [js "redis", js "rediss", js "http", js "https"]

def redisSchemes : List JsString := [js "redis", js "rediss"]

theorem spells_plain {scheme : JsString} (h : scheme ∈ plainSchemes) :
    Url.Spells scheme scheme := by
  simp only [plainSchemes, List.mem_cons, List.not_mem_nil, or_false] at h
  rcases h with rfl | rfl | rfl | rfl <;>
    simp [Url.Spells, Url.isSchemeUnit, Url.isAlpha, Url.asciiLowercase, js]

theorem not_special_of_redis {scheme : JsString} (h : scheme ∈ redisSchemes) :
    scheme ∉ Url.specialSchemes := by
  simp only [redisSchemes, List.mem_cons, List.not_mem_nil, or_false] at h
  rcases h with rfl | rfl <;> decide

/-- The text with one tested prefix in place of another. -/
def Respelled (text respelled : JsString) : Prop :=
  text = respelled ∨ ∃ scheme ∈ plainSchemes, ∃ scheme' ∈ plainSchemes, ∃ s,
    text = scheme ++ Url.slashes ++ s ∧ respelled = scheme' ++ Url.slashes ++ s

def authorityIn (text : JsString) : Option JsString :=
  (Url.schemeOf (Url.clean text)).bind fun scheme => Url.authorityOf scheme.2

theorem authorityIn_of_located {text scheme authority : JsString}
    (h : Url.Located text scheme authority) : authorityIn text = some authority := by
  obtain ⟨rest, hscheme, hauthority⟩ := Url.located_iff.1 h
  rw [authorityIn, hscheme]
  exact hauthority

theorem authorityIn_plain {scheme : JsString} (h : scheme ∈ plainSchemes) (s : JsString) :
    authorityIn (scheme ++ Url.slashes ++ s) = some (Url.authorityText (Url.cleanRight s)) :=
  authorityIn_of_located (Url.located_prefixed (spells_plain h) s)

theorem Respelled.authorityIn {text respelled : JsString} (h : Respelled text respelled) :
    authorityIn text = authorityIn respelled := by
  rcases h with rfl | ⟨scheme, hscheme, scheme', hscheme', s, rfl, rfl⟩
  · rfl
  · rw [authorityIn_plain hscheme, authorityIn_plain hscheme']

theorem plain_start {scheme : JsString} (h : scheme ∈ plainSchemes) (part : JsString)
    (hne : part ≠ []) (hslash : (0x2F : UInt16) ∉ part)
    (hpart : ∀ scheme ∈ plainSchemes, ¬part <:+: scheme ++ [0x3A]) (s : JsString) :
    part <:+: scheme ++ Url.slashes ++ s ↔ part <:+: s := by
  have hcut : scheme ++ Url.slashes ++ s = (scheme ++ [0x3A]) ++ 0x2F :: ([] ++ 0x2F :: s) := by
    simp [Url.slashes, js]
  rw [hcut, infix_append_cons_iff hslash, infix_append_cons_iff hslash]
  simp [hpart scheme h, hne]

theorem Respelled.includes {text respelled part : JsString} (h : Respelled text respelled)
    (hne : part ≠ []) (hslash : (0x2F : UInt16) ∉ part)
    (hpart : ∀ scheme ∈ plainSchemes, ¬part <:+: scheme ++ [0x3A]) :
    includes text part = includes respelled part := by
  rcases h with rfl | ⟨scheme, hscheme, scheme', hscheme', s, rfl, rfl⟩
  · rfl
  · unfold Ecma.includes
    rw [decide_eq_decide, plain_start hscheme part hne hslash hpart,
      plain_start hscheme' part hne hslash hpart]

theorem not_infix_plain {part : JsString}
    (h : plainSchemes.all (fun scheme => decide ¬part <:+: scheme ++ [0x3A]) = true) :
    ∀ scheme ∈ plainSchemes, ¬part <:+: scheme ++ [0x3A] := fun scheme hmem =>
  of_decide_eq_true (List.all_eq_true.1 h scheme hmem)

theorem Respelled.includes_tested {text respelled part : JsString} (h : Respelled text respelled)
    (hpart : part ∈ [js "upstash.io", js ":6379", js ":443"]) :
    Ecma.includes text part = Ecma.includes respelled part := by
  simp only [List.mem_cons, List.not_mem_nil, or_false] at hpart
  rcases hpart with rfl | rfl | rfl
  · exact h.includes (by decide) (by decide) (not_infix_plain (by decide))
  · exact h.includes (by decide) (by decide) (not_infix_plain (by decide))
  · exact h.includes (by decide) (by decide) (not_infix_plain (by decide))

/-! ## What the rewriting does -/

theorem exists_of_isPrefixOf {pat s : JsString} (h : pat.isPrefixOf s = true) :
    ∃ t, s = pat ++ t := by
  obtain ⟨t, ht⟩ := List.isPrefixOf_iff_prefix.1 h
  exact ⟨t, ht.symm⟩

theorem withTcpScheme_https (s : JsString) :
    withTcpScheme (js "https" ++ Url.slashes ++ s) = js "rediss" ++ Url.slashes ++ s := by
  have hstart : (js "https://").isPrefixOf (js "https" ++ Url.slashes ++ s) = true :=
    List.isPrefixOf_iff_prefix.2 ⟨s, rfl⟩
  unfold withTcpScheme
  rw [if_pos hstart]
  exact replaceFirst_prefix (by decide) _ s

theorem withTcpScheme_http (s : JsString) :
    withTcpScheme (js "http" ++ Url.slashes ++ s) = js "redis" ++ Url.slashes ++ s := by
  have hother : ¬(js "https://").isPrefixOf (js "http" ++ Url.slashes ++ s) = true := by
    simp [js, Url.slashes, List.isPrefixOf]
  have hstart : (js "http://").isPrefixOf (js "http" ++ Url.slashes ++ s) = true :=
    List.isPrefixOf_iff_prefix.2 ⟨s, rfl⟩
  unfold withTcpScheme
  rw [if_neg hother, if_pos hstart]
  exact replaceFirst_prefix (by decide) _ s

theorem withTcpScheme_other {url : JsString} (hhttps : ¬(js "https://").isPrefixOf url = true)
    (hhttp : ¬(js "http://").isPrefixOf url = true) : withTcpScheme url = url := by
  unfold withTcpScheme
  rw [if_neg hhttps, if_neg hhttp]

def tlsScheme (url : JsString) : JsString :=
  if includes url (js "upstash.io") then js "rediss" else js "redis"

theorem tlsScheme_mem (url : JsString) : tlsScheme url ∈ redisSchemes := by
  unfold tlsScheme
  split <;> decide

theorem withTls_redis (s : JsString) :
    withTls (js "redis" ++ Url.slashes ++ s) =
      tlsScheme (js "redis" ++ Url.slashes ++ s) ++ Url.slashes ++ s := by
  have hstart : (js "redis://").isPrefixOf (js "redis" ++ Url.slashes ++ s) = true :=
    List.isPrefixOf_iff_prefix.2 ⟨s, rfl⟩
  unfold withTls tlsScheme
  rw [hstart, Bool.and_true]
  split
  · exact replaceFirst_prefix (by decide) _ s
  · rfl

theorem withTls_other {url : JsString} (h : ¬(js "redis://").isPrefixOf url = true) :
    withTls url = url := by
  unfold withTls
  rw [Bool.eq_false_iff.2 h, Bool.and_false]
  rfl

def rewritten (url : JsString) : JsString := withTls (withTcpScheme url)

theorem rewritten_https (s : JsString) :
    rewritten (js "https" ++ Url.slashes ++ s) = js "rediss" ++ Url.slashes ++ s := by
  rw [rewritten, withTcpScheme_https]
  exact withTls_other (by simp [js, Url.slashes, List.isPrefixOf])

theorem rewritten_http (s : JsString) :
    rewritten (js "http" ++ Url.slashes ++ s) =
      tlsScheme (js "http" ++ Url.slashes ++ s) ++ Url.slashes ++ s := by
  have hrespelled : Respelled (js "redis" ++ Url.slashes ++ s) (js "http" ++ Url.slashes ++ s) :=
    Or.inr ⟨js "redis", by decide, js "http", by decide, s, rfl, rfl⟩
  rw [rewritten, withTcpScheme_http, withTls_redis, tlsScheme,
    hrespelled.includes_tested List.mem_cons_self, ← tlsScheme]

theorem rewritten_redis (s : JsString) :
    rewritten (js "redis" ++ Url.slashes ++ s) =
      tlsScheme (js "redis" ++ Url.slashes ++ s) ++ Url.slashes ++ s := by
  have hhttps : ¬(js "https://").isPrefixOf (js "redis" ++ Url.slashes ++ s) = true := by
    simp [js, Url.slashes, List.isPrefixOf]
  have hhttp : ¬(js "http://").isPrefixOf (js "redis" ++ Url.slashes ++ s) = true := by
    simp [js, Url.slashes, List.isPrefixOf]
  rw [rewritten, withTcpScheme_other hhttps hhttp, withTls_redis]

theorem rewritten_other {url : JsString} (hhttps : ¬(js "https://").isPrefixOf url = true)
    (hhttp : ¬(js "http://").isPrefixOf url = true)
    (hredis : ¬(js "redis://").isPrefixOf url = true) : rewritten url = url := by
  rw [rewritten, withTcpScheme_other hhttps hhttp, withTls_other hredis]

/-- Which of the tested prefixes a text starts with decides what becomes of it. -/
theorem rewritten_cases (url : JsString) :
    (∃ s, url = js "https" ++ Url.slashes ++ s ∧ rewritten url = js "rediss" ++ Url.slashes ++ s) ∨
      (∃ s, url = js "http" ++ Url.slashes ++ s ∧
        rewritten url = tlsScheme url ++ Url.slashes ++ s) ∨
      (∃ s, url = js "redis" ++ Url.slashes ++ s ∧
        rewritten url = tlsScheme url ++ Url.slashes ++ s) ∨
      (¬(js "https://").isPrefixOf url = true ∧ ¬(js "http://").isPrefixOf url = true ∧
        ¬(js "redis://").isPrefixOf url = true ∧ rewritten url = url) := by
  by_cases hhttps : (js "https://").isPrefixOf url = true
  · obtain ⟨s, rfl⟩ := exists_of_isPrefixOf hhttps
    exact Or.inl ⟨s, rfl, rewritten_https s⟩
  by_cases hhttp : (js "http://").isPrefixOf url = true
  · obtain ⟨s, rfl⟩ := exists_of_isPrefixOf hhttp
    exact Or.inr (Or.inl ⟨s, rfl, rewritten_http s⟩)
  by_cases hredis : (js "redis://").isPrefixOf url = true
  · obtain ⟨s, rfl⟩ := exists_of_isPrefixOf hredis
    exact Or.inr (Or.inr (Or.inl ⟨s, rfl, rewritten_redis s⟩))
  · exact Or.inr (Or.inr (Or.inr ⟨hhttps, hhttp, hredis, rewritten_other hhttps hhttp hredis⟩))

theorem mem_plainSchemes {scheme : JsString} (h : scheme ∈ redisSchemes) :
    scheme ∈ plainSchemes := by
  simp only [redisSchemes, plainSchemes, List.mem_cons, List.not_mem_nil, or_false] at h ⊢
  rcases h with rfl | rfl
  · exact Or.inl rfl
  · exact Or.inr (Or.inl rfl)

theorem respelled_rewritten (url : JsString) : Respelled url (rewritten url) := by
  rcases rewritten_cases url with
    ⟨s, hurl, hnew⟩ | ⟨s, hurl, hnew⟩ | ⟨s, hurl, hnew⟩ | ⟨-, -, -, hsame⟩
  · exact Or.inr ⟨js "https", by decide, js "rediss", by decide, s, hurl, hnew⟩
  · exact Or.inr ⟨js "http", by decide, tlsScheme url, mem_plainSchemes (tlsScheme_mem url), s,
      hurl, hnew⟩
  · exact Or.inr ⟨js "redis", by decide, tlsScheme url, mem_plainSchemes (tlsScheme_mem url), s,
      hurl, hnew⟩
  · exact Or.inl hsame.symm

theorem withPort_cases (url : JsString) :
    (∃ before after, cutFirst (js ".upstash.io") url = some (before, after) ∧
        includes url (js ":6379") = false ∧ includes url (js ":443") = false ∧
        withPort url = before ++ js ".upstash.io:6379" ++ after) ∨
      ((∀ before after, cutFirst (js ".upstash.io") url = some (before, after) →
          includes url (js ":6379") = false → includes url (js ":443") = true) ∧
        withPort url = url) := by
  unfold withPort
  split
  · rename_i h
    simp only [Bool.and_eq_true, Bool.not_eq_true'] at h
    unfold replaceFirst
    cases hcut : cutFirst (js ".upstash.io") url with
    | none => exact Or.inr ⟨fun before after hsome => absurd hsome (by simp), rfl⟩
    | some cut =>
        obtain ⟨before, after⟩ := cut
        exact Or.inl ⟨before, after, rfl, h.1.2, h.2, rfl⟩
  · rename_i h
    refine Or.inr ⟨fun before after hcut hport => ?_, rfl⟩
    have hmentioned : includes url (js "upstash.io") = true := by
      have hwhole := cutFirst_eq_some hcut
      have hdot : js ".upstash.io" = 0x2E :: js "upstash.io" := rfl
      rw [hwhole, hdot]
      exact decide_eq_true ⟨before ++ [0x2E], after, by simp⟩
    simp only [hmentioned, hport, Bool.not_false, Bool.and_true, Bool.true_and,
      Bool.not_eq_true', Bool.not_eq_false] at h
    exact h

theorem withPort_ne_nil {url : JsString} (h : url ≠ []) : withPort url ≠ [] := by
  rcases withPort_cases url with ⟨before, after, -, -, -, hput⟩ | ⟨-, hsame⟩
  · rw [hput]
    simp [js]
  · rwa [hsame]

theorem validatedText_cases (rawUrl : JsString) :
    (∃ s, rawUrl = js "https" ++ Url.slashes ++ s ∧
        validatedText rawUrl = js "rediss" ++ Url.slashes ++ s) ∨
      (∃ s, rawUrl = js "http" ++ Url.slashes ++ s ∧
        validatedText rawUrl = js "redis" ++ Url.slashes ++ s) ∨
      validatedText rawUrl = rawUrl := by
  unfold validatedText replaceStart
  by_cases hhttps : (js "https://").isPrefixOf rawUrl = true
  · obtain ⟨s, rfl⟩ := exists_of_isPrefixOf hhttps
    refine Or.inl ⟨s, rfl, ?_⟩
    rw [if_pos hhttps, List.drop_left]
    exact if_neg (by simp [js, List.isPrefixOf])
  · rw [if_neg hhttps]
    by_cases hhttp : (js "http://").isPrefixOf rawUrl = true
    · obtain ⟨s, rfl⟩ := exists_of_isPrefixOf hhttp
      refine Or.inr (Or.inl ⟨s, rfl, ?_⟩)
      rw [if_pos hhttp, List.drop_left]
      rfl
    · exact Or.inr (Or.inr (if_neg hhttp))

/-- An accepted value is parsed to a URL of one of the two schemes, with a host. -/
theorem accepted_iff {special : SpecialParser} {rawUrl : JsString} (hset : rawUrl ≠ []) :
    validateRedisUrl special rawUrl = .ok () ↔
      ∃ url, parsedUrl special rawUrl = some url ∧ url.scheme ∈ redisSchemes ∧
        url.authority.hostname ≠ [] := by
  have hprotocol : ∀ url : Url.Parsed,
      url.protocol ∈ [js "redis:", js "rediss:"] ↔ url.scheme ∈ redisSchemes := by
    intro url
    have hredis : js "redis:" = js "redis" ++ js ":" := rfl
    have hrediss : js "rediss:" = js "rediss" ++ js ":" := rfl
    simp only [Url.Parsed.protocol, redisSchemes, hredis, hrediss, List.mem_cons,
      List.not_mem_nil, or_false, List.append_cancel_right_eq]
  unfold validateRedisUrl
  rw [if_neg hset]
  constructor
  · intro h
    split at h
    · cases h
    · rename_i url hurl
      split at h
      · cases h
      split at h
      · cases h
      · rename_i hscheme hhost
        rw [Bool.not_eq_true', Bool.not_eq_false, List.contains_iff_mem] at hscheme
        exact ⟨url, hurl, (hprotocol url).1 hscheme, hhost⟩
  · rintro ⟨url, hurl, hscheme, hhost⟩
    have hcontains : [js "redis:", js "rediss:"].contains url.protocol = true :=
      List.contains_iff_mem.2 ((hprotocol url).2 hscheme)
    rw [hurl]
    simp only
    rw [if_neg (by simp only [hcontains, Bool.not_true, Bool.false_eq_true, not_false_eq_true]),
      if_neg hhost]

/-! ## Where the two readings find the authority -/

/-- Rewriting keeps the authority, and a scheme of the two. -/
theorem rewritten_located {url scheme authority : JsString} (hscheme : scheme ∈ redisSchemes)
    (h : Url.Located url scheme authority) :
    ∃ scheme' ∈ redisSchemes, Url.Located (rewritten url) scheme' authority := by
  have hgiven : ∀ {plain s : JsString} {scheme' : JsString}, plain ∈ plainSchemes →
      scheme' ∈ redisSchemes → url = plain ++ Url.slashes ++ s →
      rewritten url = scheme' ++ Url.slashes ++ s →
      Url.Located (rewritten url) scheme' authority := by
    intro plain s scheme' hplain hscheme' hurl hnew
    have hlocated := Url.located_prefixed (spells_plain hplain) s
    rw [← hurl] at hlocated
    obtain ⟨-, rfl⟩ := h.unique hlocated
    rw [hnew]
    exact Url.located_prefixed (spells_plain (mem_plainSchemes hscheme')) s
  rcases rewritten_cases url with
    ⟨s, hurl, hnew⟩ | ⟨s, hurl, hnew⟩ | ⟨s, hurl, hnew⟩ | ⟨-, -, -, hsame⟩
  · exact ⟨js "rediss", by decide, hgiven (by decide) (by decide) hurl hnew⟩
  · exact ⟨tlsScheme url, tlsScheme_mem url, hgiven (by decide) (tlsScheme_mem url) hurl hnew⟩
  · exact ⟨tlsScheme url, tlsScheme_mem url, hgiven (by decide) (tlsScheme_mem url) hurl hnew⟩
  · rw [hsame]
    exact ⟨scheme, hscheme, h⟩

theorem trim_spec (s : JsString) :
    ∃ l r, s = l ++ (trim s ++ r) ∧ (∀ u ∈ l, isWhiteSpace u = true) ∧
      ∀ u ∈ r, isWhiteSpace u = true := by
  obtain ⟨l, r, hs, hl, hr⟩ := strip_spec isWhiteSpace s
  exact ⟨l, r, by rw [← List.append_assoc]; exact hs, hl, hr⟩

theorem trim_plain {scheme : JsString} (h : scheme ∈ plainSchemes) (s : JsString) :
    ∃ m r, trim (scheme ++ Url.slashes ++ s) = scheme ++ Url.slashes ++ m ∧ s = m ++ r ∧
      ∀ u ∈ r, isWhiteSpace u = true := by
  obtain ⟨l, r, htext, hl, hr⟩ := trim_spec (scheme ++ Url.slashes ++ s)
  have hplain := (spells_plain h).1
  have hfirst : l = [] := by
    cases l with
    | nil => rfl
    | cons u l =>
        cases scheme with
        | nil => cases hplain
        | cons v scheme =>
            obtain ⟨hv, -⟩ := List.cons.inj htext
            have halpha : Url.isAlpha v = true := Option.some.inj hplain
            have hspace : Url.Space v := Or.inr (by rw [hv]; exact hl u List.mem_cons_self)
            rw [Url.not_isAlpha_of_space hspace] at halpha
            cases halpha
  have hslash : (0x2F : UInt16) ∉ r := fun hmem => absurd (hr _ hmem) (by decide)
  have hcut : trim (scheme ++ Url.slashes ++ s) ++ r = (scheme ++ [0x3A, 0x2F]) ++ 0x2F :: s := by
    rw [hfirst, List.nil_append] at htext
    rw [← htext]
    simp [Url.slashes, js]
  obtain ⟨m, hm, hs⟩ := append_eq_front hcut hslash
  refine ⟨m, r, ?_, hs, hr⟩
  rw [hm]
  simp [Url.slashes, js]

/-- What is validated and what is trimmed say the same authority, but for white space
that trimming takes off its end. -/
theorem located_trim {rawUrl scheme authority : JsString} (hscheme : scheme ∈ redisSchemes)
    (h : Url.Located (validatedText rawUrl) scheme authority) :
    ∃ front w, authorityIn rawUrl = some authority ∧ authorityIn (trim rawUrl) = some front ∧
      authority = front ++ w ∧ (∀ u ∈ w, Url.Space u) ∧
      ∃ scheme' ∈ redisSchemes, Url.Located (rewritten (trim rawUrl)) scheme' front := by
  -- a value that starts with a REST prefix keeps it when it is trimmed
  have hrest : ∀ {plain plain' s : JsString}, plain ∈ plainSchemes → plain' ∈ plainSchemes →
      rawUrl = plain ++ Url.slashes ++ s → validatedText rawUrl = plain' ++ Url.slashes ++ s →
      ∃ m w, trim rawUrl = plain ++ Url.slashes ++ m ∧
        authority = Url.authorityText (Url.cleanRight m) ++ w ∧ (∀ u ∈ w, Url.Space u) ∧
        authorityIn rawUrl = some authority := by
    intro plain plain' s hplain hplain' hraw hvalidated
    obtain ⟨m, r, hm, hs, hr⟩ := trim_plain hplain s
    have hwhole : plain' ++ Url.slashes ++ s = plain' ++ Url.slashes ++ m ++ r := by
      rw [hs, ← List.append_assoc]
    rw [hvalidated, hwhole] at h
    obtain ⟨front, w, hfront, hauthority, hw⟩ := h.of_append_right hr
    obtain ⟨-, rfl⟩ := hfront.unique (Url.located_prefixed (spells_plain hplain') m)
    refine ⟨m, w, by rw [hraw, hm], hauthority, hw, ?_⟩
    have hrespelled : Respelled rawUrl (validatedText rawUrl) :=
      Or.inr ⟨plain, hplain, plain', hplain', s, hraw, hvalidated⟩
    rw [hrespelled.authorityIn, hvalidated, hwhole]
    exact authorityIn_of_located h
  rcases validatedText_cases rawUrl with ⟨s, hraw, hnew⟩ | ⟨s, hraw, hnew⟩ | hsame
  · obtain ⟨m, w, hm, hauthority, hw, hin⟩ := hrest (by decide) (by decide) hraw hnew
    rw [hm]
    refine ⟨_, w, hin, authorityIn_plain (by decide) m, hauthority, hw, js "rediss", by decide, ?_⟩
    rw [rewritten_https]
    exact Url.located_prefixed (spells_plain (by decide)) m
  · obtain ⟨m, w, hm, hauthority, hw, hin⟩ := hrest (by decide) (by decide) hraw hnew
    have htls := mem_plainSchemes (tlsScheme_mem (js "http" ++ Url.slashes ++ m))
    have hlocated := Url.located_prefixed (spells_plain htls) m
    rw [← rewritten_http] at hlocated
    rw [hm]
    exact ⟨_, w, hin, authorityIn_plain (by decide) m, hauthority, hw, _, tlsScheme_mem _, hlocated⟩
  · rw [hsame] at h
    obtain ⟨l, r, htext, hl, hr⟩ := trim_spec rawUrl
    have hleft : Url.Located (l ++ (trim rawUrl ++ r)) scheme authority := by
      rw [← htext]
      exact h
    obtain ⟨front, w, hfront, hauthority, hw⟩ := (hleft.of_append_left hl).of_append_right hr
    exact ⟨front, w, authorityIn_of_located h, authorityIn_of_located hfront, hauthority, hw,
      rewritten_located hscheme hfront⟩

theorem getNormalizedRedisUrl_eq {config : RedisConfig} {scheme authority : JsString}
    (h : Url.Located (rewritten (trim config.redisUrl)) scheme authority) :
    getNormalizedRedisUrl config = withPort (rewritten (trim config.redisUrl)) := by
  have hset : trim config.redisUrl ≠ [] := by
    intro hnil
    rw [hnil] at h
    exact h.ne_nil (rewritten_other (by decide) (by decide) (by decide))
  exact if_neg hset

end TaskQueue

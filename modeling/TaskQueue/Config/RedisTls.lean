import TaskQueue.Config.RedisUrl

/-!
# When the connection uses TLS

The builder sets `tls` by the start of the rewritten text, letter for letter, while the
validator reads the scheme and the host as the URL parser does, which folds the case of
the scheme and skips tabs and newlines.  A scheme or a host in another spelling is read
by the one and missed by the other.
-/

namespace TaskQueue

open Ecma Cutting

/-! ## The start of the text -/

theorem isPrefixOf_append_cons {p : JsString} {u : UInt16} (h : u ∉ p) (s t : JsString) :
    p.isPrefixOf (s ++ u :: t) = p.isPrefixOf s := by
  rw [Bool.eq_iff_iff, List.isPrefixOf_iff_prefix, List.isPrefixOf_iff_prefix]
  constructor
  · rintro ⟨x, hx⟩
    obtain ⟨c, hc, -⟩ := append_cons_eq_front hx.symm h
    exact ⟨c, hc.symm⟩
  · exact fun hp => hp.trans (List.prefix_append s (u :: t))

theorem isPrefixOf_withPort {p : JsString} (h : (0x2E : UInt16) ∉ p) (url : JsString) :
    p.isPrefixOf (withPort url) = p.isPrefixOf url := by
  rcases withPort_cases url with ⟨before, after, hcut, -, -, hput⟩ | ⟨-, hsame⟩
  · have hgiven : url = before ++ 0x2E :: (js "upstash.io" ++ after) := by
      rw [cutFirst_eq_some hcut, List.append_assoc]
      rfl
    have hnew : withPort url = before ++ 0x2E :: (js "upstash.io:6379" ++ after) := by
      rw [hput, List.append_assoc]
      rfl
    rw [hnew, isPrefixOf_append_cons h, hgiven, isPrefixOf_append_cons h]
  · rw [hsame]

def StartsWith (scheme text : JsString) : Prop := (scheme ++ Url.slashes).isPrefixOf text = true

instance (scheme text : JsString) : Decidable (StartsWith scheme text) :=
  inferInstanceAs (Decidable (_ = _))

def GetsTls (text : JsString) : Prop :=
  StartsWith (js "rediss") text ∨ StartsWith (js "https") text ∨
    ((StartsWith (js "redis") text ∨ StartsWith (js "http") text) ∧
      includes text (js "upstash.io") = true)

theorem startsWith_append {scheme : JsString} (s : JsString) :
    StartsWith scheme (scheme ++ Url.slashes ++ s) :=
  List.isPrefixOf_iff_prefix.2 ⟨s, rfl⟩

theorem StartsWith.unique {scheme scheme' text : JsString} (hscheme : scheme ∈ plainSchemes)
    (hscheme' : scheme' ∈ plainSchemes) (h : StartsWith scheme text)
    (h' : StartsWith scheme' text) : scheme = scheme' := by
  obtain ⟨s, hs⟩ := exists_of_isPrefixOf h
  obtain ⟨s', hs'⟩ := exists_of_isPrefixOf h'
  have hlocated := Url.located_prefixed (spells_plain hscheme) s
  have hlocated' := Url.located_prefixed (spells_plain hscheme') s'
  rw [← hs] at hlocated
  rw [← hs'] at hlocated'
  exact (hlocated.unique hlocated').1

theorem startsWith_rewritten_iff (text : JsString) :
    StartsWith (js "rediss") (rewritten text) ↔ GetsTls text := by
  have htls : ∀ s, StartsWith (js "rediss") (tlsScheme text ++ Url.slashes ++ s) ↔
      includes text (js "upstash.io") = true := by
    intro s
    unfold tlsScheme
    by_cases hmentioned : includes text (js "upstash.io") = true
    · rw [if_pos hmentioned]
      exact iff_of_true (startsWith_append s) hmentioned
    · rw [if_neg hmentioned]
      refine iff_of_false (fun hstart => ?_) hmentioned
      have hsame := hstart.unique (by decide) (by decide) (startsWith_append s)
      exact absurd hsame (by decide)
  have hother : ∀ {scheme scheme' : JsString}, scheme ∈ plainSchemes → scheme' ∈ plainSchemes →
      scheme ≠ scheme' → StartsWith scheme text → ¬StartsWith scheme' text :=
    fun hmem hmem' hne h h' => hne (h.unique hmem hmem' h')
  rcases rewritten_cases text with ⟨s, hurl, hnew⟩ | ⟨s, hurl, hnew⟩ | ⟨s, hurl, hnew⟩ |
    ⟨hhttps, hhttp, hredis, hsame⟩
  · have hstart : StartsWith (js "https") text := by
      rw [hurl]
      exact startsWith_append s
    rw [hnew]
    exact iff_of_true (startsWith_append s) (Or.inr (Or.inl hstart))
  · have hstart : StartsWith (js "http") text := by
      rw [hurl]
      exact startsWith_append s
    rw [hnew, htls]
    constructor
    · exact fun hmentioned => Or.inr (Or.inr ⟨Or.inr hstart, hmentioned⟩)
    · rintro (hrediss | hhttps | ⟨-, hmentioned⟩)
      · exact absurd hrediss (hother (by decide) (by decide) (by decide) hstart)
      · exact absurd hhttps (hother (by decide) (by decide) (by decide) hstart)
      · exact hmentioned
  · have hstart : StartsWith (js "redis") text := by
      rw [hurl]
      exact startsWith_append s
    rw [hnew, htls]
    constructor
    · exact fun hmentioned => Or.inr (Or.inr ⟨Or.inl hstart, hmentioned⟩)
    · rintro (hrediss | hhttps | ⟨-, hmentioned⟩)
      · exact absurd hrediss (hother (by decide) (by decide) (by decide) hstart)
      · exact absurd hhttps (hother (by decide) (by decide) (by decide) hstart)
      · exact hmentioned
  · rw [hsame]
    constructor
    · exact Or.inl
    · rintro (hrediss | hstart | ⟨hstart | hstart, -⟩)
      · exact hrediss
      · exact absurd hstart hhttps
      · exact absurd hstart hredis
      · exact absurd hstart hhttp

def tcpScheme (plain : JsString) : JsString :=
  if plain = js "https" then js "rediss" else if plain = js "http" then js "redis" else plain

theorem scheme_of_startsWith {rawUrl scheme authority plain : JsString}
    (hscheme : scheme ∈ redisSchemes) (h : Url.Located (validatedText rawUrl) scheme authority)
    (hplain : plain ∈ plainSchemes) (hstart : StartsWith plain (trim rawUrl)) :
    scheme = tcpScheme plain := by
  rcases validatedText_cases rawUrl with ⟨s, hraw, hnew⟩ | ⟨s, hraw, hnew⟩ | hsame
  · obtain ⟨m, -, hm, -⟩ := trim_plain (show js "https" ∈ plainSchemes by decide) s
    rw [hraw, hm] at hstart
    obtain rfl := hstart.unique hplain (by decide) (startsWith_append m)
    rw [hnew] at h
    exact (h.unique (Url.located_prefixed (spells_plain (by decide)) s)).1
  · obtain ⟨m, -, hm, -⟩ := trim_plain (show js "http" ∈ plainSchemes by decide) s
    rw [hraw, hm] at hstart
    obtain rfl := hstart.unique hplain (by decide) (startsWith_append m)
    rw [hnew] at h
    exact (h.unique (Url.located_prefixed (spells_plain (by decide)) s)).1
  · rw [hsame] at h
    obtain ⟨l, r, htext, hl, hr⟩ := trim_spec rawUrl
    have hleft : Url.Located (l ++ (trim rawUrl ++ r)) scheme authority := by
      rw [← htext]
      exact h
    obtain ⟨front, w, hfront, -⟩ := (hleft.of_append_left hl).of_append_right hr
    obtain ⟨s, hs⟩ := exists_of_isPrefixOf hstart
    rw [hs] at hfront
    obtain ⟨rfl, -⟩ := hfront.unique (Url.located_prefixed (spells_plain hplain) s)
    simp only [redisSchemes, List.mem_cons, List.not_mem_nil, or_false] at hscheme
    rcases hscheme with rfl | rfl <;> rfl

/-! ## What asks for TLS -/

/-- `upstash.io` or a subdomain of it, in any letter case. -/
def UnderUpstash (hostname : JsString) : Prop :=
  hostname.map Url.asciiLowercase = js "upstash.io" ∨
    js ".upstash.io" <:+ hostname.map Url.asciiLowercase

instance (hostname : JsString) : Decidable (UnderUpstash hostname) :=
  inferInstanceAs (Decidable (_ ∨ _))

/-- The value names a TLS scheme, an Upstash host, or a REST URL. -/
def AsksForTls (special : SpecialParser) (rawUrl : JsString) : Prop :=
  ∃ url, parsedUrl special rawUrl = some url ∧
    (url.scheme = js "rediss" ∨ UnderUpstash url.authority.hostname ∨
      StartsWith (js "https") rawUrl)

/-- What asks for TLS is spelled as the builder looks for it: a scheme that is read as
`rediss` is written so, or `https`; and before an Upstash host a scheme that is read as
`redis` is written so, or `http`, with `upstash.io` in these letters somewhere. -/
def SpelledPlainly (special : SpecialParser) (rawUrl : JsString) : Prop :=
  ∀ url, parsedUrl special rawUrl = some url →
    (url.scheme = js "rediss" →
      StartsWith (js "rediss") (trim rawUrl) ∨ StartsWith (js "https") (trim rawUrl)) ∧
    (url.scheme = js "redis" → UnderUpstash url.authority.hostname →
      (StartsWith (js "redis") (trim rawUrl) ∨ StartsWith (js "http") (trim rawUrl)) ∧
        includes (trim rawUrl) (js "upstash.io") = true)

theorem tls_of_options {special : SpecialParser} {config : RedisConfig} {options : RedisOptions}
    (hset : getNormalizedRedisUrl config ≠ [])
    (hoptions : getRedisOptions special config = .ok options) :
    options.tls.isSome = (js "rediss://").isPrefixOf (getNormalizedRedisUrl config) := by
  obtain ⟨parsed, username, password, -, -, -, rfl⟩ := exists_of_getRedisOptions hset hoptions
  unfold urlOptions
  cases (js "rediss://").isPrefixOf (getNormalizedRedisUrl config) with
  | true => rfl
  | false => rfl

/-- The options have TLS by the trimmed text alone. -/
theorem tls_iff_getsTls {special : SpecialParser} {config : RedisConfig} {options : RedisOptions}
    {scheme authority : JsString}
    (hlocated : Url.Located (rewritten (trim config.redisUrl)) scheme authority)
    (hoptions : getRedisOptions special config = .ok options) :
    options.tls.isSome = true ↔ GetsTls (trim config.redisUrl) := by
  have hnormalized := getNormalizedRedisUrl_eq hlocated
  have hset : getNormalizedRedisUrl config ≠ [] := by
    rw [hnormalized]
    exact withPort_ne_nil hlocated.ne_nil
  have hdot : (0x2E : UInt16) ∉ js "rediss://" := by decide
  rw [tls_of_options hset hoptions, hnormalized, isPrefixOf_withPort hdot]
  exact startsWith_rewritten_iff (trim config.redisUrl)

theorem startsWith_https_trim {rawUrl : JsString} (h : StartsWith (js "https") rawUrl) :
    StartsWith (js "https") (trim rawUrl) := by
  obtain ⟨s, hs⟩ := exists_of_isPrefixOf h
  obtain ⟨m, -, hm, -⟩ := trim_plain (show js "https" ∈ plainSchemes by decide) s
  have hwhole : rawUrl = js "https" ++ Url.slashes ++ s := hs
  rw [hwhole, hm]
  exact startsWith_append m

/-- An accepted value that asks for TLS is given it exactly if it asks in plain
spelling. -/
theorem tls_kept_iff {special : SpecialParser} {config : RedisConfig} {options : RedisOptions}
    (haccepted : validateRedisUrl special config.redisUrl = .ok ())
    (hoptions : getRedisOptions special config = .ok options) :
    (AsksForTls special config.redisUrl → options.tls.isSome = true) ↔
      SpelledPlainly special config.redisUrl := by
  by_cases hset : config.redisUrl = []
  · -- without a value there is no URL
    have hnone : parsedUrl special config.redisUrl = none := by
      rw [hset]
      rfl
    refine iff_of_true ?_ ?_
    · rintro ⟨url, hurl, -⟩
      rw [hnone] at hurl
      cases hurl
    · intro url hurl
      rw [hnone] at hurl
      cases hurl
  obtain ⟨url, hurl, hscheme, hhost⟩ := (accepted_iff hset).1 haccepted
  obtain ⟨authority, hlocated, -⟩ :=
    Url.located_of_parse (not_special_of_redis hscheme) hhost hurl
  obtain ⟨front, w, -, -, -, -, scheme, -, hfront⟩ := located_trim hscheme hlocated
  rw [tls_iff_getsTls hfront hoptions]
  have hstands : ∀ {plain : JsString}, plain ∈ plainSchemes →
      StartsWith plain (trim config.redisUrl) → url.scheme = tcpScheme plain :=
    fun hplain hstart => scheme_of_startsWith hscheme hlocated hplain hstart
  have hdiffer : js "rediss" ≠ js "redis" := by decide
  constructor
  · intro hkept url' hurl'
    rw [hurl, Option.some.injEq] at hurl'
    subst hurl'
    constructor
    · intro hrediss
      rcases hkept ⟨url, hurl, Or.inl hrediss⟩ with hstart | hstart | ⟨hstart | hstart, -⟩
      · exact Or.inl hstart
      · exact Or.inr hstart
      · exact absurd (hrediss.symm.trans (hstands (by decide) hstart)) hdiffer
      · exact absurd (hrediss.symm.trans (hstands (by decide) hstart)) hdiffer
    · intro hredis hunder
      rcases hkept ⟨url, hurl, Or.inr (Or.inl hunder)⟩ with hstart | hstart | hmentioned
      · exact absurd ((hstands (by decide) hstart).symm.trans hredis) hdiffer
      · exact absurd ((hstands (by decide) hstart).symm.trans hredis) hdiffer
      · exact hmentioned
  · rintro hplainly ⟨url', hurl', hasks⟩
    rw [hurl, Option.some.injEq] at hurl'
    subst hurl'
    obtain ⟨hrediss, hredis⟩ := hplainly url hurl
    have hgiven : url.scheme = js "rediss" → GetsTls (trim config.redisUrl) := by
      intro h
      rcases hrediss h with hstart | hstart
      · exact Or.inl hstart
      · exact Or.inr (Or.inl hstart)
    rcases hasks with hasks | hunder | hhttps
    · exact hgiven hasks
    · simp only [redisSchemes, List.mem_cons, List.not_mem_nil, or_false] at hscheme
      rcases hscheme with hscheme | hscheme
      · exact Or.inr (Or.inr (hredis hscheme hunder))
      · exact hgiven hscheme
    · exact Or.inr (Or.inl (startsWith_https_trim hhttps))

theorem tls_kept_iff_upstash :
    ∃ options, getRedisOptions noSpecial (.ofUrl (js "rediss://:secret@cache.upstash.io")) =
        .ok options ∧
      (AsksForTls noSpecial (js "rediss://:secret@cache.upstash.io") →
        options.tls.isSome = true) := by
  have hparse : Url.parse noSpecial
      (getNormalizedRedisUrl (.ofUrl (js "rediss://:secret@cache.upstash.io"))) =
        some { scheme := js "rediss"
               authority :=
                { username := []
                  password := js "secret"
                  hostname := js "cache.upstash.io"
                  port := some 6379 } } := by decide +kernel
  have hset : getNormalizedRedisUrl (.ofUrl (js "rediss://:secret@cache.upstash.io")) ≠ [] := by
    decide +kernel
  have huser : decodedPart [] = some none := rfl
  have hpassword : decodedPart (js "secret") = some (some (js "secret")) := by decide +kernel
  have hoptions := getRedisOptions_of_parse hset hparse huser hpassword
  have hurl : parsedUrl noSpecial (js "rediss://:secret@cache.upstash.io") =
      some { scheme := js "rediss"
             authority :=
              { username := []
                password := js "secret"
                hostname := js "cache.upstash.io"
                port := none } } := by decide +kernel
  have haccepted := (accepted_iff (by decide)).2 ⟨_, hurl, by decide, by decide⟩
  refine ⟨_, hoptions, (tls_kept_iff haccepted hoptions).2 ?_⟩
  intro url hfound
  have hsame := hurl.symm.trans hfound
  obtain rfl := Option.some.inj hsame
  exact ⟨fun _ => Or.inl (by decide +kernel), fun h => absurd h (by decide)⟩

/-- A TLS scheme in capitals is accepted, and connects in plain text. -/
theorem capitals_lose_tls :
    ∃ options, validateRedisUrl noSpecial (js "REDISS://:secret@cache.example") = .ok () ∧
      AsksForTls noSpecial (js "REDISS://:secret@cache.example") ∧
      getRedisOptions noSpecial (.ofUrl (js "REDISS://:secret@cache.example")) = .ok options ∧
      options.password = some (js "secret") ∧ options.tls.isSome = false := by
  have hurl : parsedUrl noSpecial (js "REDISS://:secret@cache.example") =
      some { scheme := js "rediss"
             authority :=
              { username := []
                password := js "secret"
                hostname := js "cache.example"
                port := none } } := by decide +kernel
  have hparse : Url.parse noSpecial
      (getNormalizedRedisUrl (.ofUrl (js "REDISS://:secret@cache.example"))) =
        some { scheme := js "rediss"
               authority :=
                { username := []
                  password := js "secret"
                  hostname := js "cache.example"
                  port := none } } := by decide +kernel
  have hset : getNormalizedRedisUrl (.ofUrl (js "REDISS://:secret@cache.example")) ≠ [] := by
    decide +kernel
  have hpassword : decodedPart (js "secret") = some (some (js "secret")) := by decide +kernel
  have hoptions := getRedisOptions_of_parse hset hparse rfl hpassword
  have haccepted := (accepted_iff (by decide)).2 ⟨_, hurl, by decide, by decide⟩
  refine ⟨_, haccepted, ⟨_, hurl, Or.inl rfl⟩, hoptions, rfl, ?_⟩
  rw [tls_of_options hset hoptions]
  decide +kernel

end TaskQueue

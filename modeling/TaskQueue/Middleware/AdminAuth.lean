import TaskQueue.Dashboard.Chain
import TaskQueue.Lib.Base64
import TaskQueue.Lib.Unicode
import TaskQueue.Logging.Context

/-!
# The admin boundary

Basic authentication for `/metrics`.  The guard cuts the decoded text at its first
colon and compares the two parts by their digests, each as UTF-8.  A configured
user with a colon in it can then never be matched: the part before the first colon
has none.
-/

namespace TaskQueue

open Ecma Unicode
open Dashboard (Refusal asciiLower)

/-! ## Configuration -/

structure AdminConfig where
  bullboardUser : JsString
  bullboardPassword : JsString

def AdminConfig.adminAuthConfigured (config : AdminConfig) : Bool :=
  0 < config.bullboardUser.length && 0 < config.bullboardPassword.length

/-! ## Comparison -/

/-- What SHA-256 makes of any bytes. -/
abbrev Digest := { bytes : List UInt8 // bytes.length = 32 }

/-- Digests are of one length, so the comparison does not throw. -/
def timingSafeEqual (a b : Digest) : Bool := decide (a = b)

def secureCompare (sha256 : List UInt8 → Digest) (provided expected : JsString) : Bool :=
  let providedHash := sha256 (utf8Encode provided)
  let expectedHash := sha256 (utf8Encode expected)
  timingSafeEqual providedHash expectedHash

/-! ## The header -/

/-- `String.prototype.toLowerCase` of one unit, as far as ASCII text can tell: two units
beside `A` to `Z` have ASCII letters in their lower case, and the others are left as
they are. -/
def lowerUnit (u : UInt16) : JsString :=
  if u = 0x130 then [0x69, 0x307]
  else if u = 0x212A then [0x6B]
  else [asciiLower u]

def toLowerCase (s : JsString) : JsString := s.flatMap lowerUnit

structure BasicCredentials where
  user : JsString
  pass : JsString

/-- `fromBase64` is `Buffer.from(_, 'base64')`, which never throws. -/
def parseBasicAuth (fromBase64 : JsString → List UInt8) (header : Option JsString) :
    Option BasicCredentials :=
  match header with
  | none => none
  | some header =>
      if header.isEmpty || !(js "basic ").isPrefixOf (toLowerCase header) then none
      else
        let encoded := trim (header.drop 6)
        let decoded := utf8Decode (fromBase64 encoded)
        (decoded.idxOf? 0x3A).map fun separatorIndex =>
          { user := decoded.take separatorIndex
            pass := decoded.drop (separatorIndex + 1) }

def unauthorized (error : JsString) : Refusal where
  statusCode := 401
  headers := [(js "WWW-Authenticate", js "Basic realm=\"Restricted\", charset=\"UTF-8\"")]
  error

/-- The refusal of a request, or none: `next()`. -/
def requireAdminAuth (sha256 : List UInt8 → Digest) (fromBase64 : JsString → List UInt8)
    (config : AdminConfig) (authorization : Option JsString) : Option Refusal :=
  if !config.adminAuthConfigured then
    some ⟨503, [], js "Admin interface is not configured on this deployment."⟩
  else
    match parseBasicAuth fromBase64 authorization with
    | none => some (unauthorized (js "Authentication required."))
    | some credentials =>
        let userMatches := secureCompare sha256 credentials.user config.bullboardUser
        let passMatches := secureCompare sha256 credentials.pass config.bullboardPassword
        if !userMatches || !passMatches then some (unauthorized (js "Invalid credentials."))
        else none

/-! ## What the guard is to do -/

def BasicScheme (header : JsString) : Prop := (header.take 6).map asciiLower = js "basic "

instance (header : JsString) : Decidable (BasicScheme header) := inferInstanceAs (Decidable (_ = _))

def decodedText (fromBase64 : JsString → List UInt8) (header : JsString) : JsString :=
  utf8Decode (fromBase64 (trim (header.drop 6)))

/-- The header a client builds from the configured credentials. -/
def clientHeader (config : AdminConfig) : JsString :=
  js "Basic " ++
    Base64.encode (utf8Encode (config.bullboardUser ++ js ":" ++ config.bullboardPassword))

/-- A request goes on exactly with the configured credentials, and the client's own
header is one with which it does. -/
structure ChecksExactly (sha256 : List UInt8 → Digest) (fromBase64 : JsString → List UInt8)
    (config : AdminConfig) : Prop where
  exact : ∀ header, requireAdminAuth sha256 fromBase64 config (some header) = none ↔
    config.bullboardUser ≠ [] ∧ config.bullboardPassword ≠ [] ∧ BasicScheme header ∧
      decodedText fromBase64 header = config.bullboardUser ++ js ":" ++ config.bullboardPassword
  satisfiable : config.bullboardUser ≠ [] → config.bullboardPassword ≠ [] →
    requireAdminAuth sha256 fromBase64 config (some (clientHeader config)) = none

/-! ## Parsing -/

/-- Letter case is all the difference the test for the scheme can see: no text whose
letters are not `k`, nor end in `i`, has a unit beside ASCII before it is lowered. -/
theorem isPrefixOf_toLowerCase {p : JsString} (hascii : ∀ u ∈ p, u < 0x80)
    (hk : (0x6B : UInt16) ∉ p) (hi : p.getLast? ≠ some 0x69) (s : JsString) :
    p.isPrefixOf (toLowerCase s) = true ↔ (s.take p.length).map asciiLower = p := by
  induction p generalizing s with
  | nil => simp
  | cons x p ih =>
      have hx : x < 0x80 := hascii x List.mem_cons_self
      have hascii' : ∀ u ∈ p, u < 0x80 := fun u hu => hascii u (List.mem_cons_of_mem _ hu)
      have hk' : (0x6B : UInt16) ∉ p := fun h => hk (List.mem_cons_of_mem _ h)
      cases s with
      | nil => simp [toLowerCase]
      | cons u s =>
          have hlower : toLowerCase (u :: s) = lowerUnit u ++ toLowerCase s := List.flatMap_cons
          rw [hlower, List.length_cons, List.take_succ_cons, List.map_cons, List.cons.injEq]
          by_cases hdotted : u = 0x130
          · -- `İ` is an `i` and a dot, which no text goes on with.
            subst hdotted
            have hne : asciiLower 0x130 ≠ x := by
              rintro rfl
              exact absurd hx (by decide)
            simp only [lowerUnit, if_true, hne, false_and, iff_false, Bool.not_eq_true]
            cases p with
            | nil =>
                have hlast : x ≠ 0x69 := by simpa using hi
                simp [List.isPrefixOf, hlast]
            | cons y p =>
                have hy : y ≠ 0x307 := by
                  rintro rfl
                  exact absurd (hascii' _ List.mem_cons_self) (by decide)
                simp [List.isPrefixOf, hy]
          · by_cases hkelvin : u = 0x212A
            · subst hkelvin
              have hne : asciiLower 0x212A ≠ x := by
                rintro rfl
                exact absurd hx (by decide)
              have hxk : x ≠ 0x6B := fun h => hk (h ▸ List.mem_cons_self)
              simp [lowerUnit, List.isPrefixOf, hne, hxk]
            · have hi' : p.getLast? ≠ some 0x69 := by
                cases p with
                | nil => simp
                | cons y p => rwa [List.getLast?_cons_cons] at hi
              rw [lowerUnit, if_neg hdotted, if_neg hkelvin, List.singleton_append,
                List.isPrefixOf_cons_cons, Bool.and_eq_true, beq_iff_eq, ih hascii' hk' hi',
                eq_comm]

section

variable {sha256 : List UInt8 → Digest} {fromBase64 : JsString → List UInt8} {config : AdminConfig}

theorem startsWith_basic_iff {header : JsString} :
    (js "basic ").isPrefixOf (toLowerCase header) = true ↔ BasicScheme header := by
  have hascii : ∀ u ∈ js "basic ", u < 0x80 := by simp [js]
  exact isPrefixOf_toLowerCase hascii (by decide) (by decide) header

theorem parseBasicAuth_of_not_basic {header : JsString} (h : ¬BasicScheme header) :
    parseBasicAuth fromBase64 (some header) = none := by
  refine if_pos ?_
  rw [Bool.or_eq_true, Bool.not_eq_true', ← Bool.not_eq_true, startsWith_basic_iff]
  exact Or.inr h

theorem parseBasicAuth_of_basic {header : JsString} (h : BasicScheme header) :
    parseBasicAuth fromBase64 (some header) =
      ((decodedText fromBase64 header).idxOf? 0x3A).map fun i =>
        ⟨(decodedText fromBase64 header).take i, (decodedText fromBase64 header).drop (i + 1)⟩ := by
  refine if_neg ?_
  rw [Bool.or_eq_true, Bool.not_eq_true', ← Bool.not_eq_true, startsWith_basic_iff]
  rintro (hempty | hother)
  · rw [List.isEmpty_iff.1 hempty] at h
    exact absurd h (by decide)
  · exact hother h

theorem parseBasicAuth_eq_some {header : JsString} {credentials : BasicCredentials} :
    parseBasicAuth fromBase64 (some header) = some credentials ↔
      BasicScheme header ∧
        decodedText fromBase64 header = credentials.user ++ 0x3A :: credentials.pass ∧
        (0x3A : UInt16) ∉ credentials.user := by
  by_cases hbasic : BasicScheme header
  · rw [parseBasicAuth_of_basic hbasic, Option.map_eq_some_iff]
    simp only [hbasic, true_and]
    constructor
    · rintro ⟨i, hi, rfl⟩
      obtain ⟨user, pass, htext, huser, rfl⟩ := idxOf?_eq_some_iff_cut.1 hi
      rw [htext]
      simp [huser]
    · rintro ⟨htext, huser⟩
      refine ⟨_, idxOf?_eq_some_iff_cut.2 ⟨_, _, htext, huser, rfl⟩, ?_⟩
      rw [htext]
      simp
  · rw [parseBasicAuth_of_not_basic hbasic]
    simp [hbasic]

/-! ## Checking -/

def CollisionFree (sha256 : List UInt8 → Digest) (text : JsString) : Prop :=
  ∀ bytes, sha256 bytes = sha256 (utf8Encode text) → bytes = utf8Encode text

/-- Two texts compare equal when they are the same up to unpaired surrogates. -/
theorem secureCompare_eq_true {provided expected : JsString} (h : CollisionFree sha256 expected) :
    secureCompare sha256 provided expected = true ↔
      toWellFormed provided = toWellFormed expected := by
  rw [← utf8Encode_eq_iff]
  simp only [secureCompare, timingSafeEqual, decide_eq_true_eq]
  exact ⟨h _, fun heq => by rw [heq]⟩

theorem adminAuthConfigured_eq_true :
    config.adminAuthConfigured = true ↔
      config.bullboardUser ≠ [] ∧ config.bullboardPassword ≠ [] := by
  simp [AdminConfig.adminAuthConfigured, List.length_pos_iff]

theorem isSurrogate_colon : isSurrogate 0x3A = false := by decide

theorem requireAdminAuth_eq_none (huser : CollisionFree sha256 config.bullboardUser)
    (hpassword : CollisionFree sha256 config.bullboardPassword) {header : JsString} :
    requireAdminAuth sha256 fromBase64 config (some header) = none ↔
      (config.bullboardUser ≠ [] ∧ config.bullboardPassword ≠ []) ∧
        ∃ credentials, parseBasicAuth fromBase64 (some header) = some credentials ∧
          toWellFormed credentials.user = toWellFormed config.bullboardUser ∧
          toWellFormed credentials.pass = toWellFormed config.bullboardPassword := by
  rw [← adminAuthConfigured_eq_true]
  unfold requireAdminAuth
  cases config.adminAuthConfigured with
  | false => simp
  | true =>
      cases parseBasicAuth fromBase64 (some header) with
      | none => simp
      | some credentials =>
          simp only [Bool.not_true, Bool.false_eq_true, if_false, true_and, Option.some.injEq,
            exists_eq_left', ite_eq_right_iff, reduceCtorEq, imp_false, Bool.or_eq_true,
            Bool.not_eq_true', not_or, Bool.not_eq_false, secureCompare_eq_true huser,
            secureCompare_eq_true hpassword]

/-- The guard lets exactly the headers through whose text is the configured credentials
with their unpaired surrogates replaced, and none if there is a colon in the user. -/
theorem requireAdminAuth_eq_none_iff (huser : CollisionFree sha256 config.bullboardUser)
    (hpassword : CollisionFree sha256 config.bullboardPassword) (header : JsString) :
    requireAdminAuth sha256 fromBase64 config (some header) = none ↔
      (config.bullboardUser ≠ [] ∧ config.bullboardPassword ≠ []) ∧ BasicScheme header ∧
        decodedText fromBase64 header =
          toWellFormed (config.bullboardUser ++ 0x3A :: config.bullboardPassword) ∧
        (0x3A : UInt16) ∉ config.bullboardUser := by
  rw [requireAdminAuth_eq_none huser hpassword, toWellFormed_append_cons isSurrogate_colon]
  refine and_congr_right fun _ => ?_
  constructor
  · rintro ⟨credentials, hparse, hsameUser, hsamePass⟩
    obtain ⟨hbasic, htext, hcolon⟩ := parseBasicAuth_eq_some.1 hparse
    -- The decoded text is well-formed, and so are its two parts.
    have hwell : isWellFormed (decodedText fromBase64 header) = true := isWellFormed_utf8Decode _
    rw [htext, isWellFormed_append_cons isSurrogate_colon, Bool.and_eq_true] at hwell
    rw [toWellFormed_of_isWellFormed hwell.1] at hsameUser
    rw [toWellFormed_of_isWellFormed hwell.2] at hsamePass
    refine ⟨hbasic, by rw [htext, hsameUser, hsamePass], fun hmem => hcolon ?_⟩
    obtain ⟨before, after, hcut⟩ := List.append_of_mem hmem
    rw [hsameUser, hcut, toWellFormed_append_cons isSurrogate_colon]
    simp
  · rintro ⟨hbasic, htext, hcolon⟩
    have hcolon' : (0x3A : UInt16) ∉ toWellFormed config.bullboardUser :=
      fun hmem => hcolon (mem_of_mem_toWellFormed (by decide) hmem)
    refine ⟨⟨_, _⟩, parseBasicAuth_eq_some.2 ⟨hbasic, htext, hcolon'⟩, ?_, ?_⟩
    · exact toWellFormed_eq_self_iff.2 (isWellFormed_flatMap_utf16 scalar_of_mem_scalars)
    · exact toWellFormed_eq_self_iff.2 (isWellFormed_flatMap_utf16 scalar_of_mem_scalars)

/-! ## The client's header -/

theorem isWhiteSpace_encode (bytes : List UInt8) :
    ∀ u ∈ Base64.encode bytes, isWhiteSpace u = false := by
  have halphabet : ∀ n, n < 64 → isWhiteSpace (Base64.unitOf n) = false := by decide
  intro u hu
  rcases Base64.mem_encode hu with ⟨n, hn, rfl⟩ | rfl
  · exact halphabet n hn
  · decide

theorem clientHeader_spec (hbase64 : ∀ bytes, fromBase64 (Base64.encode bytes) = bytes) :
    BasicScheme (clientHeader config) ∧
      decodedText fromBase64 (clientHeader config) =
        toWellFormed (config.bullboardUser ++ 0x3A :: config.bullboardPassword) := by
  have htext : config.bullboardUser ++ js ":" ++ config.bullboardPassword =
      config.bullboardUser ++ 0x3A :: config.bullboardPassword := by
    rw [List.append_assoc]
    rfl
  refine ⟨rfl, ?_⟩
  change utf8Decode (fromBase64 (trim (Base64.encode _))) = _
  rw [trim_eq_self (isWhiteSpace_encode _), hbase64, utf8Decode_utf8Encode, htext]

/-- The guard checks the credentials exactly, and lets their owner in, when one of them
is not configured, or there is no colon in the user and no unpaired surrogate in
either of them. -/
theorem checksExactly_iff (sha256 : List UInt8 → Digest) (fromBase64 : JsString → List UInt8)
    (config : AdminConfig) (hbase64 : ∀ bytes, fromBase64 (Base64.encode bytes) = bytes)
    (huser : CollisionFree sha256 config.bullboardUser)
    (hpassword : CollisionFree sha256 config.bullboardPassword) :
    ChecksExactly sha256 fromBase64 config ↔
      config.bullboardUser = [] ∨ config.bullboardPassword = [] ∨
        ((0x3A : UInt16) ∉ config.bullboardUser ∧ isWellFormed config.bullboardUser = true ∧
          isWellFormed config.bullboardPassword = true) := by
  have htext : config.bullboardUser ++ js ":" ++ config.bullboardPassword =
      config.bullboardUser ++ 0x3A :: config.bullboardPassword := by
    rw [List.append_assoc]
    rfl
  have hguard : ∀ header, requireAdminAuth sha256 fromBase64 config (some header) = none ↔ _ :=
    requireAdminAuth_eq_none_iff huser hpassword
  obtain ⟨hbasic, hdecoded⟩ := clientHeader_spec hbase64
  constructor
  · intro hchecks
    by_cases huserSet : config.bullboardUser = []
    · exact Or.inl huserSet
    by_cases hpasswordSet : config.bullboardPassword = []
    · exact Or.inr (Or.inl hpasswordSet)
    have hadmitted := hchecks.satisfiable huserSet hpasswordSet
    obtain ⟨-, -, -, hcolon⟩ := (hguard _).1 hadmitted
    obtain ⟨-, -, -, hexact⟩ := (hchecks.exact _).1 hadmitted
    -- Decoding the client's own header gave the credentials back unreplaced.
    rw [hdecoded, htext, toWellFormed_eq_self_iff, isWellFormed_append_cons isSurrogate_colon,
      Bool.and_eq_true] at hexact
    exact Or.inr (Or.inr ⟨hcolon, hexact⟩)
  · intro hfits
    refine ⟨fun header => ?_, fun huserSet hpasswordSet => ?_⟩
    · rw [hguard, htext, and_assoc]
      refine and_congr_right fun huserSet => and_congr_right fun hpasswordSet => ?_
      obtain ⟨hcolon, hwell⟩ := (hfits.resolve_left huserSet).resolve_left hpasswordSet
      have hself := toWellFormed_of_isWellFormed
        ((isWellFormed_append_cons isSurrogate_colon _ _).trans (Bool.and_eq_true_iff.2 hwell))
      rw [hself]
      simp only [hcolon, not_false_eq_true, and_true]
    · obtain ⟨hcolon, -⟩ := (hfits.resolve_left huserSet).resolve_left hpasswordSet
      exact (hguard _).2 ⟨⟨huserSet, hpasswordSet⟩, hbasic, hdecoded, hcolon⟩

end

/-! ## A user with a colon -/

theorem requireAdminAuth_ne_none_of_colon {sha256 : List UInt8 → Digest}
    {config : AdminConfig} (huser : CollisionFree sha256 config.bullboardUser)
    (hpassword : CollisionFree sha256 config.bullboardPassword)
    (hcolon : (0x3A : UInt16) ∈ config.bullboardUser) (fromBase64 : JsString → List UInt8)
    (header : JsString) : requireAdminAuth sha256 fromBase64 config (some header) ≠ none := by
  intro hnext
  exact ((requireAdminAuth_eq_none_iff huser hpassword header).1 hnext).2.2.2 hcolon

/-- The SHA-256 digests of three texts, and zeros for any other. -/
def knownDigest (bytes : List UInt8) : Digest :=
  if bytes = utf8Encode (js "admin") then
    ⟨[0x8C, 0x69, 0x76, 0xE5, 0xB5, 0x41, 0x04, 0x15, 0xBD, 0xE9, 0x08,
      0xBD, 0x4D, 0xEE, 0x15, 0xDF, 0xB1, 0x67, 0xA9, 0xC8, 0x73, 0xFC,
      0x4B, 0xB8, 0xA8, 0x1F, 0x6F, 0x2A, 0xB4, 0x48, 0xA9, 0x18], rfl⟩
  else if bytes = utf8Encode (js "secret") then
    ⟨[0x2B, 0xB8, 0x0D, 0x53, 0x7B, 0x1D, 0xA3, 0xE3, 0x8B, 0xD3, 0x03,
      0x61, 0xAA, 0x85, 0x56, 0x86, 0xBD, 0xE0, 0xEA, 0xCD, 0x71, 0x62,
      0xFE, 0xF6, 0xA2, 0x5F, 0xE9, 0x7B, 0xF5, 0x27, 0xA2, 0x5B], rfl⟩
  else if bytes = utf8Encode (js "a:b") then
    ⟨[0x67, 0x83, 0xA3, 0x1E, 0xAB, 0xF6, 0x8C, 0xCC, 0x06, 0x60, 0xF9,
      0x35, 0xC0, 0x82, 0x62, 0x82, 0xBD, 0xD2, 0x24, 0x1F, 0x3A, 0x80,
      0xA9, 0xF2, 0xD1, 0x0D, 0x59, 0xAE, 0xA9, 0xEB, 0xB5, 0xD8], rfl⟩
  else ⟨List.replicate 32 0, rfl⟩

theorem collisionFree_knownDigest {text : JsString}
    (h : text = js "admin" ∨ text = js "secret" ∨ text = js "a:b") :
    CollisionFree knownDigest text := by
  intro bytes hdigest
  by_contra hother
  rcases h with rfl | rfl | rfl
  · rw [knownDigest, if_neg hother] at hdigest
    split at hdigest
    · exact absurd hdigest (by decide)
    split at hdigest
    · exact absurd hdigest (by decide)
    · exact absurd hdigest (by decide)
  · rw [knownDigest] at hdigest
    split at hdigest
    · exact absurd hdigest (by decide)
    split at hdigest
    · exact absurd hdigest (by decide)
    · exact absurd hdigest (by decide)
  · rw [knownDigest] at hdigest
    split at hdigest
    · exact absurd hdigest (by decide)
    split at hdigest
    · exact absurd hdigest (by decide)
    exact absurd hdigest (by decide)

theorem checksExactly_iff_admin :
    ChecksExactly knownDigest Base64.decode ⟨js "admin", js "secret"⟩ :=
  (checksExactly_iff knownDigest Base64.decode ⟨js "admin", js "secret"⟩ Base64.decode_encode
    (collisionFree_knownDigest (Or.inl rfl))
    (collisionFree_knownDigest (Or.inr (Or.inl rfl)))).2 (Or.inr (Or.inr (by decide)))

/-- `BULLBOARD_USER` is `a:b`: the client's own header is refused. -/
theorem colon_in_user_locks_out :
    AdminConfig.adminAuthConfigured ⟨js "a:b", js "secret"⟩ = true ∧
      clientHeader ⟨js "a:b", js "secret"⟩ = js "Basic YTpiOnNlY3JldA==" ∧
      requireAdminAuth knownDigest Base64.decode ⟨js "a:b", js "secret"⟩
        (some (js "Basic YTpiOnNlY3JldA==")) = some (unauthorized (js "Invalid credentials.")) ∧
      ¬ChecksExactly knownDigest Base64.decode ⟨js "a:b", js "secret"⟩ := by
  refine ⟨by decide, by decide, by decide +kernel, fun hchecks => ?_⟩
  have hadmitted := hchecks.satisfiable (by decide) (by decide)
  exact requireAdminAuth_ne_none_of_colon (collisionFree_knownDigest (Or.inr (Or.inr rfl)))
    (collisionFree_knownDigest (Or.inr (Or.inl rfl))) (by decide) _ _ hadmitted

end TaskQueue

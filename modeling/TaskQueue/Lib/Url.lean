import TaskQueue.Lib.Cutting
import TaskQueue.Lib.Ipv6

/-!
# URLs

The basic URL parser of the URL standard for a text without a base, which is what
`new URL(text)` runs.  A scheme of the standard's own (http, ftp and so on) has rules
for its host that need the tables of IDNA, so what such a text is parsed to is a
parameter; of any other scheme the whole authority is parsed here.
-/

namespace Url

open Ecma Unicode Percent Cutting

/-! ## The text that is parsed -/

def isBlank (u : UInt16) : Bool := u.toNat ≤ 0x20

def isTabOrNewline (u : UInt16) : Bool := u == 0x09 || u == 0x0A || u == 0x0D

/-- Controls and spaces are stripped from both ends, and tabs and newlines anywhere. -/
def clean (s : JsString) : JsString :=
  (strip isBlank (toWellFormed s)).filter fun u => !isTabOrNewline u

/-! ## The scheme -/

def isAlpha (u : UInt16) : Bool :=
  (0x41 ≤ u.toNat && u.toNat ≤ 0x5A) || (0x61 ≤ u.toNat && u.toNat ≤ 0x7A)

def isSchemeUnit (u : UInt16) : Bool :=
  isAlpha u || isDigit u || u == 0x2B || u == 0x2D || u == 0x2E

def asciiLowercase (u : UInt16) : UInt16 :=
  if 0x41 ≤ u.toNat ∧ u.toNat ≤ 0x5A then u + 0x20 else u

/-- The scheme in lower case, and what follows its colon. -/
def schemeOf (text : JsString) : Option (JsString × JsString) :=
  if (text.head?.map isAlpha) = some true then
    match text.dropWhile isSchemeUnit with
    | [] => none
    | u :: rest =>
        if u = 0x3A then some ((text.takeWhile isSchemeUnit).map asciiLowercase, rest) else none
  else none

def specialSchemes : List JsString :=
  [js "ftp", js "file", js "http", js "https", js "ws", js "wss"]

/-! ## The authority -/

def endsAuthority (u : UInt16) : Bool := u == 0x2F || u == 0x3F || u == 0x23

def authorityText (more : JsString) : JsString := more.takeWhile fun u => !endsAuthority u

/-- The authority of what follows a scheme, if two slashes announce one. -/
def authorityOf : JsString → Option JsString
  | u :: v :: rest =>
      if u = 0x2F ∧ v = 0x2F then some (authorityText rest) else none
  | _ => none

def c0Control (c : Nat) : Bool := c ≤ 0x1F || 0x7E < c

def userinfo (c : Nat) : Bool :=
  c0Control c ||
    ((js " \"#<>?^`/:;=@[\\]|" ++ [0x7B, 0x7D]).any fun u => u.toNat == c)

def forbiddenHost (u : UInt16) : Bool :=
  (js " #/:<>?@[\\]^|" ++ [0x00, 0x09, 0x0A, 0x0D]).any fun v => v == u

/-- A host that is an address in brackets, or any text without forbidden code points. -/
def parseHost (text : JsString) : Option JsString :=
  if text.head? = some 0x5B then
    if text.getLast? = some 0x5D then
      (Ipv6.parse text.tail.dropLast).map fun address =>
        [0x5B] ++ Ipv6.serialize address ++ [0x5D]
    else none
  else if text.any forbiddenHost then none
  else some (encode c0Control text)

/-- The port that digits stand for; without digits there is none. -/
def parsePort (digits : JsString) : Option (Option Nat) :=
  if digits = [] then some none
  else if digits.all isDigit then
    match parseDigits 10 digits with
    | some n => if n ≤ 65535 then some (some n) else none
    | none => none
  else none

/-- The text around the first colon that is not in brackets. -/
def cutPort : Bool → JsString → Option (JsString × JsString)
  | _, [] => none
  | insideBrackets, u :: text =>
      if u = 0x3A ∧ insideBrackets = false then some ([], text)
      else
        (cutPort (if u = 0x5B then true else if u = 0x5D then false else insideBrackets) text).map
          fun cut => (u :: cut.1, cut.2)

def parseHostPort (text : JsString) : Option (JsString × Option Nat) :=
  match cutPort false text with
  | some (host, digits) =>
      if host = [] then none
      else (parseHost host).bind fun hostname => (parsePort digits).map fun port => (hostname, port)
  | none => (parseHost text).map fun hostname => (hostname, none)

structure Authority where
  username : JsString
  password : JsString
  hostname : JsString
  port : Option Nat
deriving DecidableEq

def userOf (credentials : JsString) : JsString := credentials.takeWhile (· != 0x3A)

def passwordOf (credentials : JsString) : JsString := (credentials.dropWhile (· != 0x3A)).drop 1

/-- The last `@` ends the credentials. -/
def parseAuthority (text : JsString) : Option Authority :=
  match cutLast 0x40 text with
  | some (credentials, hostport) =>
      if hostport = [] then none
      else
        (parseHostPort hostport).map fun (hostname, port) =>
          { username := encode userinfo (userOf credentials)
            password := encode userinfo (passwordOf credentials)
            hostname
            port }
  | none =>
      (parseHostPort text).map fun (hostname, port) =>
        { username := [], password := [], hostname, port }

def Authority.absent : Authority := { username := [], password := [], hostname := [], port := none }

/-! ## Parsing -/

/-- `new URL(text)`, as far as it is read: the scheme in lower case without its colon,
and the authority. -/
structure Parsed where
  scheme : JsString
  authority : Authority
deriving DecidableEq

def Parsed.protocol (url : Parsed) : JsString := url.scheme ++ js ":"

def Parsed.port (url : Parsed) : JsString :=
  match url.authority.port with
  | some n => decimal n
  | none => []

def parse (special : JsString → JsString → Option Authority) (text : JsString) : Option Parsed :=
  (schemeOf (clean text)).bind fun (scheme, rest) =>
    if scheme ∈ specialSchemes then (special scheme rest).map fun authority => { scheme, authority }
    else
      match authorityOf rest with
      | some authority => (parseAuthority authority).map fun authority => { scheme, authority }
      | none => some { scheme, authority := .absent }

/-! ## What cleaning does to a concatenation -/

/-- A unit that neither cleaning nor the repair of surrogates touches. -/
def Plain (u : UInt16) : Prop := isSurrogate u = false ∧ isBlank u = false

instance (u : UInt16) : Decidable (Plain u) := inferInstanceAs (Decidable (_ ∧ _))

def cleanLeft (s : JsString) : JsString :=
  ((toWellFormed s).dropWhile isBlank).filter fun u => !isTabOrNewline u

def cleanRight (s : JsString) : JsString :=
  (stripRight isBlank (toWellFormed s)).filter fun u => !isTabOrNewline u

theorem isBlank_of_isTabOrNewline {u : UInt16} (h : isTabOrNewline u = true) :
    isBlank u = true := by
  simp only [isTabOrNewline, Bool.or_eq_true, beq_iff_eq] at h
  rcases h with (rfl | rfl) | rfl <;> rfl

theorem Plain.isTabOrNewline {u : UInt16} (h : Plain u) : isTabOrNewline u = false := by
  rw [← Bool.not_eq_true]
  intro htab
  exact absurd (isBlank_of_isTabOrNewline htab) (by simp [h.2])

theorem filter_plain {mid : JsString} (h : ∀ u ∈ mid, Plain u) :
    mid.filter (fun u => !isTabOrNewline u) = mid :=
  List.filter_eq_self.2 fun u hu => by simp [(h u hu).isTabOrNewline]

theorem clean_append {mid : JsString} (hmid : ∀ u ∈ mid, Plain u) (hne : mid ≠ [])
    (s t : JsString) : clean (s ++ mid ++ t) = cleanLeft s ++ mid ++ cleanRight t := by
  have hfirst : ∀ u ∈ mid.head?, isBlank u = false := fun u hu =>
    (hmid u (List.mem_of_mem_head? hu)).2
  have hlast : ∀ u ∈ mid.getLast?, isBlank u = false := fun u hu =>
    (hmid u (List.mem_of_mem_getLast? hu)).2
  unfold clean cleanLeft cleanRight
  rw [toWellFormed_append (fun u hu => (hmid u hu).1) hne, strip_append hne hfirst hlast,
    List.filter_append, List.filter_append, filter_plain hmid]

theorem clean_prefixed {front : JsString} (hfront : ∀ u ∈ front, Plain u) (hne : front ≠ [])
    (s : JsString) : clean (front ++ s) = front ++ cleanRight s :=
  clean_append hfront hne [] s

theorem not_surrogate_of_isBlank {u : UInt16} (h : isBlank u = true) : isSurrogate u = false := by
  simp only [isBlank, decide_eq_true_eq] at h
  simp only [isSurrogate, Bool.and_eq_false_iff, decide_eq_false_iff_not]
  omega

theorem clean_cons_of_isBlank {u : UInt16} (h : isBlank u = true) (s : JsString) :
    clean (u :: s) = clean s := by
  have hwell : toWellFormed (u :: s) = u :: toWellFormed s :=
    toWellFormed_append_cons (not_surrogate_of_isBlank h) [] s
  unfold clean
  rw [hwell, strip_eq, List.dropWhile_cons_of_pos h, ← strip_eq]

theorem not_surrogate_of_isWhiteSpace {u : UInt16} (h : isWhiteSpace u = true) :
    isSurrogate u = false := by
  simp only [isWhiteSpace, Bool.or_eq_true, Bool.and_eq_true, decide_eq_true_eq, beq_iff_eq,
    UInt16.le_iff_toNat_le, ← UInt16.toNat_inj] at h
  simp only [isSurrogate, Bool.and_eq_false_iff, decide_eq_false_iff_not]
  simp only [UInt16.reduceToNat] at h
  omega

/-- White space of either kind: what `trim` strips or cleaning strips. -/
def Space (u : UInt16) : Prop := isBlank u = true ∨ isWhiteSpace u = true

theorem Space.range {u : UInt16} (h : Space u) : u.toNat ≤ 0x20 ∨ 0x80 ≤ u.toNat := by
  rcases h with h | h
  · simp only [isBlank, decide_eq_true_eq] at h
    exact Or.inl h
  · simp only [isWhiteSpace, Bool.or_eq_true, Bool.and_eq_true, decide_eq_true_eq, beq_iff_eq,
      UInt16.le_iff_toNat_le, ← UInt16.toNat_inj] at h
    simp only [UInt16.reduceToNat] at h
    omega

theorem Space.not_surrogate {u : UInt16} (h : Space u) : isSurrogate u = false := by
  rcases h with h | h
  · exact not_surrogate_of_isBlank h
  · exact not_surrogate_of_isWhiteSpace h

theorem clean_append_right {r : JsString} (hr : ∀ u ∈ r, isWhiteSpace u = true) (s : JsString) :
    ∃ w, clean (s ++ r) = clean s ++ w ∧ ∀ u ∈ w, Space u := by
  cases r with
  | nil => exact ⟨[], by simp, by simp⟩
  | cons u r =>
      have hwell : toWellFormed (s ++ u :: r) = toWellFormed s ++ u :: r := by
        have hmid := toWellFormed_append
          (fun v hv => not_surrogate_of_isWhiteSpace (hr v hv)) (by simp) s []
        simpa [toWellFormed, scalars] using hmid
      obtain ⟨w, hw, hspace⟩ := strip_append_right isBlank (toWellFormed s) (u :: r)
      refine ⟨w.filter fun v => !isTabOrNewline v, ?_, fun v hv => ?_⟩
      · unfold clean
        rw [hwell, hw, List.filter_append]
      · rcases hspace v (List.mem_of_mem_filter hv) with hblank | hmem
        · exact Or.inl hblank
        · exact Or.inr (hr v hmem)

/-! ## Where the authority stands -/

def Spells (written scheme : JsString) : Prop :=
  written.head?.map isAlpha = some true ∧ (∀ u ∈ written, isSchemeUnit u = true) ∧
    written.map asciiLowercase = scheme

theorem schemeOf_eq_some_iff {text scheme rest : JsString} :
    schemeOf text = some (scheme, rest) ↔
      ∃ written, Spells written scheme ∧ text = written ++ 0x3A :: rest := by
  have hcolon : ¬isSchemeUnit 0x3A = true := by decide
  constructor
  · intro h
    unfold schemeOf at h
    split at h
    · rename_i halpha
      have hwhole := List.takeWhile_append_dropWhile (p := isSchemeUnit) (l := text)
      split at h
      · cases h
      · rename_i u rest' hdrop
        split at h
        · rename_i hu
          obtain ⟨hscheme, hrest⟩ := Prod.mk.inj (Option.some.inj h)
          rw [hdrop, hu, hrest] at hwhole
          refine ⟨text.takeWhile isSchemeUnit, ⟨?_, fun v hv => List.mem_takeWhile_imp hv, hscheme⟩,
            hwhole.symm⟩
          cases text with
          | nil => cases halpha
          | cons v text =>
              have hv : isAlpha v = true := Option.some.inj halpha
              rw [List.takeWhile_cons_of_pos (by simp [isSchemeUnit, hv])]
              exact halpha
        · cases h
    · cases h
  · rintro ⟨written, ⟨halpha, hunits, rfl⟩, rfl⟩
    have hhead : (written ++ 0x3A :: rest).head?.map isAlpha = some true := by
      cases written with
      | nil => cases halpha
      | cons v written => exact halpha
    have htake : (written ++ 0x3A :: rest).takeWhile isSchemeUnit = written := by
      rw [List.takeWhile_append_of_pos hunits, List.takeWhile_cons_of_neg hcolon, List.append_nil]
    have hdrop : (written ++ 0x3A :: rest).dropWhile isSchemeUnit = 0x3A :: rest := by
      rw [List.dropWhile_append_of_pos hunits, List.dropWhile_cons_of_neg hcolon]
    unfold schemeOf
    rw [if_pos hhead, htake, hdrop]
    exact if_pos rfl

theorem schemeOf_of_parse {special : JsString → JsString → Option Authority} {text : JsString}
    {url : Parsed} (h : parse special text = some url) :
    ∃ rest, schemeOf (clean text) = some (url.scheme, rest) := by
  obtain ⟨⟨scheme, rest⟩, hscheme, hurl⟩ := Option.bind_eq_some_iff.1 h
  refine ⟨rest, hscheme.trans ?_⟩
  simp only at hurl
  split at hurl
  · obtain ⟨authority, -, rfl⟩ := Option.map_eq_some_iff.1 hurl
    rfl
  · split at hurl
    · obtain ⟨authority, -, rfl⟩ := Option.map_eq_some_iff.1 hurl
      rfl
    · obtain rfl := Option.some.inj hurl
      rfl

theorem plain_of_isSchemeUnit {u : UInt16} (h : isSchemeUnit u = true) : Plain u := by
  simp only [isSchemeUnit, isAlpha, isDigit, Bool.or_eq_true, Bool.and_eq_true, decide_eq_true_eq,
    beq_iff_eq, UInt16.le_iff_toNat_le, ← UInt16.toNat_inj] at h
  simp only [UInt16.reduceToNat] at h
  constructor
  · simp only [isSurrogate, Bool.and_eq_false_iff, decide_eq_false_iff_not]
    omega
  · simp only [isBlank, decide_eq_false_iff_not]
    omega

def slashes : JsString := js "://"

theorem Spells.plain {written scheme : JsString} (h : Spells written scheme) :
    ∀ u ∈ written ++ slashes, Plain u := by
  intro u hu
  rcases List.mem_append.1 hu with hu | hu
  · exact plain_of_isSchemeUnit (h.2.1 u hu)
  · have hslashes : ∀ v ∈ ([0x3A, 0x2F, 0x2F] : JsString), Plain v := by
      simp [Plain, isSurrogate, isBlank]
    exact hslashes u hu

def Located (s scheme authority : JsString) : Prop :=
  ∃ written more, Spells written scheme ∧ clean s = written ++ slashes ++ more ∧
    authorityText more = authority

theorem located_iff {s scheme authority : JsString} :
    Located s scheme authority ↔
      ∃ rest, schemeOf (clean s) = some (scheme, rest) ∧ authorityOf rest = some authority := by
  constructor
  · rintro ⟨written, more, hwritten, hclean, rfl⟩
    have hauthority : authorityOf (0x2F :: 0x2F :: more) = some (authorityText more) := by
      rw [authorityOf]
      exact if_pos ⟨rfl, rfl⟩
    refine ⟨0x2F :: 0x2F :: more, ?_, hauthority⟩
    refine schemeOf_eq_some_iff.2 ⟨written, hwritten, ?_⟩
    rw [hclean, List.append_assoc]
    rfl
  · rintro ⟨rest, hscheme, hauthority⟩
    obtain ⟨written, hwritten, hclean⟩ := schemeOf_eq_some_iff.1 hscheme
    match rest, hauthority, hclean with
    | u :: v :: more, hauthority, hclean =>
        rw [authorityOf] at hauthority
        by_cases huv : u = 0x2F ∧ v = 0x2F
        · rw [if_pos huv] at hauthority
          refine ⟨written, more, hwritten, ?_, Option.some.inj hauthority⟩
          rw [hclean, huv.1, huv.2, List.append_assoc]
          rfl
        · rw [if_neg huv] at hauthority
          cases hauthority

theorem Located.unique {s scheme scheme' authority authority' : JsString}
    (h : Located s scheme authority) (h' : Located s scheme' authority') :
    scheme = scheme' ∧ authority = authority' := by
  obtain ⟨rest, hscheme, hauthority⟩ := located_iff.1 h
  obtain ⟨rest', hscheme', hauthority'⟩ := located_iff.1 h'
  rw [hscheme, Option.some.injEq, Prod.mk.injEq] at hscheme'
  rw [hscheme'.2, hauthority'] at hauthority
  exact ⟨hscheme'.1, (Option.some.inj hauthority).symm⟩

theorem Located.ne_nil {s scheme authority : JsString} (h : Located s scheme authority) :
    s ≠ [] := by
  rintro rfl
  obtain ⟨written, more, ⟨halpha, -, -⟩, hclean, -⟩ := h
  have hnil : clean [] = [] := rfl
  rw [hnil, List.append_assoc] at hclean
  rw [(List.append_eq_nil_iff.1 hclean.symm).1] at halpha
  cases halpha

theorem located_prefixed {written scheme : JsString} (h : Spells written scheme) (s : JsString) :
    Located (written ++ slashes ++ s) scheme (authorityText (cleanRight s)) := by
  have hne : written ++ slashes ≠ [] := by simp [slashes, js]
  exact ⟨written, cleanRight s, h, clean_prefixed h.plain hne s, rfl⟩

theorem not_isAlpha_of_space {u : UInt16} (h : Space u) : isAlpha u = false := by
  have hrange := h.range
  simp only [isAlpha, Bool.or_eq_false_iff, Bool.and_eq_false_iff, decide_eq_false_iff_not]
  omega

theorem not_endsAuthority_of_space {u : UInt16} (h : Space u) : endsAuthority u = false := by
  have hrange := h.range
  rw [← Bool.not_eq_true]
  intro hends
  simp only [endsAuthority, Bool.or_eq_true, beq_iff_eq] at hends
  rcases hends with (rfl | rfl) | rfl <;> simp at hrange

/-- White space before a text that is parsed is all stripped. -/
theorem Located.of_append_left {l s scheme authority : JsString}
    (hl : ∀ u ∈ l, isWhiteSpace u = true) (h : Located (l ++ s) scheme authority) :
    Located s scheme authority := by
  induction l with
  | nil => exact h
  | cons u l ih =>
      have hu := hl u List.mem_cons_self
      by_cases hblank : isBlank u = true
      · refine ih (fun v hv => hl v (List.mem_cons_of_mem _ hv)) ?_
        obtain ⟨written, more, hwritten, hclean, hauthority⟩ := h
        rw [List.cons_append, clean_cons_of_isBlank hblank] at hclean
        exact ⟨written, more, hwritten, hclean, hauthority⟩
      · -- a scheme would have to start with it
        obtain ⟨written, more, ⟨halpha, -, -⟩, hclean, -⟩ := h
        have hplain : ∀ v ∈ [u], Plain v := by
          intro v hv
          rw [List.mem_singleton.1 hv]
          exact ⟨not_surrogate_of_isWhiteSpace hu, by simpa using hblank⟩
        have hfirst := clean_prefixed hplain (by simp) (l ++ s)
        rw [List.singleton_append, ← List.cons_append, hclean] at hfirst
        cases written with
        | nil => cases halpha
        | cons v written =>
            obtain ⟨rfl, -⟩ := List.cons.inj hfirst
            have hv : isAlpha v = true := Option.some.inj halpha
            rw [not_isAlpha_of_space (Or.inr hu)] at hv
            cases hv

theorem authorityText_append_cons {c : JsString} {u : UInt16} (hu : endsAuthority u = true)
    (hc : ∀ v ∈ c, endsAuthority v = false) (s : JsString) : authorityText (c ++ u :: s) = c := by
  unfold authorityText
  rw [List.takeWhile_append_of_pos fun v hv => by simp [hc v hv],
    List.takeWhile_cons_of_neg (by simp [hu]), List.append_nil]

theorem authorityText_append {c : JsString} (hc : ∀ v ∈ c, endsAuthority v = false)
    (s : JsString) : authorityText (c ++ s) = c ++ authorityText s := by
  unfold authorityText
  rw [List.takeWhile_append_of_pos fun v hv => by simp [hc v hv]]

theorem authorityText_cases (more : JsString) :
    (∀ u ∈ more, endsAuthority u = false) ∨
      ∃ c u s, more = c ++ u :: s ∧ (∀ v ∈ c, endsAuthority v = false) ∧
        endsAuthority u = true := by
  induction more with
  | nil => exact Or.inl (by simp)
  | cons v more ih =>
      by_cases hv : endsAuthority v = true
      · exact Or.inr ⟨[], v, more, rfl, by simp, hv⟩
      · have hv' : endsAuthority v = false := by simpa using hv
        rcases ih with hall | ⟨c, u, s, rfl, hc, hu⟩
        · exact Or.inl (by simpa using ⟨hv', hall⟩)
        · exact Or.inr ⟨v :: c, u, s, rfl, by simpa using ⟨hv', hc⟩, hu⟩

/-- White space after a text is left at the end of its authority, if there at all. -/
theorem Located.of_append_right {s r scheme authority : JsString}
    (hr : ∀ u ∈ r, isWhiteSpace u = true) (h : Located (s ++ r) scheme authority) :
    ∃ front w, Located s scheme front ∧ authority = front ++ w ∧ ∀ u ∈ w, Space u := by
  obtain ⟨written, more, hwritten, hclean, rfl⟩ := h
  obtain ⟨w, hw, hspace⟩ := clean_append_right hr s
  have hslash : (0x2F : UInt16) ∉ w := fun hmem => by
    have hrange := (hspace _ hmem).range
    simp at hrange
  have hcut : clean s ++ w = (written ++ [0x3A, 0x2F]) ++ 0x2F :: more := by
    rw [← hw, hclean, List.append_assoc, List.append_assoc]
    rfl
  obtain ⟨m, hs, rfl⟩ := append_eq_front hcut hslash
  have hlocated : Located s scheme (authorityText m) := by
    refine ⟨written, m, hwritten, ?_, rfl⟩
    rw [hs, List.append_assoc, List.append_assoc]
    rfl
  rcases authorityText_cases m with hall | ⟨c, u, t, rfl, hc, hu⟩
  · refine ⟨authorityText m, w, hlocated, ?_, hspace⟩
    have hkept : authorityText (m ++ w) = m ++ w :=
      List.takeWhile_eq_self_iff.2 fun v hv => by
        rcases List.mem_append.1 hv with hv | hv
        · simp [hall v hv]
        · simp [not_endsAuthority_of_space (hspace v hv)]
    have hfront : authorityText m = m :=
      List.takeWhile_eq_self_iff.2 fun v hv => by simp [hall v hv]
    rw [hkept, hfront]
  · refine ⟨authorityText (c ++ u :: t), [], hlocated, ?_, by simp⟩
    rw [List.append_assoc, List.cons_append, authorityText_append_cons hu hc,
      authorityText_append_cons hu hc, List.append_nil]

theorem Located.around {b part a scheme authority : JsString} {u : UInt16}
    (hpart : ∀ v ∈ u :: part, Plain v) (hscheme : asciiLowercase u ∉ scheme) (hcolon : u ≠ 0x3A)
    (hslash : u ≠ 0x2F) (h : Located (b ++ u :: part ++ a) scheme authority) :
    ∃ c, ∀ mid, (∀ v ∈ mid, Plain v) → ∀ a', Located (b ++ (u :: part ++ mid) ++ a') scheme
      (authorityText (c ++ (u :: part ++ mid ++ cleanRight a'))) := by
  obtain ⟨written, more, hwritten, hclean, -⟩ := h
  have hnotMem : u ∉ written ++ slashes := by
    rw [List.mem_append, not_or]
    constructor
    · intro hmem
      rw [← hwritten.2.2] at hscheme
      exact hscheme (List.mem_map_of_mem hmem)
    · simp [slashes, js, hcolon, hslash]
  rw [clean_append hpart (by simp), List.append_assoc, List.cons_append] at hclean
  obtain ⟨c, hc, -⟩ := append_cons_eq_front hclean hnotMem
  refine ⟨c, fun mid hmid a' => ?_⟩
  refine ⟨written, c ++ (u :: part ++ mid ++ cleanRight a'), hwritten, ?_, rfl⟩
  have hplain : ∀ v ∈ u :: part ++ mid, Plain v := by
    intro v hv
    rcases List.mem_append.1 hv with hv | hv
    · exact hpart v hv
    · exact hmid v hv
  rw [clean_append hplain (by simp), hc]
  simp only [List.append_assoc]

/-! ## What hosts and ports are written with -/

def Bare (host : JsString) : Prop := host.any forbiddenHost = false

theorem Bare.notMem {host : JsString} (h : Bare host) {u : UInt16}
    (hu : forbiddenHost u = true) : u ∉ host := by
  intro hmem
  have hany : host.any forbiddenHost = true := List.any_eq_true.2 ⟨u, hmem, hu⟩
  rw [h] at hany
  cases hany

theorem Bare.of_append {s t : JsString} (h : Bare (s ++ t)) : Bare s := by
  unfold Bare at h
  rw [List.any_append, Bool.or_eq_false_iff] at h
  exact h.1

theorem Bare.colon {host : JsString} (h : Bare host) : (0x3A : UInt16) ∉ host :=
  h.notMem (by decide)

theorem Bare.bracket {host : JsString} (h : Bare host) : (0x5B : UInt16) ∉ host :=
  h.notMem (by decide)

theorem isDigit_of_parsePort {digits : JsString} {port : Option Nat}
    (h : parsePort digits = some port) : ∀ u ∈ digits, isDigit u = true := by
  unfold parsePort at h
  split at h
  · rename_i hempty
    rw [hempty]
    simp
  split at h
  · rename_i hall
    exact List.all_eq_true.1 hall
  · cases h

theorem parseHost_bare {host : JsString} (h : Bare host) :
    parseHost host = some (encode c0Control host) := by
  have hbracket : host.head? ≠ some 0x5B := fun heq => h.bracket (List.mem_of_mem_head? heq)
  unfold Bare at h
  unfold parseHost
  rw [if_neg hbracket, h]
  rfl

theorem parseHost_cases {text hostname : JsString} (h : parseHost text = some hostname) :
    (Bare text ∧ hostname = encode c0Control text) ∨
      ∃ inner address, text = [0x5B] ++ inner ++ [0x5D] ∧ Ipv6.parse inner = some address ∧
        hostname = [0x5B] ++ Ipv6.serialize address ++ [0x5D] := by
  unfold parseHost at h
  split at h
  · rename_i hfirst
    split at h
    · rename_i hlast
      obtain ⟨address, haddress, rfl⟩ := Option.map_eq_some_iff.1 h
      refine Or.inr ⟨text.tail.dropLast, address, ?_, haddress, rfl⟩
      obtain ⟨rest, rfl⟩ := List.head?_eq_some_iff.1 hfirst
      cases rest using List.reverseRecOn with
      | nil => simp at hlast
      | append_singleton rest u =>
          rw [← List.cons_append, List.getLast?_append_cons, List.getLast?_singleton] at hlast
          rw [Option.some.inj hlast]
          simp
    · cases h
  · split at h
    · cases h
    · rename_i hany
      exact Or.inl ⟨eq_false_of_ne_true hany, (Option.some.inj h).symm⟩

theorem cutPort_eq_some {insideBrackets : Bool} {text x y : JsString}
    (h : cutPort insideBrackets text = some (x, y)) : text = x ++ 0x3A :: y := by
  induction text generalizing insideBrackets x with
  | nil => cases h
  | cons u text ih =>
      rw [cutPort] at h
      split at h
      · rename_i hu
        obtain ⟨rfl, rfl⟩ := Prod.mk.inj (Option.some.inj h)
        rw [hu.1]
        rfl
      · obtain ⟨⟨x', y'⟩, hcut, heq⟩ := Option.map_eq_some_iff.1 h
        obtain ⟨rfl, rfl⟩ := Prod.mk.inj heq
        rw [ih hcut]
        rfl

theorem cutPort_of_notMem {text : JsString} (h : (0x3A : UInt16) ∉ text) (insideBrackets : Bool) :
    cutPort insideBrackets text = none := by
  induction text generalizing insideBrackets with
  | nil => rfl
  | cons u text ih =>
      have hu : ¬(u = 0x3A ∧ insideBrackets = false) := fun hcolon =>
        h (by rw [hcolon.1]; exact List.mem_cons_self)
      rw [cutPort, if_neg hu, ih fun hmem => h (List.mem_cons_of_mem _ hmem)]
      rfl

theorem cutPort_bare {host : JsString} (h : Bare host) (digits : JsString) :
    cutPort false (host ++ 0x3A :: digits) = some (host, digits) := by
  induction host with
  | nil => exact if_pos ⟨rfl, rfl⟩
  | cons u host ih =>
      have hcolon : ¬(u = 0x3A ∧ false = false) := fun heq =>
        h.colon (by rw [heq.1]; exact List.mem_cons_self)
      have hbracket : u ≠ 0x5B := fun heq => h.bracket (by rw [heq]; exact List.mem_cons_self)
      have hrest : Bare host := by
        unfold Bare at h
        rw [List.any_cons, Bool.or_eq_false_iff] at h
        exact h.2
      rw [List.cons_append, cutPort, if_neg hcolon, if_neg hbracket, ite_self, ih hrest]
      rfl

theorem parseHostPort_bare {host : JsString} (h : Bare host) :
    parseHostPort host = some (encode c0Control host, none) := by
  unfold parseHostPort
  rw [cutPort_of_notMem h.colon, parseHost_bare h]
  rfl

theorem parseHostPort_bare_port {host digits : JsString} {port : Option Nat} (h : Bare host)
    (hne : host ≠ []) (hport : parsePort digits = some port) :
    parseHostPort (host ++ 0x3A :: digits) = some (encode c0Control host, port) := by
  unfold parseHostPort
  rw [cutPort_bare h]
  simp only
  rw [if_neg hne, parseHost_bare h, Option.bind_some, hport]
  rfl

theorem parseHostPort_cases {text hostname : JsString} {port : Option Nat}
    (h : parseHostPort text = some (hostname, port)) :
    (Bare text ∧ hostname = encode c0Control text ∧ port = none) ∨
      (∃ host digits, text = host ++ 0x3A :: digits ∧ Bare host ∧ host ≠ [] ∧
        hostname = encode c0Control host ∧ parsePort digits = some port) ∨
      ∃ inner tail address, text = [0x5B] ++ inner ++ 0x5D :: tail ∧
        Ipv6.parse inner = some address ∧
        hostname = [0x5B] ++ Ipv6.serialize address ++ [0x5D] ∧
        ∀ u ∈ tail, u = 0x3A ∨ isDigit u = true := by
  unfold parseHostPort at h
  split at h
  · rename_i host digits hcut
    split at h
    · cases h
    · rename_i hne
      obtain ⟨hostname', hhost, h⟩ := Option.bind_eq_some_iff.1 h
      obtain ⟨port', hport, heq⟩ := Option.map_eq_some_iff.1 h
      obtain ⟨rfl, rfl⟩ := Prod.mk.inj heq
      rcases parseHost_cases hhost with ⟨hbare, hname⟩ | ⟨inner, address, htext, haddress, hname⟩
      · exact Or.inr (Or.inl ⟨host, digits, cutPort_eq_some hcut, hbare, hne, hname, hport⟩)
      · refine Or.inr (Or.inr ⟨inner, 0x3A :: digits, address, ?_, haddress, hname, fun u hu => ?_⟩)
        · rw [cutPort_eq_some hcut, htext]
          simp
        · rcases List.mem_cons.1 hu with hu | hu
          · exact Or.inl hu
          · exact Or.inr (isDigit_of_parsePort hport u hu)
  · obtain ⟨hostname', hhost, heq⟩ := Option.map_eq_some_iff.1 h
    obtain ⟨rfl, rfl⟩ := Prod.mk.inj heq
    rcases parseHost_cases hhost with ⟨hbare, hname⟩ | ⟨inner, address, htext, haddress, hname⟩
    · exact Or.inl ⟨hbare, hname, rfl⟩
    · exact Or.inr (Or.inr ⟨inner, [], address, htext, haddress, hname, by simp⟩)

theorem parseHostPort_of_last {s hostname : JsString} {z : UInt16} {port : Option Nat}
    (hcolon : z ≠ 0x3A) (hbracket : z ≠ 0x5D) (hdigit : isDigit z = false)
    (h : parseHostPort (s ++ [z]) = some (hostname, port)) :
    Bare (s ++ [z]) ∧ hostname = encode c0Control (s ++ [z]) ∧ port = none := by
  have hlast : (s ++ [z]).getLast? = some z := by simp
  rcases parseHostPort_cases h with
    hbare | ⟨host, digits, htext, -, -, -, hport⟩ | ⟨inner, tail, address, htext, -, -, htail⟩
  · exact hbare
  · rw [htext, List.getLast?_append_cons] at hlast
    rcases List.mem_cons.1 (List.mem_of_mem_getLast? hlast) with hz | hz
    · exact absurd hz hcolon
    · rw [isDigit_of_parsePort hport z hz] at hdigit
      cases hdigit
  · rw [htext, List.getLast?_append_cons] at hlast
    rcases List.mem_cons.1 (List.mem_of_mem_getLast? hlast) with hz | hz
    · exact absurd hz hbracket
    · rcases htail z hz with hz | hz
      · exact absurd hz hcolon
      · rw [hz] at hdigit
        cases hdigit

theorem Space.not_isDigit {u : UInt16} (h : Space u) : isDigit u = false := by
  have hrange := h.range
  simp only [isDigit, Bool.and_eq_false_iff, decide_eq_false_iff_not, UInt16.le_iff_toNat_le,
    UInt16.reduceToNat]
  omega

theorem Space.ne {u v : UInt16} (h : Space u) (hv : 0x20 < v.toNat ∧ v.toNat < 0x80) : u ≠ v := by
  rintro rfl
  have hrange := h.range
  omega

theorem parseHostPort_append_space {s w hostname : JsString} {port port' : Option Nat}
    (hw : ∀ u ∈ w, Space u) (h : parseHostPort s = some (hostname, port))
    (hspace : parseHostPort (s ++ w) = some (hostname, port')) : w = [] := by
  cases w using List.reverseRecOn with
  | nil => rfl
  | append_singleton w z =>
      have hz : Space z := hw z (by simp)
      rw [← List.append_assoc] at hspace
      obtain ⟨hbare, hname, -⟩ := parseHostPort_of_last (hz.ne (by decide)) (hz.ne (by decide))
        hz.not_isDigit hspace
      rw [List.append_assoc] at hbare hname
      rw [parseHostPort_bare hbare.of_append, Option.some.injEq, Prod.mk.injEq] at h
      obtain ⟨u, rest, hwhole⟩ := List.exists_cons_of_ne_nil (show w ++ [z] ≠ [] by simp)
      have hu : Space u := hw u (by rw [hwhole]; exact List.mem_cons_self)
      rw [← h.1, hwhole] at hname
      exact absurd hname.symm (encode_append_cons_ne hu.not_surrogate c0Control s rest)

theorem addressUnit_of_isDigit {u : UInt16} (h : isDigit u = true) : Ipv6.AddressUnit u := by
  simp only [isDigit, Bool.and_eq_true, decide_eq_true_eq, UInt16.le_iff_toNat_le,
    UInt16.reduceToNat] at h
  refine Or.inl ?_
  unfold hexDigitValue
  simp [h]

theorem not_surrogate_of_isDigit {u : UInt16} (h : isDigit u = true) : isSurrogate u = false := by
  simp only [isDigit, Bool.and_eq_true, decide_eq_true_eq, UInt16.le_iff_toNat_le,
    UInt16.reduceToNat] at h
  simp only [isSurrogate, Bool.and_eq_false_iff, decide_eq_false_iff_not]
  omega

/-- A unit that no address contains, nor the brackets around one. -/
def HostOnly (z : UInt16) : Prop := ¬Ipv6.AddressUnit z ∧ z ≠ 0x5B ∧ z ≠ 0x5D

theorem HostOnly.ne_colon {z : UInt16} (h : HostOnly z) : z ≠ 0x3A := fun heq =>
  h.1 (Or.inr (Or.inl heq))

theorem HostOnly.not_isDigit {z : UInt16} (h : HostOnly z) : isDigit z = false := by
  rw [← Bool.not_eq_true]
  exact fun hdigit => h.1 (addressUnit_of_isDigit hdigit)

theorem parseHostPort_colon {q s hostname : JsString} {z : UInt16} {port : Option Nat}
    (hz : HostOnly z) (h : parseHostPort (q ++ z :: 0x3A :: s) = some (hostname, port)) :
    Bare (q ++ [z]) ∧ hostname = encode c0Control (q ++ [z]) ∧ parsePort s = some port := by
  rcases parseHostPort_cases h with
    ⟨hbare, -, -⟩ | ⟨host, tail, htext, hbare, hne, hname, hport⟩ |
      ⟨inner, tail, address, htext, haddress, -, htail⟩
  · exact absurd (by simp) hbare.colon
  · have hnotMem : z ∉ (0x3A : UInt16) :: tail := by
      intro hmem
      rcases List.mem_cons.1 hmem with hmem | hmem
      · exact hz.ne_colon hmem
      · have hdigit := isDigit_of_parsePort hport z hmem
        rw [hz.not_isDigit] at hdigit
        cases hdigit
    obtain ⟨m, rfl, hm⟩ := append_eq_front htext.symm hnotMem
    cases m with
    | nil =>
        obtain ⟨-, rfl⟩ := List.cons.inj hm
        exact ⟨hbare, hname, hport⟩
    | cons v m =>
        have hv : v = 0x3A := (List.cons.inj hm).1.symm
        exact absurd (by rw [hv]; simp) hbare.colon
  · have hmem : z ∈ 0x5B :: (inner ++ 0x5D :: tail) := by
      have hwhole : z ∈ q ++ z :: 0x3A :: s := by simp
      rw [htext] at hwhole
      simpa using hwhole
    rcases List.mem_cons.1 hmem with hmem | hmem
    · exact absurd hmem hz.2.1
    rcases List.mem_append.1 hmem with hmem | hmem
    · exact absurd (Ipv6.addressUnit_of_parse haddress z hmem) hz.1
    rcases List.mem_cons.1 hmem with hmem | hmem
    · exact absurd hmem hz.2.2
    rcases htail z hmem with hmem | hmem
    · exact absurd hmem hz.ne_colon
    · rw [hz.not_isDigit] at hmem
      cases hmem

theorem parseHostPort_goes_on {q t hostname : JsString} {z : UInt16} {port : Option Nat}
    (hbare : Bare (q ++ [z])) (ht : (0x3A : UInt16) ∉ t)
    (h : parseHostPort (q ++ z :: t) = some (hostname, port)) :
    hostname = encode c0Control (q ++ z :: t) := by
  rcases parseHostPort_cases h with
    ⟨-, hname, -⟩ | ⟨host, tail, htext, -⟩ | ⟨inner, tail, _, htext, -⟩
  · exact hname
  · have hcolon : (0x3A : UInt16) ∈ (q ++ [z]) ++ t := by
      rw [List.append_assoc, List.singleton_append, htext]
      simp
    rcases List.mem_append.1 hcolon with hmem | hmem
    · exact absurd hmem hbare.colon
    · exact absurd hmem ht
  · have hhead : (q ++ [z]).head? = some 0x5B := by
      cases q with
      | nil => exact congrArg some (List.cons.inj htext).1
      | cons v q => exact congrArg some (List.cons.inj htext).1
    exact absurd (List.mem_of_mem_head? hhead) hbare.bracket

/-- A port put in behind a host that goes on changes its name. -/
theorem parseHostPort_insert {q s w digits hostname : JsString} {z : UInt16}
    {port port' : Option Nat} (hz : HostOnly z) (hw : ∀ u ∈ w, Space u)
    (h : parseHostPort (q ++ z :: 0x3A :: (digits ++ s)) = some (hostname, port))
    (hplain : parseHostPort (q ++ z :: (s ++ w)) = some (hostname, port')) : s ++ w = [] := by
  obtain ⟨hbare, hname, hport⟩ := parseHostPort_colon hz h
  have hs : ∀ u ∈ s, isDigit u = true := fun u hu =>
    isDigit_of_parsePort hport u (List.mem_append_right _ hu)
  have hcolon : (0x3A : UInt16) ∉ s ++ w := by
    intro hmem
    rcases List.mem_append.1 hmem with hmem | hmem
    · exact absurd (hs _ hmem) (by decide)
    · exact absurd rfl ((hw _ hmem).ne (by decide))
  have hsurrogate : ∀ u ∈ s ++ w, isSurrogate u = false := by
    intro u hu
    rcases List.mem_append.1 hu with hu | hu
    · exact not_surrogate_of_isDigit (hs u hu)
    · exact (hw u hu).not_surrogate
  have hname' := parseHostPort_goes_on hbare hcolon hplain
  by_contra hsw
  obtain ⟨u, rest, hwhole⟩ := List.exists_cons_of_ne_nil hsw
  have hu : isSurrogate u = false := hsurrogate u (by rw [hwhole]; exact List.mem_cons_self)
  have hlonger := encode_append_cons_ne hu c0Control (q ++ [z]) rest
  rw [hname', hwhole] at hname
  exact hlonger (by simpa using hname)

theorem parseHostPort_end {q digits hostname : JsString} {z : UInt16} {port port' : Option Nat}
    (hz : HostOnly z) (hport : parsePort digits = some port)
    (h : parseHostPort (q ++ [z]) = some (hostname, port')) :
    port' = none ∧ parseHostPort (q ++ z :: 0x3A :: digits) = some (hostname, port) := by
  obtain ⟨hbare, rfl, rfl⟩ := parseHostPort_of_last hz.ne_colon hz.2.2 hz.not_isDigit h
  have hinserted := parseHostPort_bare_port hbare (by simp) hport
  rw [List.append_assoc] at hinserted
  exact ⟨rfl, hinserted⟩

/-! ## Credentials -/

theorem passwordOf_of_notMem {s : JsString} (h : (0x3A : UInt16) ∉ s) : passwordOf s = [] := by
  have hdrop : s.dropWhile (· != 0x3A) = [] := List.dropWhile_eq_nil_iff.2 fun u hu => by
    simp only [bne_iff_ne, ne_eq]
    rintro rfl
    exact h hu
  rw [passwordOf, hdrop]
  rfl

theorem passwordOf_append_cons {s : JsString} (h : (0x3A : UInt16) ∉ s) (t : JsString) :
    passwordOf (s ++ 0x3A :: t) = t := by
  have hdrop : (s ++ 0x3A :: t).dropWhile (· != 0x3A) = 0x3A :: t := by
    rw [List.dropWhile_append_of_pos fun u hu => by
      simp only [bne_iff_ne, ne_eq]
      rintro rfl
      exact h hu]
    exact List.dropWhile_cons_of_neg (by simp)
  rw [passwordOf, hdrop]
  rfl

theorem parseAuthority_credentials {x y : JsString} {authority : Authority}
    (hy : (0x40 : UInt16) ∉ y) (h : parseAuthority (x ++ 0x40 :: y) = some authority) :
    authority.username = encode userinfo (userOf x) ∧
      authority.password = encode userinfo (passwordOf x) := by
  rw [parseAuthority, cutLast_append_cons x hy] at h
  simp only at h
  split at h
  · cases h
  · obtain ⟨r, -, rfl⟩ := Option.map_eq_some_iff.1 h
    exact ⟨rfl, rfl⟩

theorem parseAuthority_hostPort {text : JsString} {authority : Authority}
    (h : parseAuthority text = some authority) :
    parseHostPort (afterLast 0x40 text) = some (authority.hostname, authority.port) := by
  unfold parseAuthority at h
  unfold afterLast
  rcases cutLast_cases 0x40 text with ⟨-, hnone⟩ | ⟨x, y, -, -, hsome⟩
  · rw [hnone] at h ⊢
    obtain ⟨r, hr, rfl⟩ := Option.map_eq_some_iff.1 h
    exact hr
  · rw [hsome] at h ⊢
    simp only at h
    split at h
    · cases h
    · obtain ⟨r, hr, rfl⟩ := Option.map_eq_some_iff.1 h
      exact hr

/-- What goes on behind the host changes the host and the port alone. -/
theorem parseAuthority_append {text t hostname : JsString} {authority : Authority}
    {port : Option Nat} (ht : (0x40 : UInt16) ∉ t) (h : parseAuthority text = some authority)
    (hhost : parseHostPort (afterLast 0x40 text ++ t) = some (hostname, port)) :
    parseAuthority (text ++ t) = some { authority with hostname, port } := by
  unfold parseAuthority at h ⊢
  unfold afterLast at hhost
  rcases cutLast_cases 0x40 text with ⟨hnot, hnone⟩ | ⟨x, y, rfl, hy, hsome⟩
  · rw [hnone] at h hhost
    obtain ⟨r, -, rfl⟩ := Option.map_eq_some_iff.1 h
    rw [cutLast_of_notMem (by simp [hnot, ht])]
    simp only at hhost ⊢
    rw [hhost]
    rfl
  · rw [hsome] at h hhost
    simp only at h hhost
    rw [List.append_assoc, List.cons_append, cutLast_append_cons x (by simp [hy, ht])]
    split at h
    · cases h
    · rename_i hne
      obtain ⟨r, -, rfl⟩ := Option.map_eq_some_iff.1 h
      simp only
      rw [if_neg (by simp [hne]), hhost]
      rfl

/-! ## Parsing where the authority stands -/

theorem parse_of_located (special : JsString → JsString → Option Authority)
    {text scheme authority : JsString} (hscheme : scheme ∉ specialSchemes)
    (h : Located text scheme authority) :
    parse special text = (parseAuthority authority).map fun authority => { scheme, authority } := by
  obtain ⟨rest, hrest, hauthority⟩ := located_iff.1 h
  rw [parse, hrest, Option.bind_some]
  simp only
  rw [if_neg hscheme, hauthority]

/-- A URL of another scheme that has a host has an authority. -/
theorem located_of_parse {special : JsString → JsString → Option Authority} {text : JsString}
    {url : Parsed} (hscheme : url.scheme ∉ specialSchemes) (hhost : url.authority.hostname ≠ [])
    (h : parse special text = some url) :
    ∃ authority, Located text url.scheme authority ∧
      parseAuthority authority = some url.authority := by
  obtain ⟨⟨scheme, rest⟩, hrest, hurl⟩ := Option.bind_eq_some_iff.1 h
  simp only at hurl
  split at hurl
  · rename_i hspecial
    obtain ⟨authority, -, rfl⟩ := Option.map_eq_some_iff.1 hurl
    exact absurd hspecial hscheme
  · split at hurl
    · rename_i text' htext
      obtain ⟨authority, hauthority, rfl⟩ := Option.map_eq_some_iff.1 hurl
      exact ⟨text', located_iff.2 ⟨rest, hrest, htext⟩, hauthority⟩
    · obtain rfl := Option.some.inj hurl
      exact absurd rfl hhost

end Url

import TaskQueue.Lib.Regex
import TaskQueue.Lib.Url

/-!
# Redaction of secrets in log texts

Two global replacements, one after the other.  The first takes the credentials out of
a connection URL, up to the first `@` behind their colon; the second takes the value
out of assignments such as `password=`, up to the next `&` or white space.
-/

namespace TaskQueue

open Ecma Regex Cutting

/-! ## The patterns -/

def sameLetter (c u : UInt16) : Bool := Url.asciiLowercase u == Url.asciiLowercase c

def anyCase (s : String) : Pattern UInt16 := literal ((js s).map sameLetter)

/-- `[^:/@\s]`. -/
def inUser (u : UInt16) : Bool := !(u == 0x3A || u == 0x2F || u == 0x40 || isWhiteSpace u)

/-- `[^@\s]`. -/
def inPassword (u : UInt16) : Bool := !(u == 0x40 || isWhiteSpace u)

/-- `[^&\s]`. -/
def inValue (u : UInt16) : Bool := !(u == 0x26 || isWhiteSpace u)

/-- What `\b` takes for part of a word. -/
def isWordUnit (u : UInt16) : Bool := Url.isAlpha u || isDigit u || u == 0x5F

def schemePattern : Pattern UInt16 :=
  .capture (.alt (.seq (anyCase "redis") (.optional (sameLetter 0x73)))
    (.seq (anyCase "http") (.optional (sameLetter 0x73))))

/-- `/(rediss?|https?):\/\/[^:/@\s]*:[^@\s]*@/gi`. -/
def credentialsPattern : Pattern UInt16 :=
  .seq schemePattern (.seq (anyCase "://") (.seq (.many inUser) (.seq (.one (· == 0x3A))
    (.seq (.many inPassword) (.one (· == 0x40))))))

def keywordPattern : Pattern UInt16 :=
  .capture (.alt (anyCase "password") (.alt (anyCase "token") (.alt (anyCase "apikey")
    (.alt (anyCase "api_key") (anyCase "secret")))))

/-- `/\b(password|token|apikey|api_key|secret)=([^&\s]+)/gi`. -/
def assignmentPattern : Pattern UInt16 :=
  .seq .boundary (.seq keywordPattern (.seq (.one (· == 0x3D))
    (.capture (.seq (.one inValue) (.many inValue)))))

/-! ## The replacements -/

def firstGroupThen (s : String) (captures : List JsString) : JsString := captures.headD [] ++ js s

def redactUrls (input : JsString) : JsString :=
  replaceAll isWordUnit credentialsPattern (firstGroupThen "://[REDACTED]@") input

def redactAssignments (input : JsString) : JsString :=
  replaceAll isWordUnit assignmentPattern (firstGroupThen "=[REDACTED]") input

def redactSecrets (input : JsString) : JsString := redactAssignments (redactUrls input)

def textFields : List JsString := [js "errMessage", js "msg", js "reason", js "failedReason"]

/-- `formatters.log` on an object whose values are texts or something else. -/
def formatLog {β : Type*} (object : List (JsString × (JsString ⊕ β))) :
    List (JsString × (JsString ⊕ β)) :=
  object.map fun field =>
    if textFields.contains field.1 then (field.1, field.2.map redactSecrets id) else field

/-! ## Credentials in a URL -/

def schemeNames : List JsString := [js "redis", js "rediss", js "http", js "https"]

def SchemeName (s : JsString) : Prop := s.map Url.asciiLowercase ∈ schemeNames

instance (s : JsString) : Decidable (SchemeName s) := inferInstanceAs (Decidable (_ ∈ _))

def credentials (scheme user password : JsString) : JsString :=
  scheme ++ Url.slashes ++ user ++ 0x3A :: password ++ [0x40]

/-- What the first pattern takes for a scheme, a user and a password. -/
def Takes (scheme user password : JsString) : Prop :=
  SchemeName scheme ∧ (∀ u ∈ user, inUser u = true) ∧ ∀ u ∈ password, inPassword u = true

theorem asciiLowercase_toNat (u : UInt16) :
    (Url.asciiLowercase u).toNat =
      if 0x41 ≤ u.toNat ∧ u.toNat ≤ 0x5A then u.toNat + 0x20 else u.toNat := by
  unfold Url.asciiLowercase
  split
  · rename_i h
    rw [UInt16.toNat_add]
    simp only [UInt16.reduceToNat]
    omega
  · rfl

theorem eq_of_asciiLowercase {u c : UInt16} (h : Url.asciiLowercase u = c)
    (hc : c.toNat < 0x61 ∨ 0x7A < c.toNat) : u = c := by
  have htoNat := asciiLowercase_toNat u
  rw [h] at htoNat
  split at htoNat
  · omega
  · exact UInt16.toNat_inj.1 htoNat.symm

theorem forall₂_sameLetter {cs us : JsString} :
    List.Forall₂ (fun accept u => accept u = true) (cs.map sameLetter) us ↔
      us.map Url.asciiLowercase = cs.map Url.asciiLowercase := by
  rw [List.forall₂_map_left_iff]
  induction cs generalizing us with
  | nil =>
      rw [List.forall₂_nil_left_iff, List.map_nil, List.map_eq_nil_iff]
  | cons c cs ih =>
      cases us with
      | nil => simp
      | cons u us =>
          rw [List.forall₂_cons, ih, List.map_cons, List.map_cons, List.cons.injEq]
          simp only [sameLetter, beq_iff_eq]

section

variable {prev : Option UInt16} {text : JsString} {m : Match UInt16}

theorem mem_anyCase {s : String} :
    m ∈ matchesAt isWordUnit (anyCase s) prev text ↔
      text = m.taken ++ m.rest ∧ m.captures = [] ∧
        m.taken.map Url.asciiLowercase = (js s).map Url.asciiLowercase := by
  rw [anyCase, mem_literal, forall₂_sameLetter]

theorem mem_anyCase_optional {s : String} {c : UInt16} :
    m ∈ matchesAt isWordUnit (.seq (anyCase s) (.optional (sameLetter c))) prev text ↔
      text = m.taken ++ m.rest ∧ m.captures = [] ∧
        (m.taken.map Url.asciiLowercase = (js s).map Url.asciiLowercase ∨
          m.taken.map Url.asciiLowercase =
            (js s).map Url.asciiLowercase ++ [Url.asciiLowercase c]) := by
  rw [mem_seq]
  constructor
  · rintro ⟨x, hx, y, hy, rfl⟩
    obtain ⟨htext, hcaptures, hword⟩ := mem_anyCase.1 hx
    rcases mem_optional.1 hy with ⟨u, hu, hrest, htaken, hcaptures'⟩ | ⟨hrest, htaken, hcaptures'⟩
    · refine ⟨?_, by rw [hcaptures, hcaptures']; rfl, Or.inr ?_⟩
      · rw [htext, hrest, htaken, List.append_assoc]
        rfl
      · have hsame : Url.asciiLowercase u = Url.asciiLowercase c := by
          simpa [sameLetter] using hu
        rw [List.map_append, hword, htaken, List.map_cons, hsame]
        rfl
    · refine ⟨?_, by rw [hcaptures, hcaptures']; rfl, Or.inl ?_⟩
      · rw [htext, hrest, htaken, List.append_nil]
      · rw [htaken, List.append_nil]
        exact hword
  · obtain ⟨taken, captures, rest⟩ := m
    rintro ⟨htext, hcaptures, hword | hword⟩
    · refine ⟨⟨taken, [], rest⟩, mem_anyCase.2 ⟨htext, rfl, hword⟩, ⟨[], [], rest⟩,
        mem_optional.2 (Or.inr ⟨rfl, rfl, rfl⟩), ?_⟩
      rw [show captures = [] from hcaptures, List.append_nil]
      rfl
    · obtain ⟨front, last, rfl, hfront, hlast⟩ := List.map_eq_append_iff.1 hword
      obtain ⟨u, rfl, hu⟩ := List.map_eq_singleton_iff.1 hlast
      refine ⟨⟨front, [], u :: rest⟩, mem_anyCase.2 ⟨?_, rfl, hfront⟩, ⟨[u], [], rest⟩,
        mem_optional.2 (Or.inl ⟨u, ?_, rfl, rfl, rfl⟩), ?_⟩
      · rw [htext]
        exact List.append_assoc front [u] rest
      · simpa [sameLetter] using hu
      · rw [show captures = [] from hcaptures]
        rfl

theorem mem_schemePattern :
    m ∈ matchesAt isWordUnit schemePattern prev text ↔
      SchemeName m.taken ∧ text = m.taken ++ m.rest ∧ m.captures = [m.taken] := by
  have hredis : (js "redis").map Url.asciiLowercase = js "redis" := by decide
  have hrediss : (js "redis").map Url.asciiLowercase ++ [Url.asciiLowercase 0x73] =
      js "rediss" := by decide
  have hhttp : (js "http").map Url.asciiLowercase = js "http" := by decide
  have hhttps : (js "http").map Url.asciiLowercase ++ [Url.asciiLowercase 0x73] =
      js "https" := by decide
  have hname : SchemeName m.taken ↔
      ((m.taken.map Url.asciiLowercase = js "redis" ∨
          m.taken.map Url.asciiLowercase = js "rediss") ∨
        m.taken.map Url.asciiLowercase = js "http" ∨
          m.taken.map Url.asciiLowercase = js "https") := by
    simp only [SchemeName, schemeNames, List.mem_cons, List.not_mem_nil, or_false, or_assoc]
  rw [schemePattern, mem_capture, hname]
  constructor
  · rintro ⟨x, hx, rfl⟩
    rcases mem_alt.1 hx with hx | hx
    · obtain ⟨htext, hcaptures, hword⟩ := mem_anyCase_optional.1 hx
      rw [hrediss, hredis] at hword
      exact ⟨Or.inl hword, htext, by rw [hcaptures]⟩
    · obtain ⟨htext, hcaptures, hword⟩ := mem_anyCase_optional.1 hx
      rw [hhttps, hhttp] at hword
      exact ⟨Or.inr hword, htext, by rw [hcaptures]⟩
  · obtain ⟨taken, captures, rest⟩ := m
    rintro ⟨hword, htext, hcaptures⟩
    refine ⟨⟨taken, [], rest⟩, mem_alt.2 ?_, by rw [show captures = [taken] from hcaptures]⟩
    rcases hword with hword | hword
    · refine Or.inl (mem_anyCase_optional.2 ⟨htext, rfl, ?_⟩)
      rw [hrediss, hredis]
      exact hword
    · refine Or.inr (mem_anyCase_optional.2 ⟨htext, rfl, ?_⟩)
      rw [hhttps, hhttp]
      exact hword

theorem mem_slashes :
    m ∈ matchesAt isWordUnit (anyCase "://") prev text ↔
      text = Url.slashes ++ m.rest ∧ m.captures = [] ∧ m.taken = Url.slashes := by
  have hfold : (js "://").map Url.asciiLowercase = Url.slashes := by decide
  rw [mem_anyCase, hfold]
  constructor
  · rintro ⟨htext, hcaptures, hword⟩
    have htaken : m.taken = Url.slashes := by
      have hlength : m.taken.length = 3 := by
        have hsame := congrArg List.length hword
        rw [List.length_map] at hsame
        exact hsame
      obtain ⟨a, b, c, habc⟩ := List.length_eq_three.1 hlength
      rw [habc] at hword ⊢
      obtain ⟨ha, hword⟩ := List.cons.inj hword
      obtain ⟨hb, hword⟩ := List.cons.inj hword
      obtain ⟨hc, -⟩ := List.cons.inj hword
      have ha' : a = 0x3A := eq_of_asciiLowercase ha (Or.inl (by decide))
      have hb' : b = 0x2F := eq_of_asciiLowercase hb (Or.inl (by decide))
      have hc' : c = 0x2F := eq_of_asciiLowercase hc (Or.inl (by decide))
      rw [ha', hb', hc']
      rfl
    exact ⟨by rw [← htaken]; exact htext, hcaptures, htaken⟩
  · rintro ⟨htext, hcaptures, htaken⟩
    exact ⟨by rw [htaken]; exact htext, hcaptures, by rw [htaken]; decide⟩

theorem mem_credentialsPattern :
    m ∈ matchesAt isWordUnit credentialsPattern prev text ↔
      ∃ scheme user password, Takes scheme user password ∧
        text = credentials scheme user password ++ m.rest ∧
        m.taken = credentials scheme user password ∧ m.captures = [scheme] := by
  rw [credentialsPattern]
  constructor
  · intro h
    obtain ⟨a, ha, w, hw, rfl⟩ := mem_seq.1 h
    obtain ⟨b, hb, x, hx, rfl⟩ := mem_seq.1 hw
    obtain ⟨c, hc, y, hy, rfl⟩ := mem_seq.1 hx
    obtain ⟨d, hd, z, hz, rfl⟩ := mem_seq.1 hy
    obtain ⟨e, he, f, hf, rfl⟩ := mem_seq.1 hz
    obtain ⟨hname, htext, hscheme⟩ := mem_schemePattern.1 ha
    obtain ⟨hslashes, hcaptures, htaken⟩ := mem_slashes.1 hb
    obtain ⟨huser, hcaptures', hin⟩ := mem_many.1 hc
    obtain ⟨u, hu, hcolon, htaken', hcaptures''⟩ := mem_one.1 hd
    obtain ⟨hpassword, hcaptures₃, hin'⟩ := mem_many.1 he
    obtain ⟨v, hv, hat, htaken'', hcaptures₄⟩ := mem_one.1 hf
    rw [beq_iff_eq] at hu hv
    subst hu hv
    refine ⟨a.taken, c.taken, e.taken, ⟨hname, hin, hin'⟩, ?_, ?_, ?_⟩
    · rw [htext, hslashes, huser, hcolon, hpassword, hat]
      simp [credentials]
    · simp only [htaken, htaken', htaken'', credentials]
      simp
    · simp only [hscheme, hcaptures, hcaptures', hcaptures'', hcaptures₃, hcaptures₄]
      rfl
  · obtain ⟨taken, captures, rest⟩ := m
    rintro ⟨scheme, user, password, ⟨hname, hin, hin'⟩, htext, htaken, hcaptures⟩
    have htaken' : taken = credentials scheme user password := htaken
    have hcaptures' : captures = [scheme] := hcaptures
    subst htaken' hcaptures'
    refine mem_seq.2 ⟨⟨scheme, [scheme],
        Url.slashes ++ (user ++ 0x3A :: (password ++ 0x40 :: rest))⟩,
      mem_schemePattern.2 ⟨hname, ?_, rfl⟩, ⟨Url.slashes ++ (user ++ 0x3A :: (password ++ [0x40])),
        [], rest⟩, ?_, ?_⟩
    · rw [htext]
      simp [credentials]
    · refine mem_seq.2 ⟨⟨Url.slashes, [], user ++ 0x3A :: (password ++ 0x40 :: rest)⟩,
        mem_slashes.2 ⟨rfl, rfl, rfl⟩, ⟨user ++ 0x3A :: (password ++ [0x40]), [], rest⟩, ?_, rfl⟩
      refine mem_seq.2 ⟨⟨user, [], 0x3A :: (password ++ 0x40 :: rest)⟩,
        mem_many.2 ⟨rfl, rfl, hin⟩, ⟨0x3A :: (password ++ [0x40]), [], rest⟩, ?_, rfl⟩
      refine mem_seq.2 ⟨⟨[0x3A], [], password ++ 0x40 :: rest⟩,
        mem_one.2 ⟨0x3A, by decide, rfl, rfl, rfl⟩, ⟨password ++ [0x40], [], rest⟩, ?_, rfl⟩
      exact mem_seq.2 ⟨⟨password, [], 0x40 :: rest⟩, mem_many.2 ⟨rfl, rfl, hin'⟩,
        ⟨[0x40], [], rest⟩, mem_one.2 ⟨0x40, by decide, rfl, rfl, rfl⟩, rfl⟩
    · simp [credentials]

end

/-! ## How the first pattern finds credentials -/

def isLowercase (u : UInt16) : Bool := 0x61 ≤ u.toNat && u.toNat ≤ 0x7A

theorem isAlpha_of_isLowercase {u : UInt16} (h : isLowercase (Url.asciiLowercase u) = true) :
    Url.isAlpha u = true := by
  simp only [isLowercase, Bool.and_eq_true, decide_eq_true_eq, asciiLowercase_toNat] at h
  simp only [Url.isAlpha, Bool.or_eq_true, Bool.and_eq_true, decide_eq_true_eq]
  split at h <;> omega

theorem SchemeName.isAlpha {s : JsString} (h : SchemeName s) : ∀ u ∈ s, Url.isAlpha u = true := by
  intro u hu
  have hletters : schemeNames.all (·.all isLowercase) = true := by decide
  have hname := List.all_eq_true.1 hletters _ h
  exact isAlpha_of_isLowercase (List.all_eq_true.1 hname _ (List.mem_map_of_mem hu))

theorem SchemeName.ne_nil {s : JsString} (h : SchemeName s) : s ≠ [] := by
  rintro rfl
  exact absurd h (by decide)

theorem SchemeName.notMem {s : JsString} (h : SchemeName s) {u : UInt16}
    (hu : Url.isAlpha u = false) : u ∉ s := fun hmem => by
  rw [h.isAlpha u hmem] at hu
  cases hu

theorem notMem_of_inUser {user : JsString} (h : ∀ u ∈ user, inUser u = true) {u : UInt16}
    (hu : inUser u = false) : u ∉ user := fun hmem => by
  rw [h u hmem] at hu
  cases hu

theorem notMem_of_inPassword {password : JsString} (h : ∀ u ∈ password, inPassword u = true)
    {u : UInt16} (hu : inPassword u = false) : u ∉ password := fun hmem => by
  rw [h u hmem] at hu
  cases hu

def unfinished (scheme user password : JsString) : JsString :=
  scheme ++ Url.slashes ++ user ++ 0x3A :: password

theorem credentials_eq (scheme user password : JsString) :
    credentials scheme user password = unfinished scheme user password ++ [0x40] := by
  simp [credentials, unfinished]

theorem credentials_append (scheme user password rest : JsString) :
    credentials scheme user password ++ rest = unfinished scheme user password ++ 0x40 :: rest := by
  simp [credentials, unfinished]

theorem unfinished_append (scheme user password more : JsString) :
    unfinished scheme user password ++ more = unfinished scheme user (password ++ more) := by
  simp [unfinished]

theorem Takes.notMem_at {scheme user password : JsString} (h : Takes scheme user password) :
    (0x40 : UInt16) ∉ unfinished scheme user password := by
  simp only [unfinished, List.mem_append, List.mem_cons, not_or]
  exact ⟨⟨⟨h.1.notMem (by decide), by decide⟩, notMem_of_inUser h.2.1 (by decide)⟩, by decide,
    notMem_of_inPassword h.2.2 (by decide)⟩

theorem Takes.append {scheme user password more : JsString} (h : Takes scheme user password)
    (hmore : ∀ u ∈ more, inPassword u = true) : Takes scheme user (password ++ more) := by
  refine ⟨h.1, h.2.1, fun u hu => ?_⟩
  rcases List.mem_append.1 hu with hu | hu
  · exact h.2.2 u hu
  · exact hmore u hu

theorem Takes.of_append {scheme user password more : JsString}
    (h : Takes scheme user (password ++ more)) : Takes scheme user password :=
  ⟨h.1, h.2.1, fun u hu => h.2.2 u (List.mem_append_left _ hu)⟩

/-- The first pattern matches in one way. -/
theorem Takes.unique {scheme user password rest scheme' user' password' rest' : JsString}
    (h : Takes scheme user password) (h' : Takes scheme' user' password')
    (heq : credentials scheme user password ++ rest =
      credentials scheme' user' password' ++ rest') :
    scheme = scheme' ∧ user = user' ∧ password = password' ∧ rest = rest' := by
  rw [credentials_append, credentials_append] at heq
  obtain ⟨hunfinished, hrest⟩ := append_cons_inj_left h.notMem_at h'.notMem_at heq
  have hscheme : scheme ++ 0x3A :: (0x2F :: 0x2F :: (user ++ 0x3A :: password)) =
      scheme' ++ 0x3A :: (0x2F :: 0x2F :: (user' ++ 0x3A :: password')) := by
    simpa [unfinished, Url.slashes, js] using hunfinished
  obtain ⟨hscheme, htail⟩ :=
    append_cons_inj_left (h.1.notMem (by decide)) (h'.1.notMem (by decide)) hscheme
  have huser : user ++ 0x3A :: password = user' ++ 0x3A :: password' := by simpa using htail
  obtain ⟨huser, hpassword⟩ := append_cons_inj_left (notMem_of_inUser h.2.1 (by decide))
    (notMem_of_inUser h'.2.1 (by decide)) huser
  exact ⟨hscheme, huser, hpassword, hrest⟩

def Begins (text : JsString) : Prop :=
  ∃ scheme user password rest, Takes scheme user password ∧
    text = credentials scheme user password ++ rest

theorem redactUrls_eq (prev : Option UInt16) (text : JsString) :
    replaceFrom isWordUnit credentialsPattern (firstGroupThen "://[REDACTED]@") 0 prev text =
      redactUrls text := replaceFrom_prev rfl 0 prev none

def redacted (scheme : JsString) : JsString := scheme ++ js "://[REDACTED]@"

theorem redactUrls_credentials {scheme user password : JsString} (h : Takes scheme user password)
    (rest : JsString) :
    redactUrls (credentials scheme user password ++ rest) = redacted scheme ++ redactUrls rest := by
  have hfirst : firstMatch isWordUnit credentialsPattern none
      (credentials scheme user password ++ rest) =
        some ⟨credentials scheme user password, [scheme], rest⟩ := by
    refine firstMatch_of_unique
      (mem_credentialsPattern.2 ⟨scheme, user, password, h, rfl, rfl, rfl⟩) ?_
    intro m hm
    obtain ⟨scheme', user', password', h', htext, htaken, hcaptures⟩ := mem_credentialsPattern.1 hm
    obtain ⟨rfl, rfl, rfl, hrest⟩ := h.unique h' htext
    obtain ⟨taken, captures, rest'⟩ := m
    rw [show taken = _ from htaken, show captures = _ from hcaptures,
      show rest' = rest from hrest.symm]
  have hne : credentials scheme user password ≠ [] := by simp [credentials]
  rw [redactUrls, replaceAll, replaceFrom_match hfirst hne, redactUrls_eq]
  rfl

theorem redactUrls_cons {u : UInt16} {text : JsString} (h : ¬Begins (u :: text)) :
    redactUrls (u :: text) = u :: redactUrls text := by
  have hnone : firstMatch isWordUnit credentialsPattern none (u :: text) = none := by
    refine firstMatch_eq_none.2 fun m hm => h ?_
    obtain ⟨scheme, user, password, htakes, htext, -⟩ := mem_credentialsPattern.1 hm
    exact ⟨scheme, user, password, m.rest, htakes, htext⟩
  rw [redactUrls, replaceAll, replaceFrom_cons hnone, redactUrls_eq]

theorem redactUrls_nil : redactUrls [] = [] := rfl

theorem Begins.isAlpha {u : UInt16} {text : JsString} (h : Begins (u :: text)) :
    Url.isAlpha u = true := by
  obtain ⟨scheme, user, password, rest, htakes, htext⟩ := h
  obtain ⟨v, scheme', rfl⟩ := List.exists_cons_of_ne_nil htakes.1.ne_nil
  have hv : u = v := by
    have hhead := congrArg List.head? htext
    simpa [credentials] using hhead
  rw [hv]
  exact htakes.1.isAlpha v List.mem_cons_self

theorem Begins.append {text : JsString} (h : Begins text) (more : JsString) :
    Begins (text ++ more) := by
  obtain ⟨scheme, user, password, rest, htakes, rfl⟩ := h
  exact ⟨scheme, user, password, rest ++ more, htakes, List.append_assoc _ _ _⟩

/-! ## Around a password -/

/-- The text ends in credentials whose `@` is still to come. -/
def Open (text : JsString) : Prop :=
  ∃ front scheme user password, Takes scheme user password ∧
    text = front ++ unfinished scheme user password

theorem Open.cons {u : UInt16} {text : JsString} (h : Open text) : Open (u :: text) := by
  obtain ⟨front, scheme, user, password, htakes, rfl⟩ := h
  exact ⟨u :: front, scheme, user, password, htakes, rfl⟩

theorem Open.append_left {text : JsString} (h : Open text) (front : JsString) :
    Open (front ++ text) := by
  induction front with
  | nil => exact h
  | cons u front ih => exact ih.cons

/-- Credentials at the start end at the first `@`. -/
theorem at_cases {scheme user password rest a b : JsString} (h : Takes scheme user password)
    (heq : credentials scheme user password ++ rest = a ++ b) :
    (∃ c, a = credentials scheme user password ++ c ∧ rest = c ++ b) ∨ (0x40 : UInt16) ∉ a := by
  by_cases ha : (0x40 : UInt16) ∈ a
  · obtain ⟨x, c, rfl, hx⟩ := List.eq_append_cons_of_mem ha
    rw [credentials_append, List.append_assoc, List.cons_append] at heq
    obtain ⟨rfl, hrest⟩ := append_cons_inj_left h.notMem_at hx heq
    exact Or.inl ⟨c, (credentials_append scheme user password c).symm, hrest⟩
  · exact Or.inr ha

theorem count_colon_unfinished (scheme user password : JsString) :
    2 ≤ (unfinished scheme user password).count 0x3A := by
  simp only [unfinished, Url.slashes, js, List.count_append, List.count_cons]
  simp
  omega

theorem count_colon_user {scheme user password : JsString} (h : Takes scheme user password) :
    (scheme ++ Url.slashes ++ user).count 0x3A = 1 := by
  have hscheme := List.count_eq_zero.2 (h.1.notMem (show Url.isAlpha 0x3A = false by decide))
  have huser := List.count_eq_zero.2 (notMem_of_inUser h.2.1 (show inUser 0x3A = false by decide))
  rw [List.count_append, List.count_append, hscheme, huser]
  rfl

/-- A part with two colons reaches into the password. -/
theorem exists_of_two_colons {scheme user password a b : JsString}
    (h : Takes scheme user password) (heq : unfinished scheme user password = a ++ b)
    (ha : 2 ≤ a.count 0x3A) :
    ∃ password', a = unfinished scheme user password' ∧ password = password' ++ b := by
  have hcut : (scheme ++ Url.slashes ++ user) ++ 0x3A :: password = a ++ b := heq
  have hone := count_colon_user h
  rcases List.append_eq_append_iff.1 hcut with ⟨c, rfl, hc⟩ | ⟨c, hc, -⟩
  · cases c with
    | nil =>
        rw [List.append_nil] at ha
        omega
    | cons v c =>
        obtain ⟨rfl, hpassword⟩ := List.cons.inj hc
        exact ⟨c, rfl, hpassword⟩
  · rw [hc, List.count_append] at hone
    omega

/-- Behind open credentials the next `@` ends them. -/
theorem redactUrls_open {a x : JsString} (h : Open a) (hx : ∀ u ∈ x, inPassword u = true)
    (rest : JsString) :
    redactUrls (a ++ (x ++ 0x40 :: rest)) = redactUrls (a ++ [0x40]) ++ redactUrls rest := by
  obtain ⟨front, scheme, user, password, htakes, rfl⟩ := h
  have hxat : (0x40 : UInt16) ∉ x := notMem_of_inPassword hx (by decide)
  induction hlength : front.length using Nat.strong_induction_on generalizing front with
  | _ n ih =>
  -- one match that ends behind the open credentials, or inside the front
  have hmatch : ∀ {scheme' user' password' rest' : JsString} {y tail : JsString},
      Takes scheme' user' password' → (0x40 : UInt16) ∉ y →
      credentials scheme' user' password' ++ rest' =
        front ++ unfinished scheme user password ++ (y ++ 0x40 :: tail) →
      (∃ front', front = credentials scheme' user' password' ++ front') ∨
        ∃ q, front ++ unfinished scheme user password = unfinished scheme' user' q ∧
          password' = q ++ y := by
    intro scheme' user' password' rest' y tail htakes' hy heq
    rw [List.append_assoc] at heq
    rcases at_cases htakes' heq with ⟨c, hc, -⟩ | hfront
    · exact Or.inl ⟨c, hc⟩
    · have hfree : (0x40 : UInt16) ∉ front ++ unfinished scheme user password ++ y := by
        simp only [List.mem_append, not_or]
        exact ⟨⟨hfront, htakes.notMem_at⟩, hy⟩
      have hcut : unfinished scheme' user' password' ++ 0x40 :: rest' =
          (front ++ unfinished scheme user password ++ y) ++ 0x40 :: tail := by
        rw [← credentials_append, heq]
        simp
      obtain ⟨hwhole, -⟩ := append_cons_inj_left htakes'.notMem_at hfree hcut
      refine Or.inr (exists_of_two_colons htakes' hwhole ?_)
      rw [List.count_append]
      have htwo := count_colon_unfinished scheme user password
      omega
  by_cases hbegins : Begins (front ++ unfinished scheme user password ++ (x ++ 0x40 :: rest))
  · obtain ⟨scheme', user', password', rest', htakes', heq⟩ := hbegins
    rcases hmatch htakes' hxat heq.symm with ⟨front', rfl⟩ | ⟨q, hq, rfl⟩
    · -- it ends before them
      have hshorter : front'.length < n := by
        rw [← hlength, List.length_append, credentials_eq, List.length_append]
        simp
      have hrest := ih front'.length hshorter front' rfl
      have hstep : ∀ tail, redactUrls (credentials scheme' user' password' ++ front' ++
          unfinished scheme user password ++ tail) = redacted scheme' ++
            redactUrls (front' ++ unfinished scheme user password ++ tail) := by
        intro tail
        rw [← redactUrls_credentials htakes']
        simp only [List.append_assoc]
      rw [hstep, hstep, hrest]
      simp only [List.append_assoc]
    · -- it is the one the `@` ends
      have htakes'' := htakes'.of_append
      have hstep : ∀ y tail, (∀ u ∈ y, inPassword u = true) →
          redactUrls (front ++ unfinished scheme user password ++ (y ++ 0x40 :: tail)) =
            redacted scheme' ++ redactUrls tail := by
        intro y tail hy
        have hwhole : front ++ unfinished scheme user password ++ (y ++ 0x40 :: tail) =
            credentials scheme' user' (q ++ y) ++ tail := by
          rw [hq, credentials_append, ← unfinished_append, List.append_assoc]
        rw [hwhole, redactUrls_credentials (htakes''.append hy)]
      have hone := hstep [] [] (by simp)
      rw [List.nil_append] at hone
      rw [hstep x rest hx, hone, redactUrls_nil, List.append_nil]
  · -- the first unit of the front is kept
    cases front with
    | nil =>
        refine absurd ⟨scheme, user, password ++ x, rest, htakes.append hx, ?_⟩ hbegins
        rw [credentials_append, ← unfinished_append]
        simp
    | cons v front =>
        have hnot : ¬Begins (v :: front ++ unfinished scheme user password ++ [0x40]) := by
          rintro ⟨scheme', user', password', rest', htakes', heq⟩
          refine hbegins ?_
          have heq' : credentials scheme' user' password' ++ rest' =
              v :: front ++ unfinished scheme user password ++ ([] ++ 0x40 :: []) := heq.symm
          rcases hmatch htakes' List.not_mem_nil heq' with ⟨front', hfront'⟩ | ⟨q, hq, rfl⟩
          · rw [hfront']
            exact ⟨scheme', user', password', front' ++ unfinished scheme user password ++
              (x ++ 0x40 :: rest), htakes', by simp⟩
          · refine ⟨scheme', user', q ++ x, rest, htakes'.of_append.append hx, ?_⟩
            rw [hq, credentials_append, ← unfinished_append, List.append_assoc]
        have hrest := ih front.length (by rw [← hlength]; simp) front rfl
        have hkept : redactUrls (v :: front ++ unfinished scheme user password ++
            (x ++ 0x40 :: rest)) =
              v :: redactUrls (front ++ unfinished scheme user password ++ (x ++ 0x40 :: rest)) :=
          redactUrls_cons hbegins
        have hkept' : redactUrls (v :: front ++ unfinished scheme user password ++ [0x40]) =
            v :: redactUrls (front ++ unfinished scheme user password ++ [0x40]) :=
          redactUrls_cons hnot
        rw [hkept, hkept', hrest]
        rfl

theorem isAlpha_eq_false {u : UInt16} (h : isWhiteSpace u = true) : Url.isAlpha u = false := by
  have hrange := Url.Space.range (Or.inr h)
  simp only [Url.isAlpha, Bool.or_eq_false_iff, Bool.and_eq_false_iff, decide_eq_false_iff_not]
  omega

theorem Takes.noWhiteSpace {scheme user password : JsString} (h : Takes scheme user password) :
    ∀ u ∈ unfinished scheme user password, isWhiteSpace u = false := by
  intro u hu
  by_contra hwhite
  rw [Bool.not_eq_false] at hwhite
  have hslashes : Url.slashes.all (fun v => !isWhiteSpace v) = true := by decide
  simp only [unfinished, List.mem_append, List.mem_cons] at hu
  rcases hu with ((hu | hu) | hu) | rfl | hu
  · exact h.1.notMem (isAlpha_eq_false hwhite) hu
  · have hslash := List.all_eq_true.1 hslashes u hu
    simp [hwhite] at hslash
  · have huser := h.2.1 u hu
    simp [inUser, hwhite] at huser
  · exact absurd hwhite (by decide)
  · have hpassword := h.2.2 u hu
    simp [inPassword, hwhite] at hpassword

theorem redactUrls_at {y : JsString} (h : (0x2F : UInt16) ∉ y) (rest : JsString) :
    redactUrls (y ++ 0x40 :: rest) = y ++ 0x40 :: redactUrls rest := by
  have hkeeps : ∀ {y : JsString}, (0x2F : UInt16) ∉ y → ¬Begins (y ++ 0x40 :: rest) := by
    rintro y hy ⟨scheme, user, password, rest', htakes, heq⟩
    have hslash : (scheme ++ [0x3A]) ++
        0x2F :: (0x2F :: (user ++ 0x3A :: (password ++ 0x40 :: rest'))) = y ++ 0x40 :: rest := by
      rw [heq]
      simp [credentials, Url.slashes, js]
    obtain ⟨c, hc, hc'⟩ := append_cons_eq_front hslash hy
    cases c with
    | nil => exact absurd (List.cons.inj hc').1 (by decide)
    | cons v c =>
        obtain ⟨rfl, -⟩ := List.cons.inj hc'
        have hat : (0x40 : UInt16) ∈ scheme ++ [0x3A] := by rw [hc]; simp
        rcases List.mem_append.1 hat with hat | hat
        · exact htakes.1.notMem (by decide) hat
        · exact absurd hat (by decide)
  induction y with
  | nil => exact redactUrls_cons (hkeeps h)
  | cons v y ih =>
      have hkept : redactUrls (v :: (y ++ 0x40 :: rest)) = v :: redactUrls (y ++ 0x40 :: rest) :=
        redactUrls_cons (hkeeps h)
      rw [List.cons_append, hkept, ih fun hmem => h (List.mem_cons_of_mem v hmem)]
      rfl

theorem redactUrls_closed {a y : JsString} (ha : ¬Open (a ++ [0x3A])) (hy : (0x2F : UInt16) ∉ y)
    (rest : JsString) :
    redactUrls (a ++ 0x3A :: (y ++ 0x40 :: rest)) =
      redactUrls (a ++ [0x3A]) ++ (y ++ 0x40 :: redactUrls rest) := by
  induction hlength : a.length using Nat.strong_induction_on generalizing a with
  | _ n ih =>
  by_cases hbegins : Begins (a ++ 0x3A :: (y ++ 0x40 :: rest))
  · obtain ⟨scheme, user, password, rest', htakes, heq⟩ := hbegins
    have hsplit : credentials scheme user password ++ rest' =
        (a ++ [0x3A]) ++ (y ++ 0x40 :: rest) := by
      rw [← heq]
      simp
    rcases at_cases htakes hsplit with ⟨c, hc, -⟩ | hat
    · -- the credentials end inside the front
      obtain ⟨a', ha'⟩ : ∃ a', a = credentials scheme user password ++ a' := by
        rcases List.eq_nil_or_concat' c with rfl | ⟨c, z, rfl⟩
        · have hlast := congrArg List.getLast? hc
          simp [credentials_eq] at hlast
        · rw [← List.append_assoc] at hc
          exact ⟨c, (List.append_inj' hc rfl).1⟩
      subst ha'
      have hshorter : a'.length < n := by
        rw [← hlength, List.length_append, credentials_eq, List.length_append]
        simp
      have hopen : ¬Open (a' ++ [0x3A]) := fun h => ha <| by
        rw [List.append_assoc]
        exact h.append_left _
      have hrest := ih a'.length hshorter hopen rfl
      rw [List.append_assoc, List.append_assoc, redactUrls_credentials htakes,
        redactUrls_credentials htakes, hrest, List.append_assoc]
    · -- they would end behind the colon
      rw [credentials_append] at hsplit
      obtain ⟨c, hc, hc'⟩ := append_cons_eq_front hsplit hat
      have hone : (a ++ [0x3A]).count 0x3A < 2 := by
        by_contra htwo
        obtain ⟨password', hopen, rfl⟩ := exists_of_two_colons htakes hc (by omega)
        exact ha ⟨[], scheme, user, password', htakes.of_append, hopen⟩
      have hcolon : (0x3A : UInt16) ∉ a := by
        rw [List.count_append, List.count_singleton_self] at hone
        exact List.count_eq_zero.1 (by omega)
      have hscheme : scheme ++ 0x3A :: (0x2F :: (0x2F :: (user ++ 0x3A :: password))) =
          a ++ 0x3A :: c := by
        have hwhole : unfinished scheme user password = (a ++ [0x3A]) ++ c := hc
        simpa [unfinished, Url.slashes, js] using hwhole
      obtain ⟨-, hslash⟩ := append_cons_inj_left (htakes.1.notMem (by decide)) hcolon hscheme
      rw [← hslash] at hc'
      cases y with
      | nil => exact absurd (List.cons.inj hc').1 (by decide)
      | cons v y =>
          obtain ⟨rfl, -⟩ := List.cons.inj hc'
          exact absurd List.mem_cons_self hy
  · cases a with
    | nil =>
        have hcolon : redactUrls [0x3A] = [0x3A] := by decide +kernel
        rw [List.nil_append, List.nil_append, redactUrls_cons hbegins, redactUrls_at hy, hcolon]
        rfl
    | cons v a =>
        have hnot : ¬Begins (v :: a ++ [0x3A]) := fun h => hbegins <| by
          have hmore := h.append (y ++ 0x40 :: rest)
          rw [List.append_assoc] at hmore
          exact hmore
        have hopen : ¬Open (a ++ [0x3A]) := fun h => ha h.cons
        have hrest := ih a.length (by rw [← hlength]; simp) hopen rfl
        have hkept : redactUrls (v :: a ++ 0x3A :: (y ++ 0x40 :: rest)) =
            v :: redactUrls (a ++ 0x3A :: (y ++ 0x40 :: rest)) := redactUrls_cons hbegins
        have hkept' : redactUrls (v :: a ++ [0x3A]) = v :: redactUrls (a ++ [0x3A]) :=
          redactUrls_cons hnot
        rw [hkept, hkept', hrest]
        rfl

theorem redactUrls_host {host after : JsString} (hhost : (0x40 : UInt16) ∉ host)
    (hafter : ∀ u ∈ after.head?, isWhiteSpace u = true) :
    redactUrls (host ++ after) = host ++ redactUrls after := by
  induction host with
  | nil => rfl
  | cons v host ih =>
      have hnot : ¬Begins (v :: (host ++ after)) := by
        rintro ⟨scheme, user, password, rest, htakes, heq⟩
        rw [credentials_append] at heq
        obtain ⟨c, hc, hafter'⟩ := append_cons_eq_front heq.symm hhost
        cases c with
        | nil => 
            rw [hafter'] at hafter
            exact absurd (hafter 0x40 rfl) (by decide)
        | cons w c =>
            have hwhite := htakes.noWhiteSpace w (by rw [hc]; simp)
            rw [hafter w (by rw [hafter']; rfl)] at hwhite
            cases hwhite
      have hrest := ih fun hmem => hhost (List.mem_cons_of_mem v hmem)
      rw [List.cons_append, redactUrls_cons hnot, hrest]
      rfl

end TaskQueue

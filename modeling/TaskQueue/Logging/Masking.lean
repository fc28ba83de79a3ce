import TaskQueue.Logging.Redaction
import Mathlib.Data.List.DropRight

/-!
# What the redaction hides of a password

The second replacement works on every run of a text between two separators apart, and
there it hides what stands behind the first keyword and its `=`.  With what the first
replacement leaves of a password, this says which passwords look alike in the log.
-/

namespace TaskQueue

open Ecma Regex Cutting

/-! ## Keywords -/

def keywordNames : List JsString :=
  [js "password", js "token", js "apikey", js "api_key", js "secret"]

def Keyword (k : JsString) : Prop := k.map Url.asciiLowercase ∈ keywordNames

theorem isWordUnit_of_asciiLowercase {u : UInt16}
    (h : isLowercase (Url.asciiLowercase u) = true ∨ Url.asciiLowercase u = 0x5F) :
    isWordUnit u = true := by
  rcases h with h | h
  · simp [isWordUnit, isAlpha_of_isLowercase h]
  · rw [eq_of_asciiLowercase h (Or.inl (by decide))]
    decide

theorem isWordUnit_of_keywordNames {u : UInt16} {name : JsString} (hname : name ∈ keywordNames)
    (hu : Url.asciiLowercase u ∈ name) : isWordUnit u = true := by
  have hletters : keywordNames.all (·.all fun c => isLowercase c || c == 0x5F) = true := by decide
  have hletter := List.all_eq_true.1 (List.all_eq_true.1 hletters name hname) _ hu
  rw [Bool.or_eq_true, beq_iff_eq] at hletter
  exact isWordUnit_of_asciiLowercase hletter

theorem Keyword.inWord {k : JsString} (h : Keyword k) : ∀ u ∈ k, isWordUnit u = true :=
  fun _ hu => isWordUnit_of_keywordNames h (List.mem_map_of_mem hu)

theorem Keyword.ne_nil {k : JsString} (h : Keyword k) : k ≠ [] := by
  rintro rfl
  have hempty : ¬[] ∈ keywordNames := by decide
  exact hempty h

theorem Keyword.notMem {k : JsString} (h : Keyword k) {u : UInt16} (hu : isWordUnit u = false) :
    u ∉ k := fun hmem => by
  rw [h.inWord u hmem] at hu
  cases hu

theorem Keyword.isWord_head {k : JsString} (h : Keyword k) (text : JsString) :
    isWord isWordUnit (k ++ text).head? = true := by
  obtain ⟨u, k', rfl⟩ := List.exists_cons_of_ne_nil h.ne_nil
  exact h.inWord u List.mem_cons_self

/-- No keyword is the start of another. -/
theorem Keyword.eq_of_append {k c : JsString} (h : Keyword k) (h' : Keyword (k ++ c)) : c = [] := by
  have hprefix : ∀ a ∈ keywordNames, ∀ b ∈ keywordNames, a.isPrefixOf b = true → a = b := by decide
  have hsame := hprefix _ h _ h' (List.isPrefixOf_iff_prefix.2 (by
    rw [List.map_append]
    exact List.prefix_append _ _))
  rw [List.map_append] at hsame
  exact List.map_eq_nil_iff.1 (List.self_eq_append_right.1 hsame)

section

variable {prev : Option UInt16} {text : JsString} {m : Match UInt16}

theorem mem_keywordPattern :
    m ∈ matchesAt isWordUnit keywordPattern prev text ↔
      Keyword m.taken ∧ text = m.taken ++ m.rest ∧ m.captures = [m.taken] := by
  have hfold : keywordNames.map (·.map Url.asciiLowercase) = keywordNames := by decide
  simp only [keywordNames, List.map_cons, List.map_nil, List.cons.injEq, and_true] at hfold
  obtain ⟨hpassword, htoken, hapikey, hapi_key, hsecret⟩ := hfold
  have hname : Keyword m.taken ↔
      (m.taken.map Url.asciiLowercase = js "password" ∨
        m.taken.map Url.asciiLowercase = js "token" ∨
        m.taken.map Url.asciiLowercase = js "apikey" ∨
        m.taken.map Url.asciiLowercase = js "api_key" ∨
        m.taken.map Url.asciiLowercase = js "secret") := by
    simp only [Keyword, keywordNames, List.mem_cons, List.not_mem_nil, or_false]
  rw [keywordPattern, mem_capture, hname]
  simp only [mem_alt, mem_anyCase, hpassword, htoken, hapikey, hapi_key, hsecret]
  constructor
  · rintro ⟨x, hx, rfl⟩
    rcases hx with hx | hx | hx | hx | hx <;>
      obtain ⟨htext, hcaptures, hword⟩ := hx <;>
      simp [htext, hcaptures, hword]
  · obtain ⟨taken, captures, rest⟩ := m
    rintro ⟨hword, htext, hcaptures⟩
    have hcaptures' : captures = [taken] := hcaptures
    refine ⟨⟨taken, [], rest⟩, ?_, by rw [hcaptures']⟩
    rcases hword with hword | hword | hword | hword | hword
    · exact Or.inl ⟨htext, rfl, hword⟩
    · exact Or.inr (Or.inl ⟨htext, rfl, hword⟩)
    · exact Or.inr (Or.inr (Or.inl ⟨htext, rfl, hword⟩))
    · exact Or.inr (Or.inr (Or.inr (Or.inl ⟨htext, rfl, hword⟩)))
    · exact Or.inr (Or.inr (Or.inr (Or.inr ⟨htext, rfl, hword⟩)))

theorem of_mem_assignmentPattern (h : m ∈ matchesAt isWordUnit assignmentPattern prev text) :
    isWord isWordUnit prev = false ∧ ∃ k v value, Keyword k ∧ inValue v = true ∧
      text = k ++ 0x3D :: v :: (value ++ m.rest) ∧ m.taken = k ++ 0x3D :: v :: value := by
  rw [assignmentPattern] at h
  obtain ⟨a, ha, w, hw, rfl⟩ := mem_seq.1 h
  obtain ⟨b, hb, x, hx, rfl⟩ := mem_seq.1 hw
  obtain ⟨c, hc, y, hy, rfl⟩ := mem_seq.1 hx
  obtain ⟨z, hz, rfl⟩ := mem_capture.1 hy
  obtain ⟨d, hd, e, he, rfl⟩ := mem_seq.1 hz
  obtain ⟨hboundary, rfl⟩ := mem_boundary.1 ha
  obtain ⟨hkeyword, htext, -⟩ := mem_keywordPattern.1 hb
  obtain ⟨u, hu, hequals, htaken, -⟩ := mem_one.1 hc
  obtain ⟨v, hv, hvalue, htaken', -⟩ := mem_one.1 hd
  obtain ⟨hmore, -, -⟩ := mem_many.1 he
  rw [beq_iff_eq] at hu
  subst hu
  have htext' : text = b.taken ++ b.rest := htext
  refine ⟨?_, b.taken, v, e.taken, hkeyword, hv, ?_, ?_⟩
  · rw [htext', hkeyword.isWord_head] at hboundary
    exact Bool.eq_false_iff.2 hboundary
  · rw [htext', hequals, hvalue, hmore]
  · simp [htaken, htaken']

theorem firstMatch_assignmentPattern {k tail : JsString} {v : UInt16} (hk : Keyword k)
    (hv : inValue v = true) (hprev : isWord isWordUnit prev = false) :
    firstMatch isWordUnit assignmentPattern prev (k ++ 0x3D :: v :: tail) =
      some ⟨k ++ 0x3D :: v :: tail.takeWhile inValue, [k, v :: tail.takeWhile inValue],
        tail.dropWhile inValue⟩ := by
  have hboundary : firstMatch isWordUnit .boundary prev (k ++ 0x3D :: v :: tail) =
      some ⟨[], [], k ++ 0x3D :: v :: tail⟩ := by
    simp only [firstMatch, matchesAt]
    rw [hprev, hk.isWord_head]
    rfl
  have hkeyword : ∀ prev, firstMatch isWordUnit keywordPattern prev (k ++ 0x3D :: v :: tail) =
      some ⟨k, [k], 0x3D :: v :: tail⟩ := by
    intro prev
    refine firstMatch_of_unique (mem_keywordPattern.2 ⟨hk, rfl, rfl⟩) fun m hm => ?_
    obtain ⟨taken, captures, rest⟩ := m
    obtain ⟨hname, htext, hcaptures⟩ := mem_keywordPattern.1 hm
    have hcaptures' : captures = [taken] := hcaptures
    have htext' : k ++ 0x3D :: v :: tail = taken ++ rest := htext
    obtain ⟨c, rfl, hc⟩ := append_cons_eq_front htext' (hname.notMem (by decide))
    obtain rfl : c = [] := Keyword.eq_of_append hname hk
    rw [hcaptures', show rest = 0x3D :: v :: tail from hc, List.append_nil]
  have hequals : ∀ prev, firstMatch isWordUnit (.one (· == 0x3D)) prev (0x3D :: v :: tail) =
      some ⟨[0x3D], [], v :: tail⟩ := fun _ => rfl
  have hvalue : ∀ prev, firstMatch isWordUnit (.one inValue) prev (v :: tail) =
      some ⟨[v], [], tail⟩ := by
    intro prev
    simp only [firstMatch, matchesAt]
    rw [if_pos hv]
    rfl
  exact firstMatch_seq hboundary (firstMatch_seq (hkeyword _) (firstMatch_seq (hequals _)
    (firstMatch_capture (firstMatch_seq (hvalue _) (firstMatch_many inValue)))))

end

/-! ## One run -/

/-- The keyword of an assignment that starts here, and its `=`. -/
def keywordAt (prev : Option UInt16) (text : JsString) : Option JsString :=
  (firstMatch isWordUnit assignmentPattern prev text).map fun m => m.captures.headD [] ++ [0x3D]

def beforeValue : Option UInt16 → JsString → Option JsString
  | _, [] => none
  | prev, u :: text =>
      match keywordAt prev (u :: text) with
      | some k => some k
      | none => (beforeValue (some u) text).map (u :: ·)

/-- The second replacement behind a unit. -/
def mask (prev : Option UInt16) (text : JsString) : JsString :=
  replaceFrom isWordUnit assignmentPattern (firstGroupThen "=[REDACTED]") 0 prev text

section

variable {prev : Option UInt16} {text : JsString}

theorem keywordAt_eq_some {q : JsString} :
    keywordAt prev text = some q ↔
      isWord isWordUnit prev = false ∧ ∃ k v tail, Keyword k ∧ inValue v = true ∧
        text = k ++ 0x3D :: v :: tail ∧ q = k ++ [0x3D] := by
  rw [keywordAt, Option.map_eq_some_iff]
  constructor
  · rintro ⟨m, hm, rfl⟩
    obtain ⟨hprev, k, v, value, hk, hv, rfl, -⟩ := of_mem_assignmentPattern (mem_of_firstMatch hm)
    rw [firstMatch_assignmentPattern hk hv hprev] at hm
    have hcaptures := congrArg Match.captures (Option.some.inj hm)
    rw [← hcaptures]
    exact ⟨hprev, k, v, value ++ m.rest, hk, hv, rfl, rfl⟩
  · rintro ⟨hprev, k, v, tail, hk, hv, rfl, rfl⟩
    exact ⟨_, firstMatch_assignmentPattern hk hv hprev, rfl⟩

theorem keywordAt_isWord {prev' : Option UInt16}
    (h : isWord isWordUnit prev = isWord isWordUnit prev') :
    keywordAt prev text = keywordAt prev' text := by
  rw [keywordAt, firstMatch, matchesAt_isWord h, ← firstMatch, ← keywordAt]

theorem beforeValue_isWord {prev' : Option UInt16}
    (h : isWord isWordUnit prev = isWord isWordUnit prev') :
    beforeValue prev text = beforeValue prev' text := by
  cases text with
  | nil => rfl
  | cons u text => rw [beforeValue, beforeValue, keywordAt_isWord h]

theorem beforeValue_spec {q : JsString} (h : beforeValue prev text = some q) :
    ∃ front v tail, q = front ++ [0x3D] ∧ text = front ++ 0x3D :: v :: tail ∧
      inValue v = true := by
  induction text generalizing prev q with
  | nil => cases h
  | cons u text ih =>
      rw [beforeValue] at h
      cases hkeyword : keywordAt prev (u :: text) with
      | some k =>
          rw [hkeyword] at h
          obtain rfl := Option.some.inj h
          obtain ⟨-, k', v, tail, -, hv, htext, rfl⟩ := keywordAt_eq_some.1 hkeyword
          exact ⟨k', v, tail, rfl, htext, hv⟩
      | none =>
          rw [hkeyword] at h
          obtain ⟨q', hq', rfl⟩ := Option.map_eq_some_iff.1 h
          obtain ⟨front, v, tail, rfl, rfl, hv⟩ := ih hq'
          exact ⟨u :: front, v, tail, rfl, rfl, hv⟩

theorem keywordAt_of_value {front s t q : JsString} {v w : UInt16} (hw : inValue w = true)
    (h : keywordAt prev (front ++ 0x3D :: v :: s) = some q) :
    keywordAt prev (front ++ 0x3D :: w :: t) = some q := by
  obtain ⟨hprev, k, x, tail, hk, hx, htext, rfl⟩ := keywordAt_eq_some.1 h
  have hequals : (0x3D : UInt16) ∉ k := hk.notMem (by decide)
  obtain ⟨c, rfl, hc⟩ := append_cons_eq_front htext hequals
  refine keywordAt_eq_some.2 ⟨hprev, k, ?_⟩
  cases c with
  | nil => exact ⟨w, t, hk, hw, by simp, rfl⟩
  | cons y c =>
      obtain ⟨rfl, hvalue⟩ := List.cons.inj hc
      cases c with
      | nil => exact ⟨0x3D, w :: t, hk, by decide, by simp, rfl⟩
      | cons y c =>
          obtain ⟨rfl, -⟩ := List.cons.inj hvalue
          exact ⟨x, c ++ 0x3D :: w :: t, hk, hx, by simp, rfl⟩

/-- Which value an assignment has makes no difference. -/
theorem keywordAt_value {front s t : JsString} {v w : UInt16} (hv : inValue v = true)
    (hw : inValue w = true) :
    keywordAt prev (front ++ 0x3D :: v :: s) = keywordAt prev (front ++ 0x3D :: w :: t) :=
  Option.ext fun _ => ⟨keywordAt_of_value hw, keywordAt_of_value hv⟩

theorem keywordAt_eq_none {u : UInt16} (h : isWordUnit u = false) :
    keywordAt prev (u :: text) = none := by
  refine Option.eq_none_iff_forall_ne_some.2 fun q hq => ?_
  obtain ⟨-, k, v, tail, hk, -, htext, -⟩ := keywordAt_eq_some.1 hq
  obtain ⟨y, k', rfl⟩ := List.exists_cons_of_ne_nil hk.ne_nil
  obtain ⟨rfl, -⟩ := List.cons.inj htext
  exact hk.notMem h List.mem_cons_self

theorem beforeValue_value {front s t : JsString} {v w : UInt16} (hv : inValue v = true)
    (hw : inValue w = true)
    (h : beforeValue prev (front ++ 0x3D :: v :: s) = some (front ++ [0x3D])) :
    beforeValue prev (front ++ 0x3D :: w :: t) = some (front ++ [0x3D]) := by
  induction front generalizing prev with
  | nil =>
      rw [List.nil_append, beforeValue, keywordAt_eq_none (by decide)] at h
      obtain ⟨q, hq, hq'⟩ := Option.map_eq_some_iff.1 h
      obtain ⟨front, v, tail, rfl, -⟩ := beforeValue_spec hq
      simp at hq'
  | cons u front ih =>
      rw [List.cons_append, beforeValue] at h ⊢
      rw [← List.cons_append] at h ⊢
      rw [keywordAt_value hw hv (t := s)]
      cases hkeyword : keywordAt prev (u :: front ++ 0x3D :: v :: s) with
      | some k =>
          rw [hkeyword] at h
          exact h
      | none =>
          rw [hkeyword] at h
          obtain ⟨q, hq, hq'⟩ := Option.map_eq_some_iff.1 h
          have hfront : q = front ++ [0x3D] := (List.cons.inj hq').2
          rw [hfront] at hq
          dsimp only
          rw [ih hq]
          rfl

theorem mask_nil : mask prev [] = [] := by
  have hnone : firstMatch isWordUnit assignmentPattern prev [] = none :=
    firstMatch_eq_none.2 fun m hm => by
      obtain ⟨-, k, v, value, -, -, htext, -⟩ := of_mem_assignmentPattern hm
      simp at htext
  rw [mask, replaceFrom, hnone]

theorem mask_of_inValue (h : ∀ u ∈ text, inValue u = true) :
    mask prev text = (beforeValue prev text).elim text (· ++ js "[REDACTED]") := by
  induction text generalizing prev with
  | nil => exact mask_nil
  | cons u text ih =>
      rw [beforeValue]
      cases hkeyword : keywordAt prev (u :: text) with
      | none =>
          have hnone := Option.map_eq_none_iff.1 hkeyword
          have hrest : mask (some u) text = _ := ih fun v hv => h v (List.mem_cons_of_mem u hv)
          have hkept : mask prev (u :: text) = u :: mask (some u) text := replaceFrom_cons hnone
          rw [hkept, hrest]
          cases beforeValue (some u) text with
          | none => rfl
          | some q => rfl
      | some q =>
          obtain ⟨hprev, k, v, tail, hk, hv, htext, rfl⟩ := keywordAt_eq_some.1 hkeyword
          rw [htext] at h ⊢
          have hall : ∀ x ∈ tail, inValue x = true := fun x hx =>
            h x (List.mem_append_right k (List.mem_cons_of_mem _ (List.mem_cons_of_mem v hx)))
          have hmask : mask prev (k ++ 0x3D :: v :: tail) = k ++ js "=[REDACTED]" ++
              mask (before (k ++ 0x3D :: v :: tail.takeWhile inValue) prev)
                (tail.dropWhile inValue) :=
            replaceFrom_match (firstMatch_assignmentPattern hk hv hprev) (by simp)
          rw [hmask, List.dropWhile_eq_nil_iff.2 hall, mask_nil, List.append_nil]
          exact (List.append_assoc k [0x3D] (js "[REDACTED]")).symm

/-- Two runs that the second replacement makes the same: they are the same, or the same up
to the value of their first assignment. -/
def MaskedAlike (u v : JsString) : Prop :=
  u = v ∨ ∃ q, beforeValue none u = some q ∧ beforeValue none v = some q

theorem mask_eq_iff {u v : JsString} (hu : ∀ x ∈ u, inValue x = true)
    (hv : ∀ x ∈ v, inValue x = true) : mask none u = mask none v ↔ MaskedAlike u v := by
  -- a hidden value is a value
  have hhidden : ∀ {w q : JsString}, beforeValue none w = some q →
      beforeValue none (q ++ js "[REDACTED]") = some q := by
    intro w q hq
    obtain ⟨front, x, tail, rfl, rfl, hx⟩ := beforeValue_spec hq
    have hvalue := beforeValue_value (t := js "REDACTED]") hx
      (show inValue 0x5B = true by decide) hq
    rw [List.append_assoc]
    exact hvalue
  rw [mask_of_inValue hu, mask_of_inValue hv]
  cases hqu : beforeValue none u with
  | none =>
      cases hqv : beforeValue none v with
      | none => simp [MaskedAlike, hqu]
      | some q =>
          constructor
          · intro h
            have hsome := hhidden hqv
            rw [← show u = q ++ js "[REDACTED]" from h, hqu] at hsome
            cases hsome
          · rintro (rfl | ⟨q', hq', -⟩)
            · rw [hqu] at hqv
              cases hqv
            · rw [hqu] at hq'
              cases hq'
  | some q =>
      cases hqv : beforeValue none v with
      | none =>
          constructor
          · intro h
            have hsome := hhidden hqu
            rw [show q ++ js "[REDACTED]" = v from h, hqv] at hsome
            cases hsome
          · rintro (rfl | ⟨q', -, hq'⟩)
            · rw [hqu] at hqv
              cases hqv
            · rw [hqv] at hq'
              cases hq'
      | some q' =>
          constructor
          · intro h
            have hsame : q = q' := List.append_cancel_right h
            exact Or.inr ⟨q, hqu, by rw [hqv, hsame]⟩
          · rintro (rfl | ⟨q'', hq, hq'⟩)
            · rw [hqu] at hqv
              rw [Option.some.inj hqv]
            · rw [hqu] at hq
              rw [hqv] at hq'
              rw [hq, hq']
              rfl

/-! ## Between the separators -/

theorem isWordUnit_eq_false {z : UInt16} (hz : inValue z = false) : isWordUnit z = false := by
  rw [inValue, Bool.not_eq_false', Bool.or_eq_true, beq_iff_eq] at hz
  rcases hz with rfl | hz
  · decide
  · have hrange := Url.Space.range (Or.inr hz)
    have hunder : z ≠ 0x5F := by
      rintro rfl
      exact absurd hrange (by decide)
    simp only [isWordUnit, isAlpha_eq_false hz, Bool.false_or, Bool.or_eq_false_iff,
      beq_eq_false_iff_ne]
    refine ⟨?_, hunder⟩
    simp only [isDigit, Bool.and_eq_false_iff, decide_eq_false_iff_not, UInt16.le_iff_toNat_le,
      UInt16.reduceToNat]
    omega

theorem sameLetter_eq_false {c z : UInt16} {name : JsString} (hname : name ∈ keywordNames)
    (hc : c ∈ name) (hz : isWordUnit z = false) : sameLetter c z = false := by
  have hfold : keywordNames.all (·.all fun c => Url.asciiLowercase c == c) = true := by decide
  have hsame := List.all_eq_true.1 (List.all_eq_true.1 hfold name hname) c hc
  rw [beq_iff_eq] at hsame
  rw [sameLetter, beq_eq_false_iff_ne, hsame]
  rintro rfl
  rw [isWordUnit_of_keywordNames hname hc] at hz
  cases hz

theorem rejects_assignmentPattern {z : UInt16} (hz : inValue z = false) :
    rejects z assignmentPattern = true := by
  have hword : ∀ s : String, js s ∈ keywordNames → rejects z (anyCase s) = true := by
    intro s hs
    refine rejects_literal fun accept haccept => ?_
    obtain ⟨c, hc, rfl⟩ := List.mem_map.1 haccept
    exact sameLetter_eq_false hs hc (isWordUnit_eq_false hz)
  have hequals : (z == 0x3D) = false := by
    rw [beq_eq_false_iff_ne]
    rintro rfl
    exact absurd hz (by decide)
  simp only [assignmentPattern, keywordPattern, rejects, hz, hequals, Bool.not_false,
    hword "password" (by decide), hword "token" (by decide), hword "apikey" (by decide),
    hword "api_key" (by decide), hword "secret" (by decide), Bool.and_self]

theorem mask_append_cons {z : UInt16} (hz : inValue z = false) (s r : JsString) :
    mask prev (s ++ z :: r) = mask prev s ++ z :: mask none r := by
  refine replaceFrom_append_cons (rejects_assignmentPattern hz) (isWordUnit_eq_false hz) ?_ s r
    (Nat.zero_le _)
  intro prev text m hm htaken
  obtain ⟨-, k, v, value, -, -, -, hwhole⟩ := of_mem_assignmentPattern hm
  rw [htaken] at hwhole
  simp at hwhole

def lastRun (text : JsString) : JsString := text.rtakeWhile inValue

/-- What comes behind a text meets no more of it than its last run. -/
theorem mask_lastRun (text : JsString) :
    ∃ front, ∀ more, mask none (text ++ more) = front ++ mask none (lastRun text ++ more) := by
  have hcut : text = text.rdropWhile inValue ++ lastRun text :=
    List.rdropWhile_append_rtakeWhile.symm
  rcases List.eq_nil_or_concat' (text.rdropWhile inValue) with hnil | ⟨front, z, hfront⟩
  · refine ⟨[], fun more => ?_⟩
    rw [hnil, List.nil_append] at hcut
    rw [← hcut]
    rfl
  · have hz : inValue z = false := by
      have hlast := List.rdropWhile_last_not inValue text (by rw [hfront]; simp)
      simpa [hfront] using hlast
    refine ⟨mask none front ++ [z], fun more => ?_⟩
    have hwhole : text ++ more = front ++ z :: (lastRun text ++ more) := by
      rw [hfront] at hcut
      calc text ++ more = (front ++ [z] ++ lastRun text) ++ more := congrArg (· ++ more) hcut
        _ = front ++ z :: (lastRun text ++ more) := by simp
    rw [hwhole, mask_append_cons hz]
    simp

theorem mask_rest {rest : JsString} (h : ∀ u ∈ rest.head?, inValue u = false) :
    ∃ back, ∀ text, mask none (text ++ rest) = mask none text ++ back := by
  cases rest with
  | nil => exact ⟨[], fun text => by simp⟩
  | cons z rest => exact ⟨z :: mask none rest, fun text => mask_append_cons (h z rfl) text rest⟩

theorem notMem_mask (h : ∀ u ∈ text, inValue u = true) : (0x26 : UInt16) ∉ mask none text := by
  have hseparator : inValue 0x26 = false := by decide
  have hnot : (0x26 : UInt16) ∉ text := fun hmem => by
    rw [h _ hmem] at hseparator
    cases hseparator
  rw [mask_of_inValue h]
  cases hq : beforeValue none text with
  | none => exact hnot
  | some q =>
      obtain ⟨front, v, tail, rfl, rfl, -⟩ := beforeValue_spec hq
      have hfront : (0x26 : UInt16) ∉ front := fun hmem => hnot (List.mem_append_left _ hmem)
      simp only [Option.elim_some, List.mem_append, not_or]
      exact ⟨⟨hfront, by decide⟩, by decide⟩

theorem inValue_of_split {part : JsString} (h : ∀ u ∈ text, isWhiteSpace u = false)
    (hpart : part ∈ split 0x26 text) : ∀ u ∈ part, inValue u = true := by
  intro u hu
  obtain ⟨hmem, hne⟩ := of_mem_split hpart hu
  simp [inValue, h u hmem, hne]

/-- The second replacement works on the parts between `&` apart. -/
theorem split_mask (h : ∀ u ∈ text, isWhiteSpace u = false) :
    split 0x26 (mask none text) = (split 0x26 text).map (mask none) := by
  induction hlength : text.length using Nat.strong_induction_on generalizing text with
  | _ n ih =>
  rcases split_cases 0x26 text with ⟨hnone, hs⟩ | ⟨x, y, rfl, hx, hs⟩
  · have hin : ∀ u ∈ text, inValue u = true := inValue_of_split h (by rw [hs]; simp)
    rw [hs, split_of_notMem (notMem_mask hin)]
    rfl
  · have hin : ∀ u ∈ x, inValue u = true := inValue_of_split h (by rw [hs]; simp)
    have hshorter : y.length < n := by
      rw [← hlength, List.length_append, List.length_cons]
      omega
    have hrest := ih y.length hshorter (fun u hu => h u (by simp [hu])) rfl
    rw [hs, mask_append_cons (by decide), split_append_cons (notMem_mask hin), hrest]
    rfl

theorem mask_eq_iff_split {u v : JsString} (hu : ∀ x ∈ u, isWhiteSpace x = false)
    (hv : ∀ x ∈ v, isWhiteSpace x = false) :
    mask none u = mask none v ↔ List.Forall₂ MaskedAlike (split 0x26 u) (split 0x26 v) := by
  rw [← (split_injective 0x26).eq_iff, split_mask hu, split_mask hv]
  have hparts : ∀ (us vs : List JsString), (∀ part ∈ us, ∀ x ∈ part, inValue x = true) →
      (∀ part ∈ vs, ∀ x ∈ part, inValue x = true) →
      (us.map (mask none) = vs.map (mask none) ↔ List.Forall₂ MaskedAlike us vs) := by
    intro us
    induction us with
    | nil =>
        intro vs _ _
        rw [List.forall₂_nil_left_iff, List.map_nil, eq_comm, List.map_eq_nil_iff]
    | cons part us ih =>
        intro vs hus hvs
        cases vs with
        | nil => simp
        | cons part' vs =>
            rw [List.map_cons, List.map_cons, List.cons.injEq, List.forall₂_cons,
              mask_eq_iff (hus part List.mem_cons_self) (hvs part' List.mem_cons_self),
              ih vs (fun p hp => hus p (List.mem_cons_of_mem part hp))
                (fun p hp => hvs p (List.mem_cons_of_mem part' hp))]
  exact hparts _ _ (fun _ hpart => inValue_of_split hu hpart)
    fun _ hpart => inValue_of_split hv hpart

/-! ## Behind a text that ends in no word -/

section

variable {front y : JsString} {z : UInt16}

theorem keywordAt_of_append {y' q : JsString} (hword : isWordUnit z = false) (hne : z ≠ 0x3D)
    (hz : inValue z = true) (h : keywordAt prev (front ++ z :: y) = some q) :
    keywordAt prev (front ++ z :: y') = some q := by
  obtain ⟨hprev, k, v, value, hk, hv, htext, rfl⟩ := keywordAt_eq_some.1 h
  have htext' : front ++ z :: y = (k ++ [0x3D]) ++ v :: value := by
    rw [htext]
    simp
  have hnot : z ∉ k ++ [0x3D] := by
    rw [List.mem_append, List.mem_singleton, not_or]
    exact ⟨hk.notMem hword, hne⟩
  obtain ⟨c, rfl, hc⟩ := append_cons_eq_front htext' hnot
  refine keywordAt_eq_some.2 ⟨hprev, k, ?_⟩
  cases c with
  | nil => exact ⟨z, y', hk, hz, by simp, rfl⟩
  | cons w c =>
      obtain ⟨rfl, -⟩ := List.cons.inj hc
      exact ⟨v, c ++ z :: y', hk, hv, by simp, rfl⟩

theorem beforeValue_append (hword : isWordUnit z = false) (hne : z ≠ 0x3D)
    (hz : inValue z = true) :
    beforeValue prev (front ++ z :: y) =
      (beforeValue prev (front ++ [z])).or ((beforeValue none y).map (front ++ z :: ·)) := by
  induction front generalizing prev with
  | nil =>
      have hnone : isWord isWordUnit (some z) = isWord isWordUnit none := hword
      rw [List.nil_append, List.nil_append, beforeValue, beforeValue, keywordAt_eq_none hword,
        keywordAt_eq_none hword, beforeValue_isWord hnone]
      rfl
  | cons u front ih =>
      have hkeyword : keywordAt prev (u :: front ++ z :: y) = keywordAt prev (u :: front ++ [z]) :=
        Option.ext fun _ => ⟨keywordAt_of_append hword hne hz, keywordAt_of_append hword hne hz⟩
      rw [List.cons_append] at hkeyword
      rw [List.cons_append, List.cons_append, beforeValue, beforeValue, hkeyword]
      rw [List.cons_append]
      cases keywordAt prev (u :: (front ++ [z])) with
      | some q => rfl
      | none =>
          dsimp only
          rw [ih]
          cases beforeValue (some u) (front ++ [z]) with
          | some q => rfl
          | none => simp [Option.map_map, Function.comp_def]

theorem maskedAlike_append {u v : JsString} (hword : isWordUnit z = false) (hne : z ≠ 0x3D)
    (hz : inValue z = true) :
    MaskedAlike (front ++ z :: u) (front ++ z :: v) ↔
      (beforeValue none (front ++ [z])).isSome = true ∨ MaskedAlike u v := by
  have hbehind : ∀ y, beforeValue none (front ++ z :: y) = _ := fun y =>
    beforeValue_append hword hne hz
  cases hfront : beforeValue none (front ++ [z]) with
  | some q =>
      have hsome : MaskedAlike (front ++ z :: u) (front ++ z :: v) :=
        Or.inr ⟨q, by rw [hbehind, hfront]; rfl, by rw [hbehind, hfront]; rfl⟩
      simp [hsome]
  | none =>
      rw [hfront] at hbehind
      simp only [Option.none_or] at hbehind
      simp only [MaskedAlike, hbehind, Option.isSome_none, Bool.false_eq_true, false_or,
        List.append_cancel_left_eq, List.cons.injEq, true_and]
      refine or_congr Iff.rfl ?_
      constructor
      · rintro ⟨q, hu, hv⟩
        obtain ⟨q', hu', rfl⟩ := Option.map_eq_some_iff.1 hu
        obtain ⟨q'', hv', hq⟩ := Option.map_eq_some_iff.1 hv
        obtain rfl : q'' = q' := by simpa using hq
        exact ⟨q'', hu', hv'⟩
      · rintro ⟨q, hu, hv⟩
        exact ⟨front ++ z :: q, by rw [hu]; rfl, by rw [hv]; rfl⟩

end

/-- Parts that look alike behind a text: as many on either side, and alike, but for the first
ones where a value is hidden in front of them. -/
def AlikeBehind (hidden : Bool) : List JsString → List JsString → Prop
  | u :: us, v :: vs => (hidden = true ∨ MaskedAlike u v) ∧ List.Forall₂ MaskedAlike us vs
  | _, _ => False

def hides (text : JsString) : Bool := (beforeValue none (lastRun text)).isSome

/-- What is the same and what differs behind a text that ends in no word. -/
theorem mask_eq_iff_behind {front rest u v : JsString} {z : UInt16} (hword : isWordUnit z = false)
    (hne : z ≠ 0x3D) (hz : inValue z = true) (hu : ∀ x ∈ u, isWhiteSpace x = false)
    (hv : ∀ x ∈ v, isWhiteSpace x = false) (hrest : ∀ x ∈ rest.head?, inValue x = false) :
    mask none (front ++ z :: (u ++ rest)) = mask none (front ++ z :: (v ++ rest)) ↔
      AlikeBehind (hides (front ++ [z])) (split 0x26 u) (split 0x26 v) := by
  obtain ⟨run, hrun⟩ : ∃ run, lastRun (front ++ [z]) = run ++ [z] :=
    ⟨lastRun front, List.rtakeWhile_concat_pos inValue front z hz⟩
  have hin : ∀ x ∈ run ++ [z], inValue x = true := fun x hx => by
    rw [← hrun] at hx
    exact List.mem_rtakeWhile_imp hx
  have hampersand : (0x26 : UInt16) ∉ run ++ [z] := fun hmem => by
    exact absurd (hin 0x26 hmem) (by decide)
  have hwhite : ∀ {w : JsString}, (∀ x ∈ w, isWhiteSpace x = false) →
      ∀ x ∈ (run ++ [z]) ++ w, isWhiteSpace x = false := by
    intro w hw x hx
    rcases List.mem_append.1 hx with hx | hx
    · have hvalue := hin x hx
      rw [inValue, Bool.not_eq_true', Bool.or_eq_false_iff] at hvalue
      exact hvalue.2
    · exact hw x hx
  obtain ⟨start, hstart⟩ := mask_lastRun (front ++ [z])
  obtain ⟨back, hback⟩ := mask_rest hrest
  have hcut : ∀ w, mask none (front ++ z :: (w ++ rest)) =
      start ++ (mask none ((run ++ [z]) ++ w) ++ back) := by
    intro w
    have hwhole := hstart (w ++ rest)
    rw [hrun] at hwhole
    rw [← hback, List.append_assoc, ← hwhole]
    simp
  rw [hcut, hcut, List.append_cancel_left_eq, List.append_cancel_right_eq,
    mask_eq_iff_split (hwhite hu) (hwhite hv)]
  obtain ⟨part, parts, hparts, hparts'⟩ := split_append hampersand u
  obtain ⟨part', parts', hparts'', hparts₃⟩ := split_append hampersand v
  rw [hparts, hparts', hparts'', hparts₃, List.forall₂_cons, AlikeBehind, hides, hrun]
  refine and_congr ?_ Iff.rfl
  rw [List.append_assoc, List.append_assoc]
  exact maskedAlike_append hword hne hz

end

end TaskQueue

import TaskQueue.Dashboard.Chain

/-!
# Cross-origin requests

The middleware grants an origin the use of the API by echoing it, when it is on an
allowlist that is read from a comma-separated setting.  Preflights end here; every
other request goes on, also one of an origin that is not on the list.
-/

namespace TaskQueue

open Ecma
open Dashboard (Refusal)

/-! ## The allowlist -/

/-- `s.replace(/\/$/, '')`. -/
def stripSlash (s : JsString) : JsString := if s.getLast? = some 0x2F then s.dropLast else s

def parseOriginList (raw : JsString) : List JsString :=
  ((split 0x2C raw).map fun origin => stripSlash (trim origin)).filter fun origin =>
    0 < origin.length && origin != js "*"

/-! ## The middleware -/

abbrev Headers := List (JsString × JsString)

def allowedMethods : JsString := js "GET, POST, OPTIONS"

def allowedHeaders : JsString := js "Content-Type, Authorization, X-Requested-With"

inductive CorsVerdict
  | next (headers : Headers)
  /-- `204`, without a body. -/
  | noContent (headers : Headers)
  | refused (refusal : Refusal)
  deriving DecidableEq

def grantHeaders (origin : JsString) : Headers :=
  [(js "Access-Control-Allow-Origin", origin), (js "Vary", js "Origin"),
    (js "Access-Control-Allow-Methods", allowedMethods),
    (js "Access-Control-Allow-Headers", allowedHeaders), (js "Access-Control-Max-Age", js "600")]

def corsMiddleware (corsAllowedOrigins : List JsString) (method : JsString)
    (origin : Option JsString) : CorsVerdict :=
  match origin.filter fun origin => !origin.isEmpty with
  | none =>
      if method == js "OPTIONS" then
        .noContent [(js "Access-Control-Allow-Methods", allowedMethods),
          (js "Access-Control-Allow-Headers", allowedHeaders)]
      else .next []
  | some origin =>
      let normalized := stripSlash origin
      if corsAllowedOrigins.contains normalized then
        if method == js "OPTIONS" then .noContent (grantHeaders normalized)
        else .next (grantHeaders normalized)
      else if method == js "OPTIONS" then .refused ⟨403, [], js "Origin not allowed."⟩
      else .next []

def CorsVerdict.headers : CorsVerdict → Headers
  | .next headers => headers
  | .noContent headers => headers
  | .refused refusal => refusal.headers

def Headers.get (headers : Headers) (name : JsString) : Option JsString :=
  (headers.find? fun h => h.1 == name).map Prod.snd

def accessControlAllowOrigin : JsString := js "Access-Control-Allow-Origin"

variable {corsAllowedOrigins : List JsString} {method : JsString} {origin : Option JsString}

/-! ## What a request leaves with -/

/-- Preflights end in the middleware, and nothing else does. -/
theorem corsMiddleware_eq_next_iff :
    (∃ headers, corsMiddleware corsAllowedOrigins method origin = .next headers) ↔
      method ≠ js "OPTIONS" := by
  unfold corsMiddleware
  by_cases hmethod : method = js "OPTIONS"
  · subst hmethod
    simp only [beq_self_eq_true, if_true, ne_eq, not_true_eq_false, iff_false]
    rintro ⟨headers, h⟩
    split at h
    · cases h
    · split at h <;> cases h
  · have hother : (method == js "OPTIONS") = false := by
      rw [beq_eq_false_iff_ne]
      exact hmethod
    simp only [hother, Bool.false_eq_true, if_false, hmethod, ne_eq, not_false_eq_true, iff_true]
    split
    · exact ⟨[], rfl⟩
    · split
      · exact ⟨_, rfl⟩
      · exact ⟨[], rfl⟩

def GrantedTo (corsAllowedOrigins : List JsString) (origin : Option JsString)
    (value : JsString) : Prop :=
  ∃ sent, origin = some sent ∧ sent ≠ [] ∧ value = stripSlash sent ∧ value ∈ corsAllowedOrigins

theorem methodHeaders_allowOrigin :
    Headers.get [(js "Access-Control-Allow-Methods", allowedMethods),
      (js "Access-Control-Allow-Headers", allowedHeaders)] accessControlAllowOrigin = none := by
  decide

theorem grantHeaders_allowOrigin (value : JsString) :
    (grantHeaders value).get accessControlAllowOrigin = some value := rfl

/-- A response carries the header exactly when its request has a listed origin, and
then with that origin. -/
theorem allowOrigin_eq_some_iff {value : JsString} :
    (corsMiddleware corsAllowedOrigins method origin).headers.get accessControlAllowOrigin =
        some value ↔ GrantedTo corsAllowedOrigins origin value := by
  unfold GrantedTo corsMiddleware
  cases origin with
  | none =>
      simp only [Option.filter_none, reduceCtorEq, false_and, exists_false, iff_false]
      split
      · simp only [CorsVerdict.headers, methodHeaders_allowOrigin, reduceCtorEq, not_false_eq_true]
      · exact fun h => by cases h
  | some sent =>
      by_cases hempty : sent = []
      · subst hempty
        have hnone : (some ([] : JsString)).filter (fun origin => !origin.isEmpty) = none := rfl
        simp only [hnone, Option.some.injEq]
        constructor
        · intro h
          split at h
          · simp only [CorsVerdict.headers, methodHeaders_allowOrigin, reduceCtorEq] at h
          · cases h
        · rintro ⟨s, rfl, hne, -⟩
          exact absurd rfl hne
      · have hkept : (some sent).filter (fun origin => !origin.isEmpty) = some sent := by
          rw [Option.filter_some_pos (by simpa using hempty)]
        simp only [hkept, Option.some.injEq]
        by_cases hlisted : stripSlash sent ∈ corsAllowedOrigins
        · have hcontains : corsAllowedOrigins.contains (stripSlash sent) = true := by
            rw [List.contains_iff_mem]
            exact hlisted
          have hheaders : (if (method == js "OPTIONS") = true then
              CorsVerdict.noContent (grantHeaders (stripSlash sent))
              else .next (grantHeaders (stripSlash sent))).headers =
              grantHeaders (stripSlash sent) := by
            split <;> rfl
          rw [if_pos hcontains, hheaders, grantHeaders_allowOrigin, Option.some.injEq]
          constructor
          · rintro rfl
            exact ⟨sent, rfl, hempty, rfl, hlisted⟩
          · rintro ⟨s, rfl, -, rfl, -⟩
            rfl
        · have hcontains : ¬corsAllowedOrigins.contains (stripSlash sent) = true := by
            rw [List.contains_iff_mem]
            exact hlisted
          have hheaders : (if (method == js "OPTIONS") = true then
              CorsVerdict.refused ⟨403, [], js "Origin not allowed."⟩
              else .next []).headers = [] := by
            split <;> rfl
          rw [if_neg hcontains, hheaders]
          constructor
          · intro h
            cases h
          · rintro ⟨s, rfl, -, rfl, hmem⟩
            exact absurd hmem hlisted

theorem corsMiddleware_options (h : method = js "OPTIONS") {sent : JsString}
    (horigin : origin = some sent) (hne : sent ≠ []) :
    corsMiddleware corsAllowedOrigins method origin =
      if stripSlash sent ∈ corsAllowedOrigins then .noContent (grantHeaders (stripSlash sent))
      else .refused ⟨403, [], js "Origin not allowed."⟩ := by
  have hkept : (some sent).filter (fun origin => !origin.isEmpty) = some sent := by
    rw [Option.filter_some_pos (by simpa using hne)]
  have hoptions : (method == js "OPTIONS") = true := by rw [beq_iff_eq, h]
  simp only [corsMiddleware, horigin, hkept, hoptions, if_true, List.contains_iff_mem]

/-! ## What the setting lists -/

/-- An origin as browsers send it: neither empty nor a wildcard, and without a slash at
its end. -/
structure SerializedOrigin (o : JsString) : Prop where
  ne_nil : o ≠ []
  ne_star : o ≠ js "*"
  slash : o.getLast? ≠ some 0x2F

/-- The setting has the origin between two commas, perhaps with a slash behind it. -/
def Listed (raw o : JsString) : Prop :=
  ∃ part ∈ split 0x2C raw, trim part = o ∨ trim part = o ++ js "/"

theorem stripSlash_eq_iff {s o : JsString} (ho : SerializedOrigin o) :
    stripSlash s = o ↔ s = o ∨ s = o ++ js "/" := by
  unfold stripSlash
  by_cases hlast : s.getLast? = some 0x2F
  · have hne : s ≠ [] := by
      rintro rfl
      cases hlast
    have hback : s.dropLast ++ [0x2F] = s := by
      have hget : s.getLast hne = 0x2F := by
        rw [List.getLast?_eq_some_getLast hne] at hlast
        exact Option.some.inj hlast
      calc s.dropLast ++ [0x2F] = s.dropLast ++ [s.getLast hne] := by rw [hget]
        _ = s := List.dropLast_append_getLast hne
    rw [if_pos hlast]
    constructor
    · rintro rfl
      exact Or.inr hback.symm
    · rintro (rfl | rfl)
      · exact absurd hlast ho.slash
      · exact List.dropLast_concat
  · rw [if_neg hlast]
    constructor
    · exact Or.inl
    · rintro (rfl | rfl)
      · rfl
      · exact absurd List.getLast?_concat hlast

theorem stripSlash_origin {o : JsString} (ho : SerializedOrigin o) : stripSlash o = o :=
  (stripSlash_eq_iff ho).2 (Or.inl rfl)

/-- The allowlist has a browser's origin exactly when the setting lists it. -/
theorem mem_parseOriginList_iff {raw o : JsString} (ho : SerializedOrigin o) :
    o ∈ parseOriginList raw ↔ Listed raw o := by
  have hkept : (decide (0 < o.length) && o != js "*") = true := by
    rw [Bool.and_eq_true, decide_eq_true_eq, bne_iff_ne]
    exact ⟨List.length_pos_of_ne_nil ho.ne_nil, ho.ne_star⟩
  unfold parseOriginList Listed
  rw [List.mem_filter, List.mem_map]
  constructor
  · rintro ⟨⟨part, hpart, heq⟩, -⟩
    exact ⟨part, hpart, (stripSlash_eq_iff ho).1 heq⟩
  · rintro ⟨part, hpart, heq⟩
    exact ⟨⟨part, hpart, (stripSlash_eq_iff ho).2 heq⟩, hkept⟩

theorem wildcard_notMem_parseOriginList (raw : JsString) :
    js "*" ∉ parseOriginList raw ∧ [] ∉ parseOriginList raw := by
  unfold parseOriginList
  constructor
  · rw [List.mem_filter]
    rintro ⟨-, h⟩
    exact absurd h (by decide)
  · rw [List.mem_filter]
    rintro ⟨-, h⟩
    exact absurd h (by decide)

end TaskQueue

import TaskQueue.Dashboard.Query

/-!
# Canonical queries are fixed

A canonical query that is written back onto the request is read as itself, so
canonicalizing is a projection onto the well-formed queries.  What it keeps of a
request is the first value of each of the four parameters, where that is valid.
-/

namespace TaskQueue.Dashboard

open Ecma

def viewParams : List JsString :=
  [js "activeQueue", js "status", js "page", js "jobsPerPage"]

def Query.first (query : Query) (name : JsString) : Option JsString :=
  firstValue (query.param name)

def Query.SameView (q₁ q₂ : Query) : Prop := ∀ name ∈ viewParams, q₁.first name = q₂.first name

variable {queueNames : List JsString}

/-! ## Reading a canonical query back -/

theorem first_toQuery (c : CanonicalQuery) :
    c.toQuery.first (js "activeQueue") = c.activeQueue ∧
      c.toQuery.first (js "status") = c.status ∧
      c.toQuery.first (js "page") = some c.page ∧
      c.toQuery.first (js "jobsPerPage") = some c.jobsPerPage := by
  obtain ⟨activeQueue, status, page, jobsPerPage⟩ := c
  cases activeQueue with
  | none =>
      cases status with
      | none => exact ⟨rfl, rfl, rfl, rfl⟩
      | some s => exact ⟨rfl, rfl, rfl, rfl⟩
  | some q =>
      cases status with
      | none => exact ⟨rfl, rfl, rfl, rfl⟩
      | some s => exact ⟨rfl, rfl, rfl, rfl⟩

theorem toNumber_decimal :
    ∀ n ≤ 100, (toNumber (decimal n)).toInteger? = some (n : Int) := by
  decide +kernel

/-- A text that is read as an integer of the range is replaced by its numeral. -/
theorem clampInt_of_mem {raw : Option JsString} {n : Nat} {fallback : Int}
    (h : (toNumber? raw).toInteger? = some (n : Int)) (hlo : 1 ≤ n) (hhi : n ≤ 100) :
    decimalInt (clampInt raw 1 100 fallback) = decimal n := by
  have hin : ¬((n : Int) < 1 ∨ 100 < (n : Int)) := by omega
  rw [clampInt, h]
  simp only
  rw [if_neg hin]
  rfl

theorem clampInt_decimal {n : Nat} (fallback : Int) (hlo : 1 ≤ n) (hhi : n ≤ 100) :
    decimalInt (clampInt (some (decimal n)) 1 100 fallback) = decimal n :=
  clampInt_of_mem (toNumber_decimal n hhi) hlo hhi

/-! ## What is kept of a query -/

/-- The canonical query, by the first values it is read from. -/
theorem canonicalizeQuery_eq (query : Query) (queueNames : List JsString) :
    canonicalizeQuery query queueNames = {
      activeQueue := (query.first (js "activeQueue")).filter fun q =>
        !q.isEmpty && queueNames.contains q
      status := (query.first (js "status")).filter fun s =>
        !s.isEmpty && allowedStatuses.contains s
      page := decimalInt (clampInt (query.first (js "page")) 1 100 1)
      jobsPerPage := decimalInt (clampInt (query.first (js "jobsPerPage")) 1 100 10) } := rfl

theorem canonicalizeQuery_congr {q₁ q₂ : Query} (h : q₁.SameView q₂)
    (queueNames : List JsString) :
    canonicalizeQuery q₁ queueNames = canonicalizeQuery q₂ queueNames := by
  have hqueue := h (js "activeQueue") (by decide)
  have hstatus := h (js "status") (by decide)
  have hpage := h (js "page") (by decide)
  have hjobs := h (js "jobsPerPage") (by decide)
  rw [canonicalizeQuery_eq, canonicalizeQuery_eq, hqueue, hstatus, hpage, hjobs]

theorem filter_of_forall {o : Option JsString} {p : JsString → Bool} (h : ∀ x ∈ o, p x = true) :
    o.filter p = o := by
  cases o with
  | none => rfl
  | some x => exact Option.filter_some_pos (h x rfl)

/-- A well-formed canonical query is a fixed point. -/
theorem canonicalizeQuery_toQuery {c : CanonicalQuery} (hc : c.WellFormed queueNames) :
    canonicalizeQuery c.toQuery queueNames = c := by
  obtain ⟨hqueue, hstatus, hpage, hjobs⟩ := first_toQuery c
  obtain ⟨m, hm, hm', hpageEq⟩ := hc.page
  obtain ⟨n, hn, hn', hjobsEq⟩ := hc.jobsPerPage
  have hqueueKept : c.activeQueue.filter (fun q => !q.isEmpty && queueNames.contains q) =
      c.activeQueue := by
    apply filter_of_forall
    intro q hq
    obtain ⟨hne, hmem⟩ := hc.activeQueue q hq
    simp [hne, hmem]
  have hstatusKept : c.status.filter (fun s => !s.isEmpty && allowedStatuses.contains s) =
      c.status := by
    apply filter_of_forall
    intro s hs
    have hnonempty : ∀ s ∈ allowedStatuses, s ≠ [] := by decide
    have hmem := hc.status s hs
    simp [hnonempty s hmem, hmem]
  have hpageKept : decimalInt (clampInt (some c.page) 1 100 1) = c.page := by
    rw [hpageEq, clampInt_decimal 1 hm hm']
  have hjobsKept : decimalInt (clampInt (some c.jobsPerPage) 1 100 10) = c.jobsPerPage := by
    rw [hjobsEq, clampInt_decimal 10 hn hn']
  rw [canonicalizeQuery_eq, hqueue, hstatus, hpage, hjobs, hqueueKept, hstatusKept, hpageKept,
    hjobsKept]

/-- The valid values of a query are in its canonical form: a name, which cannot be
empty, and a status as they are, and a setting by the numeral of the integer it
is read as. -/
structure CanonicalQuery.Keeps (c : CanonicalQuery) (query : Query) (queueNames : List JsString) :
    Prop where
  activeQueue : ∀ q ∈ query.first (js "activeQueue"), q ≠ [] → q ∈ queueNames →
    c.activeQueue = some q
  status : ∀ s ∈ query.first (js "status"), s ∈ allowedStatuses → c.status = some s
  page : ∀ n : Nat, 1 ≤ n → n ≤ 100 →
    (toNumber? (query.first (js "page"))).toInteger? = some (n : Int) → c.page = decimal n
  jobsPerPage : ∀ n : Nat, 1 ≤ n → n ≤ 100 →
    (toNumber? (query.first (js "jobsPerPage"))).toInteger? = some (n : Int) →
      c.jobsPerPage = decimal n

theorem canonicalizeQuery_keeps (query : Query) (queueNames : List JsString) :
    (canonicalizeQuery query queueNames).Keeps query queueNames where
  activeQueue := by
    intro q hq hne hmem
    have hfirst : query.first (js "activeQueue") = some q := hq
    rw [canonicalizeQuery_eq, hfirst]
    dsimp only
    apply filter_of_forall
    intro x hx
    obtain rfl := Option.some.inj hx
    simp [hne, hmem]
  status := by
    intro s hs hmem
    have hfirst : query.first (js "status") = some s := hs
    have hnonempty : ∀ s ∈ allowedStatuses, s ≠ [] := by decide
    rw [canonicalizeQuery_eq, hfirst]
    dsimp only
    apply filter_of_forall
    intro x hx
    obtain rfl := Option.some.inj hx
    simp [hnonempty _ hmem, hmem]
  page := by
    intro n hlo hhi hnumber
    rw [canonicalizeQuery_eq]
    exact clampInt_of_mem hnumber hlo hhi
  jobsPerPage := by
    intro n hlo hhi hnumber
    rw [canonicalizeQuery_eq]
    exact clampInt_of_mem hnumber hlo hhi

/-- Canonicalizing is a retraction onto the well-formed queries that keeps every valid
value, numerals among them; it sees the first values of the parameters of a view
only, and the key tells the results apart. -/
theorem canonicalizeQuery_retraction (queueNames : List JsString) :
    (∀ query, canonicalizeQuery (canonicalizeQuery query queueNames).toQuery queueNames =
      canonicalizeQuery query queueNames) ∧
    (∀ query, (canonicalizeQuery query queueNames).WellFormed queueNames) ∧
    (∀ query, (canonicalizeQuery query queueNames).Keeps query queueNames) ∧
    (∀ n : Nat, n ≤ 100 → (toNumber? (some (decimal n))).toInteger? = some (n : Int)) ∧
    (∀ q₁ q₂, q₁.SameView q₂ →
      canonicalizeQuery q₁ queueNames = canonicalizeQuery q₂ queueNames) ∧
    (∀ q₁ q₂, buildSnapshotKey (canonicalizeQuery q₁ queueNames) =
        buildSnapshotKey (canonicalizeQuery q₂ queueNames) ↔
      canonicalizeQuery q₁ queueNames = canonicalizeQuery q₂ queueNames) := by
  refine ⟨fun query => ?_, fun query => ?_, fun query => ?_, toNumber_decimal, fun q₁ q₂ h => ?_,
    fun q₁ q₂ => ?_⟩
  · exact canonicalizeQuery_toQuery (canonicalizeQuery_wellFormed query queueNames)
  · exact canonicalizeQuery_wellFormed query queueNames
  · exact canonicalizeQuery_keeps query queueNames
  · exact canonicalizeQuery_congr h queueNames
  · constructor
    · exact buildSnapshotKey_injective (canonicalizeQuery_wellFormed q₁ queueNames)
        (canonicalizeQuery_wellFormed q₂ queueNames)
    · exact congrArg buildSnapshotKey

/-- A queue may be registered under the empty name; a request for it is answered
with the view of no queue. -/
theorem empty_name_not_kept :
    ¬∀ (queueNames : List JsString) (query : Query) (q : JsString),
      query.first (js "activeQueue") = some q → q ∈ queueNames →
        (canonicalizeQuery query queueNames).activeQueue = some q := by
  intro h
  have hkept := h [[]] [(js "activeQueue", .string [])] [] rfl (by decide)
  have hdropped :
      (canonicalizeQuery [(js "activeQueue", .string [])] [[]]).activeQueue = none := by decide
  rw [hdropped] at hkept
  cases hkept

end TaskQueue.Dashboard

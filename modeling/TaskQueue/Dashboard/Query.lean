import TaskQueue.Lib.Json

/-!
# Canonical dashboard queries

A request's query is reduced to the four parameters Bull Board reads, each
validated, and the reduced query is what a cached snapshot is keyed on.  The
main fact is that the key determines the canonical query: a queue name may
contain the separators, so the key is read from its right end, where only
numerals and status names stand.
-/

namespace TaskQueue.Dashboard

open Ecma

/-- A parsed query string: parameter names with values of any shape. -/
abbrev Query := List (JsString × Json)

def Query.param (query : Query) (name : JsString) : Option Json :=
  (Json.object query).get? name

def allowedStatuses : List JsString :=
  [js "latest", js "active", js "waiting", js "waiting-children", js "completed", js "failed",
    js "delayed", js "paused", js "prioritized"]

def maxJobsPerPage : Int := 100

def defaultJobsPerPage : Int := 10

def maxPage : Int := 100

def firstValue : Option Json → Option JsString
  | some (.string s) => some s
  | some (.array (.string s :: _)) => some s
  | _ => none

def clampInt (raw : Option JsString) (min max fallback : Int) : Int :=
  match (toNumber? raw).toInteger? with
  | none => fallback
  | some parsed => if parsed < min ∨ max < parsed then fallback else parsed

structure CanonicalQuery where
  activeQueue : Option JsString
  status : Option JsString
  page : JsString
  jobsPerPage : JsString
  deriving DecidableEq

/-- Reduces a request's query to validated values only. -/
def canonicalizeQuery (query : Query) (queueNames : List JsString) : CanonicalQuery where
  -- The empty string is falsy in the source, so it is never recognised.
  activeQueue := (firstValue (query.param (js "activeQueue"))).filter fun q =>
    !q.isEmpty && queueNames.contains q
  status := (firstValue (query.param (js "status"))).filter fun s =>
    !s.isEmpty && allowedStatuses.contains s
  page := decimalInt (clampInt (firstValue (query.param (js "page"))) 1 maxPage 1)
  jobsPerPage := decimalInt
    (clampInt (firstValue (query.param (js "jobsPerPage"))) 1 maxJobsPerPage defaultJobsPerPage)

def CanonicalQuery.toQuery (c : CanonicalQuery) : Query :=
  (c.activeQueue.map fun q => (js "activeQueue", Json.string q)).toList ++
    (c.status.map fun s => (js "status", Json.string s)).toList ++
    [(js "page", .string c.page), (js "jobsPerPage", .string c.jobsPerPage)]

def buildSnapshotKey (c : CanonicalQuery) : JsString :=
  js "q=" ++ c.activeQueue.getD [] ++ js "&s=" ++ c.status.getD [] ++ js "&p=" ++ c.page ++
    js "&n=" ++ c.jobsPerPage

/-! ## What canonicalization guarantees -/

structure CanonicalQuery.WellFormed (c : CanonicalQuery) (queueNames : List JsString) : Prop where
  activeQueue : ∀ q ∈ c.activeQueue, q ≠ [] ∧ q ∈ queueNames
  status : ∀ s ∈ c.status, s ∈ allowedStatuses
  page : ∃ n : Nat, 1 ≤ n ∧ n ≤ 100 ∧ c.page = decimal n
  jobsPerPage : ∃ n : Nat, 1 ≤ n ∧ n ≤ 100 ∧ c.jobsPerPage = decimal n

/-- A clamped value stays in its range when the fallback is in it. -/
theorem clampInt_mem (raw : Option JsString) {min max fallback : Int} (hmin : min ≤ fallback)
    (hmax : fallback ≤ max) :
    min ≤ clampInt raw min max fallback ∧ clampInt raw min max fallback ≤ max := by
  unfold clampInt
  cases (toNumber? raw).toInteger? with
  | none => exact ⟨hmin, hmax⟩
  | some parsed =>
      simp only
      split <;> omega

theorem decimalInt_clampInt (raw : Option JsString) {fallback : Int} (hmin : 1 ≤ fallback)
    (hmax : fallback ≤ 100) :
    ∃ n : Nat, 1 ≤ n ∧ n ≤ 100 ∧ decimalInt (clampInt raw 1 100 fallback) = decimal n := by
  obtain ⟨hlo, hhi⟩ := clampInt_mem raw hmin hmax
  obtain ⟨n, hn⟩ := Int.eq_ofNat_of_zero_le (show 0 ≤ clampInt raw 1 100 fallback by omega)
  rw [hn] at hlo hhi ⊢
  exact ⟨n, by omega, by omega, rfl⟩

theorem canonicalizeQuery_wellFormed (query : Query) (queueNames : List JsString) :
    (canonicalizeQuery query queueNames).WellFormed queueNames where
  activeQueue := by
    intro q hq
    simp only [canonicalizeQuery, Option.mem_def, Option.filter_eq_some_iff] at hq
    simpa using hq.2
  status := by
    intro s hs
    simp only [canonicalizeQuery, Option.mem_def, Option.filter_eq_some_iff] at hs
    simp only [Bool.and_eq_true, List.contains_iff_mem] at hs
    exact hs.2.2
  page := decimalInt_clampInt _ (by decide) (by decide)
  jobsPerPage := decimalInt_clampInt _ (by decide) (by decide)

/-! ## The key identifies the view -/

theorem eq_sign_notMem_decimal (n : Nat) : (0x3D : UInt16) ∉ decimal n := fun h =>
  absurd (isDigit_of_mem_decimal h) (by decide)

theorem eq_sign_notMem_status {c : CanonicalQuery} {queueNames : List JsString}
    (hc : c.WellFormed queueNames) : (0x3D : UInt16) ∉ c.status.getD [] := by
  cases hs : c.status with
  | none => simp
  | some s =>
      have hall : ∀ s ∈ allowedStatuses, (0x3D : UInt16) ∉ s := by decide
      exact hall s (hc.status s hs)

/-- Reading a key from the right: after the last `=` comes a part without one,
and the name of the parameter before it has a fixed length. -/
theorem append_param_inj {name x x' y y' : JsString} (hy : (0x3D : UInt16) ∉ y)
    (hy' : (0x3D : UInt16) ∉ y') (h : x ++ (name ++ 0x3D :: y) = x' ++ (name ++ 0x3D :: y')) :
    x = x' ∧ y = y' := by
  rw [← List.append_assoc, ← List.append_assoc] at h
  obtain ⟨hx, hyy⟩ := append_cons_inj_right hy hy' h
  exact ⟨List.append_cancel_right hx, hyy⟩

theorem getD_nil_inj {a b : Option JsString} (ha : ∀ q ∈ a, q ≠ []) (hb : ∀ q ∈ b, q ≠ [])
    (h : a.getD [] = b.getD []) : a = b := by
  cases a with
  | none =>
      cases b with
      | none => rfl
      | some q => exact absurd h.symm (hb q rfl)
  | some p =>
      cases b with
      | none => exact absurd h (ha p rfl)
      | some q => exact congrArg some h

theorem buildSnapshotKey_injective {c d : CanonicalQuery} {queueNames : List JsString}
    (hc : c.WellFormed queueNames) (hd : d.WellFormed queueNames)
    (h : buildSnapshotKey c = buildSnapshotKey d) : c = d := by
  obtain ⟨m, -, -, hm⟩ := hc.jobsPerPage
  obtain ⟨n, -, -, hn⟩ := hd.jobsPerPage
  obtain ⟨k, -, -, hk⟩ := hc.page
  obtain ⟨l, -, -, hl⟩ := hd.page
  have hkey : ∀ e : CanonicalQuery, buildSnapshotKey e =
      (((js "q=" ++ e.activeQueue.getD []) ++ (js "&s" ++ 0x3D :: e.status.getD [])) ++
        (js "&p" ++ 0x3D :: e.page)) ++ (js "&n" ++ 0x3D :: e.jobsPerPage) := by
    intro e
    have hs : js "&s=" = js "&s" ++ [0x3D] := by decide
    have hp : js "&p=" = js "&p" ++ [0x3D] := by decide
    have hn : js "&n=" = js "&n" ++ [0x3D] := by decide
    simp only [buildSnapshotKey, hs, hp, hn, List.append_assoc, List.cons_append, List.nil_append]
  rw [hkey, hkey] at h
  obtain ⟨h, hjobs⟩ := append_param_inj (hm ▸ eq_sign_notMem_decimal m)
    (hn ▸ eq_sign_notMem_decimal n) h
  obtain ⟨h, hpage⟩ := append_param_inj (hk ▸ eq_sign_notMem_decimal k)
    (hl ▸ eq_sign_notMem_decimal l) h
  obtain ⟨h, hstatus⟩ := append_param_inj (eq_sign_notMem_status hc) (eq_sign_notMem_status hd) h
  have hqueue := List.append_cancel_left h
  have hne : ∀ s ∈ allowedStatuses, s ≠ [] := by decide
  have hactive := getD_nil_inj (fun q hq => (hc.activeQueue q hq).1)
    (fun q hq => (hd.activeQueue q hq).1) hqueue
  have hstat := getD_nil_inj (fun s hs => hne s (hc.status s hs))
    (fun s hs => hne s (hd.status s hs)) hstatus
  cases c
  cases d
  simp_all

end TaskQueue.Dashboard

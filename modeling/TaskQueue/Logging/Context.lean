import TaskQueue.Lib.JsNumber

/-!
# Correlation ids

Every request runs in a scope with a correlation id: the caller's, once it is
normalised, or a fresh one.
-/

namespace TaskQueue

open Ecma

/-- The units of `[A-Za-z0-9_-]`. -/
def isIdUnit (u : UInt16) : Bool :=
  isDigit u || (0x41 ≤ u && u ≤ 0x5A) || (0x61 ≤ u && u ≤ 0x7A) || u == 0x5F || u == 0x2D

/-- What `randomUUID` returns: 36 digits and hyphens. -/
structure Uuid where
  text : JsString
  length : text.length = 36
  idUnits : text.all isIdUnit = true

def normaliseCorrelationId (raw : Option JsString) : Option JsString :=
  match raw with
  | none => none
  | some raw =>
      if raw.isEmpty then none
      else
        let cleaned := ((trim raw).take 64).filter isIdUnit
        if 0 < cleaned.length then some cleaned else none

/-- The id `correlationMiddleware` runs a request under, and echoes back. -/
def correlationMiddleware (header : Option JsString) (randomUUID : Uuid) : JsString :=
  (normaliseCorrelationId header).getD randomUUID.text

theorem normaliseCorrelationId_ne_nil {raw : Option JsString} {id : JsString}
    (h : normaliseCorrelationId raw = some id) : id ≠ [] := by
  unfold normaliseCorrelationId at h
  split at h
  · cases h
  · split at h
    · cases h
    · simp only [Option.ite_none_right_eq_some, Option.some.injEq] at h
      obtain ⟨hlength, rfl⟩ := h
      exact List.ne_nil_of_length_pos hlength

theorem correlationMiddleware_ne_nil (header : Option JsString) (randomUUID : Uuid) :
    correlationMiddleware header randomUUID ≠ [] := by
  unfold correlationMiddleware
  cases h : normaliseCorrelationId header with
  | none =>
      have hlength := randomUUID.length
      intro hnil
      simp only [Option.getD_none] at hnil
      simp [hnil] at hlength
  | some id => exact normaliseCorrelationId_ne_nil h

/-! ## Normalised ids -/

structure NormalId (id : JsString) : Prop where
  ne_nil : id ≠ []
  length_le : id.length ≤ 64
  idUnits : id.all isIdUnit = true

theorem normalId_of_normalise {raw : Option JsString} {id : JsString}
    (h : normaliseCorrelationId raw = some id) : NormalId id := by
  have hne := normaliseCorrelationId_ne_nil h
  unfold normaliseCorrelationId at h
  split at h
  · cases h
  · rename_i raw
    split at h
    · cases h
    · simp only [Option.ite_none_right_eq_some, Option.some.injEq] at h
      obtain ⟨-, rfl⟩ := h
      refine ⟨hne, ?_, ?_⟩
      · calc (((trim raw).take 64).filter isIdUnit).length
            ≤ ((trim raw).take 64).length := List.length_filter_le _ _
          _ ≤ 64 := List.length_take_le _ _
      · rw [List.all_eq_true]
        intro u hu
        exact (List.mem_filter.1 hu).2

/-- The id of every request scope is normalised. -/
theorem normalId_correlationMiddleware (header : Option JsString) (randomUUID : Uuid) :
    NormalId (correlationMiddleware header randomUUID) := by
  have hne := correlationMiddleware_ne_nil header randomUUID
  unfold correlationMiddleware at hne ⊢
  cases h : normaliseCorrelationId header with
  | some id => exact normalId_of_normalise h
  | none =>
      rw [h] at hne
      have hlength := randomUUID.length
      exact ⟨hne, by rw [Option.getD_none]; omega, randomUUID.idUnits⟩

theorem isWhiteSpace_of_isIdUnit {u : UInt16} (h : isIdUnit u = true) : isWhiteSpace u = false := by
  have hrange : 0x2D ≤ u.toNat ∧ u.toNat ≤ 0x7A := by
    simp only [isIdUnit, isDigit, Bool.or_eq_true, Bool.and_eq_true, decide_eq_true_eq,
      beq_iff_eq, UInt16.le_iff_toNat_le, ← UInt16.toNat_inj] at h
    simp only [UInt16.reduceToNat] at h
    omega
  rw [Bool.eq_false_iff]
  intro hspace
  simp only [isWhiteSpace, Bool.or_eq_true, Bool.and_eq_true, decide_eq_true_eq, beq_iff_eq,
    UInt16.le_iff_toNat_le, ← UInt16.toNat_inj] at hspace
  simp only [UInt16.reduceToNat] at hspace
  omega

theorem dropWhile_eq_self {p : UInt16 → Bool} {s : JsString} (h : ∀ u ∈ s, p u = false) :
    s.dropWhile p = s := by
  cases s with
  | nil => rfl
  | cons u s =>
      have hu := h u List.mem_cons_self
      rw [List.dropWhile_cons_of_neg (by rw [hu]; decide)]

theorem trim_eq_self {s : JsString} (h : ∀ u ∈ s, isWhiteSpace u = false) : trim s = s := by
  have hreverse : ∀ u ∈ s.reverse, isWhiteSpace u = false := fun u hu =>
    h u (List.mem_reverse.1 hu)
  rw [trim, dropWhile_eq_self h, dropWhile_eq_self hreverse, List.reverse_reverse]

/-- Normalising changes nothing about an id that is normalised. -/
theorem normaliseCorrelationId_of_normalId {id : JsString} (h : NormalId id) :
    normaliseCorrelationId (some id) = some id := by
  have hunits := List.all_eq_true.1 h.idUnits
  have htrim : trim id = id := trim_eq_self fun u hu => isWhiteSpace_of_isIdUnit (hunits u hu)
  have htake : id.take 64 = id := List.take_of_length_le h.length_le
  have hfilter : id.filter isIdUnit = id := List.filter_eq_self.2 hunits
  have hempty : ¬id.isEmpty = true := by simpa using h.ne_nil
  have hpos : 0 < id.length := List.length_pos_of_ne_nil h.ne_nil
  unfold normaliseCorrelationId
  simp only
  rw [if_neg hempty, htrim, htake, hfilter, if_pos hpos]

end TaskQueue

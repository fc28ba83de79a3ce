import TaskQueue.Lib.JsonText
import TaskQueue.Lib.Unicode

/-!
# Printed JSON is well-formed Unicode

`JSON.stringify` escapes a surrogate without its partner and copies a pair, so what
it prints has no ill-formed part, whatever strings the value holds, and UTF-8
carries it unchanged.
-/

namespace Ecma

open Unicode

theorem isLeadSurrogate_eq (u : UInt16) : isLeadSurrogate u = isHighSurrogate u := by
  unfold isLeadSurrogate isHighSurrogate
  simp only [UInt16.le_iff_toNat_le]
  congr 1
  exact decide_eq_decide.2 Nat.lt_succ_iff.symm

theorem isTrailSurrogate_eq (u : UInt16) : isTrailSurrogate u = isLowSurrogate u := by
  unfold isTrailSurrogate isLowSurrogate
  simp only [UInt16.le_iff_toNat_le]
  congr 1
  exact decide_eq_decide.2 Nat.lt_succ_iff.symm

theorem isSurrogate_eq (u : UInt16) :
    isSurrogate u = (isLeadSurrogate u || isTrailSurrogate u) := by
  rw [isLeadSurrogate_eq, isTrailSurrogate_eq, Bool.eq_iff_iff]
  simp only [isSurrogate, isHighSurrogate, isLowSurrogate, Bool.or_eq_true, Bool.and_eq_true,
    decide_eq_true_eq]
  omega

theorem isWellFormed_plain_append {plain : JsString} (h : ∀ u ∈ plain, isSurrogate u = false)
    (s : JsString) : isWellFormed (plain ++ s) = isWellFormed s := by
  induction plain with
  | nil => rfl
  | cons u plain ih =>
      have hu : isSurrogate u = false := h u List.mem_cons_self
      have hrest := ih fun v hv => h v (List.mem_cons_of_mem _ hv)
      calc isWellFormed (u :: plain ++ s) = isWellFormed ([] ++ u :: (plain ++ s)) := rfl
        _ = isWellFormed (plain ++ s) := by
            rw [isWellFormed_append_cons hu]
            rfl
        _ = isWellFormed s := hrest

theorem isWellFormed_plain {plain : JsString} (h : ∀ u ∈ plain, isSurrogate u = false) :
    isWellFormed plain = true := by
  have := isWellFormed_plain_append h []
  rwa [List.append_nil] at this

/-! ## Strings -/

theorem plain_hexUnit : ∀ d < 16, isSurrogate (hexUnit d) = false := by decide

theorem plain_escapeHex (u : UInt16) : ∀ v ∈ escapeHex u, isSurrogate v = false := by
  have hu : u.toNat < 65536 := u.toNat_lt
  have hdigit : ∀ d, d < 16 → isSurrogate (hexUnit d) = false := plain_hexUnit
  intro v hv
  simp only [escapeHex, List.mem_cons, List.not_mem_nil, or_false] at hv
  rcases hv with rfl | rfl | rfl | rfl | rfl | rfl
  · decide
  · decide
  · exact hdigit _ (by omega)
  · exact hdigit _ (by omega)
  · exact hdigit _ (by omega)
  · exact hdigit _ (by omega)

theorem plain_letters {s : String} (h : s ∈ ["\\b", "\\t", "\\n", "\\f", "\\r"]) :
    ∀ v ∈ js s, isSurrogate v = false := by
  -- a test of the list, since `UInt16` itself is finite and would be enumerated
  have hletters : ∀ s ∈ ["\\b", "\\t", "\\n", "\\f", "\\r"],
      (js s).all (fun v => !isSurrogate v) = true := by decide +kernel
  intro v hv
  simpa using List.all_eq_true.1 (hletters s h) v hv

theorem plain_quoteUnit {u : UInt16} (h : isSurrogate u = false) :
    ∀ v ∈ quoteUnit u, isSurrogate v = false := by
  intro v hv
  unfold quoteUnit at hv
  split at hv
  · rcases List.mem_pair.1 hv with rfl | rfl
    · decide
    · exact h
  split at hv
  · exact plain_letters (by simp) v hv
  split at hv
  · exact plain_letters (by simp) v hv
  split at hv
  · exact plain_letters (by simp) v hv
  split at hv
  · exact plain_letters (by simp) v hv
  split at hv
  · exact plain_letters (by simp) v hv
  split at hv
  · exact plain_escapeHex u v hv
  · rw [List.mem_singleton.1 hv]
    exact h

/-- A surrogate is kept only beside its partner. -/
theorem isWellFormed_quoteUnits (s : JsString) : isWellFormed (quoteUnits s) = true := by
  induction s using quoteUnits.induct with
  | case1 => rfl
  | case2 u h =>
      rw [quoteUnits, if_pos h]
      exact isWellFormed_plain (plain_escapeHex u)
  | case3 u h =>
      have hu : isSurrogate u = false := by
        rw [isSurrogate_eq]
        exact Bool.eq_false_iff.2 h
      rw [quoteUnits, if_neg h]
      exact isWellFormed_plain (plain_quoteUnit hu)
  | case4 u v s h ih =>
      have hpair : (isHighSurrogate u && isLowSurrogate v) = true := by
        rw [← isLeadSurrogate_eq, ← isTrailSurrogate_eq]
        exact h
      rw [quoteUnits, if_pos h, isWellFormed, if_pos hpair, ih]
  | case5 u v s h₁ h₂ ih =>
      rw [quoteUnits, if_neg h₁, if_pos h₂, isWellFormed_plain_append (plain_escapeHex u), ih]
  | case6 u v s h₁ h₂ ih =>
      have hu : isSurrogate u = false := by
        rw [isSurrogate_eq]
        exact Bool.eq_false_iff.2 h₂
      rw [quoteUnits, if_neg h₁, if_neg h₂, isWellFormed_plain_append (plain_quoteUnit hu), ih]

/-- A unit that is no surrogate in front of a well-formed text. -/
theorem isWellFormed_cons {u : UInt16} (hu : isSurrogate u = false) {s : JsString}
    (hs : isWellFormed s = true) : isWellFormed (u :: s) = true := by
  rw [← List.nil_append (u :: s), isWellFormed_append_cons hu, hs]
  rfl

theorem isWellFormed_around {u : UInt16} (hu : isSurrogate u = false) {s t : JsString}
    (hs : isWellFormed s = true) (ht : isWellFormed t = true) :
    isWellFormed (s ++ u :: t) = true := by
  rw [isWellFormed_append_cons hu, hs, ht]
  rfl

theorem isWellFormed_quote_append (s : JsString) {t : JsString} (ht : isWellFormed t = true) :
    isWellFormed (quote s ++ t) = true := by
  rw [quote, List.cons_append, List.append_assoc]
  exact isWellFormed_cons (by decide)
    (isWellFormed_around (by decide) (isWellFormed_quoteUnits s) ht)

theorem plain_of_isTokenUnit {u : UInt16} (h : isTokenUnit u = true) : isSurrogate u = false := by
  have hlow : u.toNat < 0x80 := by
    simp only [isTokenUnit, isDigit, Bool.or_eq_true, Bool.and_eq_true, decide_eq_true_eq,
      beq_iff_eq, UInt16.le_iff_toNat_le, ← UInt16.toNat_inj] at h
    simp at h
    omega
  simp only [isSurrogate, Bool.and_eq_false_iff, decide_eq_false_iff_not]
  omega

/-! ## Values -/

mutual

theorem isWellFormed_stringify (v : Json) : isWellFormed v.stringify = true := by
  match v with
  | .null => decide
  | .bool true => decide
  | .bool false => decide
  | .number n =>
      have htoken : ∀ u ∈ n.text, isTokenUnit u = true := List.all_eq_true.1 n.isToken
      exact isWellFormed_plain fun u hu => plain_of_isTokenUnit (htoken u hu)
  | .string s =>
      rw [Json.stringify, ← List.append_nil (quote s)]
      exact isWellFormed_quote_append s rfl
  | .array elems =>
      rw [Json.stringify]
      exact isWellFormed_cons (by decide)
        (isWellFormed_around (by decide) (isWellFormed_stringifyElems elems) rfl)
  | .object props =>
      rw [Json.stringify]
      exact isWellFormed_cons (by decide)
        (isWellFormed_around (by decide) (isWellFormed_stringifyProps props) rfl)

theorem isWellFormed_stringifyElems (elems : List Json) :
    isWellFormed (stringifyElems elems) = true := by
  match elems with
  | [] => rfl
  | [v] =>
      rw [stringifyElems]
      exact isWellFormed_stringify v
  | v :: w :: vs =>
      rw [stringifyElems]
      exact isWellFormed_around (by decide) (isWellFormed_stringify v)
        (isWellFormed_stringifyElems (w :: vs))

theorem isWellFormed_stringifyProps (props : List (JsString × Json)) :
    isWellFormed (stringifyProps props) = true := by
  match props with
  | [] => rfl
  | [(k, v)] =>
      rw [stringifyProps]
      exact isWellFormed_quote_append k (isWellFormed_cons (by decide) (isWellFormed_stringify v))
  | (k, v) :: p :: ps =>
      rw [stringifyProps]
      exact isWellFormed_quote_append k (isWellFormed_cons (by decide)
        (isWellFormed_around (by decide) (isWellFormed_stringify v)
          (isWellFormed_stringifyProps (p :: ps))))

end

theorem Json.parse_utf8 (v : Json) :
    Json.parse (utf8Decode (utf8Encode v.stringify)) = some v := by
  rw [utf8Decode_utf8Encode, toWellFormed_of_isWellFormed (isWellFormed_stringify v)]
  exact Json.parse_stringify v

end Ecma

import TaskQueue.Lib.Json

/-!
# `JSON.parse` inverts `JSON.stringify`

Every printed value is read back unchanged, whatever follows it in a larger
text.  The value lemmas carry the text to come as `rest`: a printed number ends
only because `rest` does not continue it, so the induction hands each value a
delimited `rest`.
-/

namespace Ecma

/-! ## Strings -/

theorem digitValue_hexUnit : ∀ d < 16, digitValue (hexUnit d) = some d := by decide

theorem hexValue_hexUnit {a b c d : Nat} (ha : a < 16) (hb : b < 16) (hc : c < 16)
    (hd : d < 16) :
    hexValue (hexUnit a) (hexUnit b) (hexUnit c) (hexUnit d) =
      some (UInt16.ofNat (((a * 16 + b) * 16 + c) * 16 + d)) := by
  simp [hexValue, parseDigits, digitsValue, digitValue_hexUnit, ha, hb, hc, hd]

theorem unquote_escapeHex (u : UInt16) (t : JsString) :
    unquote (escapeHex u ++ t) = (unquote t).map fun p => (u :: p.1, p.2) := by
  have hu : u.toNat < 65536 := u.toNat_lt
  have hvalue : ((u.toNat / 4096 * 16 + u.toNat / 256 % 16) * 16 + u.toNat / 16 % 16) * 16
      + u.toNat % 16 = u.toNat := by omega
  have hhex := hexValue_hexUnit (a := u.toNat / 4096) (b := u.toNat / 256 % 16)
    (c := u.toNat / 16 % 16) (d := u.toNat % 16) (by omega) (by omega) (by omega) (by omega)
  rw [hvalue, UInt16.ofNat_toNat] at hhex
  simp only [escapeHex, List.cons_append, List.nil_append]
  rw [unquote, if_neg (by decide), if_pos rfl]
  simp only [if_pos]
  rw [hhex]
  cases unquote t <;> rfl

@[simp] theorem unquote_close (t : JsString) : unquote (0x22 :: t) = some ([], t) := by
  rw [unquote.eq_def]
  simp only [if_pos]

theorem unquote_plain {u : UInt16} (hquote : u ≠ 0x22) (hslash : u ≠ 0x5C) (hctl : ¬ u < 0x20)
    (t : JsString) : unquote (u :: t) = (unquote t).map fun p => (u :: p.1, p.2) := by
  rw [unquote.eq_def]
  simp only [if_neg hquote, if_neg hslash, if_neg hctl]

theorem unquote_letter {e v : UInt16} (hu : e ≠ 0x75) (h : unescape e = some v) (t : JsString) :
    unquote (0x5C :: e :: t) = (unquote t).map fun p => (v :: p.1, p.2) := by
  rw [unquote.eq_def]
  simp only [if_neg hu, h, if_pos, show ¬((0x5C : UInt16) = 0x22) by decide]
  cases unquote t <;> rfl

theorem unquote_quoteUnit (u : UInt16) (t : JsString) :
    unquote (quoteUnit u ++ t) = (unquote t).map fun p => (u :: p.1, p.2) := by
  unfold quoteUnit
  split
  · rename_i h
    refine unquote_letter ?_ (by rw [unescape, if_pos (by tauto)]) t
    rcases h with rfl | rfl <;> decide
  split
  · subst u; exact unquote_letter (by decide) (by decide) t
  split
  · subst u; exact unquote_letter (by decide) (by decide) t
  split
  · subst u; exact unquote_letter (by decide) (by decide) t
  split
  · subst u; exact unquote_letter (by decide) (by decide) t
  split
  · subst u; exact unquote_letter (by decide) (by decide) t
  split
  · exact unquote_escapeHex u t
  · exact unquote_plain (by tauto) (by tauto) (by assumption) t

theorem plain_of_surrogate {u : UInt16} (h : (isLeadSurrogate u || isTrailSurrogate u) = true) :
    u ≠ 0x22 ∧ u ≠ 0x5C ∧ ¬ u < 0x20 := by
  simp only [isLeadSurrogate, isTrailSurrogate, Bool.or_eq_true, Bool.and_eq_true,
    decide_eq_true_eq] at h
  refine ⟨?_, ?_, ?_⟩
  · rintro rfl; revert h; decide
  · rintro rfl; revert h; decide
  · simp only [UInt16.lt_iff_toNat_lt, UInt16.le_iff_toNat_le] at h ⊢
    simp at h ⊢
    omega

theorem unquote_quoteUnits (s rest : JsString) :
    unquote (quoteUnits s ++ 0x22 :: rest) = some (s, rest) := by
  induction s using quoteUnits.induct with
  | case1 => simp [quoteUnits]
  | case2 u h => 
      rw [quoteUnits, if_pos h, unquote_escapeHex, unquote_close]
      rfl
  | case3 u h => 
      rw [quoteUnits, if_neg h, unquote_quoteUnit, unquote_close]
      rfl
  | case4 u v s h ih => 
      have hlead := plain_of_surrogate (u := u) (by simp_all)
      have htrail := plain_of_surrogate (u := v) (by simp_all)
      rw [quoteUnits, if_pos h, List.cons_append, List.cons_append,
        unquote_plain hlead.1 hlead.2.1 hlead.2.2, unquote_plain htrail.1 htrail.2.1 htrail.2.2, ih]
      rfl
  | case5 u v s h₁ h₂ ih => 
      rw [quoteUnits, if_neg h₁, if_pos h₂, List.append_assoc, unquote_escapeHex, ih]
      rfl
  | case6 u v s h₁ h₂ ih => 
      rw [quoteUnits, if_neg h₁, if_neg h₂, List.append_assoc, unquote_quoteUnit, ih]
      rfl

/-! ## Values -/

/-- Text that cannot continue a token. -/
def Delimited (rest : JsString) : Prop := ∀ u ∈ rest.head?, isTokenUnit u = false

theorem Delimited.nil : Delimited [] := by simp [Delimited]

theorem Delimited.cons {u : UInt16} (h : isTokenUnit u = false) (s : JsString) :
    Delimited (u :: s) := by simpa [Delimited] using h

theorem isTokenUnit_plain {u : UInt16} (h : isTokenUnit u = true) :
    isJsonSpace u = false ∧ u ≠ 0x22 ∧ u ≠ 0x5B ∧ u ≠ 0x7B := by
  have hne : ∀ v : UInt16, isTokenUnit v = false → u ≠ v := by
    rintro v hv rfl
    rw [h] at hv
    cases hv
  refine ⟨?_, hne _ (by decide), hne _ (by decide), hne _ (by decide)⟩
  simp only [isJsonSpace, Bool.or_eq_false_iff, beq_eq_false_iff_ne]
  exact ⟨⟨⟨hne _ (by decide), hne _ (by decide)⟩, hne _ (by decide)⟩, hne _ (by decide)⟩

theorem takeWhile_token {token rest : JsString} (htoken : token.all isTokenUnit = true)
    (hrest : Delimited rest) :
    (token ++ rest).takeWhile isTokenUnit = token ∧
      (token ++ rest).dropWhile isTokenUnit = rest := by
  have hall : ∀ u ∈ token, isTokenUnit u = true := by simpa using htoken
  rw [List.takeWhile_append_of_pos hall, List.dropWhile_append_of_pos hall]
  cases rest with
  | nil => simp
  | cons u s =>
      have hu : isTokenUnit u = false := hrest u (by simp)
      simp [hu]

theorem skipSpace_cons {u : UInt16} (h : isJsonSpace u = false) (s : JsString) :
    skipSpace (u :: s) = u :: s := by
  simp [skipSpace, h]

theorem parseValue_token {token rest : JsString} {v : Json} (fuel : Nat)
    (hne : token ≠ []) (htoken : token.all isTokenUnit = true)
    (hv : parseToken (token ++ rest) = some (v, rest)) :
    parseValue (fuel + 1) (token ++ rest) = some (v, rest) := by
  obtain ⟨u, s, rfl⟩ := List.exists_cons_of_ne_nil hne
  obtain ⟨hspace, hquote, hbracket, hbrace⟩ :=
    isTokenUnit_plain (u := u) (by simp at htoken; exact htoken.1)
  rw [List.cons_append] at hv ⊢
  rw [parseValue, skipSpace_cons hspace]
  simp only [if_neg hquote, if_neg hbracket, if_neg hbrace, hv]

theorem NumberLiteral.isToken (n : NumberLiteral) : n.text.all isTokenUnit = true := by
  have h := n.isLiteral
  simp only [isNumberLiteral, Bool.and_eq_true] at h
  exact h.1.1

theorem NumberLiteral.ne_nil (n : NumberLiteral) : n.text ≠ [] := by
  intro h
  have hlit := n.isLiteral
  rw [h] at hlit
  revert hlit
  decide

theorem parseToken_number (n : NumberLiteral) {rest : JsString} (hrest : Delimited rest) :
    parseToken (n.text ++ rest) = some (.number n, rest) := by
  have hname : ∀ name, isNumberLiteral name = false → n.text ≠ name := by
    rintro name hname rfl
    rw [n.isLiteral] at hname
    cases hname
  simp only [parseToken, takeWhile_token n.isToken hrest,
    if_neg (hname (js "null") (by decide)), if_neg (hname (js "true") (by decide)),
    if_neg (hname (js "false") (by decide)), dif_pos n.isLiteral]

/-- A printed value begins with a unit that is neither space nor a closing bracket. -/
theorem stringify_cons (v : Json) :
    ∃ u s, v.stringify = u :: s ∧ isJsonSpace u = false ∧ u ≠ 0x5D := by
  have htoken : ∀ t : JsString, t ≠ [] → t.all isTokenUnit = true →
      ∃ u s, t = u :: s ∧ isJsonSpace u = false ∧ u ≠ 0x5D := by
    intro t hne hall
    obtain ⟨u, s, rfl⟩ := List.exists_cons_of_ne_nil hne
    have hu : isTokenUnit u = true := by simp at hall; exact hall.1
    refine ⟨u, s, rfl, (isTokenUnit_plain hu).1, ?_⟩
    rintro rfl
    revert hu
    decide
  cases v with
  | null => exact htoken _ (by decide) (by decide)
  | bool b => cases b <;> exact htoken _ (by decide) (by decide)
  | number n => exact htoken _ n.ne_nil n.isToken
  | string s => exact ⟨0x22, _, rfl, by decide, by decide⟩
  | array elems => exact ⟨0x5B, _, by rw [Json.stringify], by decide, by decide⟩
  | object props => exact ⟨0x7B, _, by rw [Json.stringify], by decide, by decide⟩

theorem skipSpace_stringify (v : Json) (rest : JsString) :
    skipSpace (v.stringify ++ rest) = v.stringify ++ rest := by
  obtain ⟨u, s, hv, hspace, -⟩ := stringify_cons v
  rw [hv, List.cons_append, skipSpace_cons hspace]

theorem stringifyElems_cons (v : Json) (vs : List Json) :
    ∃ s, stringifyElems (v :: vs) = v.stringify ++ s := by
  cases vs with
  | nil => exact ⟨[], by simp [stringifyElems]⟩
  | cons w vs => exact ⟨_, by rw [stringifyElems]⟩

theorem stringifyProps_cons (p : JsString × Json) (ps : List (JsString × Json)) :
    ∃ s, stringifyProps (p :: ps) = 0x22 :: s := by
  cases ps with
  | nil => exact ⟨_, by rw [stringifyProps, quote, List.cons_append]⟩
  | cons q ps => exact ⟨_, by rw [stringifyProps, quote, List.cons_append]⟩

theorem parseValue_array (fuel : Nat) {t rest : JsString} {elems : List Json}
    (hopen : ∀ s, skipSpace t ≠ 0x5D :: s) (h : parseElems fuel t = some (elems, rest)) :
    parseValue (fuel + 1) (0x5B :: t) = some (.array elems, rest) := by
  rw [parseValue, skipSpace_cons (by decide)]
  simp only [show ¬((0x5B : UInt16) = 0x22) by decide, if_false, if_pos]
  rw [h]
  rfl

theorem parseValue_object (fuel : Nat) {t rest : JsString} {props : List (JsString × Json)}
    (hopen : ∀ s, skipSpace t ≠ 0x7D :: s) (h : parseProps fuel t = some (props, rest)) :
    parseValue (fuel + 1) (0x7B :: t) = some (.object props, rest) := by
  rw [parseValue, skipSpace_cons (by decide)]
  simp only [show ¬((0x7B : UInt16) = 0x22) by decide, show ¬((0x7B : UInt16) = 0x5B) by decide,
    if_false, if_pos]
  rw [h]
  rfl

/-- A property is read back from its quoted key, the colon and its value. -/
theorem parseProp_of_value (fuel : Nat) (k t : JsString) {v : Json} {rest : JsString}
    (h : parseValue fuel t = some (v, rest)) :
    parseProp (fuel + 1) (quote k ++ 0x3A :: t) = some ((k, v), rest) := by
  rw [quote, List.cons_append, List.append_assoc, parseProp, skipSpace_cons (by decide)]
  simp only [List.cons_append, List.nil_append, unquote_quoteUnits, h,
    skipSpace_cons (show isJsonSpace 0x3A = false by decide), Option.map_some]

mutual

theorem parseValue_stringify (v : Json) (fuel : Nat) (rest : JsString)
    (hfuel : v.stringify.length < fuel) (hrest : Delimited rest) :
    parseValue fuel (v.stringify ++ rest) = some (v, rest) := by
  obtain ⟨fuel, rfl⟩ : ∃ f, fuel = f + 1 := ⟨fuel - 1, by omega⟩
  match v with
  | .null =>
      refine parseValue_token fuel (by decide) (by decide) ?_
      have h := @takeWhile_token (js "null") rest (by decide) hrest
      simp only [Json.stringify, parseToken, h, if_pos]
  | .bool true =>
      refine parseValue_token fuel (by decide) (by decide) ?_
      have h := @takeWhile_token (js "true") rest (by decide) hrest
      simp only [Json.stringify, parseToken, h, show js "true" ≠ js "null" by decide, if_pos,
        if_false]
  | .bool false =>
      refine parseValue_token fuel (by decide) (by decide) ?_
      have h := @takeWhile_token (js "false") rest (by decide) hrest
      simp only [Json.stringify, parseToken, h, show js "false" ≠ js "null" by decide,
        show js "false" ≠ js "true" by decide, if_pos, if_false]
  | .number n => exact parseValue_token fuel n.ne_nil n.isToken (parseToken_number n hrest)
  | .string s =>
      rw [Json.stringify, quote, List.cons_append, List.append_assoc, parseValue,
        skipSpace_cons (by decide)]
      simp only [if_pos, List.cons_append, List.nil_append, unquote_quoteUnits, Option.map_some]
  | .array [] =>
      rw [Json.stringify, stringifyElems, List.nil_append, List.cons_append, parseValue,
        skipSpace_cons (by decide)]
      simp only [show ¬((0x5B : UInt16) = 0x22) by decide, if_false, if_pos, List.cons_append,
        List.nil_append, skipSpace_cons (show isJsonSpace 0x5D = false by decide)]
  | .array (w :: ws) =>
      rw [Json.stringify, List.length_cons, List.length_append, List.length_singleton] at hfuel
      rw [Json.stringify, List.cons_append, List.append_assoc]
      refine parseValue_array fuel (fun s hs => ?_)
        (parseElems_stringify (w :: ws) (by simp) fuel rest (by omega))
      obtain ⟨u, x, hw, -, hclose⟩ := stringify_cons w
      obtain ⟨y, hy⟩ := stringifyElems_cons w ws
      rw [hy, List.append_assoc, skipSpace_stringify, hw, List.cons_append, List.cons.injEq] at hs
      exact hclose hs.1
  | .object [] =>
      rw [Json.stringify, stringifyProps, List.nil_append, List.cons_append, parseValue,
        skipSpace_cons (by decide)]
      simp only [show ¬((0x7B : UInt16) = 0x22) by decide,
        show ¬((0x7B : UInt16) = 0x5B) by decide, if_false, if_pos, List.cons_append,
        List.nil_append, skipSpace_cons (show isJsonSpace 0x7D = false by decide)]
  | .object (p :: ps) =>
      rw [Json.stringify, List.length_cons, List.length_append, List.length_singleton] at hfuel
      rw [Json.stringify, List.cons_append, List.append_assoc]
      refine parseValue_object fuel (fun s hs => ?_)
        (parseProps_stringify (p :: ps) (by simp) fuel rest (by omega))
      obtain ⟨y, hy⟩ := stringifyProps_cons p ps
      rw [hy, List.cons_append, skipSpace_cons (by decide), List.cons.injEq] at hs
      exact absurd hs.1 (by decide)

theorem parseElems_stringify (elems : List Json) (hne : elems ≠ []) (fuel : Nat)
    (rest : JsString) (hfuel : (stringifyElems elems).length + 1 < fuel) :
    parseElems fuel (stringifyElems elems ++ 0x5D :: rest) = some (elems, rest) := by
  obtain ⟨fuel, rfl⟩ : ∃ f, fuel = f + 1 := ⟨fuel - 1, by omega⟩
  match elems with
  | [] => exact absurd rfl hne
  | [v] =>
      rw [stringifyElems] at hfuel ⊢
      rw [parseElems, parseValue_stringify v fuel _ (by omega) (.cons (by decide) _)]
      simp only [skipSpace_cons (show isJsonSpace 0x5D = false by decide)]
  | v :: w :: vs =>
      rw [stringifyElems] at hfuel ⊢
      simp only [List.length_append, List.length_cons] at hfuel
      rw [List.append_assoc, List.cons_append, parseElems,
        parseValue_stringify v fuel _ (by omega) (.cons (by decide) _)]
      simp only [skipSpace_cons (show isJsonSpace 0x2C = false by decide)]
      rw [parseElems_stringify (w :: vs) (by simp) fuel rest (by omega)]
      rfl

theorem parseProps_stringify (props : List (JsString × Json)) (hne : props ≠ []) (fuel : Nat)
    (rest : JsString) (hfuel : (stringifyProps props).length + 1 < fuel) :
    parseProps fuel (stringifyProps props ++ 0x7D :: rest) = some (props, rest) := by
  obtain ⟨fuel, rfl⟩ : ∃ f, fuel = f + 2 := ⟨fuel - 2, by omega⟩
  match props with
  | [] => exact absurd rfl hne
  | [(k, v)] =>
      rw [stringifyProps] at hfuel ⊢
      simp only [List.length_append, List.length_cons] at hfuel
      rw [List.append_assoc, List.cons_append, parseProps, parseProp_of_value fuel k _
        (parseValue_stringify v fuel _ (by omega) (.cons (by decide) _))]
      simp only [skipSpace_cons (show isJsonSpace 0x7D = false by decide)]
  | (k, v) :: p :: ps =>
      rw [stringifyProps] at hfuel ⊢
      simp only [List.length_append, List.length_cons] at hfuel
      rw [List.append_assoc, List.cons_append, List.append_assoc, List.cons_append, parseProps,
        parseProp_of_value fuel k _
          (parseValue_stringify v fuel _ (by omega) (.cons (by decide) _))]
      simp only [skipSpace_cons (show isJsonSpace 0x2C = false by decide)]
      rw [parseProps_stringify (p :: ps) (by simp) (fuel + 1) rest (by omega)]
      rfl

end

theorem Json.parse_stringify (v : Json) : Json.parse v.stringify = some v := by
  have h := parseValue_stringify v (v.stringify.length + 1) [] (by omega) .nil
  rw [List.append_nil] at h
  rw [Json.parse, h]
  rfl

end Ecma

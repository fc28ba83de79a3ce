import TaskQueue.Lib.JsNumber
import TaskQueue.Lib.Schema
import TaskQueue.Lib.Validation

/-!
# Schemas of settings that are given as texts

In the manner of zod: a coerced integer within bounds, a literal of an enumeration, or
any text, each with a default for a setting that is absent.  A value keeps what its
schema checked of it.
-/

namespace Ecma.JsNumber

def isNegative : JsNumber → Bool
  | .nan => false
  | .infinity negative => negative
  | .finite negative m _ => negative && m != 0

def leNat (bound : Nat) : JsNumber → Bool
  | .nan => false
  | .infinity negative => negative
  | .finite negative m (.ofNat e) => negative || m * 2 ^ e ≤ bound
  | .finite negative m (.negSucc e) => negative || m ≤ bound * 2 ^ (e + 1)

/-- The integer value of a number is a multiple of its unit, or a part of it. -/
theorem toInteger?_eq_some {n : JsNumber} {z : Int} (h : n.toInteger? = some z) :
    ∃ negative m q, (∀ bound, n.leNat bound = (negative || decide (q ≤ bound))) ∧
      n.isNegative = (negative && m != 0) ∧ (m = 0 ↔ q = 0) ∧
      z = if negative then -(q : Int) else q := by
  cases n with
  | nan => cases h
  | infinity negative => cases h
  | finite negative m e =>
      cases e with
      | ofNat e =>
          have hpow : 0 < 2 ^ e := Nat.two_pow_pos e
          obtain rfl := Option.some.inj h
          refine ⟨negative, m, m * 2 ^ e, fun bound => rfl, rfl, ?_, ?_⟩
          · simp
          · simp
      | negSucc e =>
          have hpow : 0 < 2 ^ (e + 1) := Nat.two_pow_pos _
          have hdef : (finite negative m (.negSucc e)).toInteger? =
              if m % 2 ^ (e + 1) = 0 then
                let n : Int := (m / 2 ^ (e + 1) : Nat)
                some (if negative then -n else n)
              else none := rfl
          rw [hdef] at h
          by_cases hmod : m % 2 ^ (e + 1) = 0
          · rw [if_pos hmod, Option.some.injEq] at h
            subst h
            have hdiv : m / 2 ^ (e + 1) * 2 ^ (e + 1) = m :=
              Nat.div_mul_cancel (Nat.dvd_of_mod_eq_zero hmod)
            refine ⟨negative, m, m / 2 ^ (e + 1), fun bound => ?_, rfl, ?_, rfl⟩
            · have hle : m ≤ bound * 2 ^ (e + 1) ↔ m / 2 ^ (e + 1) ≤ bound := by
                calc m ≤ bound * 2 ^ (e + 1)
                    ↔ m / 2 ^ (e + 1) * 2 ^ (e + 1) ≤ bound * 2 ^ (e + 1) := by rw [hdiv]
                  _ ↔ m / 2 ^ (e + 1) ≤ bound := Nat.mul_le_mul_right_iff hpow
              simp only [leNat, hle]
            · constructor
              · rintro rfl
                exact Nat.zero_div _
              · intro hq
                rw [hq, Nat.zero_mul] at hdiv
                exact hdiv.symm
          · rw [if_neg hmod] at h
            cases h

theorem leNat_of_toInteger? {n : JsNumber} {z : Int} (h : n.toInteger? = some z) (bound : Nat) :
    n.leNat bound = true ↔ z ≤ bound := by
  obtain ⟨negative, m, q, hle, -, -, rfl⟩ := toInteger?_eq_some h
  rw [hle]
  cases negative with
  | false => simp
  | true =>
      simp only [Bool.true_or, if_true, true_iff]
      omega

theorem isNegative_of_toInteger? {n : JsNumber} {z : Int} (h : n.toInteger? = some z) :
    n.isNegative = true ↔ z < 0 := by
  obtain ⟨negative, m, q, -, hneg, hzero, rfl⟩ := toInteger?_eq_some h
  rw [hneg]
  cases negative with
  | false => simp
  | true =>
      simp only [Bool.true_and, bne_iff_ne, ne_eq, hzero, if_true]
      omega

end Ecma.JsNumber

namespace Schema

open Ecma Validation

/-! ## Coerced integers -/

inductive Bound
  | positive
  | nonnegative
  | max (most : Nat)
  deriving DecidableEq

def Bound.passes : Bound → JsNumber → Bool
  | .positive, n => !n.leNat 0
  | .nonnegative, n => !n.isNegative
  | .max most, n => n.leNat most

def Bound.code : Bound → IssueCode
  | .positive | .nonnegative => .tooSmall
  | .max _ => .tooBig

def Bound.allows : Bound → Int → Bool
  | .positive, z => 0 < z
  | .nonnegative, z => 0 ≤ z
  | .max most, z => z ≤ most

theorem Bound.passes_of_toInteger? {n : JsNumber} {z : Int} (h : n.toInteger? = some z)
    (b : Bound) : b.passes n = b.allows z := by
  cases b with
  | positive =>
      rw [Bool.eq_iff_iff, passes, Bool.not_eq_true', Bool.eq_false_iff, allows, decide_eq_true_eq]
      rw [Ne, JsNumber.leNat_of_toInteger? h]
      omega
  | nonnegative =>
      rw [Bool.eq_iff_iff, passes, Bool.not_eq_true', Bool.eq_false_iff, allows, decide_eq_true_eq]
      rw [Ne, JsNumber.isNegative_of_toInteger? h]
      omega
  | max most =>
      rw [Bool.eq_iff_iff, passes, allows, decide_eq_true_eq]
      exact JsNumber.leNat_of_toInteger? h most

def integerIssues (bounds : List Bound) (n : JsNumber) : List IssueCode :=
  if n = .nan then [.invalidType]
  else (if n.toInteger?.isSome then [] else [.invalidType]) ++
    (bounds.filter fun b => !b.passes n).map Bound.code

theorem integerIssues_eq_nil {bounds : List Bound} {n : JsNumber} :
    integerIssues bounds n = [] ↔
      ∃ z, n.toInteger? = some z ∧ ∀ b ∈ bounds, b.allows z = true := by
  unfold integerIssues
  split
  · rename_i hnan
    simp [hnan, JsNumber.toInteger?]
  · cases hn : n.toInteger? with
    | none => simp
    | some z =>
        have hsame : (∀ b ∈ bounds, b.passes n = true) ↔ ∀ b ∈ bounds, b.allows z = true :=
          forall₂_congr fun b _ => by rw [Bound.passes_of_toInteger? hn]
        simp [List.filter_eq_nil_iff, hsame]

abbrev Bounded (bounds : List Bound) := { z : Int // ∀ b ∈ bounds, b.allows z = true }

def readInteger (bounds : List Bound) (n : JsNumber) : Checked IssueCode (Bounded bounds) :=
  match h : integerIssues bounds n with
  | [] => .valid ⟨n.toInteger?.getD 0, by
      obtain ⟨z, hz, hbounds⟩ := integerIssues_eq_nil.1 h
      rw [hz]
      exact hbounds⟩
  | first :: rest => .invalid first rest

theorem readInteger_eq_valid {bounds : List Bound} {n : JsNumber} {v : Bounded bounds} :
    readInteger bounds n = .valid v ↔ n.toInteger? = some v.1 := by
  constructor
  · intro h
    unfold readInteger at h
    split at h
    · rename_i hissues
      obtain ⟨z, hz, -⟩ := integerIssues_eq_nil.1 hissues
      obtain rfl := Checked.valid.inj h
      simp only [hz, Option.getD_some]
    · cases h
  · intro h
    have hnone : integerIssues bounds n = [] := integerIssues_eq_nil.2 ⟨v.1, h, v.2⟩
    unfold readInteger
    split
    · apply congrArg Checked.valid
      apply Subtype.ext
      simp only [h, Option.getD_some]
    · rename_i hsome
      rw [hnone] at hsome
      cases hsome

/-! ## Settings -/

inductive Rule
  | integer (bounds : List Bound) (default : Nat)
  | enum (values : List JsString) (default : JsString)
  | string (default : JsString)

abbrev Rule.Value : Rule → Type
  | .integer bounds _ => Bounded bounds
  | .enum values _ => { s : JsString // s ∈ values }
  | .string _ => JsString

def Rule.read : (r : Rule) → Option JsString → Checked IssueCode r.Value
  | .integer bounds default, raw =>
      readInteger bounds <| match raw with
        | none => .finite false default 0
        | some s => toNumber s
  | .enum values default, raw =>
      if h : values.contains (raw.getD default) = true then
        .valid ⟨_, List.contains_iff_mem.1 h⟩
      else .invalid .invalidEnumValue []
  | .string default, raw => .valid (raw.getD default)

/-- A value is what a setting means that is given as a text, or is absent. -/
def Rule.Means : (r : Rule) → Option JsString → r.Value → Prop
  | .integer _ default, none, v => v.1 = default
  | .integer _ _, some s, v => (toNumber s).toInteger? = some v.1
  | .enum _ default, raw, v => v.1 = raw.getD default
  | .string default, raw, v => v = raw.getD default

theorem Rule.read_eq_valid {r : Rule} {raw : Option JsString} {v : r.Value} :
    r.read raw = .valid v ↔ r.Means raw v := by
  cases r with
  | integer bounds default =>
      cases raw with
      | none =>
          have hvalue : (JsNumber.finite false default 0).toInteger? = some (default : Int) := by
            simp [JsNumber.toInteger?]
          have hread := readInteger_eq_valid (n := .finite false default 0) (v := v)
          rw [hvalue, Option.some.injEq] at hread
          exact hread.trans eq_comm
      | some s => exact readInteger_eq_valid
  | enum values default =>
      rw [Rule.read, Rule.Means]
      constructor
      · intro h
        split at h
        · obtain rfl := Checked.valid.inj h
          rfl
        · cases h
      · intro h
        have hmem : raw.getD default ∈ values := h ▸ v.2
        rw [dif_pos (List.contains_iff_mem.2 hmem)]
        exact congrArg Checked.valid (Subtype.ext h.symm)
  | string default => exact ⟨fun h => (Checked.valid.inj h).symm, fun h => congrArg _ h.symm⟩

def Rule.Defaulted : Rule → Prop
  | .integer bounds default => ∀ b ∈ bounds, b.allows default = true
  | .enum values default => default ∈ values
  | .string _ => True

instance : DecidablePred Rule.Defaulted
  | .integer bounds default => inferInstanceAs (Decidable (∀ b ∈ bounds, b.allows default = true))
  | .enum values default => inferInstanceAs (Decidable (default ∈ values))
  | .string _ => inferInstanceAs (Decidable True)

theorem Rule.Defaulted.read_none {r : Rule} (h : r.Defaulted) :
    (r.read none).isInvalid = false := by
  rw [Checked.isInvalid_eq_false]
  cases r with
  | integer bounds default => exact ⟨⟨default, h⟩, Rule.read_eq_valid.2 rfl⟩
  | enum values default => exact ⟨⟨default, h⟩, Rule.read_eq_valid.2 rfl⟩
  | string default => exact ⟨default, rfl⟩

end Schema

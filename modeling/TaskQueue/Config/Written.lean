import TaskQueue.Config.Settings
import TaskQueue.Logging.Context

/-!
# Configurations written out

A configuration can be written as an environment that sets every variable of the schema.
Reading it gives the settings back: numerals below `2 ^ 53` are read as their numbers.  One
thing changes, that the development mode is then explicit.
-/

namespace TaskQueue

open Ecma Schema Validation

/-! ## Numerals -/

theorem isWhiteSpace_of_isDigit {u : UInt16} (h : isDigit u = true) : isWhiteSpace u = false :=
  isWhiteSpace_of_isIdUnit (by simp [isIdUnit, h])

theorem parseDigits_decimal (n : Nat) : parseDigits 10 (decimal n) = some n := by
  have hdigits : (decimal n).takeWhile isDigit = decimal n :=
    List.takeWhile_eq_self_iff.2 fun u hu => isDigit_of_mem_decimal hu
  have hparse := parseInt10_decimal n
  unfold parseInt10 at hparse
  rwa [hdigits] at hparse

theorem toInteger?_roundToDouble {n : Nat} (h : n < 2 ^ 53) :
    (roundToDouble false n 1).toInteger? = some (n : Int) := by
  unfold roundToDouble
  by_cases hn : n = 0
  · subst hn
    rfl
  · rw [if_neg hn]
    have hlog : ratioLog2 n 1 = Nat.log2 n := by
      unfold ratioLog2
      have hle : 2 ^ Nat.log2 n ≤ n := Nat.log2_self_le hn
      have hone : Nat.log2 1 = 0 := by decide
      simp [hone, powLeRatio, hle]
    have hbits : Nat.log2 n < 53 := (Nat.log2_lt hn).2 h
    obtain ⟨j, hj⟩ : ∃ j : Nat, Nat.log2 n + j = 52 := ⟨52 - Nat.log2 n, by omega⟩
    have hunit : max (((Nat.log2 n : Nat) : Int) - 52) (-1074) = -(j : Int) := by omega
    simp only [hlog, hunit]
    rw [if_neg (by omega), if_neg (by omega)]
    cases j with
    | zero => simp [roundRatio, JsNumber.toInteger?, Nat.mod_one]
    | succ j =>
        have hneg : -((j + 1 : Nat) : Int) = Int.negSucc j := rfl
        rw [hneg]
        have hmod : n * 2 ^ (j + 1) % 2 ^ (j + 1) = 0 := Nat.mul_mod_left _ _
        have hdiv : n * 2 ^ (j + 1) / 2 ^ (j + 1) = n := Nat.mul_div_cancel _ (Nat.two_pow_pos _)
        simp [roundRatio, JsNumber.toInteger?, Nat.mod_one]

theorem toNumber_decimal_nat {n : Nat} (h : n < 2 ^ 53) :
    (toNumber (decimal n)).toInteger? = some (n : Int) := by
  have hdigits : ∀ u ∈ decimal n, isDigit u = true := fun u hu => isDigit_of_mem_decimal hu
  have htrim : trim (decimal n) = decimal n :=
    trim_eq_self fun u hu => isWhiteSpace_of_isDigit (hdigits u hu)
  have hparse : parseDecimal false (decimal n) = roundToDouble false n 1 := by
    have hwhole : (decimal n).takeWhile isDigit = decimal n :=
      List.takeWhile_eq_self_iff.2 hdigits
    have hafter : (decimal n).dropWhile isDigit = [] := List.dropWhile_eq_nil_iff.2 hdigits
    unfold parseDecimal
    simp only [hwhole, hafter, List.append_nil, parseDigits_decimal]
    simp [parseExponent]
  have hx : ∀ u ∈ [0x78, 0x58, 0x6F, 0x4F, 0x62, 0x42, 0x2B, 0x2D, 0x49], u ∉ decimal n := by
    intro u hu hmem
    have hdigit := hdigits u hmem
    simp only [List.mem_cons, List.not_mem_nil, or_false] at hu
    rcases hu with rfl | rfl | rfl | rfl | rfl | rfl | rfl | rfl | rfl <;> cases hdigit
  have hsign : takeSign (decimal n) = (false, decimal n) := by
    unfold takeSign
    split
    · rename_i s hs
      exact absurd (hs ▸ List.mem_cons_self) (hx 0x2B (by simp))
    · rename_i s hs
      exact absurd (hs ▸ List.mem_cons_self) (hx 0x2D (by simp))
    · rfl
  have hInfinity : decimal n ≠ js "Infinity" := by
    intro heq
    exact hx 0x49 (by simp) (heq ▸ by decide)
  have hsecond : ∀ {u t}, decimal n = 0x30 :: u :: t → u ∈ decimal n := fun h => h ▸ by simp
  unfold toNumber
  rw [htrim]
  split
  · rename_i hnil
    exact absurd hnil (decimal_ne_nil n)
  · rename_i t ht
    exact absurd (hsecond ht) (hx 0x78 (by simp))
  · rename_i t ht
    exact absurd (hsecond ht) (hx 0x58 (by simp))
  · rename_i t ht
    exact absurd (hsecond ht) (hx 0x6F (by simp))
  · rename_i t ht
    exact absurd (hsecond ht) (hx 0x4F (by simp))
  · rename_i t ht
    exact absurd (hsecond ht) (hx 0x62 (by simp))
  · rename_i t ht
    exact absurd (hsecond ht) (hx 0x42 (by simp))
  · simp only [hsign, if_neg hInfinity, hparse]
    exact toInteger?_roundToDouble h

/-! ## Writing -/

/-- A value as a text; `String(value)` of a number. -/
def ruleText : (r : Rule) → r.Value → JsString
  | .integer _ _, z => decimalInt z.1
  | .enum _ _, s => s.1
  | .string _, s => s

def written (base : ParsedEnvironment) : ProcessEnv := fun name =>
  (Variable.all.find? fun v => v.name == name).map fun v => ruleText (EnvironmentSchema v) (base v)

def SafeValue : (r : Rule) → r.Value → Prop
  | .integer _ _, z => z.1 < 2 ^ 53
  | .enum _ _, _ => True
  | .string _, _ => True

def NonnegativeRule : Rule → Prop
  | .integer bounds _ => .positive ∈ bounds ∨ .nonnegative ∈ bounds
  | .enum _ _ => True
  | .string _ => True

theorem environmentSchema_nonnegative (v : Variable) : NonnegativeRule (EnvironmentSchema v) := by
  cases v <;> simp [NonnegativeRule]

theorem nonneg_of_bounded {bounds : List Bound}
    (h : .positive ∈ bounds ∨ .nonnegative ∈ bounds) (z : Bounded bounds) : 0 ≤ z.1 := by
  rcases h with hpositive | hnonnegative
  · have hpos := z.2 .positive hpositive
    rw [Bound.allows, decide_eq_true_eq] at hpos
    omega
  · have hnonneg := z.2 .nonnegative hnonnegative
    rwa [Bound.allows, decide_eq_true_eq] at hnonneg

theorem means_ruleText {r : Rule} {value : r.Value} (hr : NonnegativeRule r)
    (hsafe : SafeValue r value) : r.Means (some (ruleText r value)) value := by
  cases r with
  | integer bounds default =>
      obtain ⟨n, hn⟩ := Int.eq_ofNat_of_zero_le (nonneg_of_bounded hr value)
      have hlt : n < 2 ^ 53 := by
        have hbound : value.1 < 2 ^ 53 := hsafe
        omega
      have hread := toNumber_decimal_nat hlt
      rw [Rule.Means, ruleText, hn]
      exact hread
  | enum values default => rfl
  | string default => rfl

theorem written_name (base : ParsedEnvironment) (v : Variable) :
    written base v.name = some (ruleText (EnvironmentSchema v) (base v)) := by
  have hfind : Variable.all.find? (fun w => w.name == v.name) = some v := by
    cases v <;> rfl
  rw [written, hfind]
  rfl

/-- Settings that are written out are read back. -/
theorem loadConfig_written {base : ParsedEnvironment}
    (hsafe : ∀ v, SafeValue (EnvironmentSchema v) (base v)) :
    loadConfig (written base) = .ok (.of base ((base .nodeEnv).1 == js "development")) := by
  refine loadConfig_eq_ok.2 ⟨base, fun v => ?_, ?_⟩
  · rw [written_name]
    exact means_ruleText (environmentSchema_nonnegative v) (hsafe v)
  · have hnode : written base (js "NODE_ENV") = some (base .nodeEnv).1 := written_name base .nodeEnv
    rw [hnode]
    rfl

/-- Writing out what was read, the defaults included, and reading it again gives the same
settings.  It changes one thing: an environment without `NODE_ENV` is in development mode by
default, but not explicitly, and once written out it is. -/
theorem configuration_written {env : ProcessEnv} {config : Config}
    (hload : loadConfig env = .ok config)
    (hsafe : ∀ v, SafeValue (EnvironmentSchema v) (config.base v)) :
    ∃ again, loadConfig (written config.base) = .ok again ∧ again.base = config.base ∧
      again.corsAllowedOrigins = config.corsAllowedOrigins ∧
      again.adminAuthConfigured = config.adminAuthConfigured ∧
      (again.isExplicitDevelopment = config.isExplicitDevelopment ↔
        env (js "NODE_ENV") ≠ none) := by
  obtain ⟨base, hbase, rfl⟩ := loadConfig_eq_ok.1 hload
  refine ⟨_, loadConfig_written hsafe, rfl, rfl, rfl, ?_⟩
  have hnode : (base .nodeEnv).1 = (env (js "NODE_ENV")).getD (js "development") := hbase .nodeEnv
  simp only [Config.of, hnode]
  cases henv : env (js "NODE_ENV") with
  | none => simp
  | some mode => simp

theorem safeValue_of_absent {v : Variable} {value : (EnvironmentSchema v).Value}
    (h : (EnvironmentSchema v).Means none value) : SafeValue (EnvironmentSchema v) value := by
  have hsafe : ∀ {bounds : List Bound} {default : Nat} {z : Bounded bounds},
      (Rule.integer bounds default).Means none z → default < 2 ^ 53 → z.1 < 2 ^ 53 := by
    intro bounds default z hz hlt
    have hvalue : z.1 = default := hz
    omega
  cases v
  all_goals first
    | trivial
    | exact hsafe h (by decide)

def hexadecimalPort : ProcessEnv := fun name =>
  if name = Variable.port.name then some (js " 0x1F90 ") else none

theorem configuration_written_hexadecimalPort :
    ∃ config again, loadConfig hexadecimalPort = .ok config ∧
      loadConfig (written config.base) = .ok again ∧ (again.base .port).1 = 8080 ∧
      again.isExplicitDevelopment ≠ config.isExplicitDevelopment := by
  obtain ⟨config, hload⟩ : ∃ config, loadConfig hexadecimalPort = .ok config := ⟨_, rfl⟩
  obtain ⟨base, hbase, hconfig⟩ := loadConfig_eq_ok.1 hload
  have hport : (config.base .port).1 = 8080 := by
    have hread : (toNumber (js " 0x1F90 ")).toInteger? = some (config.base .port).1 := by
      rw [hconfig]
      exact hbase .port
    have hvalue : (toNumber (js " 0x1F90 ")).toInteger? = some 8080 := by decide
    exact Option.some.inj (hread.symm.trans hvalue)
  have hsafe : ∀ v, SafeValue (EnvironmentSchema v) (config.base v) := by
    intro v
    by_cases hv : v = .port
    · subst hv
      have hlt : (config.base .port).1 < 2 ^ 53 := by omega
      exact hlt
    · have hunset : hexadecimalPort v.name = none := by
        rw [hexadecimalPort, if_neg]
        intro hname
        exact hv (List.inj_on_of_nodup_map Variable.nodup_names (Variable.mem_all v)
          (Variable.mem_all .port) hname)
      apply safeValue_of_absent
      rw [hconfig, ← hunset]
      exact hbase v
  obtain ⟨again, hagain, hsettings, -, -, hmode⟩ := configuration_written hload hsafe
  refine ⟨config, again, hload, hagain, hsettings ▸ hport, fun hsame => ?_⟩
  exact hmode.1 hsame rfl

end TaskQueue

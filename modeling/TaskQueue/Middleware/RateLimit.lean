import TaskQueue.Config.Environment
import TaskQueue.Lib.Automaton
import TaskQueue.Lib.JsString
import TaskQueue.Lib.RateLimit

/-!
# The intake limiters

The two limiters in front of the job routes, in the order the routes have them:
the global ceiling first, then the bucket of the caller's address.  A submission
the second one refuses has been counted by the first, so the ceiling bounds the
submissions that are made, and not only those that are admitted.
-/

namespace TaskQueue

open Ecma FixedWindow RateLimit

/-! ## One submission -/

inductive IntakeVerdict
  | refusedGlobally
  | refusedPerIp
  | admitted
  deriving DecidableEq

structure IntakeLimiters where
  globalJobLimiter : Store JsString
  perIpJobLimiter : Store JsString

/-- `keyGenerator: () => 'global'`. -/
def globalKey : JsString := js "global"

section

variable (env : Environment)

/-- `globalJobLimiter, perIpJobLimiter`: what the route's handlers do to a submission. -/
def IntakeLimiters.judge (ip : JsString) (now : Nat) (l : IntakeLimiters) :
    IntakeVerdict × IntakeLimiters :=
  let windowMs := env.httpRateLimitWindowMs
  let globalJobLimiter := l.globalJobLimiter.hit windowMs globalKey now
  if l.globalJobLimiter.exceeds windowMs env.httpRateLimitMaxGlobal globalKey now then
    (.refusedGlobally, { l with globalJobLimiter })
  else
    let perIpJobLimiter := l.perIpJobLimiter.hit windowMs ip now
    if l.perIpJobLimiter.exceeds windowMs env.httpRateLimitMaxPerIp ip now then
      (.refusedPerIp, { globalJobLimiter, perIpJobLimiter })
    else (.admitted, { globalJobLimiter, perIpJobLimiter })

def IntakeLimiters.window (now : Nat) (l : IntakeLimiters) : Nat :=
  (l.globalJobLimiter.current env.httpRateLimitWindowMs globalKey now).opened

def IntakeLimiters.ipWindow (ip : JsString) (now : Nat) (l : IntakeLimiters) : Nat :=
  (l.perIpJobLimiter.current env.httpRateLimitWindowMs ip now).opened

end

/-! ## Submissions over time -/

structure Arrival where
  ip : JsString
  now : Nat

structure Submitted where
  ip : JsString
  charge : Charge
  verdict : IntakeVerdict

/-- The limiters, the latest clock reading, all submissions, and those that
reached `perIpJobLimiter`. -/
structure Intake where
  limiters : IntakeLimiters
  clock : Nat
  submissions : List Submitted
  reachedPerIp : List (JsString × Charge)

def Intake.initial : Intake := ⟨⟨∅, ∅⟩, 0, [], []⟩

def Intake.made (s : Intake) (window : Nat) : Nat :=
  spent (s.submissions.map Submitted.charge) window

def Intake.admitted (s : Intake) (window : Nat) : Nat :=
  spent ((s.submissions.filter fun x => x.verdict = .admitted).map Submitted.charge) window

def Intake.madeBy (s : Intake) (ip : JsString) (window : Nat) : Nat :=
  spent (chargesTo s.reachedPerIp ip) window

def Intake.step (env : Environment) (s : Intake) (a : Arrival) : Option Intake :=
  if s.clock ≤ a.now then
    let out := s.limiters.judge env a.ip a.now
    some {
      limiters := out.2
      clock := a.now
      submissions := ⟨a.ip, ⟨a.now, s.limiters.window env a.now⟩, out.1⟩ :: s.submissions
      reachedPerIp :=
        if out.1 = .refusedGlobally then s.reachedPerIp
        else (a.ip, ⟨a.now, s.limiters.ipWindow env a.ip a.now⟩) :: s.reachedPerIp }
  else none

def intake (env : Environment) : Automaton Intake Arrival where
  start := .initial
  step := Intake.step env

/-! ## The counts are those of the log -/

variable {env : Environment}

/-- The submissions as the requests of the one key of the global limiter. -/
def Intake.reachedGlobal (s : Intake) : List (JsString × Charge) :=
  s.submissions.map fun x => (globalKey, x.charge)

theorem Intake.chargesTo_reachedGlobal (s : Intake) :
    chargesTo s.reachedGlobal globalKey = s.submissions.map Submitted.charge := by
  unfold chargesTo Intake.reachedGlobal
  rw [List.filter_eq_self.2 (by simp), List.map_map]
  rfl

structure Intake.Counted (env : Environment) (s : Intake) : Prop where
  globally : Counts env.httpRateLimitWindowMs s.limiters.globalJobLimiter s.reachedGlobal s.clock
  perIp : Counts env.httpRateLimitWindowMs s.limiters.perIpJobLimiter s.reachedPerIp s.clock
  within : ∀ window, s.admitted window ≤ env.httpRateLimitMaxGlobal

theorem IntakeLimiters.judge_cases (env : Environment) (ip : JsString) (now : Nat)
    (l : IntakeLimiters) :
    (l.globalJobLimiter.exceeds env.httpRateLimitWindowMs env.httpRateLimitMaxGlobal globalKey
          now = true ∧
        l.judge env ip now = (.refusedGlobally,
          ⟨l.globalJobLimiter.hit env.httpRateLimitWindowMs globalKey now, l.perIpJobLimiter⟩)) ∨
      (l.globalJobLimiter.exceeds env.httpRateLimitWindowMs env.httpRateLimitMaxGlobal globalKey
          now = false ∧
        l.judge env ip now =
          (if l.perIpJobLimiter.exceeds env.httpRateLimitWindowMs env.httpRateLimitMaxPerIp ip now
            then .refusedPerIp else .admitted,
          ⟨l.globalJobLimiter.hit env.httpRateLimitWindowMs globalKey now,
            l.perIpJobLimiter.hit env.httpRateLimitWindowMs ip now⟩)) := by
  unfold IntakeLimiters.judge
  cases hglobal : l.globalJobLimiter.exceeds env.httpRateLimitWindowMs env.httpRateLimitMaxGlobal
      globalKey now with
  | true => exact Or.inl ⟨rfl, if_pos hglobal⟩
  | false =>
      refine Or.inr ⟨rfl, ?_⟩
      simp only [hglobal, Bool.false_eq_true, if_false]
      split
      · rfl
      · rfl

theorem Intake.step_eq_some {s t : Intake} {a : Arrival} (h : s.step env a = some t) :
    s.clock ≤ a.now ∧
      t.limiters = (s.limiters.judge env a.ip a.now).2 ∧ t.clock = a.now ∧
      t.submissions = ⟨a.ip, ⟨a.now, s.limiters.window env a.now⟩,
        (s.limiters.judge env a.ip a.now).1⟩ :: s.submissions ∧
      t.reachedPerIp =
        if (s.limiters.judge env a.ip a.now).1 = .refusedGlobally then s.reachedPerIp
        else (a.ip, ⟨a.now, s.limiters.ipWindow env a.ip a.now⟩) :: s.reachedPerIp := by
  unfold Intake.step at h
  split at h
  · rename_i hclock
    obtain rfl := Option.some.inj h
    exact ⟨hclock, rfl, rfl, rfl, rfl⟩
  · cases h

theorem Intake.initial_counted : Intake.initial.Counted env where
  globally := counts_empty _ _
  perIp := counts_empty _ _
  within := fun _ => Nat.zero_le _

/-- Whether a submission is refused by the first limiter is a matter of how many
were made in its window. -/
theorem Intake.Counted.exceeds_iff {s : Intake} (hs : s.Counted env) (now : Nat) :
    s.limiters.globalJobLimiter.exceeds env.httpRateLimitWindowMs env.httpRateLimitMaxGlobal
        globalKey now = true ↔
      env.httpRateLimitMaxGlobal ≤ s.made (s.limiters.window env now) := by
  rw [hs.globally.exceeds_iff env.httpRateLimitWindowMs_pos, s.chargesTo_reachedGlobal]
  rfl

theorem Intake.admitted_le_made (s : Intake) (window : Nat) :
    s.admitted window ≤ s.made window := by
  have hsub : ((s.submissions.filter fun x => x.verdict = .admitted).map
      Submitted.charge).Sublist (s.submissions.map Submitted.charge) :=
    List.filter_sublist.map Submitted.charge
  exact hsub.countP_le

theorem Intake.admitted_of_ne {s t : Intake} {x : Submitted} {window : Nat}
    (h : t.submissions = x :: s.submissions) (hwindow : x.charge.window ≠ window) :
    t.admitted window = s.admitted window := by
  unfold Intake.admitted
  by_cases hadmitted : x.verdict = .admitted
  · rw [h, List.filter_cons_of_pos (by simpa using hadmitted), List.map_cons,
      spent_cons_of_ne _ hwindow]
  · rw [h, List.filter_cons_of_neg (by simpa using hadmitted)]

theorem Intake.Counted.step {s t : Intake} (hs : s.Counted env) {a : Arrival}
    (h : s.step env a = some t) : t.Counted env := by
  obtain ⟨hclock, hlimiters, hnow, hsubmissions, hreached⟩ := Intake.step_eq_some h
  have hpos := env.httpRateLimitWindowMs_pos
  have hlog : t.reachedGlobal =
      s.limiters.globalJobLimiter.entry env.httpRateLimitWindowMs globalKey a.now ::
        s.reachedGlobal := by
    unfold Intake.reachedGlobal
    rw [hsubmissions]
    rfl
  have hglobally := hs.globally.hit hpos hclock globalKey
  rw [← hlog] at hglobally
  have hexceeds := hs.exceeds_iff a.now
  rcases s.limiters.judge_cases env a.ip a.now with ⟨hrefused, hjudge⟩ | ⟨hpassed, hjudge⟩
  · rw [hjudge] at hlimiters hsubmissions hreached
    refine ⟨?_, ?_, fun window => ?_⟩
    · rw [hlimiters, hnow]
      exact hglobally
    · rw [hlimiters, hreached, hnow]
      exact hs.perIp.mono hclock
    · have hsame : t.admitted window = s.admitted window := by
        simp [Intake.admitted, hsubmissions]
      rw [hsame]
      exact hs.within window
  · rw [hjudge] at hlimiters hsubmissions hreached
    have hperIp := hs.perIp.hit hpos hclock a.ip
    refine ⟨?_, ?_, fun window => ?_⟩
    · rw [hlimiters, hnow]
      exact hglobally
    · have hverdict : (if s.limiters.perIpJobLimiter.exceeds env.httpRateLimitWindowMs
          env.httpRateLimitMaxPerIp a.ip a.now then IntakeVerdict.refusedPerIp else .admitted) ≠
          .refusedGlobally := by
        split <;> decide
      rw [hlimiters, hreached, if_neg hverdict, hnow]
      exact hperIp
    · -- The window had room, and this is at most one more.
      have hroom : s.made (s.limiters.window env a.now) < env.httpRateLimitMaxGlobal := by
        by_contra hfull
        have := hexceeds.2 (by omega)
        rw [hpassed] at this
        cases this
      by_cases hwindow : s.limiters.window env a.now = window
      · have hle := t.admitted_le_made window
        have hmade : t.made window = s.made window + 1 := by
          rw [Intake.made, hsubmissions, List.map_cons, ← hwindow]
          exact spent_cons_self _ _
        rw [hwindow] at hroom
        omega
      · rw [Intake.admitted_of_ne hsubmissions hwindow]
        exact hs.within window

theorem Intake.counted_of_reachable {s : Intake} (hs : (intake env).Reachable s) :
    s.Counted env :=
  hs.invariant Intake.initial_counted fun _ _ _ hs h => hs.step h

theorem Intake.Counted.judge_iff {s : Intake} (hs : s.Counted env) (ip : JsString) (now : Nat) :
    ((s.limiters.judge env ip now).1 = .refusedGlobally ↔
      env.httpRateLimitMaxGlobal ≤ s.made (s.limiters.window env now)) ∧
    ((s.limiters.judge env ip now).1 = .refusedPerIp ↔
      s.made (s.limiters.window env now) < env.httpRateLimitMaxGlobal ∧
        env.httpRateLimitMaxPerIp ≤ s.madeBy ip (s.limiters.ipWindow env ip now)) := by
  have hglobally := hs.exceeds_iff now
  have hperIp := hs.perIp.exceeds_iff env.httpRateLimitWindowMs_pos env.httpRateLimitMaxPerIp ip now
  rcases s.limiters.judge_cases env ip now with ⟨hrefused, hjudge⟩ | ⟨hpassed, hjudge⟩
  · have hfull := hglobally.1 hrefused
    have hv : (s.limiters.judge env ip now).1 = .refusedGlobally := congrArg Prod.fst hjudge
    rw [hv]
    constructor
    · exact iff_of_true rfl hfull
    · exact iff_of_false (by decide) fun hroom => absurd hfull (Nat.not_le.2 hroom.1)
  · have hroom : s.made (s.limiters.window env now) < env.httpRateLimitMaxGlobal := by
      by_contra hfull
      rw [hglobally.2 (Nat.not_lt.1 hfull)] at hpassed
      cases hpassed
    have hv : (s.limiters.judge env ip now).1 =
        if s.limiters.perIpJobLimiter.exceeds env.httpRateLimitWindowMs
          env.httpRateLimitMaxPerIp ip now then .refusedPerIp else .admitted :=
      congrArg Prod.fst hjudge
    cases hexceeds : s.limiters.perIpJobLimiter.exceeds env.httpRateLimitWindowMs
        env.httpRateLimitMaxPerIp ip now with
    | true =>
        rw [hexceeds, if_pos rfl] at hv
        rw [hv]
        constructor
        · exact iff_of_false (by decide) (Nat.not_le.2 hroom)
        · exact iff_of_true rfl ⟨hroom, hperIp.1 hexceeds⟩
    | false =>
        rw [hexceeds, if_neg (by decide)] at hv
        rw [hv]
        constructor
        · exact iff_of_false (by decide) (Nat.not_le.2 hroom)
        · refine iff_of_false (by decide) fun hfull => ?_
          rw [hperIp.2 hfull.2] at hexceeds
          cases hexceeds

/-- In every run a submission is refused by the global limiter exactly when the
ceiling was reached by the submissions made in its window before, each of which
counts, also one that `perIpJobLimiter` refused; the latter refuses only addresses
over their limit, and in no window are more admitted than the ceiling. -/
theorem globalJobLimiter_refuses_iff {as : List Arrival} {s : Intake}
    (hrun : (intake env).run .initial as = some s) {a : Arrival} {t : Intake}
    (h : s.step env a = some t) :
    let verdict := (s.limiters.judge env a.ip a.now).1
    let window := s.limiters.window env a.now
    (verdict = .refusedGlobally ↔ env.httpRateLimitMaxGlobal ≤ s.made window) ∧
      t.made window = s.made window + 1 ∧
      (verdict = .refusedPerIp ↔ s.made window < env.httpRateLimitMaxGlobal ∧
        env.httpRateLimitMaxPerIp ≤ s.madeBy a.ip (s.limiters.ipWindow env a.ip a.now)) ∧
      (∀ w, t.admitted w ≤ env.httpRateLimitMaxGlobal) ∧
      Windowed env.httpRateLimitWindowMs (t.submissions.map Submitted.charge) := by
  intro verdict window
  have hs := Intake.counted_of_reachable ⟨as, hrun⟩
  have ht := hs.step h
  obtain ⟨-, -, -, hsubmissions, -⟩ := Intake.step_eq_some h
  have hwindowed := ht.globally.windowed globalKey
  rw [t.chargesTo_reachedGlobal] at hwindowed
  have hmade : t.made window = s.made window + 1 := by
    rw [Intake.made, hsubmissions, List.map_cons]
    exact spent_cons_self _ _
  obtain ⟨hrefusedGlobally, hrefusedPerIp⟩ := hs.judge_iff a.ip a.now
  exact ⟨hrefusedGlobally, hmade, hrefusedPerIp, ht.within, hwindowed⟩

def burst (n : Nat) : List Arrival := List.replicate n ⟨js "203.0.113.10", 0⟩

def latecomer : Arrival := ⟨js "203.0.113.20", 1⟩

theorem Intake.step_of_clock {s : Intake} {a : Arrival} (h : s.clock ≤ a.now) :
    ∃ t, s.step env a = some t := by
  unfold Intake.step
  rw [if_pos h]
  exact ⟨_, rfl⟩

theorem globalJobLimiter_refuses_iff_burst :
    ∃ s t, (intake .default).run .initial (burst 200) = some s ∧
      s.step .default latecomer = some t ∧ s.made 0 = 200 ∧
      (s.limiters.judge .default latecomer.ip latecomer.now).1 = .refusedGlobally := by
  have hrun : ((intake .default).run .initial (burst 200)).map (fun s =>
      (s.clock, s.limiters.window .default 1, s.made 0)) = some (0, 0, 200) := by decide +kernel
  obtain ⟨s, hs, hvalues⟩ := Option.map_eq_some_iff.1 hrun
  obtain ⟨hclock, hrest⟩ := Prod.mk.inj hvalues
  obtain ⟨hwindow, hmade⟩ := Prod.mk.inj hrest
  obtain ⟨t, ht⟩ : ∃ t, s.step .default latecomer = some t :=
    Intake.step_of_clock (by rw [hclock]; decide)
  have hrefused := (globalJobLimiter_refuses_iff hs ht).1
  refine ⟨s, t, hs, ht, hmade, hrefused.2 ?_⟩
  have hwindow' : s.limiters.window .default latecomer.now = 0 := hwindow
  rw [hwindow', hmade]
  decide

/-- Under the default settings one address spends everybody's ceiling: of its 200
submissions 20 are admitted, and the first one of another address is refused. -/
theorem one_address_spends_ceiling :
    ∃ s, (intake .default).run .initial (burst 200) = some s ∧
      s.admitted 0 = 20 ∧ 20 < Environment.default.httpRateLimitMaxGlobal ∧
      (∀ x ∈ s.submissions, x.ip ≠ latecomer.ip) ∧
      s.limiters.window .default latecomer.now = 0 ∧
      (s.limiters.judge .default latecomer.ip latecomer.now).1 = .refusedGlobally := by
  have hrun : ((intake .default).run .initial (burst 200)).map (fun s =>
      (s.admitted 0, s.submissions.all fun x => x.ip != latecomer.ip,
        s.limiters.window .default latecomer.now,
        (s.limiters.judge .default latecomer.ip latecomer.now).1)) =
      some (20, true, 0, .refusedGlobally) := by decide +kernel
  obtain ⟨s, hs, hvalues⟩ := Option.map_eq_some_iff.1 hrun
  simp only [Prod.mk.injEq, List.all_eq_true, bne_iff_ne] at hvalues
  obtain ⟨hadmitted, hothers, hwindow, hverdict⟩ := hvalues
  exact ⟨s, hs, hadmitted, by decide, hothers, hwindow, hverdict⟩

end TaskQueue

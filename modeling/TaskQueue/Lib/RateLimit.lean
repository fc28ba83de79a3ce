import TaskQueue.Lib.FixedWindow
import TaskQueue.Lib.Table

/-!
# Rate limiting by key

A limiter counts every request that reaches it under its key, refused or not, in
a window that opens with the first request after the last one has lapsed; a
request is refused when its count exceeds the limit.  The counts agree with the
log of the requests, window by window.
-/

namespace RateLimit

open FixedWindow

structure Bucket where
  opened : Nat
  hits : Nat
  deriving DecidableEq

abbrev Store (κ : Type*) := Table κ Bucket

variable {κ : Type*} [DecidableEq κ]

/-- The bucket a request finds: that of its key, unless it has lapsed. -/
def Store.current (windowMs : Nat) (store : Store κ) (key : κ) (now : Nat) : Bucket :=
  ((store.get key).filter fun b => now < b.opened + windowMs).getD ⟨now, 0⟩

def Store.hit (windowMs : Nat) (store : Store κ) (key : κ) (now : Nat) : Store κ :=
  let b := store.current windowMs key now
  store.put key { b with hits := b.hits + 1 }

def Store.exceeds (windowMs limit : Nat) (store : Store κ) (key : κ) (now : Nat) : Bool :=
  limit < (store.current windowMs key now).hits + 1

def chargesTo (log : List (κ × Charge)) (key : κ) : List Charge :=
  (log.filter fun entry => entry.1 = key).map Prod.snd

def Store.entry (windowMs : Nat) (store : Store κ) (key : κ) (now : Nat) : κ × Charge :=
  (key, ⟨now, (store.current windowMs key now).opened⟩)

theorem chargesTo_cons_self (log : List (κ × Charge)) (key : κ) (c : Charge) :
    chargesTo ((key, c) :: log) key = c :: chargesTo log key := by
  simp [chargesTo]

theorem chargesTo_cons_of_ne (log : List (κ × Charge)) {key other : κ} (c : Charge)
    (h : key ≠ other) : chargesTo ((key, c) :: log) other = chargesTo log other := by
  simp [chargesTo, h]

/-- The bucket of a key agrees with the log: it is the latest window, and it has
counted the requests made to it. -/
structure Counts (windowMs : Nat) (store : Store κ) (log : List (κ × Charge)) (clock : Nat) :
    Prop where
  hits : ∀ key b, store.get key = some b → spent (chargesTo log key) b.opened = b.hits
  latest : ∀ key, ∀ c ∈ chargesTo log key, ∃ b, store.get key = some b ∧
    (c.window = b.opened ∨ c.window + windowMs ≤ b.opened)
  windowed : ∀ key, Windowed windowMs (chargesTo log key)
  opened : ∀ key b, store.get key = some b → b.opened ≤ clock

variable {windowMs clock now : Nat} {store : Store κ} {log : List (κ × Charge)}

theorem counts_empty (windowMs clock : Nat) : Counts windowMs (∅ : Store κ) [] clock where
  hits := by simp
  latest := by simp [chargesTo]
  windowed := fun _ => windowed_nil windowMs
  opened := by simp

theorem Counts.mono (h : Counts windowMs store log clock) (hclock : clock ≤ now) :
    Counts windowMs store log now :=
  ⟨h.hits, h.latest, h.windowed, fun key b hb => Nat.le_trans (h.opened key b hb) hclock⟩

theorem current_cases (windowMs : Nat) (store : Store κ) (key : κ) (now : Nat) :
    (store.current windowMs key now = ⟨now, 0⟩ ∧
      ∀ b, store.get key = some b → b.opened + windowMs ≤ now) ∨
    (store.get key = some (store.current windowMs key now) ∧
      now < (store.current windowMs key now).opened + windowMs) := by
  unfold Store.current
  cases hget : store.get key with
  | none => exact Or.inl ⟨rfl, fun b hb => by cases hb⟩
  | some b =>
      by_cases hrunning : now < b.opened + windowMs
      · rw [Option.filter_some_pos (by simpa using hrunning)]
        exact Or.inr ⟨rfl, hrunning⟩
      · rw [Option.filter_some_neg (by simpa using hrunning)]
        refine Or.inl ⟨rfl, fun b' hb' => ?_⟩
        obtain rfl := Option.some.inj hb'
        omega

/-- The window a request is made to lies at or after every window of its key. -/
theorem Counts.latest_current (h : Counts windowMs store log clock) (key : κ) (now : Nat) :
    ∀ c ∈ chargesTo log key, c.window = (store.current windowMs key now).opened ∨
      c.window + windowMs ≤ (store.current windowMs key now).opened := by
  intro c hc
  obtain ⟨b, hb, hle⟩ := h.latest key c hc
  rcases current_cases windowMs store key now with ⟨hcurrent, hlapsed⟩ | ⟨hget, -⟩
  · have hb' := hlapsed b hb
    rw [hcurrent]
    simp only
    omega
  · obtain rfl := Option.some.inj (hb.symm.trans hget)
    exact hle

theorem Counts.hits_current (h : Counts windowMs store log clock) (hpos : 0 < windowMs) (key : κ)
    (now : Nat) :
    spent (chargesTo log key) (store.current windowMs key now).opened =
      (store.current windowMs key now).hits := by
  rcases current_cases windowMs store key now with ⟨hcurrent, hlapsed⟩ | ⟨hget, -⟩
  · rw [hcurrent]
    apply spent_eq_zero
    intro c hc hsame
    obtain ⟨b, hb, hle⟩ := h.latest key c hc
    have hb' := hlapsed b hb
    simp only at hsame
    omega
  · exact h.hits key _ hget

theorem Counts.hit (h : Counts windowMs store log clock) (hpos : 0 < windowMs)
    (hclock : clock ≤ now) (key : κ) :
    Counts windowMs (store.hit windowMs key now) (store.entry windowMs key now :: log) now := by
  have hinside : (store.current windowMs key now).opened ≤ now ∧
      now < (store.current windowMs key now).opened + windowMs := by
    rcases current_cases windowMs store key now with ⟨hcurrent, -⟩ | ⟨hget, hrunning⟩
    · rw [hcurrent]
      simp only
      omega
    · exact ⟨Nat.le_trans (h.opened key _ hget) hclock, hrunning⟩
  refine ⟨fun k b hb => ?_, fun k c hc => ?_, fun k => ?_, fun k b hb => ?_⟩
  · rcases Table.get_put_eq_some.1 hb with ⟨rfl, rfl⟩ | ⟨hne, hold⟩
    · rw [Store.entry, chargesTo_cons_self, spent_cons_self, h.hits_current hpos]
    · rw [Store.entry, chargesTo_cons_of_ne log _ (Ne.symm hne)]
      exact h.hits k b hold
  · by_cases hk : key = k
    · subst hk
      rw [Store.entry, chargesTo_cons_self] at hc
      refine ⟨_, Table.get_put_self _ _ _, ?_⟩
      rcases List.mem_cons.1 hc with rfl | hc
      · exact Or.inl rfl
      · exact h.latest_current key now c hc
    · rw [Store.entry, chargesTo_cons_of_ne log _ hk] at hc
      obtain ⟨b, hb, hle⟩ := h.latest k c hc
      refine ⟨b, ?_, hle⟩
      rw [Store.hit, Table.get_put_of_ne _ _ (Ne.symm hk)]
      exact hb
  · by_cases hk : key = k
    · subst hk
      rw [Store.entry, chargesTo_cons_self]
      exact (h.windowed key).charge (h.latest_current key now) hinside
    · rw [Store.entry, chargesTo_cons_of_ne log _ hk]
      exact h.windowed k
  · rcases Table.get_put_eq_some.1 hb with ⟨rfl, rfl⟩ | ⟨-, hold⟩
    · exact hinside.1
    · exact Nat.le_trans (h.opened k b hold) hclock

/-- A request is refused exactly when the limit was reached in its window before. -/
theorem Counts.exceeds_iff (h : Counts windowMs store log clock) (hpos : 0 < windowMs)
    (limit : Nat) (key : κ) (now : Nat) :
    store.exceeds windowMs limit key now = true ↔
      limit ≤ spent (chargesTo log key) (store.current windowMs key now).opened := by
  rw [h.hits_current hpos, Store.exceeds, decide_eq_true_iff]
  omega

/-! ## What is let through -/

/-- What a limiter let through of the requests that reached it: no window of a key has
more of them than the limit. -/
structure Grants (limit : Nat) (log granted : List (κ × Charge)) : Prop where
  among : granted.Sublist log
  within : ∀ key window, spent (chargesTo granted key) window ≤ limit

theorem grants_nil (limit : Nat) : Grants limit ([] : List (κ × Charge)) [] where
  among := List.Sublist.refl _
  within := fun _ _ => Nat.zero_le _

variable {limit : Nat} {granted : List (κ × Charge)}

theorem Grants.spent_le (h : Grants limit log granted) (key : κ) (window : Nat) :
    spent (chargesTo granted key) window ≤ spent (chargesTo log key) window := by
  have hsub : (chargesTo granted key).Sublist (chargesTo log key) :=
    (h.among.filter _).map Prod.snd
  exact hsub.countP_le

theorem Grants.refuse (h : Grants limit log granted) (entry : κ × Charge) :
    Grants limit (entry :: log) granted where
  among := h.among.cons entry
  within := h.within

theorem Grants.grant (h : Grants limit log granted) (hcounts : Counts windowMs store log clock)
    (hpos : 0 < windowMs) {key : κ} (hroom : store.exceeds windowMs limit key now = false) :
    Grants limit (store.entry windowMs key now :: log)
      (store.entry windowMs key now :: granted) where
  among := h.among.cons_cons _
  within := by
    have hleft : spent (chargesTo log key) (store.current windowMs key now).opened < limit := by
      by_contra hfull
      have hexceeds := (hcounts.exceeds_iff hpos limit key now).2 (Nat.not_lt.1 hfull)
      rw [hroom] at hexceeds
      cases hexceeds
    intro k window
    by_cases hk : key = k
    · subst hk
      rw [Store.entry, chargesTo_cons_self]
      by_cases hw : (store.current windowMs key now).opened = window
      · subst hw
        have hle := h.spent_le key (store.current windowMs key now).opened
        rw [spent_cons_self]
        simp only
        omega
      · rw [spent_cons_of_ne _ hw]
        exact h.within key window
    · rw [Store.entry, chargesTo_cons_of_ne granted _ hk]
      exact h.within k window

/-- A limiter goes on by refusing what exceeds the limit, and granting the rest. -/
theorem Grants.judged (h : Grants limit log granted) (hcounts : Counts windowMs store log clock)
    (hpos : 0 < windowMs) (key : κ) (now : Nat) :
    Grants limit (store.entry windowMs key now :: log)
      (if !store.exceeds windowMs limit key now then store.entry windowMs key now :: granted
        else granted) := by
  cases hexceeds : store.exceeds windowMs limit key now with
  | true => exact h.refuse _
  | false => exact h.grant hcounts hpos hexceeds

/-- The windows of what was let through are those of the log. -/
theorem Grants.placed (h : Grants limit log granted) (hcounts : Counts windowMs store log clock)
    (key : κ) : Placed windowMs limit (chargesTo granted key) where
  inside := by
    intro c hc
    have hsub : (chargesTo granted key).Sublist (chargesTo log key) :=
      (h.among.filter _).map Prod.snd
    exact (hcounts.windowed key).inside c (hsub.subset hc)
  apart := by
    intro c hc d hd
    have hsub : (chargesTo granted key).Sublist (chargesTo log key) :=
      (h.among.filter _).map Prod.snd
    exact (hcounts.windowed key).apart c (hsub.subset hc) d (hsub.subset hd)
  within := h.within key

/-- Of a key no more than twice the limit is let through in an interval of a window's
length, wherever it starts. -/
theorem Grants.spentDuring_le (h : Grants limit log granted)
    (hcounts : Counts windowMs store log clock) (key : κ) (start : Nat) :
    spentDuring (chargesTo granted key) start windowMs ≤ 2 * limit :=
  (h.placed hcounts key).spentDuring_le start

end RateLimit

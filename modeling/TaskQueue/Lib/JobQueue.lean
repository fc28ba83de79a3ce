import TaskQueue.Lib.Table

/-!
# Retrying job queues

A queue of jobs under caller-chosen ids: an `add` under an id that exists in any
state changes nothing; a job is retried until it succeeds or its attempts are used
up; a job whose lock expires waits again, and once it has stalled more often than
allowed, its failure is left to the worker that takes it next; a finished job is
kept until retention removes it.
-/

namespace JobQueue

inductive JobState
  | waiting
  /-- A worker holds the lock of this number. -/
  | active (lock : Nat)
  | delayed
  | completed
  | failed
  deriving DecidableEq

/-- A job with data `δ`, and traces `τ` of its failed attempts. -/
structure Entry (δ τ : Type*) where
  data : δ
  attempts : Nat
  attemptsMade : Nat
  stalledCount : Nat
  /-- The worker that takes the job is to fail it. -/
  deferredFailure : Bool
  stacktrace : List τ
  state : JobState

abbrev Queue (κ δ τ : Type*) := Table κ (Entry δ τ)

namespace Entry

variable {δ τ : Type*}

def new (attempts : Nat) (data : δ) : Entry δ τ := ⟨data, attempts, 0, 0, false, [], .waiting⟩

def pending (e : Entry δ τ) : Bool :=
  match e.state with
  | .waiting | .active _ | .delayed => true
  | .completed | .failed => false

def lock (e : Entry δ τ) : Option Nat :=
  match e.state with
  | .active lock => some lock
  | _ => none

/-! ## Transitions -/

def activate (lock : Nat) (e : Entry δ τ) : Option (Entry δ τ) :=
  if e.state = .waiting ∧ e.deferredFailure = false then some { e with state := .active lock }
  else none

def complete (e : Entry δ τ) : Option (Entry δ τ) :=
  e.lock.map fun _ => { e with state := .completed }

/-- An attempt failed: it is counted, and the job is retried while attempts are left. -/
def fail (trace : List τ) (e : Entry δ τ) : Option (Entry δ τ) :=
  e.lock.map fun _ => { e with
    attemptsMade := e.attemptsMade + 1
    stacktrace := e.stacktrace ++ trace
    state := if e.attemptsMade + 1 < e.attempts then .delayed else .failed }

def promote (e : Entry δ τ) : Option (Entry δ τ) :=
  if e.state = .delayed then some { e with state := .waiting } else none

/-- The lock expired: the job waits again, to be failed if it has stalled too often. -/
def stall (maxStalledCount : Nat) (e : Entry δ τ) : Option (Entry δ τ) :=
  e.lock.map fun _ => { e with
    stalledCount := e.stalledCount + 1
    deferredFailure := maxStalledCount < e.stalledCount + 1
    state := .waiting }

/-- A worker takes a job that is to be failed, and does so without running it.  Whether this
counts as an attempt is a matter of the queue's version. -/
def failDeferred (trace : List τ) (counted : Bool) (e : Entry δ τ) : Option (Entry δ τ) :=
  if e.state = .waiting ∧ e.deferredFailure = true then
    some { e with
      attemptsMade := e.attemptsMade + counted.toNat
      stacktrace := e.stacktrace ++ trace
      state := .failed }
  else none

/-! ## What a transition keeps -/

def Live (e : Entry δ τ) : Prop := e.pending = true → e.attemptsMade < e.attempts

structure Follows (e e' : Entry δ τ) : Prop where
  data : e'.data = e.data
  attempts : e'.attempts = e.attempts
  pending : e.pending = true
  live : e.Live → e'.Live

theorem live_new {attempts : Nat} (data : δ) (h : 0 < attempts) :
    (new attempts data : Entry δ τ).Live := fun _ => h

theorem pending_of_failed {e : Entry δ τ} (h : e.state = .failed) : e.pending = false := by
  rw [pending, h]

theorem ne_failed_of_pending {e : Entry δ τ} (h : e.pending = true) : e.state ≠ .failed := by
  intro hfailed
  rw [pending_of_failed hfailed] at h
  cases h

theorem pending_of_lock {e : Entry δ τ} {lock : Nat} (h : e.lock = some lock) :
    e.pending = true := by
  unfold Entry.lock at h
  unfold pending
  split at h <;> simp_all

theorem activate_eq_some {e e' : Entry δ τ} {lock : Nat} :
    e.activate lock = some e' ↔ e.state = .waiting ∧ e.deferredFailure = false ∧
      e' = { e with state := .active lock } := by
  unfold activate
  rw [Option.ite_none_right_eq_some, and_assoc, Option.some.injEq, eq_comm (b := e')]

theorem failDeferred_eq_some {e e' : Entry δ τ} {trace : List τ} {counted : Bool} :
    e.failDeferred trace counted = some e' ↔ e.state = .waiting ∧ e.deferredFailure = true ∧
      e' = { e with
        attemptsMade := e.attemptsMade + counted.toNat
        stacktrace := e.stacktrace ++ trace
        state := .failed } := by
  unfold failDeferred
  rw [Option.ite_none_right_eq_some, and_assoc, Option.some.injEq, eq_comm (b := e')]

theorem promote_eq_some {e e' : Entry δ τ} :
    e.promote = some e' ↔ e.state = .delayed ∧ e' = { e with state := .waiting } := by
  unfold promote
  split <;> simp_all [eq_comm]

theorem follows_activate {e e' : Entry δ τ} {lock : Nat} (h : e.activate lock = some e') :
    e.Follows e' := by
  obtain ⟨hstate, -, rfl⟩ := activate_eq_some.1 h
  have hpending : e.pending = true := by rw [pending, hstate]
  exact ⟨rfl, rfl, hpending, fun hlive _ => hlive hpending⟩

theorem follows_promote {e e' : Entry δ τ} (h : e.promote = some e') : e.Follows e' := by
  obtain ⟨hstate, rfl⟩ := promote_eq_some.1 h
  have hpending : e.pending = true := by rw [pending, hstate]
  exact ⟨rfl, rfl, hpending, fun hlive _ => hlive hpending⟩

theorem follows_complete {e e' : Entry δ τ} (h : e.complete = some e') : e.Follows e' := by
  obtain ⟨lock, hlock, rfl⟩ := Option.map_eq_some_iff.1 h
  exact ⟨rfl, rfl, pending_of_lock hlock, fun _ hpending => by cases hpending⟩

theorem follows_fail {e e' : Entry δ τ} {trace : List τ} (h : e.fail trace = some e') :
    e.Follows e' := by
  obtain ⟨lock, hlock, rfl⟩ := Option.map_eq_some_iff.1 h
  refine ⟨rfl, rfl, pending_of_lock hlock, fun _ hpending => ?_⟩
  by_cases hleft : e.attemptsMade + 1 < e.attempts
  · exact hleft
  · simp [pending, hleft] at hpending

theorem follows_stall {e e' : Entry δ τ} {maxStalledCount : Nat}
    (h : e.stall maxStalledCount = some e') : e.Follows e' := by
  obtain ⟨lock, hlock, rfl⟩ := Option.map_eq_some_iff.1 h
  exact ⟨rfl, rfl, pending_of_lock hlock, fun hlive _ => hlive (pending_of_lock hlock)⟩

theorem follows_failDeferred {e e' : Entry δ τ} {trace : List τ} {counted : Bool}
    (h : e.failDeferred trace counted = some e') : e.Follows e' := by
  obtain ⟨hstate, -, rfl⟩ := failDeferred_eq_some.1 h
  exact ⟨rfl, rfl, by rw [pending, hstate], fun _ hpending => by cases hpending⟩

/-! ## Attempts -/

theorem attemptsMade_activate {e e' : Entry δ τ} {lock : Nat} (h : e.activate lock = some e') :
    e'.attemptsMade = e.attemptsMade := by
  obtain ⟨-, -, rfl⟩ := activate_eq_some.1 h
  rfl

theorem attemptsMade_promote {e e' : Entry δ τ} (h : e.promote = some e') :
    e'.attemptsMade = e.attemptsMade := by
  obtain ⟨-, rfl⟩ := promote_eq_some.1 h
  rfl

theorem attemptsMade_complete {e e' : Entry δ τ} (h : e.complete = some e') :
    e'.attemptsMade = e.attemptsMade := by
  obtain ⟨lock, -, rfl⟩ := Option.map_eq_some_iff.1 h
  rfl

theorem attemptsMade_stall {e e' : Entry δ τ} {maxStalledCount : Nat}
    (h : e.stall maxStalledCount = some e') : e'.attemptsMade = e.attemptsMade := by
  obtain ⟨lock, -, rfl⟩ := Option.map_eq_some_iff.1 h
  rfl

theorem attemptsMade_fail {e e' : Entry δ τ} {trace : List τ} (h : e.fail trace = some e') :
    e'.attemptsMade = e.attemptsMade + 1 := by
  obtain ⟨lock, -, rfl⟩ := Option.map_eq_some_iff.1 h
  rfl

theorem failed_of_fail_iff {e e' : Entry δ τ} {trace : List τ} (h : e.fail trace = some e') :
    e'.state = .failed ↔ e'.attempts ≤ e'.attemptsMade := by
  obtain ⟨lock, hlock, rfl⟩ := Option.map_eq_some_iff.1 h
  by_cases hleft : e.attemptsMade + 1 < e.attempts
  · simp [hleft]
  · simp [hleft, Nat.not_lt.1 hleft]

theorem unfailed_of_stall {e e' : Entry δ τ} {maxStalledCount : Nat}
    (h : e.stall maxStalledCount = some e') : e'.state ≠ .failed := by
  obtain ⟨lock, -, rfl⟩ := Option.map_eq_some_iff.1 h
  exact nofun

end Entry

namespace Queue

variable {κ δ τ : Type*} [DecidableEq κ]

/-- `add` under an id; a job that has it is left as it is. -/
def add (q : Queue κ δ τ) (attempts : Nat) (id : κ) (data : δ) : Queue κ δ τ :=
  match q.get id with
  | some _ => q
  | none => q.put id (.new attempts data)

def move (q : Queue κ δ τ) (id : κ) (f : Entry δ τ → Option (Entry δ τ)) :
    Option (Entry δ τ × Queue κ δ τ) :=
  ((q.get id).bind f).map fun e => (e, q.put id e)

/-- Retention removes a finished job. -/
def prune (q : Queue κ δ τ) (id : κ) : Option (Queue κ δ τ) :=
  (q.get id).bind fun e => if e.pending then none else some (q.remove id)

def count (q : Queue κ δ τ) (p : Entry δ τ → Bool) : Nat := q.entries.countP fun row => p row.2

theorem add_of_some {q : Queue κ δ τ} {id : κ} {e : Entry δ τ} (h : q.get id = some e)
    (attempts : Nat) (data : δ) : q.add attempts id data = q := by
  rw [add, h]

theorem add_of_none {q : Queue κ δ τ} {id : κ} (h : q.get id = none) (attempts : Nat) (data : δ) :
    q.add attempts id data = q.put id (.new attempts data) := by
  rw [add, h]

theorem add_keeps {q : Queue κ δ τ} {k : κ} {e : Entry δ τ} (h : q.get k = some e) (attempts : Nat)
    (id : κ) (data : δ) : (q.add attempts id data).get k = some e := by
  cases hget : q.get id with
  | some old => rwa [add_of_some hget]
  | none =>
      have hne : k ≠ id := by
        rintro rfl
        rw [hget] at h
        cases h
      rwa [add_of_none hget, Table.get_put_of_ne _ _ hne]

theorem move_eq_some {q q' : Queue κ δ τ} {id : κ} {f : Entry δ τ → Option (Entry δ τ)}
    {e' : Entry δ τ} :
    q.move id f = some (e', q') ↔ ∃ e, q.get id = some e ∧ f e = some e' ∧ q' = q.put id e' := by
  unfold move
  simp only [Option.map_eq_some_iff, Option.bind_eq_some_iff, Prod.mk.injEq]
  constructor
  · rintro ⟨_, ⟨e, hget, hf⟩, rfl, rfl⟩
    exact ⟨e, hget, hf, rfl⟩
  · rintro ⟨e, hget, hf, rfl⟩
    exact ⟨e', ⟨e, hget, hf⟩, rfl, rfl⟩

theorem prune_eq_some {q q' : Queue κ δ τ} {id : κ} :
    q.prune id = some q' ↔
      ∃ e, q.get id = some e ∧ e.pending = false ∧ q' = q.remove id := by
  unfold prune
  rw [Option.bind_eq_some_iff]
  constructor
  · rintro ⟨e, hget, h⟩
    split at h
    · cases h
    · rename_i hpending
      exact ⟨e, hget, by simpa using hpending, (Option.some.inj h).symm⟩
  · rintro ⟨e, hget, hpending, rfl⟩
    exact ⟨e, hget, by simp [hpending]⟩

/-! ## Counting -/

theorem count_put (q : Queue κ δ τ) (id : κ) (e : Entry δ τ) (p : Entry δ τ → Bool) :
    count (q.put id e) p = count (q.remove id) p + if p e then 1 else 0 := by
  unfold count
  rw [Table.entries_put, List.countP_cons]

theorem count_of_get {q : Queue κ δ τ} {id : κ} {e : Entry δ τ} (h : q.get id = some e)
    (p : Entry δ τ → Bool) : q.count p = count (q.remove id) p + if p e then 1 else 0 := by
  unfold count
  rw [(Table.perm_of_get h).countP_eq, List.countP_cons]

theorem count_put_of_none {q : Queue κ δ τ} {id : κ} (h : q.get id = none) (e : Entry δ τ)
    (p : Entry δ τ → Bool) : count (q.put id e) p = q.count p + if p e then 1 else 0 := by
  rw [count_put, count, Table.entries_remove_of_none h, count]

theorem count_pending_put_le {q : Queue κ δ τ} {id : κ} {e e' : Entry δ τ} (h : q.get id = some e)
    (hfollows : e.Follows e') : count (q.put id e') Entry.pending ≤ q.count Entry.pending := by
  rw [count_put, count_of_get h, if_pos hfollows.pending]
  split <;> omega

theorem count_remove_le (q : Queue κ δ τ) (id : κ) (p : Entry δ τ → Bool) :
    count (q.remove id) p ≤ q.count p := by
  cases h : q.get id with
  | none => rw [count, Table.entries_remove_of_none h, count]
  | some e =>
      rw [count_of_get h]
      omega

omit [DecidableEq κ] in
theorem count_pending (q : Queue κ δ τ) :
    q.count (fun e => e.state == .waiting) + q.count (fun e => e.lock.isSome) +
      q.count (fun e => e.state == .delayed) = q.count Entry.pending := by
  unfold count
  induction q.entries with
  | nil => rfl
  | cons row rows ih =>
      simp only [List.countP_cons] at ih ⊢
      have hrow : (if row.2.state == .waiting then 1 else 0) +
          (if row.2.lock.isSome then 1 else 0) +
          (if row.2.state == .delayed then 1 else 0) = if row.2.pending then 1 else 0 := by
        unfold Entry.lock Entry.pending
        cases row.2.state <;> rfl
      omega

/-! ## Properties of every job -/

def All (q : Queue κ δ τ) (P : κ → Entry δ τ → Prop) : Prop := ∀ id e, q.get id = some e → P id e

theorem all_empty (P : κ → Entry δ τ → Prop) : All (∅ : Queue κ δ τ) P := by
  intro id e h
  simp at h

theorem All.put {q : Queue κ δ τ} {P : κ → Entry δ τ → Prop} (hq : q.All P) {id : κ}
    {e : Entry δ τ} (he : P id e) : All (q.put id e) P := by
  intro k e' h
  rcases Table.get_put_eq_some.1 h with ⟨rfl, rfl⟩ | ⟨-, hold⟩
  · exact he
  · exact hq k e' hold

theorem All.remove {q : Queue κ δ τ} {P : κ → Entry δ τ → Prop} (hq : q.All P) (id : κ) :
    All (q.remove id) P := by
  intro k e hget
  have hold := (Table.get_remove_eq_some.1 hget).2
  exact hq k e hold

end Queue

end JobQueue

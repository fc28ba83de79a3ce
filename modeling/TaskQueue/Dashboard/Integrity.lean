import TaskQueue.Dashboard.Board
import TaskQueue.Lib.Journal

/-!
# Integrity of the snapshot store

Every stored body is one the upstream handler produced for the view it is
stored under.  The body arrives long after its key was computed, so the
invariant follows a rebuild from its dispatch through its flight to the entry
it becomes, across any number of clears and invalidations in between.
-/

namespace TaskQueue.Dashboard

open Ecma Journal

variable {env : Environment} {queueNames : List JsString} {β : Type}

def Produced (journal : List (BoardEvent queueNames β)) (r : Rebuild queueNames) (body : β) :
    Prop :=
  ∃ id, (∃ window, .dispatched id r window ∈ journal) ∧ .completed id r 200 body ∈ journal

def BoardEvent.Owed : BoardEvent queueNames β → List (BoardEvent queueNames β) → Prop
  | .served _ query body, older =>
      ∃ r, r.query = canonicalizeQuery query queueNames ∧ Produced older r body
  | .completed id r _ _, older => ∃ window, .dispatched id r window ∈ older
  | _, _ => True

/-- The representation invariant of the snapshot store, with its history. -/
structure Board.Intact (env : Environment) (b : Board queueNames β) : Prop where
  size_le : b.cache.snapshotCache.size ≤ env.dashboardMaxCacheEntries
  stored : ∀ key entry, b.cache.snapshotCache.get key = some entry →
    ∃ r, r.cacheKey = key ∧ r.generationAtDispatch = entry.generation ∧
      entry.generation ≤ b.cache.currentGeneration ∧ Produced b.journal r entry.body
  flying : ∀ id r, b.inFlight.get id = some r →
    id < b.started ∧ r.generationAtDispatch ≤ b.cache.currentGeneration ∧
      ∃ window, .dispatched id r window ∈ b.journal
  owed : Justified BoardEvent.Owed b.journal

theorem Produced.mono {older journal : List (BoardEvent queueNames β)} {r : Rebuild queueNames}
    {body : β} (hsub : ∀ e ∈ older, e ∈ journal) (h : Produced older r body) :
    Produced journal r body := by
  obtain ⟨id, ⟨window, hdispatched⟩, hcompleted⟩ := h
  exact ⟨id, ⟨window, hsub _ hdispatched⟩, hsub _ hcompleted⟩

theorem Board.initial_intact (env : Environment) : (Board.initial queueNames β).Intact env where
  size_le := Nat.zero_le _
  stored := fun key entry h => by simp [Board.initial, CacheState.initial] at h
  flying := fun id r h => by simp [Board.initial] at h
  owed := trivial

/-! ## One step -/

/-- An entry under a query's key was produced for exactly that view. -/
theorem Board.Intact.produced {b : Board queueNames β} (hb : b.Intact env) {query : Query}
    {entry : SnapshotEntry β}
    (h : b.cache.snapshotCache.get (viewKey queueNames query) = some entry) :
    ∃ r, r.query = canonicalizeQuery query queueNames ∧ Produced b.journal r entry.body := by
  obtain ⟨r, hkey, -, -, hproduced⟩ := hb.stored _ _ h
  refine ⟨r, ?_, hproduced⟩
  rw [r.cacheKey_eq] at hkey
  exact buildSnapshotKey_injective r.wellFormed
    (canonicalizeQuery_wellFormed query queueNames) hkey

theorem Board.Intact.answered {b : Board queueNames β} (hb : b.Intact env) {query : Query}
    {now : Nat} {event : BoardEvent queueNames β} (h : b.Answered env query now event) :
    event.Owed b.journal := by
  cases h with
  | hit get _ => exact hb.produced get
  | stale get _ _ => exact hb.produced get
  | shed _ _ => trivial

theorem Board.Intact.poll {b : Board queueNames β} (hb : b.Intact env) (query : Query)
    (now : Nat) : (b.poll env query now).Intact env := by
  rcases b.poll_cases env query now with
    ⟨event, cache, hanswered, hsame, -, hp⟩ | ⟨r, cache, hmissed, hsame, -, hp⟩
  · rw [hp]
    refine ⟨hsame.snapshotCache ▸ hb.size_le, ?_, ?_, ⟨hb.answered hanswered, hb.owed⟩⟩
    · intro key entry h
      simp only [hsame.snapshotCache, hsame.currentGeneration] at h ⊢
      obtain ⟨r, hkey, hgen, hle, hproduced⟩ := hb.stored key entry h
      exact ⟨r, hkey, hgen, hle, hproduced.mono fun e he => List.mem_cons_of_mem _ he⟩
    · intro id r h
      simp only [hsame.currentGeneration]
      obtain ⟨hid, hle, window, hdispatched⟩ := hb.flying id r h
      exact ⟨hid, hle, window, List.mem_cons_of_mem _ hdispatched⟩
  · rw [hp]
    refine ⟨hsame.snapshotCache ▸ hb.size_le, ?_, ?_, ⟨trivial, hb.owed⟩⟩
    · intro key entry h
      simp only [hsame.snapshotCache, hsame.currentGeneration] at h ⊢
      obtain ⟨r, hkey, hgen, hle, hproduced⟩ := hb.stored key entry h
      exact ⟨r, hkey, hgen, hle, hproduced.mono fun e he => List.mem_cons_of_mem _ he⟩
    · intro id s h
      simp only [hsame.currentGeneration]
      rcases Table.get_put_eq_some.1 h with ⟨rfl, rfl⟩ | ⟨-, hold⟩
      · exact ⟨by omega, le_of_eq hmissed.generation_eq, _, List.mem_cons_self⟩
      · obtain ⟨hid, hle, window, hdispatched⟩ := hb.flying id s hold
        exact ⟨by omega, hle, window, List.mem_cons_of_mem _ hdispatched⟩

theorem Board.Intact.complete {b t : Board queueNames β} (hb : b.Intact env)
    {id statusCode now : Nat}
    {body : β} (h : b.complete env id statusCode body now = some t) : t.Intact env := by
  obtain ⟨r, hr, rfl⟩ := Board.complete_eq_some.1 h
  obtain ⟨-, hgen, window, hdispatched⟩ := hb.flying id r hr
  have holder : ∀ e ∈ b.journal, e ∈ b.logCompletion env id r statusCode body :=
    fun e he => Board.mem_logCompletion.2 (Or.inr (Or.inr he))
  refine ⟨size_captureJson_le env r statusCode body now b.cache hb.size_le, ?_, ?_, ?_⟩
  · intro key entry hentry
    simp only [captureJson_currentGeneration]
    have hkeep : b.cache.snapshotCache.get key = some entry →
        ∃ s, s.cacheKey = key ∧ s.generationAtDispatch = entry.generation ∧
          entry.generation ≤ b.cache.currentGeneration ∧
          Produced (b.logCompletion env id r statusCode body) s entry.body := by
      intro hold
      obtain ⟨s, hkey, hsgen, hle, hproduced⟩ := hb.stored key entry hold
      exact ⟨s, hkey, hsgen, hle, hproduced.mono holder⟩
    by_cases hstatus : statusCode = 200
    · subst hstatus
      simp only [get_captureJson_200] at hentry
      split at hentry
      · rename_i hkey
        obtain rfl := Option.some.inj hentry
        exact ⟨r, hkey.symm, rfl, hgen, id, ⟨window, holder _ hdispatched⟩,
          Board.mem_logCompletion.2 (Or.inl rfl)⟩
      · split at hentry
        · exact absurd hentry (by simp)
        · exact hkeep hentry
    · simp only [captureJson_ne_200 env r body now b.cache hstatus] at hentry
      exact hkeep hentry
  · intro i s hs
    simp only [captureJson_currentGeneration]
    have hold := (Table.get_remove_eq_some.1 hs).2
    obtain ⟨hi, hle, w, hw⟩ := hb.flying i s hold
    exact ⟨hi, hle, w, holder _ hw⟩
  · simp only [Board.logCompletion]
    split
    · exact ⟨⟨window, List.mem_cons_of_mem _ hdispatched⟩, trivial, hb.owed⟩
    · exact ⟨⟨window, hdispatched⟩, hb.owed⟩

theorem Board.Intact.invalidate {b : Board queueNames β} (hb : b.Intact env) :
    b.invalidate.Intact env where
  size_le := hb.size_le
  stored := by
    intro key entry h
    obtain ⟨r, hkey, hgen, hle, hproduced⟩ := hb.stored key entry h
    exact ⟨r, hkey, hgen, Nat.le_succ_of_le hle,
      hproduced.mono fun e he => List.mem_cons_of_mem _ he⟩
  flying := by
    intro id r h
    obtain ⟨hid, hle, window, hdispatched⟩ := hb.flying id r h
    exact ⟨hid, Nat.le_succ_of_le hle, window, List.mem_cons_of_mem _ hdispatched⟩
  owed := ⟨trivial, hb.owed⟩

theorem Board.Intact.step {b t : Board queueNames β} (hb : b.Intact env) {a : BoardAction β}
    (h : b.step env a = some t) : t.Intact env := by
  cases a with
  | poll query now =>
      obtain rfl := Option.some.inj h
      exact hb.poll query now
  | complete id statusCode body now => exact hb.complete h
  | invalidate =>
      obtain rfl := Option.some.inj h
      exact hb.invalidate

/-! ## Every reachable board -/

theorem intact_of_reachable {b : Board queueNames β}
    (hb : (board env queueNames β).Reachable b) : b.Intact env :=
  hb.invariant (Board.initial_intact env) fun _ _ _ hs h => hs.step h

/-- In every reachable state the store is within its ceiling, no entry is newer
than the current generation, and each entry is a 200 body the upstream handler
gave a request whose rewritten query has the entry's key; so whatever is served
from the store was produced for exactly the view that was asked for. -/
theorem snapshotStore_integrity {b : Board queueNames β}
    (hb : (board env queueNames β).Reachable b) :
    b.cache.snapshotCache.size ≤ env.dashboardMaxCacheEntries ∧
    (∀ key entry, b.cache.snapshotCache.get key = some entry →
      entry.generation ≤ b.cache.currentGeneration ∧
      ∃ r, buildSnapshotKey r.query = key ∧ Produced b.journal r entry.body) ∧
    (∀ newer source query body older,
      b.journal = newer ++ .served source query body :: older →
      ∃ r, r.query = canonicalizeQuery query queueNames ∧ Produced older r body) := by
  have hintact := intact_of_reachable hb
  refine ⟨hintact.size_le, ?_, ?_⟩
  · intro key entry h
    obtain ⟨r, hkey, -, hle, hproduced⟩ := hintact.stored key entry h
    exact ⟨hle, r, r.cacheKey_eq ▸ hkey, hproduced⟩
  · intro newer source query body older hjournal
    have howed := hintact.owed
    rw [hjournal] at howed
    exact howed.at

def polledTwice : List (BoardAction Nat) :=
  [.poll [] 0, .complete 0 200 7 1, .poll [(js "page", .string (js "1"))] 2]

theorem snapshotStore_integrity_polledTwice :
    ∃ b older, (board .default [js "q"] Nat).Reachable b ∧
      b.journal = .served .cache [(js "page", .string (js "1"))] 7 :: older ∧
      ∃ r, r.query = canonicalizeQuery [(js "page", .string (js "1"))] [js "q"] ∧
        Produced older r 7 := by
  have hrun : ((board .default [js "q"] Nat).run (.initial [js "q"] Nat) polledTwice).map
      (fun b => b.journal.head?) =
        some (some (.served .cache [(js "page", .string (js "1"))] 7)) := rfl
  obtain ⟨b, hb, hhead⟩ := Option.map_eq_some_iff.1 hrun
  obtain ⟨older, hjournal⟩ := List.head?_eq_some_iff.1 hhead
  have hreach : (board .default [js "q"] Nat).Reachable b := ⟨polledTwice, hb⟩
  exact ⟨b, older, hreach, hjournal, (snapshotStore_integrity hreach).2.2 [] _ _ _ _ hjournal⟩

end TaskQueue.Dashboard

import TaskQueue.Dashboard.Integrity

/-!
# Rebuilds that overtake each other

A capture stores its body without looking at what it replaces.  As long as the
rebuilds of a view arrive in the order of the generations they were dispatched
under, the stored body of a view is its newest; a slow rebuild that arrives
after a faster, later one puts the older body back, and a spent refresh budget
then serves it as the last good snapshot.
-/

namespace TaskQueue.Dashboard

open Ecma Journal

variable {env : Environment} {queueNames : List JsString} {β : Type}

/-- The good bodies that arrived since the store was last cleared wholesale. -/
def arrivals : List (BoardEvent queueNames β) → List (Rebuild queueNames × β)
  | [] => []
  | .cleared :: _ => []
  | .completed _ r statusCode body :: older =>
      if statusCode = 200 then (r, body) :: arrivals older else arrivals older
  | _ :: older => arrivals older

/-- `body` answers `query` with the latest generation of its view that arrived. -/
def LatestArrival (journal : List (BoardEvent queueNames β)) (query : Query) (body : β) : Prop :=
  ∃ r, (r, body) ∈ arrivals journal ∧ r.query = canonicalizeQuery query queueNames ∧
    ∀ a ∈ arrivals journal, a.1.query = r.query → a.1.generationAtDispatch ≤ r.generationAtDispatch

/-- A good body arrives only when no rebuild of its view that was dispatched
under a later generation has arrived since the last clear. -/
def InOrder (env : Environment) (b : Board queueNames β) : BoardAction β → Prop
  | .complete id statusCode _ _ => statusCode = 200 → b.atCeiling env = false →
      ∀ r ∈ b.inFlight.get id, ∀ a ∈ arrivals b.journal, a.1.query = r.query →
        a.1.generationAtDispatch ≤ r.generationAtDispatch
  | _ => True

instance (env : Environment) (b : Board queueNames β) :
    ∀ action, Decidable (InOrder env b action)
  | .poll _ _ => isTrue trivial
  | .complete id statusCode _ _ => inferInstanceAs (Decidable (statusCode = 200 →
      b.atCeiling env = false → ∀ r ∈ b.inFlight.get id, ∀ a ∈ arrivals b.journal,
        a.1.query = r.query → a.1.generationAtDispatch ≤ r.generationAtDispatch))
  | .invalidate => isTrue trivial

/-- Unless it clears the store, the action replaces no entry by one of an
earlier generation. -/
def KeepsNewest (env : Environment) (b : Board queueNames β) (action : BoardAction β) : Prop :=
  b.atCeiling env = false → ∀ t, b.step env action = some t →
    ∀ key entry entry', b.cache.snapshotCache.get key = some entry →
      t.cache.snapshotCache.get key = some entry' → entry.generation ≤ entry'.generation

def StaleOwed : BoardEvent queueNames β → List (BoardEvent queueNames β) → Prop
  | .served .stale query body, older => LatestArrival older query body
  | _, _ => True

/-! ## The store mirrors the latest arrivals -/

structure Board.Mirrors (b : Board queueNames β) : Prop where
  stored : ∀ key entry, b.cache.snapshotCache.get key = some entry →
    ∃ r, (r, entry.body) ∈ arrivals b.journal ∧ r.cacheKey = key ∧
      r.generationAtDispatch = entry.generation
  newest : ∀ a ∈ arrivals b.journal, ∃ entry,
    b.cache.snapshotCache.get a.1.cacheKey = some entry ∧
      a.1.generationAtDispatch ≤ entry.generation
  owed : Justified StaleOwed b.journal

theorem cacheKey_eq_iff {r s : Rebuild queueNames} :
    r.cacheKey = s.cacheKey ↔ r.query = s.query := by
  constructor
  · intro h
    rw [r.cacheKey_eq, s.cacheKey_eq] at h
    exact buildSnapshotKey_injective r.wellFormed s.wellFormed h
  · intro h
    rw [r.cacheKey_eq, s.cacheKey_eq, h]

theorem Board.Mirrors.latest {b : Board queueNames β} (hb : b.Mirrors) {query : Query}
    {entry : SnapshotEntry β}
    (h : b.cache.snapshotCache.get (viewKey queueNames query) = some entry) :
    LatestArrival b.journal query entry.body := by
  obtain ⟨r, hmem, hkey, hgen⟩ := hb.stored _ _ h
  have hquery : r.query = canonicalizeQuery query queueNames := by
    rw [r.cacheKey_eq] at hkey
    exact buildSnapshotKey_injective r.wellFormed
      (canonicalizeQuery_wellFormed query queueNames) hkey
  refine ⟨r, hmem, hquery, fun a ha hview => ?_⟩
  obtain ⟨entry', hentry', hle⟩ := hb.newest a ha
  rw [cacheKey_eq_iff.2 hview, hkey, h] at hentry'
  obtain rfl := Option.some.inj hentry'
  omega

/-- Events that neither clear nor deliver a good body leave the arrivals alone,
so the mirror survives any step that also leaves the snapshots alone. -/
theorem Board.Mirrors.of_quiet {b t : Board queueNames β} (hb : b.Mirrors)
    (event : BoardEvent queueNames β) (hcache : t.cache.snapshotCache = b.cache.snapshotCache)
    (hjournal : t.journal = event :: b.journal) (hquiet : arrivals (event :: b.journal) =
      arrivals b.journal) (howed : StaleOwed event b.journal) : t.Mirrors where
  stored := by
    rw [hcache, hjournal, hquiet]
    exact hb.stored
  newest := by
    rw [hcache, hjournal, hquiet]
    exact hb.newest
  owed := by
    rw [hjournal]
    exact ⟨howed, hb.owed⟩

theorem Board.Mirrors.answered {b : Board queueNames β} (hb : b.Mirrors) {query : Query}
    {now : Nat} {event : BoardEvent queueNames β} (h : b.Answered env query now event) :
    arrivals (event :: b.journal) = arrivals b.journal ∧ StaleOwed event b.journal := by
  cases h with
  | hit _ _ => exact ⟨rfl, trivial⟩
  | stale get _ _ => exact ⟨rfl, hb.latest get⟩
  | shed _ _ => exact ⟨rfl, trivial⟩

theorem Board.Mirrors.poll {b : Board queueNames β} (hb : b.Mirrors) (query : Query)
    (now : Nat) : (b.poll env query now).Mirrors := by
  rcases b.poll_cases env query now with
    ⟨event, cache, hanswered, hsame, -, hp⟩ | ⟨r, cache, -, hsame, -, hp⟩
  · rw [hp]
    obtain ⟨hquiet, howed⟩ := hb.answered hanswered
    exact hb.of_quiet event hsame.snapshotCache rfl hquiet howed
  · rw [hp]
    exact hb.of_quiet _ hsame.snapshotCache rfl rfl trivial

theorem arrivals_logCompletion_200 (env : Environment) (b : Board queueNames β) (id : Nat)
    (r : Rebuild queueNames) (body : β) :
    arrivals (b.logCompletion env id r 200 body) =
      (r, body) :: if b.atCeiling env then [] else arrivals b.journal := by
  unfold Board.logCompletion
  cases b.atCeiling env <;> rfl

/-- A good body that arrives in order becomes the newest of its view. -/
theorem Board.Mirrors.complete_200 {b t : Board queueNames β} (hb : b.Mirrors) {id now : Nat}
    {body : β} (horder : InOrder env b (.complete id 200 body now))
    (h : b.complete env id 200 body now = some t) : t.Mirrors := by
  obtain ⟨r, hr, rfl⟩ := Board.complete_eq_some.1 h
  have hget := get_captureJson_200 env r body now b.cache
  cases hfull : b.atCeiling env with
  | true =>
      have hsize : env.dashboardMaxCacheEntries ≤ b.cache.snapshotCache.size := by
        simpa [Board.atCeiling] using hfull
      have harr : arrivals (b.logCompletion env id r 200 body) = [(r, body)] := by
        rw [arrivals_logCompletion_200, hfull, if_pos rfl]
      refine ⟨fun key entry hentry => ?_, fun a ha => ?_, ?_⟩
      · simp only [hget, if_pos hsize] at hentry
        split at hentry
        · rename_i hkey
          obtain rfl := Option.some.inj hentry
          exact ⟨r, by simp [harr], hkey.symm, rfl⟩
        · exact absurd hentry (by simp)
      · simp only [harr, List.mem_singleton] at ha
        subst ha
        exact ⟨_, get_captureJson_self env r body now b.cache, le_refl _⟩
      · simp only [Board.logCompletion, hfull, and_self, if_true]
        exact ⟨trivial, trivial, hb.owed⟩
  | false =>
      have hsize : ¬env.dashboardMaxCacheEntries ≤ b.cache.snapshotCache.size := by
        simpa [Board.atCeiling] using hfull
      have harr : arrivals (b.logCompletion env id r 200 body) =
          (r, body) :: arrivals b.journal := by
        rw [arrivals_logCompletion_200, hfull, if_neg (by simp)]
      refine ⟨fun key entry hentry => ?_, fun a ha => ?_, ?_⟩
      · simp only [hget, if_neg hsize] at hentry
        split at hentry
        · rename_i hkey
          obtain rfl := Option.some.inj hentry
          exact ⟨r, by simp [harr], hkey.symm, rfl⟩
        · obtain ⟨s, hs, hkey, hgen⟩ := hb.stored key entry hentry
          exact ⟨s, by simp [harr, hs], hkey, hgen⟩
      · simp only [harr, List.mem_cons] at ha
        rcases ha with rfl | ha
        · exact ⟨_, get_captureJson_self env r body now b.cache, le_refl _⟩
        · simp only [hget, if_neg hsize]
          split
          · rename_i hkey
            exact ⟨_, rfl, horder rfl hfull r hr a ha (cacheKey_eq_iff.1 hkey)⟩
          · exact hb.newest a ha
      · simp only [Board.logCompletion, hfull, Bool.false_eq_true, and_false, if_false]
        exact ⟨trivial, hb.owed⟩

theorem Board.Mirrors.complete_ne_200 {b t : Board queueNames β} (hb : b.Mirrors)
    {id statusCode now : Nat} {body : β} (hstatus : statusCode ≠ 200)
    (h : b.complete env id statusCode body now = some t) : t.Mirrors := by
  obtain ⟨r, hr, rfl⟩ := Board.complete_eq_some.1 h
  refine hb.of_quiet (.completed id r statusCode body) ?_ ?_ ?_ trivial
  · simp only [captureJson_ne_200 env r body now b.cache hstatus]
  · simp only [Board.logCompletion, hstatus, false_and, if_false]
  · simp only [arrivals, if_neg hstatus]

theorem Board.Mirrors.step {b t : Board queueNames β} (hb : b.Mirrors) {a : BoardAction β}
    (horder : InOrder env b a) (h : b.step env a = some t) : t.Mirrors := by
  cases a with
  | poll query now =>
      obtain rfl := Option.some.inj h
      exact hb.poll query now
  | complete id statusCode body now =>
      by_cases hstatus : statusCode = 200
      · subst hstatus
        exact hb.complete_200 horder h
      · exact hb.complete_ne_200 hstatus h
  | invalidate =>
      obtain rfl := Option.some.inj h
      exact hb.of_quiet .invalidated rfl rfl rfl trivial

/-! ## Order of arrival decides -/

/-- While the store mirrors the arrivals, an action keeps the newest entries
exactly when it delivers in order. -/
theorem Board.Mirrors.inOrder_iff {b : Board queueNames β} (hb : b.Mirrors) (a : BoardAction β) :
    InOrder env b a ↔ KeepsNewest env b a := by
  have hsame : ∀ t : Board queueNames β, t.cache.snapshotCache = b.cache.snapshotCache →
      ∀ key entry entry', b.cache.snapshotCache.get key = some entry →
        t.cache.snapshotCache.get key = some entry' → entry.generation ≤ entry'.generation := by
    intro t ht key entry entry' hentry hentry'
    rw [ht, hentry] at hentry'
    exact le_of_eq (congrArg SnapshotEntry.generation (Option.some.inj hentry'))
  cases a with
  | poll query now =>
      refine ⟨fun _ _ t ht => ?_, fun _ => trivial⟩
      obtain rfl := Option.some.inj ht
      apply hsame
      rcases b.poll_cases env query now with ⟨_, _, -, h, -, hp⟩ | ⟨_, _, -, h, -, hp⟩
      · rw [hp]
        exact h.snapshotCache
      · rw [hp]
        exact h.snapshotCache
  | complete id statusCode body now =>
      constructor
      · intro horder hfull t ht
        obtain ⟨r, hr, rfl⟩ := Board.complete_eq_some.1 ht
        by_cases hstatus : statusCode = 200
        · subst hstatus
          have hsize : ¬env.dashboardMaxCacheEntries ≤ b.cache.snapshotCache.size := by
            simpa [Board.atCeiling] using hfull
          intro key entry entry' hentry hentry'
          simp only [get_captureJson_200, if_neg hsize] at hentry'
          split at hentry'
          · rename_i hkey
            obtain rfl := Option.some.inj hentry'
            obtain ⟨s, hs, hskey, hgen⟩ := hb.stored key entry hentry
            rw [← hgen]
            exact horder rfl hfull r hr _ hs (cacheKey_eq_iff.1 (hskey.trans hkey))
          · rw [hentry] at hentry'
            exact le_of_eq (congrArg SnapshotEntry.generation (Option.some.inj hentry'))
        · exact hsame _ (by simp only [captureJson_ne_200 env r body now b.cache hstatus])
      · intro hkeeps hstatus hfull r hr a ha hview
        subst hstatus
        obtain ⟨entry, hentry, hle⟩ := hb.newest a ha
        rw [cacheKey_eq_iff.2 hview] at hentry
        refine hle.trans (hkeeps hfull _ (Board.complete_eq_some.2 ⟨r, hr, rfl⟩) r.cacheKey entry
          ⟨body, now + env.dashboardSnapshotTtlMs, r.generationAtDispatch⟩ hentry ?_)
        simp only [get_captureJson_200, if_true]
  | invalidate =>
      refine ⟨fun _ _ t ht => ?_, fun _ => trivial⟩
      obtain rfl := Option.some.inj ht
      exact hsame _ rfl

theorem Board.initial_mirrors : (Board.initial queueNames β).Mirrors where
  stored := fun key entry h => by simp [Board.initial, CacheState.initial] at h
  newest := fun a ha => by simp [Board.initial, arrivals] at ha
  owed := trivial

theorem meets_keepsNewest_iff (as : List (BoardAction β)) :
    (board env queueNames β).Meets (KeepsNewest env) (.initial queueNames β) as ↔
      (board env queueNames β).Meets (InOrder env) (.initial queueNames β) as :=
  (Automaton.meets_congr (fun _ _ _ _ hs hC ht => hs.step hC ht)
    (fun _ a _ hs => hs.inOrder_iff a) .start Board.initial_mirrors as).symm

theorem mirrors_of_inOrder {as : List (BoardAction β)} {b : Board queueNames β}
    (hrun : (board env queueNames β).run (.initial queueNames β) as = some b)
    (hmeets : (board env queueNames β).Meets (InOrder env) (.initial queueNames β) as) :
    b.Mirrors :=
  hmeets.preserves (fun _ _ _ _ hs hC ht => hs.step hC ht) .start Board.initial_mirrors hrun

theorem Board.Mirrors.latestArrival {b : Board queueNames β} (hb : b.Mirrors)
    {newer older : List (BoardEvent queueNames β)} {query : Query} {body : β}
    (hjournal : b.journal = newer ++ .served .stale query body :: older) :
    LatestArrival older query body := by
  have howed := hb.owed
  rw [hjournal] at howed
  exact howed.at

/-- A run keeps the newest entry of every view exactly when every rebuild arrives
in order; and then each stale answer is its view's latest arrival. -/
theorem newest_kept_iff_inOrder {as : List (BoardAction β)} {b : Board queueNames β}
    (hrun : (board env queueNames β).run (.initial queueNames β) as = some b) :
    ((board env queueNames β).Meets (KeepsNewest env) (.initial queueNames β) as ↔
      (board env queueNames β).Meets (InOrder env) (.initial queueNames β) as) ∧
    ((board env queueNames β).Meets (InOrder env) (.initial queueNames β) as →
      ∀ newer query body older, b.journal = newer ++ .served .stale query body :: older →
        LatestArrival older query body) :=
  ⟨meets_keepsNewest_iff as, fun hmeets _ _ _ _ hjournal =>
    (mirrors_of_inOrder hrun hmeets).latestArrival hjournal⟩

def frugal : Environment where
  __ := Environment.default
  dashboardMaxRefreshesPerWindow := 2
  dashboardMaxRefreshesPerWindow_pos := by decide

def orderly : List (BoardAction Nat) :=
  [.poll [] 0, .invalidate, .poll [] 1, .complete 0 200 10 2, .complete 1 200 20 3, .invalidate,
    .poll [] 4]

theorem newest_kept_iff_inOrder_orderly :
    ∃ b older, (board frugal [js "q"] Nat).run (.initial [js "q"] Nat) orderly = some b ∧
      b.journal = .served .stale [] 20 :: older ∧ LatestArrival older [] 20 := by
  have hrun : ((board frugal [js "q"] Nat).run (.initial [js "q"] Nat) orderly).map
      (fun b => b.journal.head?) = some (some (.served .stale [] 20)) := rfl
  obtain ⟨b, hb, hhead⟩ := Option.map_eq_some_iff.1 hrun
  obtain ⟨older, hjournal⟩ := List.head?_eq_some_iff.1 hhead
  exact ⟨b, older, hb, hjournal,
    (newest_kept_iff_inOrder hb).2 (by decide) [] [] 20 older hjournal⟩

/-! ## The slow rebuild -/

def slowRebuild : List (BoardAction Nat) :=
  [.poll [] 0, .invalidate, .poll [] 1, .complete 1 200 20 2, .complete 0 200 10 3, .poll [] 4]

/-- The generation-0 body replaces the generation-1 body of the same view, and is
then served stale, with no clear in between. -/
theorem slowRebuild_serves_older :
    ∃ b older, (board frugal [js "q"] Nat).run (.initial [js "q"] Nat) slowRebuild = some b ∧
      ¬(board frugal [js "q"] Nat).Meets (KeepsNewest frugal) (.initial [js "q"] Nat) slowRebuild ∧
      b.journal = .served .stale [] 10 :: older ∧ ¬LatestArrival older [] 10 := by
  have hrun : ((board frugal [js "q"] Nat).run (.initial [js "q"] Nat) slowRebuild).map
      (fun b => (b.journal.head?, (arrivals b.journal).map fun a =>
        (a.1.query, a.1.generationAtDispatch, a.2))) =
      some (some (.served .stale [] 10),
        [(canonicalizeQuery [] [js "q"], 0, 10), (canonicalizeQuery [] [js "q"], 1, 20)]) := rfl
  obtain ⟨b, hb, hlog⟩ := Option.map_eq_some_iff.1 hrun
  obtain ⟨hhead, harrivals⟩ := Prod.mk.inj hlog
  obtain ⟨older, hjournal⟩ := List.head?_eq_some_iff.1 hhead
  have hkept : ¬(board frugal [js "q"] Nat).Meets (KeepsNewest frugal) (.initial [js "q"] Nat)
      slowRebuild := by
    rw [meets_keepsNewest_iff]
    decide
  refine ⟨b, older, hb, hkept, hjournal, ?_⟩
  rintro ⟨r, hr, hquery, hlatest⟩
  rw [hjournal] at harrivals
  have hold : (r.query, r.generationAtDispatch, 10) ∈
      (arrivals older).map fun a => (a.1.query, a.1.generationAtDispatch, a.2) :=
    List.mem_map.2 ⟨(r, 10), hr, rfl⟩
  have hnew : (canonicalizeQuery [] [js "q"], 1, 20) ∈
      (arrivals older).map fun a => (a.1.query, a.1.generationAtDispatch, a.2) := by
    rw [show arrivals older = arrivals (.served .stale [] 10 :: older) from rfl, harrivals]
    simp
  rw [show arrivals older = arrivals (.served .stale [] 10 :: older) from rfl, harrivals] at hold
  obtain ⟨a, ha, hval⟩ := List.mem_map.1 hnew
  simp only [Prod.mk.injEq] at hval
  have hle := hlatest a ha (by rw [hval.1, hquery])
  simp at hold
  omega

end TaskQueue.Dashboard

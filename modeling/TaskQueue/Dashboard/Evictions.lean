import Mathlib.Data.Finset.Card
import TaskQueue.Dashboard.Overtaking

/-!
# What the entry ceiling drops

A capture compares the number of stored snapshots with the ceiling before it
looks at the key it stores under.  When the map is full and the rebuilt view is
already in it, nothing has to make room, and still every other view is dropped;
its next poll past the refresh budget is then shed.
-/

namespace TaskQueue.Dashboard

open Ecma Automaton

variable {env : Environment} {queueNames : List JsString} {β : Type}

def storedViews : List (BoardEvent queueNames β) → Finset CanonicalQuery
  | [] => ∅
  | .completed _ r statusCode _ :: older =>
      if statusCode = 200 then insert r.query (storedViews older) else storedViews older
  | _ :: older => storedViews older

/-- What one action owes to the snapshots: a stored one stays, or makes place for
the body of the same view that arrives in this very step, and a view that was
rebuilt before is not shed. -/
structure KeepsSnapshots (env : Environment) (b : Board queueNames β) (action : BoardAction β) :
    Prop where
  stored : ∀ t, b.step env action = some t →
    ∀ key entry, b.cache.snapshotCache.get key = some entry →
      ∃ entry', t.cache.snapshotCache.get key = some entry' ∧
        (entry' = entry ∨ ∃ id r now, action = .complete id 200 entry'.body now ∧
          b.inFlight.get id = some r ∧ r.cacheKey = key)
  answered : ∀ query now, action = .poll query now →
    canonicalizeQuery query queueNames ∈ storedViews b.journal →
      (serveSnapshot env queueNames query now b.cache).1 ≠ .shed

def StoresBelowCeiling (env : Environment) (b : Board queueNames β) : BoardAction β → Prop
  | .complete id statusCode _ _ =>
      statusCode = 200 → b.inFlight.get id ≠ none → b.atCeiling env = false
  | _ => True

instance (env : Environment) (b : Board queueNames β) :
    ∀ action, Decidable (StoresBelowCeiling env b action)
  | .poll _ _ => isTrue trivial
  | .complete id statusCode _ _ =>
      have : Decidable (b.inFlight.get id ≠ none) :=
        decidable_of_iff ((b.inFlight.get id).isSome = true) Option.isSome_iff_ne_none
      inferInstanceAs (Decidable (statusCode = 200 → _ → b.atCeiling env = false))
  | .invalidate => isTrue trivial

/-! ## The views a journal has stored -/

theorem mem_storedViews {journal : List (BoardEvent queueNames β)} {view : CanonicalQuery} :
    view ∈ storedViews journal ↔
      ∃ id r body, .completed id r 200 body ∈ journal ∧ r.query = view := by
  induction journal with
  | nil => simp [storedViews]
  | cons e older ih =>
      cases e with
      | completed id r statusCode body =>
          by_cases hstatus : statusCode = 200
          · subst hstatus
            simp only [storedViews, if_true, Finset.mem_insert, ih, List.mem_cons]
            constructor
            · rintro (rfl | ⟨i, s, other, hold, hview⟩)
              · exact ⟨id, r, body, Or.inl rfl, rfl⟩
              · exact ⟨i, s, other, Or.inr hold, hview⟩
            · rintro ⟨i, s, other, hnew | hold, hview⟩
              · obtain ⟨-, rfl, -, -⟩ := BoardEvent.completed.inj hnew
                exact Or.inl hview.symm
              · exact Or.inr ⟨i, s, other, hold, hview⟩
          · simp only [storedViews, if_neg hstatus, ih, List.mem_cons]
            constructor
            · rintro ⟨i, s, other, hold, hview⟩
              exact ⟨i, s, other, Or.inr hold, hview⟩
            · rintro ⟨i, s, other, hnew | hold, hview⟩
              · exact absurd (BoardEvent.completed.inj hnew).2.2.1.symm hstatus
              · exact ⟨i, s, other, hold, hview⟩
      | served source query body => simp [storedViews, ih]
      | shed query => simp [storedViews, ih]
      | dispatched id r window => simp [storedViews, ih]
      | cleared => simp [storedViews, ih]
      | invalidated => simp [storedViews, ih]

theorem Board.store_cases {b t : Board queueNames β} {a : BoardAction β}
    (h : b.step env a = some t) :
    ((∀ id body now r, a = .complete id 200 body now → b.inFlight.get id ≠ some r) ∧
      t.cache.snapshotCache = b.cache.snapshotCache ∧
      storedViews t.journal = storedViews b.journal) ∨
    ∃ id body now r, a = .complete id 200 body now ∧ b.inFlight.get id = some r ∧
      t.cache = captureJson env r 200 body now b.cache ∧
      storedViews t.journal = insert r.query (storedViews b.journal) := by
  cases a with
  | poll query now =>
      obtain rfl := Option.some.inj h
      refine Or.inl ⟨fun _ _ _ _ hcomplete => absurd hcomplete (by simp), ?_⟩
      rcases b.poll_cases env query now with
        ⟨event, _, hanswered, hsame, -, hp⟩ | ⟨_, _, -, hsame, -, hp⟩
      · rw [hp]
        refine ⟨hsame.snapshotCache, ?_⟩
        cases hanswered <;> rfl
      · rw [hp]
        exact ⟨hsame.snapshotCache, rfl⟩
  | complete id statusCode body now =>
      obtain ⟨r, hr, rfl⟩ := Board.complete_eq_some.1 h
      by_cases hstatus : statusCode = 200
      · subst hstatus
        refine Or.inr ⟨id, body, now, r, rfl, hr, rfl, ?_⟩
        simp only [Board.logCompletion]
        split <;> rfl
      · refine Or.inl ⟨fun _ _ _ _ hcomplete => ?_, ?_, ?_⟩
        · exact absurd (BoardAction.complete.inj hcomplete).2.1 hstatus
        · simp only [captureJson_ne_200 env r body now b.cache hstatus]
        · simp only [Board.logCompletion, hstatus, false_and, if_false, storedViews]
  | invalidate =>
      obtain rfl := Option.some.inj h
      exact Or.inl ⟨fun _ _ _ _ hcomplete => absurd hcomplete (by simp), rfl, rfl⟩

theorem storedViews_subset {b t : Board queueNames β} {a : BoardAction β}
    (h : b.step env a = some t) : storedViews b.journal ⊆ storedViews t.journal := by
  rcases Board.store_cases h with ⟨-, -, hviews⟩ | ⟨_, _, _, r, -, -, -, hviews⟩
  · rw [hviews]
  · rw [hviews]
    exact Finset.subset_insert _ _

/-! ## One step -/

def Board.Retains (b : Board queueNames β) : Prop :=
  ∀ r : Rebuild queueNames, r.query ∈ storedViews b.journal →
    b.cache.snapshotCache.get r.cacheKey ≠ none

theorem Board.initial_retains : (Board.initial queueNames β).Retains :=
  fun _ h => absurd h (by simp [Board.initial, storedViews])

/-- A good body arrives at the ceiling only if its own view is all there is in the
store. -/
def Spares (env : Environment) (b : Board queueNames β) (action : BoardAction β) : Prop :=
  ∀ id body now r, action = .complete id 200 body now → b.inFlight.get id = some r →
    ∀ key, b.cache.snapshotCache.get key ≠ none → key = r.cacheKey ∨ b.atCeiling env = false

/-- A poll of a view in the store is answered from it or rebuilt. -/
theorem serveSnapshot_ne_shed {query : Query} {now : Nat} {cache : CacheState β}
    (h : cache.snapshotCache.get (viewKey queueNames query) ≠ none) :
    (serveSnapshot env queueNames query now cache).1 ≠ .shed := by
  intro hshed
  rcases serveSnapshot_cases env queueNames query now cache with
    ⟨_, -, -, hs⟩ | ⟨-, ⟨-, _, -, -, -, hs⟩ | ⟨-, _, -, hs⟩ | ⟨-, hnone, -⟩⟩
  · rw [hs] at hshed
    cases hshed
  · rw [hs] at hshed
    cases hshed
  · rw [hs] at hshed
    cases hshed
  · exact h hnone

/-- What a capture leaves of an entry that is spared. -/
theorem get_captureJson_of_spared {b : Board queueNames β} {r : Rebuild queueNames} (body : β)
    (now : Nat) {key : JsString} {entry : SnapshotEntry β}
    (hroom : key = r.cacheKey ∨ b.atCeiling env = false)
    (h : b.cache.snapshotCache.get key = some entry) :
    ∃ entry', (captureJson env r 200 body now b.cache).snapshotCache.get key = some entry' ∧
      (entry' = entry ∨ entry'.body = body ∧ r.cacheKey = key) := by
  rw [get_captureJson_200]
  by_cases hkey : key = r.cacheKey
  · exact ⟨_, if_pos hkey, Or.inr ⟨rfl, hkey.symm⟩⟩
  · have hbelow : ¬env.dashboardMaxCacheEntries ≤ b.cache.snapshotCache.size := by
      simpa [Board.atCeiling] using hroom.resolve_left hkey
    rw [if_neg hkey, if_neg hbelow]
    exact ⟨entry, h, Or.inl rfl⟩

theorem Board.Retains.step {b t : Board queueNames β} (hb : b.Retains) {a : BoardAction β}
    (hspares : Spares env b a) (h : b.step env a = some t) : t.Retains := by
  intro r hr
  rcases Board.store_cases h with ⟨-, hcache, hviews⟩ | ⟨id, body, now, s, ha, hs, hcache, hviews⟩
  · rw [hcache]
    exact hb r (hviews ▸ hr)
  · rw [hcache]
    rcases Finset.mem_insert.1 (hviews ▸ hr) with hquery | hold
    · have hkey : r.cacheKey = s.cacheKey := by rw [r.cacheKey_eq, s.cacheKey_eq, hquery]
      rw [hkey, get_captureJson_self]
      exact Option.some_ne_none _
    · obtain ⟨entry, hentry⟩ := Option.ne_none_iff_exists'.1 (hb r hold)
      have hroom := hspares id body now s ha hs r.cacheKey (hb r hold)
      obtain ⟨entry', hentry', -⟩ := get_captureJson_of_spared body now hroom hentry
      rw [hentry']
      exact Option.some_ne_none _

/-- With every rebuilt view in the store, keeping the snapshots is a matter of the
ceiling alone. -/
theorem keepsSnapshots_iff_spares {b : Board queueNames β} (hb : b.Retains)
    (a : BoardAction β) : KeepsSnapshots env b a ↔ Spares env b a := by
  constructor
  · intro hkeeps id body now r ha hr key hkey
    obtain ⟨entry, hentry⟩ := Option.ne_none_iff_exists'.1 hkey
    by_cases hself : key = r.cacheKey
    · exact Or.inl hself
    · refine Or.inr ?_
      have hstep : b.step env a = some ⟨captureJson env r 200 body now b.cache,
          b.inFlight.remove id, b.started, b.logCompletion env id r 200 body⟩ := by
        rw [ha]
        exact Board.complete_eq_some.2 ⟨r, hr, rfl⟩
      obtain ⟨entry', hentry', -⟩ := hkeeps.stored _ hstep key entry hentry
      simp only [get_captureJson_200, if_neg hself] at hentry'
      split at hentry'
      · cases hentry'
      · rename_i hbelow
        simpa [Board.atCeiling] using hbelow
  · intro hspares
    refine ⟨fun t hstep key entry hentry => ?_, fun query now _ hview => ?_⟩
    · rcases Board.store_cases hstep with ⟨-, hcache, -⟩ | ⟨id, body, now, r, ha, hr, hcache, -⟩
      · exact ⟨entry, hcache ▸ hentry, Or.inl rfl⟩
      · have hroom := hspares id body now r ha hr key (by rw [hentry]; exact Option.some_ne_none _)
        obtain ⟨entry', hentry', hcases⟩ := get_captureJson_of_spared body now hroom hentry
        refine ⟨entry', hcache ▸ hentry', hcases.imp_right fun hnew => ?_⟩
        exact ⟨id, r, now, by rw [ha, hnew.1], hr, hnew.2⟩
    · obtain ⟨id, r, body, -, hquery⟩ := mem_storedViews.1 hview
      refine serveSnapshot_ne_shed ?_
      have hkey : viewKey queueNames query = r.cacheKey := by
        rw [r.cacheKey_eq, hquery, viewKey]
      rw [hkey]
      exact hb r (hquery ▸ hview)

/-! ## Sparing the others -/

/-- With room for two, the store at its ceiling holds another view. -/
theorem spares_iff_storesBelowCeiling {b : Board queueNames β}
    (hmax : env.dashboardMaxCacheEntries ≠ 1) (a : BoardAction β) :
    Spares env b a ↔ StoresBelowCeiling env b a := by
  have hpos := env.dashboardMaxCacheEntries_pos
  constructor
  · intro hspares
    cases a with
    | complete id statusCode body now =>
        intro hstatus hflying
        obtain ⟨r, hr⟩ := Option.ne_none_iff_exists'.1 hflying
        by_contra hceiling
        have hsize : env.dashboardMaxCacheEntries ≤ b.cache.snapshotCache.size := by
          simpa [Board.atCeiling] using hceiling
        obtain ⟨key, entry, hother, hentry⟩ :=
          Table.exists_get_of_one_lt_size (t := b.cache.snapshotCache) (by omega) r.cacheKey
        have hroom := hspares id body now r (by rw [hstatus]) hr key
          (by rw [hentry]; exact Option.some_ne_none _)
        exact hroom.elim hother hceiling
    | poll query now => trivial
    | invalidate => trivial
  · rintro hbelow id body now r rfl hr key -
    exact Or.inr (hbelow rfl (by rw [hr]; exact Option.some_ne_none _))

/-- If a single view is ever stored, no other is there to be dropped. -/
theorem spares_of_card_le_one {b : Board queueNames β} (hb : b.Intact env) {a : BoardAction β}
    (h : ∀ t ∈ b.step env a, (storedViews t.journal).card ≤ 1) : Spares env b a := by
  intro id body now r ha hr key hkey
  obtain ⟨entry, hentry⟩ := Option.ne_none_iff_exists'.1 hkey
  obtain ⟨s, hs, -, -, i, -, hcompleted⟩ := hb.stored key entry hentry
  have hstep : b.step env a = some ⟨captureJson env r 200 body now b.cache,
      b.inFlight.remove id, b.started, b.logCompletion env id r 200 body⟩ := by
    rw [ha]
    exact Board.complete_eq_some.2 ⟨r, hr, rfl⟩
  have hone := h _ hstep
  have hnew : r.query ∈ storedViews (b.logCompletion env id r 200 body) :=
    mem_storedViews.2 ⟨id, r, body, Board.mem_logCompletion.2 (Or.inl rfl), rfl⟩
  have hold : s.query ∈ storedViews (b.logCompletion env id r 200 body) :=
    mem_storedViews.2
      ⟨i, s, entry.body, Board.mem_logCompletion.2 (Or.inr (Or.inr hcompleted)), rfl⟩
  have hquery : s.query = r.query := Finset.card_le_one.1 hone _ hold _ hnew
  exact Or.inl (by rw [← hs, s.cacheKey_eq, r.cacheKey_eq, hquery])

/-! ## Whole runs -/

theorem meets_keepsSnapshots_iff (as : List (BoardAction β)) :
    (board env queueNames β).Meets (KeepsSnapshots env) (.initial queueNames β) as ↔
      (board env queueNames β).Meets (Spares env) (.initial queueNames β) as :=
  meets_congr (I := Board.Retains)
    (fun _ a _ _ hs hkeeps ht => hs.step ((keepsSnapshots_iff_spares hs a).1 hkeeps) ht)
    (fun _ a _ hs => keepsSnapshots_iff_spares hs a) .start Board.initial_retains as

theorem meets_card_le {as : List (BoardAction β)} {b : Board queueNames β} {n : Nat}
    (hrun : (board env queueNames β).run (.initial queueNames β) as = some b)
    (hviews : (storedViews b.journal).card ≤ n) :
    (board env queueNames β).Meets (fun s a => ∀ t ∈ s.step env a, (storedViews t.journal).card ≤ n)
      (.initial queueNames β) as := by
  refine (measure_le_iff_meets (I := fun _ => True) (Q := fun _ _ => True)
    (m := fun s : Board queueNames β => (storedViews s.journal).card)
    (fun s a t ht => Finset.card_le_card (storedViews_subset ht)) (fun _ _ _ _ _ _ => trivial)
    (fun s a t _ _ _ ht => ?_) trivial (Nat.zero_le _) (meets_of_forall (fun _ _ => trivial) _ _)
    hrun).1 hviews
  constructor
  · intro hle u hu
    obtain rfl : t = u := Option.some.inj (ht.symm.trans hu)
    exact hle
  · intro hall
    exact hall t ht

/-- In a run that stores no more distinct views than the ceiling allows, snapshots
are kept, and no view that was rebuilt is shed, exactly when the ceiling is one or
no good body ever arrives while the store is full. -/
theorem snapshots_kept_iff {as : List (BoardAction β)} {b : Board queueNames β}
    (hrun : (board env queueNames β).run (.initial queueNames β) as = some b)
    (hviews : (storedViews b.journal).card ≤ env.dashboardMaxCacheEntries) :
    (board env queueNames β).Meets (KeepsSnapshots env) (.initial queueNames β) as ↔
      env.dashboardMaxCacheEntries = 1 ∨
        (board env queueNames β).Meets (StoresBelowCeiling env) (.initial queueNames β) as := by
  rw [meets_keepsSnapshots_iff]
  by_cases hmax : env.dashboardMaxCacheEntries = 1
  · simp only [hmax, true_or, iff_true]
    exact Meets.mono_of (I := fun _ => True) (fun _ _ _ _ _ _ _ => trivial)
      (fun s a hs _ => spares_of_card_le_one (intact_of_reachable hs)) .start trivial
      (meets_card_le hrun (hmax ▸ hviews))
  · simp only [hmax, false_or]
    constructor
    · exact Meets.mono fun s a => (spares_iff_storesBelowCeiling hmax a).1
    · exact Meets.mono fun s a => (spares_iff_storesBelowCeiling hmax a).2

theorem snapshots_kept_iff_polledTwice :
    ∃ b, (board .default [js "q"] Nat).run (.initial [js "q"] Nat) polledTwice = some b ∧
      (storedViews b.journal).card ≤ Environment.default.dashboardMaxCacheEntries ∧
      (board .default [js "q"] Nat).Meets (KeepsSnapshots .default) (.initial [js "q"] Nat)
        polledTwice := by
  have hrun : ((board .default [js "q"] Nat).run (.initial [js "q"] Nat) polledTwice).map
      (fun b => (storedViews b.journal).card) = some 1 := rfl
  obtain ⟨b, hb, hcard⟩ := Option.map_eq_some_iff.1 hrun
  have hviews : (storedViews b.journal).card ≤ Environment.default.dashboardMaxCacheEntries := by
    rw [hcard]
    decide
  exact ⟨b, hb, hviews, (snapshots_kept_iff hb hviews).2 (Or.inr (by decide))⟩

/-! ## A refresh that drops the other view -/

def cramped : Environment :=
  { Environment.default with
    dashboardMaxCacheEntries := 2
    dashboardMaxRefreshesPerWindow := 3
    dashboardMaxCacheEntries_pos := Nat.succ_pos 1
    dashboardMaxRefreshesPerWindow_pos := Nat.succ_pos 2 }

def secondPage : Query := [(js "page", .string (js "2"))]

def refreshedWhenFull : List (BoardAction Nat) :=
  [.poll [] 0, .poll secondPage 0, .complete 0 200 1 1, .complete 1 200 2 1, .invalidate,
    .poll [] 2, .complete 2 200 3 3, .poll secondPage 4]

/-- Two views are stored where two have room; refreshing one drops the other, whose
next poll is shed. -/
theorem refresh_drops_other_view :
    ∃ b, (board cramped [js "q"] Nat).run (.initial [js "q"] Nat) refreshedWhenFull = some b ∧
      (storedViews b.journal).card ≤ cramped.dashboardMaxCacheEntries ∧
      ¬(board cramped [js "q"] Nat).Meets (KeepsSnapshots cramped) (.initial [js "q"] Nat)
        refreshedWhenFull ∧
      ∃ older, b.journal = .shed secondPage :: older ∧
        canonicalizeQuery secondPage [js "q"] ∈ storedViews older := by
  have hrun : ((board cramped [js "q"] Nat).run (.initial [js "q"] Nat) refreshedWhenFull).map
      (fun b => ((storedViews b.journal).card, b.journal.head?,
        decide (canonicalizeQuery secondPage [js "q"] ∈ storedViews b.journal.tail))) =
      some (2, some (.shed secondPage), true) := rfl
  obtain ⟨b, hb, hread⟩ := Option.map_eq_some_iff.1 hrun
  obtain ⟨hcard, hrest⟩ := Prod.mk.inj hread
  obtain ⟨hhead, hview⟩ := Prod.mk.inj hrest
  obtain ⟨older, hjournal⟩ := List.head?_eq_some_iff.1 hhead
  refine ⟨b, hb, by rw [hcard]; decide, fun hkeeps => ?_, older, hjournal, ?_⟩
  · have hbelow : (board cramped [js "q"] Nat).Meets (StoresBelowCeiling cramped)
        (.initial [js "q"] Nat) refreshedWhenFull :=
      ((meets_keepsSnapshots_iff _).1 hkeeps).mono fun s a =>
        (spares_iff_storesBelowCeiling (by decide) a).1
    exact absurd hbelow (by decide)
  · rw [hjournal] at hview
    exact of_decide_eq_true hview

end TaskQueue.Dashboard

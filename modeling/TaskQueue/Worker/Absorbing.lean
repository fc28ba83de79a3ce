import TaskQueue.Worker.PerformedWork

/-!
# When a completed record stays completed

Both upserts write their row whatever it held.  A processor only gets as far as
`recordSuccess`, which writes the same status again; the terminal branch of the
`failed` handler writes `FAILED` over a completed record when the error it is
called for was one of reading that record.
-/

namespace TaskQueue

open Ecma

variable {env : Environment} {ext : External}

def KeepsCompleted (env : Environment) (ext : External) (w : World) (a : WorkAction) : Prop :=
  ∀ t ∈ w.step env ext a, ∀ jobName key, w.db.Completed jobName key → t.db.Completed jobName key

/-- The terminal branch is entered for a key whose record is completed, and its
write does not throw. -/
def OverwritesCompleted (w : World) : WorkAction → Prop
  | .failed (some job) _ inp =>
      job.terminal = true ∧ inp.fault 0 = none ∧ ∃ key ∈ failedKey job, w.db.Completed job.name key
  | _ => False

instance (w : World) : ∀ a, Decidable (OverwritesCompleted w a)
  | .failed (some job) _ inp => inferInstanceAs (Decidable (job.terminal = true ∧
      inp.fault 0 = none ∧ ∃ key ∈ failedKey job, w.db.Completed job.name key))
  | .failed none _ _ => isFalse id
  | .begin .. => isFalse id
  | .answer .. => isFalse id
  | .drop .. => isFalse id
  | .settle .. => isFalse id
  | .lose .. => isFalse id
  | .completed _ => isFalse id
  | .deadLettered _ => isFalse id
  | .crash => isFalse id

def sideEffect (t : JobName) (key : JsString) : Effect :=
  match t with
  | .emailNotification => .emailed key
  | .webhookDelivery => .posted key

/-! ## Rows under writes -/

theorem completed_put_success {rows : IdempotencyRows} {jobName key : JsString} (now : Nat)
    (k n : JsString) (result : Json) (h : rows.Completed jobName key) :
    IdempotencyRows.Completed (rows.put (n, k) (successRow now k n result)) jobName key := by
  obtain ⟨record, hrecord, hstatus⟩ := h
  by_cases hkey : (jobName, key) = (n, k)
  · exact ⟨successRow now k n result, by rw [hkey, Table.get_put_self]; rfl, rfl⟩
  · exact ⟨record, by rw [Table.get_put_of_ne _ _ hkey]; exact hrecord, hstatus⟩

theorem completed_put_failure {rows : IdempotencyRows} {jobName key : JsString} (now : Nat)
    (k n error : JsString) :
    IdempotencyRows.Completed (rows.put (n, k) (failureRow now k n error)) jobName key ↔
      (jobName, key) ≠ (n, k) ∧ rows.Completed jobName key := by
  unfold IdempotencyRows.Completed
  by_cases hkey : (jobName, key) = (n, k)
  · simp [hkey, failureRow]
  · simp [Table.get_put_of_ne _ _ hkey, hkey]

/-! ## One step -/

theorem World.Begun.keeps {w t : World} {job : Job} {inp : Inputs} {jobName key : JsString}
    (h : w.Begun env ext job inp t) (hdone : w.db.Completed jobName key) :
    t.db.Completed jobName key := by
  cases h with
  | emailed => exact completed_put_success _ _ _ _ hdone
  | _ => exact hdone

theorem World.Resumed.keeps {w t : World} {e : Nat} {reply : FetchReply} {jobName key : JsString}
    (h : w.Resumed e reply t) (hdone : w.db.Completed jobName key) :
    t.db.Completed jobName key := by
  cases h with
  | threw => exact hdone
  | delivered => exact completed_put_success _ _ _ _ hdone

theorem World.Noted.keeps {w t : World} {jobName key : JsString} (h : w.Noted t)
    (hdone : w.db.Completed jobName key) : t.db.Completed jobName key := by
  cases h with
  | unchanged => exact hdone
  | invalidated => exact hdone

/-- A call of the `failed` handler keeps the completed records exactly when it
does not overwrite one. -/
theorem World.Handled.keeps_iff {w t : World} {job : Option Job} {err : JsError} {inp : Inputs}
    (h : w.Handled job err inp t) :
    (∀ jobName key, w.db.Completed jobName key → t.db.Completed jobName key) ↔
      ¬OverwritesCompleted w (.failed job err inp) := by
  cases h with
  | counted metrics pending =>
      refine ⟨fun _ hover => ?_, fun _ _ _ hdone => hdone⟩
      cases job with
      | none => exact hover
      | some j => exact absurd hover.1 (by simp [pending j rfl])
  | routed j metrics add hjob terminal unrecorded =>
      subst hjob
      refine ⟨fun _ hover => ?_, fun _ _ _ hdone => hdone⟩
      obtain ⟨-, hwrite, key, hkey, -⟩ := hover
      rcases unrecorded with hnone | hfault
      · rw [hnone] at hkey
        cases hkey
      · exact hfault hwrite
  | recorded j key metrics add hjob terminal hkey write =>
      subst hjob
      constructor
      · rintro hkeeps ⟨-, -, k, hk, hdone⟩
        obtain rfl : key = k := Option.some.inj (hkey.symm.trans hk)
        exact ((completed_put_failure _ _ _ _).1 (hkeeps _ _ hdone)).1 rfl
      · intro hover jobName k hdone
        refine (completed_put_failure _ _ _ _).2 ⟨fun hsame => ?_, hdone⟩
        obtain ⟨rfl, rfl⟩ := Prod.mk.inj hsame
        exact hover ⟨terminal, write, _, hkey, hdone⟩

/-- Nothing but the `failed` handler can overwrite a completed record. -/
theorem keepsCompleted_of_not_failed {w : World} {a : WorkAction}
    (hother : ∀ job err inp, a ≠ .failed job err inp) : KeepsCompleted env ext w a := by
  intro t ht jobName key hdone
  cases World.step_cases ht with
  | began job inp t begun => exact begun.keeps hdone
  | answered e status t answer =>
      obtain ⟨k, -, rfl⟩ := World.answer_eq_some.1 answer
      exact hdone
  | dropped e t drop =>
      obtain ⟨k, -, rfl⟩ := World.drop_eq_some.1 drop
      exact hdone
  | settled e inp key status t get resumed => exact resumed.keeps hdone
  | lost e message inp t resumed => exact resumed.keeps hdone
  | failed job err inp => exact absurd rfl (hother job err inp)
  | noted a t noted => exact noted.keeps hdone
  | crashed => exact hdone

theorem keepsCompleted_iff (w : World) (a : WorkAction) :
    KeepsCompleted env ext w a ↔ ¬OverwritesCompleted w a := by
  cases a with
  | failed job err inp =>
      rw [← (w.failed_cases job err inp).keeps_iff]
      constructor
      · intro h
        exact h _ rfl
      · rintro h t ht
        obtain rfl := Option.some.inj ht
        exact h
  | _ => exact iff_of_true (keepsCompleted_of_not_failed (by simp)) fun h => h

/-! ## No effect after completion -/

def NoneSince (since : Nat) (t : JobName) (key : JsString) (journal : List WorkEvent) : Prop :=
  ∀ e, since ≤ e → .did (some e) (sideEffect t key) ∉ journal

theorem NoneSince.cons {since : Nat} {t : JobName} {key : JsString} {journal : List WorkEvent}
    {event : WorkEvent} (hother : ∀ e, since ≤ e → event ≠ .did (some e) (sideEffect t key))
    (h : NoneSince since t key journal) : NoneSince since t key (event :: journal) := by
  intro e he hmem
  rcases List.mem_cons.1 hmem with hevent | hmem
  · exact hother e he hevent.symm
  · exact h e he hmem

theorem sideEffect_ne_recordedSuccess (t : JobName) (key jobName k : JsString) (result : Json) :
    Effect.recordedSuccess jobName k result ≠ sideEffect t key := by
  cases t <;> simp [sideEffect]

/-- Once its key is completed, an execution that begins has no side-effect. -/
theorem World.Begun.noneSince {w u : World} {job : Job} {inp : Inputs} {since : Nat} {t : JobName}
    {key : JsString} (h : w.Begun env ext job inp u) (hdone : w.db.Completed t.text key)
    (hnone : NoneSince since t key w.journal) : NoneSince since t key u.journal := by
  have hbegan : NoneSince since t key (.began w.started job :: w.journal) :=
    hnone.cons (fun _ _ => by simp)
  have hemailed : ∀ k, ¬w.db.Completed JobName.emailNotification.text k → ∀ e, since ≤ e →
      WorkEvent.did (some w.started) (.emailed k) ≠ .did (some e) (sideEffect t key) := by
    intro k hfresh e _ hsame
    cases t with
    | webhookDelivery => simp [sideEffect] at hsame
    | emailNotification =>
        simp only [sideEffect, WorkEvent.did.injEq, Effect.emailed.injEq] at hsame
        exact hfresh (hsame.2 ▸ hdone)
  cases h with
  | refused err => exact hbegan.cons (fun _ _ => by simp)
  | replayed u k result name hkey done replay => exact hbegan.cons (fun _ _ => by simp)
  | unrecorded k err name hkey fresh =>
      exact (hbegan.cons (hemailed k fresh)).cons (fun _ _ => by simp)
  | emailed k result now name hkey fresh fields =>
      refine ((hbegan.cons (hemailed k fresh)).cons fun e _ => ?_).cons (fun _ _ => by simp)
      intro hsame
      exact sideEffect_ne_recordedSuccess _ _ _ _ _ (WorkEvent.did.inj hsame).2
  | posted data startTime name parse fresh read =>
      refine hbegan.cons fun e _ hsame => ?_
      cases t with
      | emailNotification => simp [sideEffect] at hsame
      | webhookDelivery =>
          simp only [sideEffect, WorkEvent.did.injEq, Effect.posted.injEq] at hsame
          exact fresh (hsame.2 ▸ hdone)

theorem World.Resumed.noneSince {w u : World} {e since : Nat} {reply : FetchReply} {t : JobName}
    {key : JsString} (h : w.Resumed e reply u) (hnone : NoneSince since t key w.journal) :
    NoneSince since t key u.journal := by
  cases h with
  | threw => exact hnone.cons (fun _ _ => by simp)
  | delivered job delivery status now result get response ok fields =>
      refine (hnone.cons fun i _ hsame => ?_).cons (fun _ _ => by simp)
      exact sideEffect_ne_recordedSuccess _ _ _ _ _ (WorkEvent.did.inj hsame).2

theorem World.Handled.noneSince {w u : World} {job : Option Job} {err : JsError} {inp : Inputs}
    {since : Nat} {t : JobName} {key : JsString} (h : w.Handled job err inp u)
    (hnone : NoneSince since t key w.journal) : NoneSince since t key u.journal := by
  have hcounted : NoneSince since t key (.did none .invalidatedSnapshot :: w.journal) :=
    hnone.cons (fun _ _ => by simp)
  cases h with
  | counted => exact hcounted
  | routed => exact hcounted.cons (fun _ _ => by simp)
  | recorded => exact (hcounted.cons (fun _ _ => by simp)).cons (fun _ _ => by simp)

theorem World.Noted.noneSince {w u : World} {since : Nat} {t : JobName} {key : JsString}
    (h : w.Noted u) (hnone : NoneSince since t key w.journal) :
    NoneSince since t key u.journal := by
  cases h with
  | unchanged => exact hnone
  | invalidated => exact hnone.cons (fun _ _ => by simp)

theorem noneSince_step {w u : World} {a : WorkAction} {since : Nat} {t : JobName} {key : JsString}
    (hdone : w.db.Completed t.text key) (hnone : NoneSince since t key w.journal)
    (h : w.step env ext a = some u) : NoneSince since t key u.journal := by
  cases World.step_cases h with
  | began job inp t begun => exact begun.noneSince hdone hnone
  | answered e status t answer =>
      obtain ⟨k, -, rfl⟩ := World.answer_eq_some.1 answer
      exact hnone.cons (fun _ _ => by simp)
  | dropped e t drop =>
      obtain ⟨k, -, rfl⟩ := World.drop_eq_some.1 drop
      exact hnone
  | settled e inp k status t get resumed => exact resumed.noneSince hnone
  | lost e message inp t resumed => exact resumed.noneSince hnone
  | failed job err inp t handled => exact handled.noneSince hnone
  | noted a t noted => exact noted.noneSince hnone
  | crashed => exact hnone.cons (fun _ _ => by simp)

/-! ## Executions are numbered -/

def World.Numbered (w : World) : Prop :=
  ∀ e effect, .did (some e) effect ∈ w.journal → e < w.started

theorem World.Numbered.noted {w u : World} (hw : w.Numbered) (h : w.Noted u) : u.Numbered := by
  cases h with
  | unchanged => exact hw
  | invalidated => exact fun e effect hmem => hw e effect (by simpa using hmem)

theorem World.Numbered.step {w u : World} (hw : w.Numbered) (hsound : w.Sound) {a : WorkAction}
    (h : w.step env ext a = some u) : u.Numbered := by
  intro e effect hmem
  cases World.step_cases h with
  | began job inp t begun =>
      have hold : .did (some e) effect ∈ w.journal → e < w.started + 1 := fun hmem =>
        Nat.lt_succ_of_lt (hw e effect hmem)
      cases begun <;> simp only [List.mem_cons, WorkEvent.did.injEq, Option.some.injEq,
        reduceCtorEq, false_or] at hmem
      · exact hold hmem
      · exact hold hmem
      · rcases hmem with ⟨rfl, -⟩ | hmem
        · exact Nat.lt_succ_self _
        · exact hold hmem
      · rcases hmem with ⟨rfl, -⟩ | ⟨rfl, -⟩ | hmem
        · exact Nat.lt_succ_self _
        · exact Nat.lt_succ_self _
        · exact hold hmem
      · rcases hmem with ⟨rfl, -⟩ | hmem
        · exact Nat.lt_succ_self _
        · exact hold hmem
  | answered i status t answer =>
      obtain ⟨k, -, rfl⟩ := World.answer_eq_some.1 answer
      exact hw e effect (by simpa using hmem)
  | dropped i t drop =>
      obtain ⟨k, -, rfl⟩ := World.drop_eq_some.1 drop
      exact hw e effect hmem
  | settled i inp k status t get resumed =>
      cases resumed with
      | threw => exact hw e effect (by simpa using hmem)
      | delivered job delivery status now result get =>
          simp only [List.mem_cons, WorkEvent.did.injEq, Option.some.injEq, reduceCtorEq,
            false_or] at hmem
          rcases hmem with ⟨rfl, -⟩ | hmem
          · exact (hsound.running _ _ _ get).1.lt
          · exact hw e effect hmem
  | lost i message inp t resumed =>
      cases resumed with
      | threw => exact hw e effect (by simpa using hmem)
      | delivered job delivery status now result get response => cases response
  | failed job err inp t handled =>
      cases handled <;> simp only [List.mem_cons, WorkEvent.did.injEq, reduceCtorEq, false_and,
        false_or] at hmem <;> exact hw e effect hmem
  | noted a t noted => exact hw.noted noted e effect hmem
  | crashed => exact hw e effect (by simpa [World.crash] using hmem)

theorem numbered_of_reachable {w : World} (hw : (world env ext).Reachable w) : w.Numbered :=
  hw.invariant_of_reachable (I := World.Numbered) (fun e effect hmem => by cases hmem)
    fun _ _ _ hr hs h => hs.step (sound_of_reachable hr) h

/-! ## Runs -/

theorem meets_keepsCompleted_iff (s : World) (as : List WorkAction) :
    (world env ext).Meets (KeepsCompleted env ext) s as ↔
      (world env ext).Meets (fun w a => ¬OverwritesCompleted w a) s as :=
  ⟨fun h => h.mono fun w a => (keepsCompleted_iff w a).1,
    fun h => h.mono fun w a => (keepsCompleted_iff w a).2⟩

theorem absorbing_from {s w : World} (hs : (world env ext).Reachable s) {as : List WorkAction}
    (hrun : (world env ext).run s as = some w)
    (hmeets : (world env ext).Meets (fun w a => ¬OverwritesCompleted w a) s as) {t : JobName}
    {key : JsString} (hdone : s.db.Completed t.text key) :
    w.db.Completed t.text key ∧ NoneSince s.started t key w.journal := by
  have hnone : NoneSince s.started t key s.journal := fun e he hmem =>
    absurd (numbered_of_reachable hs e _ hmem) (by omega)
  exact hmeets.preserves
    (I := fun u => u.db.Completed t.text key ∧ NoneSince s.started t key u.journal)
    (fun u a v _ hu hC hst => ⟨(keepsCompleted_iff u a).2 hC v hst _ _ hu.1,
      noneSince_step hu.1 hu.2 hst⟩) hs ⟨hdone, hnone⟩ hrun

/-- A run keeps every completed record exactly when its terminal failures overwrite
none; and then, from any of its states in which a key is completed, the key stays
completed to the end and no execution begun later has the side-effect again. -/
theorem completed_is_absorbing_iff {as : List WorkAction} {w : World}
    (hrun : (world env ext).run .initial as = some w) :
    ((world env ext).Meets (KeepsCompleted env ext) .initial as ↔
      (world env ext).Meets (fun w a => ¬OverwritesCompleted w a) .initial as) ∧
    ((world env ext).Meets (fun w a => ¬OverwritesCompleted w a) .initial as →
      ∀ before after s, as = before ++ after → (world env ext).run .initial before = some s →
        ∀ t key, s.db.Completed t.text key →
          w.db.Completed t.text key ∧
          ∀ e, s.started ≤ e → .did (some e) (sideEffect t key) ∉ w.journal) := by
  refine ⟨meets_keepsCompleted_iff _ _, ?_⟩
  rintro hmeets before after s rfl hs t key hdone
  have hafter := (((world env ext).meets_append hs).1 hmeets).2
  obtain ⟨s', hs', hlater⟩ := (Automaton.run_append_eq_some _).1 hrun
  obtain rfl : s = s' := Option.some.inj (hs.symm.trans hs')
  exact absorbing_from ⟨before, hs⟩ hlater hafter hdone

theorem completed_is_absorbing_iff_deliveredTwice :
    ∃ w, (world .default atSign).run .initial deliveredTwice = some w ∧
      w.db.Completed (js "WEBHOOK_DELIVERY") (js "k") ∧
      .did (some 1) (.posted (js "k")) ∉ w.journal := by
  have hbefore : ((world .default atSign).run .initial (deliveredTwice.take 3)).map
      (fun s => (decide (s.db.Completed (js "WEBHOOK_DELIVERY") (js "k")), s.started)) =
      some (true, 1) := by decide +kernel
  have hall : ((world .default atSign).run .initial deliveredTwice).isSome = true := by
    decide +kernel
  obtain ⟨s, hs, hstate⟩ := Option.map_eq_some_iff.1 hbefore
  obtain ⟨hdone, hstarted⟩ := Prod.mk.inj hstate
  obtain ⟨w, hw⟩ := Option.isSome_iff_exists.1 hall
  have hlater := (completed_is_absorbing_iff hw).2 (by decide +kernel) (deliveredTwice.take 3)
    (deliveredTwice.drop 3) s rfl hs .webhookDelivery (js "k") (of_decide_eq_true hdone)
  exact ⟨w, hw, hlater.1, hlater.2 1 (by omega)⟩

/-! ## A record that is overwritten -/

def busy : Inputs where
  __ := steady
  fault _ := some ⟨js "SqliteError", js "database is locked"⟩

/-- A key is delivered; its job is dropped by the queue and the key submitted
again, and each of the three attempts finds the store busy; the key is submitted
once more. -/
def busyResubmission : List WorkAction :=
  let job (attemptsMade : Nat) : Job := { webhookJob (js "k") with attemptsMade }
  let err : JsError := ⟨js "SqliteError", js "database is locked"⟩
  [.begin (job 0) steady, .answer 0 200, .settle 0 steady,
    .begin (job 0) busy, .failed (some (job 1)) err steady,
    .begin (job 1) busy, .failed (some (job 2)) err steady,
    .begin (job 2) busy, .failed (some (job 3)) err steady,
    .begin (job 0) steady]

def lastPosted : List WorkEvent → Option (Nat × JsString)
  | .did (some e) (.posted key) :: _ => some (e, key)
  | _ => none

theorem mem_of_lastPosted {journal : List WorkEvent} {e : Nat} {key : JsString}
    (h : lastPosted journal = some (e, key)) : .did (some e) (.posted key) ∈ journal := by
  unfold lastPosted at h
  split at h
  · obtain ⟨rfl, rfl⟩ := Prod.mk.inj (Option.some.inj h)
    exact List.mem_cons_self
  · cases h

/-- The completed record becomes `FAILED`, and the last execution posts again. -/
theorem busyResubmission_posts_again :
    ∃ s w, (world .default atSign).run .initial (busyResubmission.take 3) = some s ∧
      (world .default atSign).run .initial busyResubmission = some w ∧
      s.db.Completed (js "WEBHOOK_DELIVERY") (js "k") ∧
      ¬w.db.Completed (js "WEBHOOK_DELIVERY") (js "k") ∧
      s.started ≤ 4 ∧ .did (some 4) (.posted (js "k")) ∈ w.journal := by
  have hbefore : ((world .default atSign).run .initial (busyResubmission.take 3)).map
      (fun s => (decide (s.db.Completed (js "WEBHOOK_DELIVERY") (js "k")), s.started)) =
      some (true, 1) := by decide +kernel
  have hall : ((world .default atSign).run .initial busyResubmission).map
      (fun w => (decide (w.db.Completed (js "WEBHOOK_DELIVERY") (js "k")), lastPosted w.journal)) =
      some (false, some (4, js "k")) := by decide +kernel
  obtain ⟨s, hs, hstate⟩ := Option.map_eq_some_iff.1 hbefore
  obtain ⟨hdone, hstarted⟩ := Prod.mk.inj hstate
  obtain ⟨w, hw, hend⟩ := Option.map_eq_some_iff.1 hall
  obtain ⟨hundone, hlast⟩ := Prod.mk.inj hend
  exact ⟨s, w, hs, hw, of_decide_eq_true hdone, of_decide_eq_false hundone, by omega,
    mem_of_lastPosted hlast⟩

end TaskQueue

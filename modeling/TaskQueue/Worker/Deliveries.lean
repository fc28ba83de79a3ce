import TaskQueue.Worker.PerformedWork

/-!
# How often a key is delivered

The check, the POST and the record are three steps.  A key is delivered at most
once as long as no execution gets past the check while an earlier POST of the
key is unanswered, or was answered 2xx without the record saying so; past that
point nothing holds a second delivery back.
-/

namespace TaskQueue

open Ecma

variable {env : Environment} {ext : External}

def WorkEvent.delivers (key : JsString) : WorkEvent → Bool
  | .answered _ k status => k == key && isOk status
  | _ => false

def deliveries (key : JsString) (journal : List WorkEvent) : Nat :=
  journal.countP (WorkEvent.delivers key)

/-- A POST for the key is on the wire and may still be answered. -/
def World.Pending (w : World) (key : JsString) : Prop :=
  ∃ e ∈ w.wire.keys, w.wire.get e = some ⟨key, none⟩

instance (w : World) (key : JsString) : Decidable (w.Pending key) :=
  inferInstanceAs (Decidable (∃ e ∈ w.wire.keys, w.wire.get e = some ⟨key, none⟩))

def webhookKey (job : Job) : Option JsString :=
  match parseWebhookJobRecord job.data with
  | .ok data => some data.idempotencyKey
  | .error _ => none

/-- An execution that finds the store readable begins only if no POST of its key
is unanswered or was answered 2xx, unless the key is recorded as completed. -/
def BeginsSettled (w : World) : WorkAction → Prop
  | .begin job inp => ∀ key ∈ webhookKey job, job.name = JobName.webhookDelivery.text →
      inp.fault 0 = none → w.Pending key ∨ deliveries key w.journal ≠ 0 →
        w.db.Completed JobName.webhookDelivery.text key
  | _ => True

instance (w : World) : ∀ a, Decidable (BeginsSettled w a)
  | .begin job inp => inferInstanceAs (Decidable (∀ key ∈ webhookKey job,
      job.name = JobName.webhookDelivery.text → inp.fault 0 = none →
        w.Pending key ∨ deliveries key w.journal ≠ 0 →
          w.db.Completed JobName.webhookDelivery.text key))
  | .answer .. => isTrue trivial
  | .drop .. => isTrue trivial
  | .settle .. => isTrue trivial
  | .lose .. => isTrue trivial
  | .completed _ => isTrue trivial
  | .failed .. => isTrue trivial
  | .deadLettered _ => isTrue trivial
  | .crash => isTrue trivial

theorem webhookKey_eq_some {job : Job} {key : JsString} :
    webhookKey job = some key ↔
      ∃ data, parseWebhookJobRecord job.data = .ok data ∧ data.idempotencyKey = key := by
  unfold webhookKey
  cases parseWebhookJobRecord job.data <;> simp

theorem World.pending_iff {w : World} {key : JsString} :
    w.Pending key ↔ ∃ e, w.wire.get e = some ⟨key, none⟩ := by
  unfold World.Pending
  constructor
  · rintro ⟨e, -, he⟩
    exact ⟨e, he⟩
  · rintro ⟨e, he⟩
    exact ⟨e, AList.mem_keys.1 (AList.lookup_isSome.1 (Option.isSome_iff_exists.2 ⟨_, he⟩)), he⟩

/-! ## The invariant -/

/-- A key was delivered at most once, and while a POST of it is unanswered it is
the only one and the key was not delivered yet. -/
structure World.Single (w : World) : Prop where
  delivered : ∀ key, deliveries key w.journal ≤ 1
  pending : ∀ key e, w.wire.get e = some ⟨key, none⟩ →
    deliveries key w.journal = 0 ∧ ∀ e', w.wire.get e' = some ⟨key, none⟩ → e' = e

theorem World.initial_single : World.initial.Single where
  delivered := fun _ => Nat.zero_le _
  pending := fun key e h => by simp [World.initial] at h

theorem World.Single.of_same {w t : World} (hw : w.Single)
    (hwire : ∀ e key, t.wire.get e = some ⟨key, none⟩ → w.wire.get e = some ⟨key, none⟩)
    (hjournal : ∀ key, deliveries key t.journal = deliveries key w.journal) : t.Single where
  delivered := fun key => by
    rw [hjournal]
    exact hw.delivered key
  pending := fun key e h => by
    obtain ⟨hnone, hunique⟩ := hw.pending key e (hwire e key h)
    exact ⟨by rw [hjournal, hnone], fun e' h' => hunique e' (hwire e' key h')⟩

theorem World.Single.begin {w t : World} (hw : w.Single) {job : Job} {inp : Inputs}
    (hsettled : BeginsSettled w (.begin job inp))
    (h : w.Begun env ext job inp t) : t.Single := by
  cases h with
  | refused err => exact hw.of_same (fun _ _ h => h) (fun _ => rfl)
  | replayed u key result name hkey done replay => exact hw.of_same (fun _ _ h => h) (fun _ => rfl)
  | unrecorded key err name hkey fresh => exact hw.of_same (fun _ _ h => h) (fun _ => rfl)
  | emailed key result now name hkey fresh fields =>
      exact hw.of_same (fun _ _ h => h) (fun _ => rfl)
  | posted data startTime name parse fresh read =>
      -- The check let it pass, so nothing of this key is pending or delivered.
      have hkey : webhookKey job = some data.idempotencyKey :=
        webhookKey_eq_some.2 ⟨data, parse, rfl⟩
      have hidle :
          ¬(w.Pending data.idempotencyKey ∨ deliveries data.idempotencyKey w.journal ≠ 0) :=
        fun hbusy => fresh (hsettled _ hkey name read hbusy)
      obtain ⟨hpending, hnone⟩ := not_or.1 hidle
      refine ⟨fun key => hw.delivered key, fun key e he => ?_⟩
      have hnew : ∀ e', (w.wire.put w.started ⟨data.idempotencyKey, none⟩).get e' =
          some ⟨key, none⟩ → (e' = w.started ∧ key = data.idempotencyKey) ∨
            w.wire.get e' = some ⟨key, none⟩ := by
        intro e' he'
        rcases Table.get_put_eq_some.1 he' with ⟨hstarted, hpost⟩ | ⟨-, hold⟩
        · exact Or.inl ⟨hstarted, (Post.mk.inj hpost).1.symm⟩
        · exact Or.inr hold
      rcases hnew e he with ⟨rfl, rfl⟩ | hold
      · refine ⟨not_not.1 hnone, fun e' he' => ?_⟩
        rcases hnew e' he' with ⟨rfl, -⟩ | hold'
        · rfl
        · exact absurd (World.pending_iff.2 ⟨e', hold'⟩) hpending
      · obtain ⟨hzero, hunique⟩ := hw.pending key e hold
        refine ⟨hzero, fun e' he' => ?_⟩
        rcases hnew e' he' with ⟨rfl, rfl⟩ | hold'
        · exact absurd (World.pending_iff.2 ⟨e, hold⟩) hpending
        · exact hunique e' hold'

theorem deliveries_answered (key k : JsString) (e status : Nat) (journal : List WorkEvent) :
    deliveries key (.answered e k status :: journal) =
      deliveries key journal + if k = key ∧ isOk status = true then 1 else 0 := by
  simp [deliveries, List.countP_cons, WorkEvent.delivers]

theorem World.Single.answer {w t : World} (hw : w.Single) {e status : Nat}
    (h : w.answer e status = some t) : t.Single := by
  obtain ⟨k, hget, rfl⟩ := World.answer_eq_some.1 h
  obtain ⟨hzero, hunique⟩ := hw.pending k e hget
  have hother : ∀ key i, (w.wire.put e ⟨k, some status⟩).get i = some ⟨key, none⟩ →
      i ≠ e ∧ w.wire.get i = some ⟨key, none⟩ := by
    intro key i hi
    rcases Table.get_put_eq_some.1 hi with ⟨-, hpost⟩ | hold
    · cases hpost
    · exact hold
  refine ⟨fun key => ?_, fun key i hi => ?_⟩
  · rw [deliveries_answered]
    split
    · rename_i hk
      rw [← hk.1, hzero]
    · exact hw.delivered key
  · obtain ⟨hne, hi⟩ := hother key i hi
    have hkey : k ≠ key := by
      rintro rfl
      exact hne (hunique i hi)
    obtain ⟨hnone, honly⟩ := hw.pending key i hi
    refine ⟨?_, fun j hj => honly j (hother key j hj).2⟩
    rw [deliveries_answered, if_neg fun h => hkey h.1, hnone]

theorem World.Single.step {w t : World} (hw : w.Single) {a : WorkAction}
    (hsettled : BeginsSettled w a) (h : w.step env ext a = some t) : t.Single := by
  have hresumed : ∀ e reply, w.Resumed e reply t → t.Single := by
    intro e reply hresumed
    cases hresumed with
    | threw => exact hw.of_same (fun _ _ h => h) (fun _ => rfl)
    | delivered => exact hw.of_same (fun _ _ h => h) (fun _ => rfl)
  cases World.step_cases h with
  | began job inp t begun => exact hw.begin hsettled begun
  | answered e status t answer => exact hw.answer answer
  | dropped e t drop =>
      obtain ⟨k, hget, rfl⟩ := World.drop_eq_some.1 drop
      refine hw.of_same (fun i key hi => ?_) (fun _ => rfl)
      exact (Table.get_remove_eq_some.1 hi).2
  | settled e inp key status t get resumed => exact hresumed e _ resumed
  | lost e message inp t resumed => exact hresumed e _ resumed
  | failed job err inp t handled =>
      cases handled with
      | counted => exact hw.of_same (fun _ _ h => h) (fun _ => rfl)
      | routed => exact hw.of_same (fun _ _ h => h) (fun _ => rfl)
      | recorded => exact hw.of_same (fun _ _ h => h) (fun _ => rfl)
  | noted a t noted =>
      cases noted with
      | unchanged => exact hw
      | invalidated => exact hw.of_same (fun _ _ h => h) (fun _ => rfl)
  | crashed => exact hw.of_same (fun _ _ h => h) (fun _ => rfl)

/-! ## Past the condition -/

theorem World.answer_pending {w : World} {e : Nat} {key : JsString}
    (h : w.wire.get e = some ⟨key, none⟩) (status : Nat) :
    w.answer e status = some { w with
      wire := w.wire.put e ⟨key, some status⟩
      journal := .answered e key status :: w.journal } :=
  World.answer_eq_some.2 ⟨key, h, rfl⟩

theorem World.begin_of_fresh {w : World} {job : Job} {inp : Inputs} {data : WebhookJobData}
    (hname : job.name = JobName.webhookDelivery.text)
    (hparse : parseWebhookJobRecord job.data = .ok data) (hread : inp.fault 0 = none)
    (hfresh : ¬w.db.Completed JobName.webhookDelivery.text data.idempotencyKey) :
    w.begin env ext job inp = { w with
      running := w.running.put w.started (job, ⟨inp.clock 0, data⟩)
      wire := w.wire.put w.started ⟨data.idempotencyKey, none⟩
      started := w.started + 1
      journal := .did (some w.started) (.posted data.idempotencyKey) ::
        .began w.started job :: w.journal } := by
  unfold World.begin processJob
  rw [getProcessorForJob_eq_ok.2 hname]
  simp only [processWebhookJob_of_fresh (m := w.machine) env ext hparse hread hfresh]
  rfl

/-- An execution that begins unsettled issues a POST that can become a second
delivery: the destination only has to answer what is on the wire. -/
theorem second_delivery {w : World} (hw : w.Sound) {a : WorkAction}
    (hunsettled : ¬BeginsSettled w a) :
    ∃ t answers u key, w.step env ext a = some t ∧ (world env ext).run t answers = some u ∧
      2 ≤ deliveries key u.journal := by
  cases a with
  | begin job inp =>
      simp only [BeginsSettled, Classical.not_forall] at hunsettled
      obtain ⟨key, hkey, hname, hread, hbusy, hundone⟩ := hunsettled
      obtain ⟨data, hparse, rfl⟩ := webhookKey_eq_some.1 hkey
      have hbegin := @World.begin_of_fresh env ext w job inp data hname hparse hread hundone
      generalize ht : w.begin env ext job inp = t at hbegin
      have hnew : t.wire.get w.started = some ⟨data.idempotencyKey, none⟩ := by
        rw [hbegin]
        exact Table.get_put_self _ _ _
      have hcount : deliveries data.idempotencyKey t.journal =
          deliveries data.idempotencyKey w.journal := by
        rw [hbegin]
        rfl
      have hstep : w.step env ext (.begin job inp) = some t := congrArg some ht
      by_cases hzero : deliveries data.idempotencyKey w.journal = 0
      · -- An earlier POST is still pending: both it and the new one are answered.
        obtain ⟨e, he⟩ := World.pending_iff.1 (hbusy.resolve_right fun h => h hzero)
        have hne : w.started ≠ e := fun h => absurd (hw.wire e _ he).1 (by omega)
        have hold : t.wire.get e = some ⟨data.idempotencyKey, none⟩ := by
          rw [hbegin]
          exact (Table.get_put_of_ne _ _ hne.symm).trans he
        have hfirst := World.answer_pending hold 200
        have hsecond := World.answer_pending
          (w := { t with
            wire := t.wire.put e ⟨data.idempotencyKey, some 200⟩
            journal := .answered e data.idempotencyKey 200 :: t.journal })
          ((Table.get_put_of_ne _ _ hne).trans hnew) 200
        refine ⟨t, [.answer e 200, .answer w.started 200], _, data.idempotencyKey, hstep,
          (Automaton.run_cons_eq_some _).2 ⟨_, hfirst,
            (Automaton.run_cons_eq_some _).2 ⟨_, hsecond, rfl⟩⟩, ?_⟩
        simp only [deliveries_answered]
        simp [isOk]
      · have hanswer := World.answer_pending hnew 200
        refine ⟨t, [.answer w.started 200], _, data.idempotencyKey, hstep,
          (Automaton.run_cons_eq_some _).2 ⟨_, hanswer, rfl⟩, ?_⟩
        simp only [deliveries_answered, hcount]
        simp [isOk]
        omega
  | answer e status => exact absurd trivial hunsettled
  | drop e => exact absurd trivial hunsettled
  | settle e inp => exact absurd trivial hunsettled
  | lose e message inp => exact absurd trivial hunsettled
  | completed job => exact absurd trivial hunsettled
  | failed job err inp => exact absurd trivial hunsettled
  | deadLettered reply => exact absurd trivial hunsettled
  | crash => exact absurd trivial hunsettled

/-- In a run whose executions all begin settled, every key is delivered at most
once; and any step that does not can be followed by a second delivery. -/
theorem delivered_at_most_once :
    (∀ as w, (world env ext).run .initial as = some w →
      (world env ext).Meets BeginsSettled .initial as →
      ∀ key, deliveries key w.journal ≤ 1) ∧
    (∀ w a, (world env ext).Reachable w → ¬BeginsSettled w a →
      ∃ t answers u key, w.step env ext a = some t ∧ (world env ext).run t answers = some u ∧
        2 ≤ deliveries key u.journal) := by
  refine ⟨fun as w hrun hmeets => ?_, fun w a hw hunsettled =>
    second_delivery (sound_of_reachable hw) hunsettled⟩
  have hw : w.Single := hmeets.preserves (fun _ _ _ _ hs hC ht => hs.step hC ht) .start
    World.initial_single hrun
  exact hw.delivered

theorem delivered_at_most_once_deliveredTwice :
    ∃ w, (world .default atSign).run .initial deliveredTwice = some w ∧
      deliveries (js "k") w.journal ≤ 1 := by
  have hrun : ((world .default atSign).run .initial deliveredTwice).isSome = true := by
    decide +kernel
  obtain ⟨w, hw⟩ := Option.isSome_iff_exists.1 hrun
  exact ⟨w, hw, delivered_at_most_once.1 _ w hw (by decide +kernel) (js "k")⟩

/-! ## Second deliveries -/

def crashBeforeRecord : List WorkAction :=
  [.begin (webhookJob (js "k")) steady, .answer 0 200, .crash,
    .begin (webhookJob (js "k")) steady, .answer 1 200]

def overlapping : List WorkAction :=
  [.begin (webhookJob (js "k")) steady, .begin (webhookJob (js "k")) steady, .answer 0 200,
    .settle 0 steady, .answer 1 200]

def recordThrows : List WorkAction :=
  [.begin (webhookJob (js "k")) steady, .answer 0 200,
    .settle 0 { steady with fault := fun _ => some ⟨js "SqliteError", js "database is locked"⟩ },
    .begin { webhookJob (js "k") with attemptsMade := 1 } steady, .answer 1 200]

def DeliversTwice (as : List WorkAction) : Prop :=
  ∃ w, (world .default atSign).run .initial as = some w ∧ deliveries (js "k") w.journal = 2

theorem deliversTwice_of_count {as : List WorkAction}
    (h : ((world .default atSign).run .initial as).map
      (fun w => deliveries (js "k") w.journal) = some 2) : DeliversTwice as := by
  obtain ⟨w, hw, hcount⟩ := Option.map_eq_some_iff.1 h
  exact ⟨w, hw, hcount⟩

theorem delivered_twice :
    DeliversTwice crashBeforeRecord ∧ DeliversTwice overlapping ∧ DeliversTwice recordThrows := by
  refine ⟨deliversTwice_of_count ?_, deliversTwice_of_count ?_, deliversTwice_of_count ?_⟩
  · decide +kernel
  · decide +kernel
  · decide +kernel

end TaskQueue

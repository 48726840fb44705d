import Netband.Validity
import Netband.Encoding

/-!
What becomes of pending triggers and of the deferred run during a call.

A trigger or a deferred run that a call takes away is named in its events, unless the call
rolled the record over to another day.
-/

namespace Netband.Opportunities

open Netband.Time Netband.Model Netband.State Netband.Plan Netband.Effects Netband.Recovery
open Netband.Scheduling Netband.World Netband.Edits Netband.Steps Netband.Runs
open Saving

/-! ### Triggers that wait -/

/-- A trigger that waits is latched, was raised by a ping round, and is not newer than the
record. -/
structure Waits (st : ProviderState) (trigger : InterfaceTriggerState) (p : PendingTrigger) :
    Prop where
  latched : trigger.latched = true
  reason : p.reason = .pingLoss ∨ p.reason = .pingRtt
  created : p.createdAtUtc ≤ st.lastObservedUtc
  day : p.createdAtUtc = st.lastObservedUtc → dateNaive p.createdAtUtc ≤ st.dayUtc

def Watched (_ : String) (st : ProviderState) : Prop :=
  ∀ (key : String) (trigger : InterfaceTriggerState), st.interfaceTriggers[key]? = some trigger →
    ∀ p ∈ trigger.pending, Waits st trigger p

section watched
variable {policy : SchedulerPolicy} {now : ℤ} {id : String} {st st' : ProviderState}

/-- Triggers may go, and the record may get older. -/
lemma Watched.mono (h : Watched id st) (hobserved : st.lastObservedUtc ≤ st'.lastObservedUtc)
    (hday : st.dayUtc ≤ st'.dayUtc)
    (htriggers : ∀ (key : String) (trigger' : InterfaceTriggerState),
      st'.interfaceTriggers[key]? = some trigger' →
      ∀ p ∈ trigger'.pending, ∃ trigger, st.interfaceTriggers[key]? = some trigger ∧
        p ∈ trigger.pending ∧ (trigger.latched = true → trigger'.latched = true)) :
    Watched id st' := by
  intro key trigger' htrigger' p hp
  obtain ⟨trigger, htrigger, hp', hlatched⟩ := htriggers key trigger' htrigger' p hp
  obtain ⟨h1, h2, h3, h4⟩ := h key trigger htrigger p hp'
  exact ⟨hlatched h1, h2, h3.trans hobserved, fun heq => (h4 (by omega)).trans hday⟩

lemma Watched.same (h : Watched id st) (hobserved : st'.lastObservedUtc = st.lastObservedUtc)
    (hday : st'.dayUtc = st.dayUtc) (htriggers : st'.interfaceTriggers = st.interfaceTriggers) :
    Watched id st' := by
  refine h.mono hobserved.ge hday.ge fun key trigger ht p hp => ⟨trigger, ?_, hp, fun hl => hl⟩
  rwa [← htriggers]

lemma watched_empty (h : st.interfaceTriggers = ∅) : Watched id st := by
  intro key trigger ht
  rw [h] at ht
  simp at ht

lemma Watched.updateTrigger {interface : Option String}
    {f : InterfaceTriggerState → InterfaceTriggerState} (h : Watched id st)
    (hf : ∀ p ∈ (f (interfaceTrigger st interface)).pending,
      Waits st (f (interfaceTrigger st interface)) p) :
    Watched id (updateTrigger interface f st) := by
  intro key trigger ht p hp
  have ht : (st.interfaceTriggers.insert (interfaceKey interface)
    (f (interfaceTrigger st interface)))[key]? = some trigger := ht
  rw [Std.ExtTreeMap.getElem?_insert] at ht
  split at ht
  · cases ht
    obtain ⟨h1, h2, h3, h4⟩ := hf p hp
    exact ⟨h1, h2, h3, h4⟩
  · obtain ⟨h1, h2, h3, h4⟩ := h key trigger ht p hp
    exact ⟨h1, h2, h3, h4⟩

lemma Watched.clearPending (h : Watched id st) (interface : Option String) :
    Watched id (clearPending interface st) :=
  h.updateTrigger (by simp)

lemma Watched.expirePending (h : Watched id st) (key : String) :
    Watched id (expirePending st key) := by
  unfold Scheduling.expirePending
  split
  · intro k trigger ht p hp
    rw [Std.ExtTreeMap.getElem?_insert] at ht
    split at ht
    · cases ht
      cases hp
    · obtain ⟨h1, h2, h3, h4⟩ := h k trigger ht p hp
      exact ⟨h1, h2, h3, h4⟩
  · exact h

lemma Watched.reconcileDay (h : Watched id st) : Watched id (reconcileDay policy now st) := by
  rcases le_or_gt (dateNaive now) st.dayUtc with hle | hlt
  · rwa [reconcileDay_of_le hle]
  · obtain ⟨rng, slots, hr, -⟩ := reconcileDay_of_lt policy hlt
    rw [hr]
    exact watched_empty rfl

lemma Watched.replanRemaining (h : Watched id st) : Watched id (replanRemaining policy now st) := by
  obtain ⟨rng, slots, hr, -⟩ := replanRemaining_eq policy now st
  rw [hr]
  exact h.same rfl rfl rfl

lemma reason_triggerReasonOf (reason : DegradationReason) :
    triggerReasonOf reason = .pingLoss ∨ triggerReasonOf reason = .pingRtt := by
  cases reason <;> simp [triggerReasonOf]

lemma edited_watched : Edited policy now (fun _ => True) (Watched id) where
  advanced st h ht := by
    have hday := @Watched.reconcileDay policy now _ _ h
    refine hday.mono ?_ le_rfl fun key trigger htrigger p hp =>
      ⟨trigger, htrigger, hp, fun hl => hl⟩
    rwa [lastObserved_reconcileDay]
  expired _ key h := h.expirePending key
  dropped _ h := h.same rfl rfl rfl
  dueSlots _ h := h.same rfl rfl rfl
  usedSlot st reason h := by
    unfold useSlot
    split_ifs
    · split
      · exact h.same rfl rfl rfl
      · exact h
    · exact h
  cleared _ interface h := h.clearPending interface
  latched st reason interface h hclock _ := by
    unfold latchTrigger
    refine Watched.updateTrigger (h.same rfl rfl rfl) fun p hp => ?_
    dsimp only at hp
    split_ifs at hp
    · cases hp
    · cases hp
      refine ⟨rfl, reason_triggerReasonOf reason, ?_, fun heq => ?_⟩
      · rcases hclock with hlt | ⟨heq, -⟩
        · exact hlt.le
        · exact heq.ge
      · rcases hclock with hlt | ⟨-, hle⟩
        · exact absurd heq hlt.ne
        · exact hle
  recovered _ interface _ h := h.updateTrigger (by simp)

lemma Watched.finished {opportunity : BandwidthOpportunity} {report : BandwidthReport}
    (h : Watched id st) : Watched id (finished policy now opportunity report st) := by
  obtain ⟨rng, slots, deferred, cooldown, backoff, hf⟩ :=
    finished_eq policy now opportunity report st
  rw [hf]
  exact (h.clearPending opportunity.interface).same rfl rfl rfl

lemma Watched.reconcileState (h : Watched id st) : Watched id (reconcileState policy now st) := by
  obtain ⟨rng, slots, deferred, triggers, he, -, hsame | hnone⟩ := reconcileState_eq policy now st
  · rw [he]
    refine (@Watched.reconcileDay policy now _ _ h).mono ?_ le_rfl ?_
    · rw [lastObserved_reconcileDay]
      dsimp only
      split_ifs with hle
      · exact hle
      · exact le_rfl
    · intro key trigger ht p hp
      exact ⟨trigger, hsame.2 ▸ ht, hp, fun hl => hl⟩
  · rw [he]
    exact watched_empty hnone.2

theorem sustained_watched : Sustained Watched where
  edited _ _ := edited_watched
  rollover _ _ _ h := h.reconcileDay
  started policy now st h hday := by
    refine h.mono (le_max_left _ _) le_rfl fun key trigger ht p hp =>
      ⟨trigger, ht, hp, fun hl => hl⟩
  finished _ _ _ _ _ h := h.finished
  created policy now seed := by
    obtain ⟨rng, slots, h, -⟩ := newState_eq policy now seed
    rw [h]
    exact watched_empty rfl
  reconciled _ _ _ h := h.reconcileState
  replanned _ _ _ h := h.replanRemaining
  replayed h hr := hr.mono (le_max_right _ _) le_rfl fun _ trigger ht _ hp =>
    ⟨trigger, ht, hp, fun hl => hl⟩

end watched

/-! ### What a call says of what it takes away -/

/-- A trigger that is pending under a key. -/
def Pending (st : ProviderState) (key : String) (p : PendingTrigger) : Prop :=
  ∃ trigger, st.interfaceTriggers[key]? = some trigger ∧ trigger.pending = some p

/-- The event names the trigger as cancelled, expired or suppressed. -/
structure Names (key : String) (p : PendingTrigger) (e : MeasurementEvent) : Prop where
  interface : interfaceKey e.interface = key
  reason : e.triggerReason = some p.reason
  ended : e.schedulerAction = some .triggerCancelled ∨ e.schedulerAction = some .triggerExpired ∨
    e.outcome = .suppressed

/-- The trigger is merged into the deferred run. -/
def Merged (key : String) (events : List MeasurementEvent) (st : ProviderState) : Prop :=
  st.deferred.isSome = true ∧ ∃ e ∈ events, interfaceKey e.interface = key ∧
    e.schedulerAction = some .triggerMergedWithDeferred

/-- The event names the deferred run as expired: at its day boundary, or after its attempts. -/
structure NamesDeferred (now : ℤ) (d : DeferredOpportunity) (e : MeasurementEvent) : Prop where
  action : e.schedulerAction = some .deferredExpired
  trigger : e.triggerReason = some d.reason
  reason : e.schedulerReason = some (if d.expiresAtUtc ≤ now then .dayLimit else .attemptLimit)

/-- What was pending or deferred before is there after, or the events account for it. -/
structure Accounted (now : ℤ) (events : List MeasurementEvent) (st st' : ProviderState) : Prop where
  pending : ∀ key p, Pending st key p →
    Pending st' key p ∨ Merged key events st' ∨ ∃ e ∈ events, Names key p e
  deferred : ∀ d ∈ st.deferred, st'.deferred.isSome = true ∨ ∃ e ∈ events, NamesDeferred now d e

/-- The same within a call that merges nothing. -/
structure Traced (now : ℤ) (events : List MeasurementEvent) (st st' : ProviderState) : Prop where
  pending : ∀ key p, Pending st key p → Pending st' key p ∨ ∃ e ∈ events, Names key p e
  deferred : ∀ d ∈ st.deferred, d ∈ st'.deferred ∨ ∃ e ∈ events, NamesDeferred now d e

section traced
variable {policy : SchedulerPolicy} {now : ℤ} {st st' st'' : ProviderState}
  {events events' : List MeasurementEvent} {E : SchedulerError → ProviderState → Prop}

lemma Traced.accounted (h : Traced now events st st') : Accounted now events st st' where
  pending key p hp := (h.pending key p hp).imp_right .inr
  deferred d hd := (h.deferred d hd).imp_left fun hd' => Option.isSome_iff_exists.mpr ⟨d, hd'⟩

lemma traced_same (htriggers : st'.interfaceTriggers = st.interfaceTriggers)
    (hdeferred : st'.deferred = st.deferred) : Traced now events st st' where
  pending key p hp := by
    refine .inl ?_
    rw [Pending, htriggers]
    exact hp
  deferred d hd := .inl (hdeferred ▸ hd)

lemma Traced.trans (h : Traced now events st st') (h' : Traced now events' st' st'') :
    Traced now (events ++ events') st st'' where
  pending key p hp := by
    rcases h.pending key p hp with hp' | ⟨e, he, hn⟩
    · exact (h'.pending key p hp').imp_right fun ⟨e, he, hn⟩ =>
        ⟨e, List.mem_append_right _ he, hn⟩
    · exact .inr ⟨e, List.mem_append_left _ he, hn⟩
  deferred d hd := by
    rcases h.deferred d hd with hd' | ⟨e, he, hn⟩
    · exact (h'.deferred d hd').imp_right fun ⟨e, he, hn⟩ => ⟨e, List.mem_append_right _ he, hn⟩
    · exact .inr ⟨e, List.mem_append_left _ he, hn⟩

/-- A part of a computation that accounts for what it takes away. -/
def Traces (now : ℤ) {α : Type} (events : α → List MeasurementEvent) (st : ProviderState)
    (c : Scheduling.Op α) (E : SchedulerError → ProviderState → Prop) : Prop :=
  Saves (fun _ => True) st c (fun a st' => Traced now (events a) st st') E

lemma interfaceKey_fromKey (key : String) : interfaceKey (interfaceFromKey key) = key := by
  unfold interfaceFromKey
  split
  · rename_i h
    rw [h]
    rfl
  · rfl

lemma pending_insert {k key : String} {trigger : InterfaceTriggerState} {p : PendingTrigger}
    (h : Pending st key p) (hk : k ≠ key) :
    Pending { st with interfaceTriggers := st.interfaceTriggers.insert k trigger } key p := by
  obtain ⟨t, ht, hp⟩ := h
  exact ⟨t, by simpa [Std.ExtTreeMap.getElem?_insert, hk] using ht, hp⟩

/-! ### Expiry -/

lemma pending_expirePending {k key : String} {p : PendingTrigger} (h : Pending st key p)
    (hk : k ≠ key) : Pending (expirePending st k) key p := by
  unfold expirePending
  split
  · exact pending_insert h hk
  · exact h

lemma pending_foldl {keys : List String} {key : String} {p : PendingTrigger} (h : Pending st key p)
    (hk : key ∉ keys) : Pending (keys.foldl expirePending st) key p := by
  induction keys generalizing st with
  | nil => exact h
  | cons k keys ih =>
    rw [List.mem_cons, not_or] at hk
    exact ih (pending_expirePending h (Ne.symm hk.1)) hk.2

lemma deferred_foldl (keys : List String) :
    (keys.foldl expirePending st).deferred = st.deferred := by
  induction keys generalizing st with
  | nil => rfl
  | cons k keys ih =>
    refine (@ih (expirePending st k)).trans ?_
    unfold expirePending
    split <;> rfl

lemma mem_triggers {key : String} {trigger : InterfaceTriggerState} :
    (key, trigger) ∈ st.interfaceTriggers.toList ↔ st.interfaceTriggers[key]? = some trigger :=
  Std.ExtTreeMap.mem_toList_iff_getElem?_eq_some

/-- An expired trigger is named in an event. -/
lemma traces_expireTriggers (runId : RunId) :
    Traces now id st (expireTriggers policy runId now) E := by
  refine saves_bind (saves_get (saves_ite (fun _ => saves_pure (traced_same rfl rfl)) fun _ => ?_))
  refine saves_bind (saves_modify (saves_bind (saves_save trivial (saves_bind (saves_get
    (saves_pure ⟨fun key p hp => ?_, fun d hd => .inl ?_⟩))))))
  · generalize hexpired : st.interfaceTriggers.toList.filterMap (fun p =>
      (p.2.pending.filter fun trigger => trigger.expiresAtUtc ≤ now).map fun trigger =>
        (p.1, trigger)) = expired
    by_cases hkey : key ∈ expired.map Prod.fst
    · right
      obtain ⟨⟨k, q⟩, hmem, rfl⟩ := List.mem_map.mp hkey
      have hq : q = p := by
        rw [← hexpired] at hmem
        obtain ⟨⟨k', t⟩, ht, hmap⟩ := List.mem_filterMap.mp hmem
        obtain ⟨q', hq', hpair⟩ := Option.map_eq_some_iff.mp hmap
        obtain ⟨rfl, rfl⟩ := Prod.mk.inj hpair
        obtain ⟨t', ht', hp'⟩ := hp
        have hsame : t = t' := Option.some.inj ((mem_triggers.mp ht).symm.trans ht')
        have hpending := (Option.filter_eq_some_iff.mp hq').1
        rw [hsame, hp'] at hpending
        exact (Option.some.inj hpending).symm
      refine ⟨_, List.mem_map.mpr ⟨(k, q), hmem, rfl⟩, interfaceKey_fromKey k, ?_, .inr (.inl rfl)⟩
      rw [← hq]
      rfl
    · exact .inl (pending_foldl hp hkey)
  · rw [Option.mem_def, deferred_foldl]
    exact hd

/-! ### Polls -/

lemma traces_pollDeferred (runId : RunId) :
    Traces now SchedulerPoll.events st (pollDeferred policy runId now) E := by
  refine saves_bind (saves_get ?_)
  rcases hd : st.deferred with _ | deferred
  · exact saves_pure (traced_same rfl rfl)
  · refine saves_ite (fun hexpired => ?_) fun _ => saves_ite (fun _ => ?_) fun _ => ?_
    · refine saves_bind (saves_modify (saves_bind (saves_save trivial (saves_bind (saves_get
        (saves_pure ⟨fun key p hp => .inl hp,
          fun d hmem => .inr ⟨_, List.mem_singleton_self _, ?_⟩⟩))))))
      obtain rfl : deferred = d := by simpa [hd] using hmem
      exact ⟨rfl, rfl, rfl⟩
    · exact saves_pure (traced_same rfl rfl)
    · exact saves_pure (traced_same rfl rfl)

lemma triggers_dueSlots (due : Option ℤ) (st : ProviderState) :
    (if due.isSome then removeDueSlots now st else st).interfaceTriggers = st.interfaceTriggers ∧
      (if due.isSome then removeDueSlots now st else st).deferred = st.deferred := by
  split <;> exact ⟨rfl, rfl⟩

lemma triggers_useSlot (reason : TriggerReason) (st : ProviderState) :
    (useSlot reason st).interfaceTriggers = st.interfaceTriggers ∧
      (useSlot reason st).deferred = st.deferred := by
  unfold useSlot
  split_ifs
  · split <;> exact ⟨rfl, rfl⟩
  · exact ⟨rfl, rfl⟩

/-- The earliest of some candidates is one of them. -/
lemma mem_of_earlier {l : List (String × PendingTrigger)} {best : Option (String × PendingTrigger)}
    {b : String × PendingTrigger} (h : l.foldl earlier best = some b) : b ∈ l ∨ best = some b := by
  induction l generalizing best with
  | nil => exact .inr h
  | cons q l ih =>
    rcases ih h with hmem | hbest
    · exact .inl (List.mem_cons_of_mem q hmem)
    · unfold earlier at hbest
      cases best with
      | none =>
        obtain rfl := Option.some.inj hbest
        exact .inl List.mem_cons_self
      | some b' =>
        dsimp only at hbest
        split_ifs at hbest
        · obtain rfl := Option.some.inj hbest
          exact .inl List.mem_cons_self
        · exact .inr hbest

/-- The trigger that a poll picks is pending, and its interface has had a success if that is
asked for. -/
lemma eligible_of_oldest {latestSuccess : BTreeMap String Bool} {allow : Bool} {key : String}
    {p : PendingTrigger} (h : oldestEligiblePendingTrigger st latestSuccess allow = some (key, p)) :
    Pending st key p ∧ (allow = true ∨ latestSuccess[key]? = some true) := by
  rcases mem_of_earlier h with hmem | hnone
  · obtain ⟨⟨k, t⟩, ht, hq⟩ := List.mem_filterMap.mp hmem
    split_ifs at hq with heligible
    obtain ⟨p', hp', he⟩ := Option.map_eq_some_iff.mp hq
    obtain ⟨rfl, rfl⟩ := Prod.mk.inj he
    refine ⟨⟨t, mem_triggers.mp ht, hp'⟩, ?_⟩
    rcases allow with _ | _
    · right
      have hsuccess : (latestSuccess[k]?.getD false) = true := by simpa using heligible
      cases hk : latestSuccess[k]? with
      | none => simp [hk] at hsuccess
      | some b => simpa [hk] using hsuccess
    · exact .inl rfl
  · cases hnone

lemma pending_of_oldest {latestSuccess : BTreeMap String Bool} {allow : Bool} {key : String}
    {p : PendingTrigger} (h : oldestEligiblePendingTrigger st latestSuccess allow = some (key, p)) :
    Pending st key p :=
  (eligible_of_oldest h).1

/-- A trigger that a poll gives up is named as suppressed. -/
lemma traces_pollBlocked {runId : RunId} {due : Option ℤ} {blocked : BlockReason}
    {pending : Option (String × PendingTrigger)} (hpending : ∀ q ∈ pending, Pending st q.1 q.2) :
    Traces now SchedulerPoll.events st (pollBlocked policy runId now due pending blocked) E := by
  obtain ⟨htriggers, hdeferred⟩ := @triggers_dueSlots now due st
  refine saves_bind (saves_modify (saves_bind (saves_modify (saves_bind (saves_save trivial
    (saves_bind (saves_get (saves_pure ?_))))))))
  generalize (if due.isSome then removeDueSlots now st else st) = st' at htriggers hdeferred
  by_cases hclear : (terminalBlock policy blocked now && pending.isSome) = true
  swap
  · rw [if_neg hclear]
    exact traced_same htriggers hdeferred
  rw [if_pos hclear]
  rw [Bool.and_eq_true] at hclear
  obtain ⟨⟨k, q⟩, rfl⟩ := Option.isSome_iff_exists.mp hclear.2
  constructor
  · intro key p hp
    have hp' : Pending st' key p := by
      rw [Pending, htriggers]
      exact hp
    by_cases hk : k = key
    · right
      subst hk
      obtain ⟨t, ht, hq⟩ := hpending _ rfl
      obtain ⟨t', ht', hp'⟩ := hp
      obtain rfl : t = t' := Option.some.inj (ht.symm.trans ht')
      obtain rfl : q = p := Option.some.inj (hq.symm.trans hp')
      refine ⟨_, List.mem_singleton_self _, interfaceKey_fromKey k, rfl, .inr (.inr ?_)⟩
      rw [if_pos hclear.1]
      rfl
    · left
      refine pending_insert hp' ?_
      rwa [Option.bind_some, interfaceKey_fromKey]
  · intro d hd
    left
    change d ∈ st'.deferred
    rwa [hdeferred]

lemma traces_pollDue (runId : RunId) (latestSuccess : BTreeMap String Bool) :
    Traces now SchedulerPoll.events st (pollDue policy runId now latestSuccess) E := by
  refine saves_bind (saves_get (saves_ite (fun _ => saves_pure (traced_same rfl rfl)) fun _ => ?_))
  rcases hb : blockReason policy st now with _ | blocked
  · refine saves_bind (saves_modify (saves_bind (saves_modify (saves_bind (saves_save trivial
      (saves_bind (saves_get (saves_pure ?_))))))))
    exact traced_same ((triggers_useSlot _ _).1.trans (triggers_dueSlots _ st).1)
      ((triggers_useSlot _ _).2.trans (triggers_dueSlots _ st).2)
  · exact traces_pollBlocked fun q hq => pending_of_oldest hq

lemma traces_pollAccepted (runId : RunId) (latestSuccess : BTreeMap String Bool) :
    Traces now SchedulerPoll.events st (pollAccepted policy runId now latestSuccess) E := by
  refine saves_bind (saves_mono (traces_expireTriggers runId) (fun expired st₁ h₁ => ?_)
    fun _ _ he => he)
  refine saves_bind (saves_mono (traces_pollDeferred runId) (fun deferred st₂ h₂ => ?_)
    fun _ _ he => he)
  refine saves_ite (fun _ => saves_pure (Traced.trans h₁ h₂)) fun _ => saves_bind ?_
  exact saves_mono (traces_pollDue runId latestSuccess)
    (fun due st₃ h₃ => saves_pure (Traced.trans h₁ (Traced.trans h₂ h₃))) fun _ _ he => he

/-! ### Calls within the day -/

/-- Within its day, or with a clock that went back, a record keeps what it holds. -/
lemma same_advanceClock (runId : RunId) (h : now < st.lastObservedUtc ∨ dateNaive now ≤ st.dayUtc) :
    Saves (fun _ => True) st (advanceClock policy runId now) (fun _ st' =>
      st'.interfaceTriggers = st.interfaceTriggers ∧ st'.deferred = st.deferred) E := by
  refine saves_bind (saves_get (saves_ite (fun _ => saves_pure ⟨rfl, rfl⟩) fun hle => ?_))
  have hday : reconcileDay policy now st = st := reconcileDay_of_le (h.resolve_left hle)
  refine saves_bind (saves_modify (saves_bind (saves_save trivial (saves_pure ?_))))
  rw [hday]
  exact ⟨rfl, rfl⟩

lemma Traced.then (h : Traced now events st st') (h' : Accounted now events' st' st'') :
    Accounted now (events ++ events') st st'' where
  pending key p hp := by
    rcases h.pending key p hp with hp' | ⟨e, he, hn⟩
    · rcases h'.pending key p hp' with hp'' | ⟨hd, e, he, hm⟩ | ⟨e, he, hn⟩
      · exact .inl hp''
      · exact .inr (.inl ⟨hd, e, List.mem_append_right _ he, hm⟩)
      · exact .inr (.inr ⟨e, List.mem_append_right _ he, hn⟩)
    · exact .inr (.inr ⟨e, List.mem_append_left _ he, hn⟩)
  deferred d hd := by
    rcases h.deferred d hd with hd' | ⟨e, he, hn⟩
    · exact (h'.deferred d hd').imp_right fun ⟨e, he, hn⟩ => ⟨e, List.mem_append_right _ he, hn⟩
    · exact .inr ⟨e, List.mem_append_left _ he, hn⟩

/-- A trigger that recovers is named as cancelled; a degradation takes nothing away. -/
lemma accounted_observeDecision {id : String} {interface : Option String}
    {decision : HealthDecision} (runId : RunId) (h : Watched id st) :
    Saves (fun _ => True) st (observeDecision policy runId now interface decision)
      (fun events st' => Accounted now events st st') E := by
  cases decision with
  | healthy snapshot => exact saves_pure (traced_same rfl rfl).accounted
  | degraded snapshot reason =>
    refine saves_bind (saves_get (saves_ite (fun _ => ?_) fun hlatched => ?_))
    · exact saves_pure (traced_same rfl rfl).accounted
    refine saves_bind (saves_modify (saves_bind (saves_save trivial (saves_bind (saves_get
      (saves_pure ⟨fun key p hp => .inl ?_, fun d hd => .inl ?_⟩))))))
    · -- a trigger that waits is latched
      refine @pending_insert { st with deferred := _ } _ _ _ _ hp fun hkey => hlatched ?_
      obtain ⟨trigger, ht, hpending⟩ := hp
      subst hkey
      unfold interfaceTrigger
      rw [ht]
      exact (h _ _ ht p hpending).latched
    · change (st.deferred.map _).isSome = true
      rw [Option.mem_def.mp hd]
      rfl
  | recovered snapshot =>
    refine saves_bind (saves_get (saves_ite (fun _ => ?_) fun _ => ?_))
    swap
    · exact saves_pure (traced_same rfl rfl).accounted
    refine saves_bind (saves_modify (saves_bind (saves_save trivial (saves_bind (saves_get
      (saves_pure ⟨fun key p hp => ?_,
        fun d hd => .inl (Option.isSome_iff_exists.mpr ⟨d, hd⟩)⟩))))))
    by_cases hkey : interfaceKey interface = key
    · right
      right
      obtain ⟨trigger, ht, hpending⟩ := hp
      have htrigger : (interfaceTrigger st interface).pending = some p := by
        unfold interfaceTrigger
        rw [hkey, ht]
        exact hpending
      refine ⟨_, Option.mem_toList.mpr (Option.mem_map.mpr ⟨p, htrigger, rfl⟩), hkey, rfl, .inl rfl⟩
    · exact .inl (pending_insert hp hkey)

/-- **Within the day** every quiet call accounts for what it takes away. -/
theorem accounted_call {id : String} {c : Call} (hc : Call.Quiet c) (hnow : c.now = some now)
    (h : Watched id st) (hday : now < st.lastObservedUtc ∨ dateNaive now ≤ st.dayUtc) :
    Saves (fun _ => True) st (c.run policy)
      (fun reply st' => Accounted now reply.events st st') E := by
  cases c with
  | observeInterfaceHealth runId t interface decision =>
    obtain rfl : t = now := Option.some.inj hnow
    have hclock := Saves.and (@same_advanceClock policy _ _ E runId hday)
      (advanceClock_spec edited_watched.toObserved h runId)
    refine saves_bind (saves_bind (saves_mono (hclock.weaken fun _ _ => trivial)
      (fun events st₁ h₁ => ?_) fun _ _ he => he))
    refine saves_bind (saves_mono (accounted_observeDecision runId h₁.2.1)
      (fun events' st₂ h₂ => ?_) fun _ _ he => he)
    exact saves_pure (saves_pure ((traced_same h₁.1.1 h₁.1.2).then h₂))
  | pollInterfaces runId t latestSuccess =>
    obtain rfl : t = now := Option.some.inj hnow
    refine saves_bind (saves_bind (saves_mono (same_advanceClock runId hday)
      (fun events st₁ h₁ => ?_) fun _ _ he => he))
    refine saves_bind (saves_get (saves_ite (fun _ => ?_) fun _ => saves_bind ?_))
    · exact saves_pure (saves_pure (traced_same h₁.1 h₁.2).accounted)
    · refine saves_mono (traces_pollAccepted runId latestSuccess) (fun poll st₂ h₂ => ?_)
        fun _ _ he => he
      exact saves_pure (saves_pure (Traced.trans (traced_same h₁.1 h₁.2) h₂).accounted)
  | preflightManual runId t =>
    obtain rfl : t = now := Option.some.inj hnow
    refine saves_bind (saves_bind (saves_mono (same_advanceClock runId hday)
      (fun events st₁ h₁ => saves_bind (saves_get ?_)) fun _ _ he => he))
    have hsame : ∀ events, Accounted t events st st₁ := fun _ =>
      (traced_same h₁.1 h₁.2).accounted
    split
    · exact saves_pure (saves_pure (hsame _))
    · split
      · exact saves_pure (saves_pure (hsame _))
      · exact saves_pure (saves_pure (hsame _))
  | reserveRun t => exact hc.elim
  | finishAttempt runId t opportunity report => exact hc.elim
  | flush => cases hnow

/-! ### Calls on another day -/

/-- The result of a call that keeps nothing of a record with triggers from before. -/
structure Forgets (now : ℤ) (events : List MeasurementEvent) (st : ProviderState) : Prop where
  pending : ∀ key p, Pending st key p → p.createdAtUtc = now
  deferred : st.deferred = none
  unnamed : ∀ e ∈ events, ∀ key p, (p.reason = .pingLoss ∨ p.reason = .pingRtt) → ¬ Names key p e
  unexpired : ∀ e ∈ events, e.schedulerAction ≠ some .deferredExpired

/-- A record on a new day. -/
structure Blank (st : ProviderState) : Prop where
  triggers : st.interfaceTriggers = ∅
  deferred : st.deferred = none

lemma not_pending_empty {key : String} {p : PendingTrigger} (h : st.interfaceTriggers = ∅) :
    ¬ Pending st key p := by
  rintro ⟨trigger, ht, -⟩
  rw [h] at ht
  simp at ht

lemma forgets_nil (h : Blank st) : Forgets now [] st where
  pending _ _ hp := absurd hp (not_pending_empty h.triggers)
  deferred := h.deferred
  unnamed _ he := absurd he List.not_mem_nil
  unexpired _ he := absurd he List.not_mem_nil

lemma forgets_singleton {e : MeasurementEvent} (h : Blank st)
    (hunnamed : e.triggerReason = some .scheduled ∨ e.triggerReason = some .manual)
    (hunexpired : e.schedulerAction ≠ some .deferredExpired) : Forgets now [e] st where
  pending key p hp := absurd hp (not_pending_empty h.triggers)
  deferred := h.deferred
  unnamed e' he' key p hreason hn := by
    obtain rfl := List.mem_singleton.mp he'
    have hr := hn.reason
    rcases hreason with hp | hp <;> rcases hunnamed with hu | hu <;> simp [hp, hu] at hr
  unexpired e' he' := by
    obtain rfl := List.mem_singleton.mp he'
    exact hunexpired

/-- What was held before a call that forgets it is not accounted for. -/
lemma Forgets.not_accounted {id : String} (h : Forgets now events st') (hw : Watched id st)
    (hle : st.lastObservedUtc ≤ now) (hlt : st.dayUtc < dateNaive now)
    (hheld : st.deferred ≠ none ∨ ∃ key p, Pending st key p) : ¬ Accounted now events st st' := by
  intro ha
  rcases hheld with hd | ⟨key, p, hp⟩
  · obtain ⟨d, hd⟩ := Option.ne_none_iff_exists'.mp hd
    rcases ha.deferred d hd with hd' | ⟨e, he, hn⟩
    · simp [h.deferred] at hd'
    · exact h.unexpired e he hn.action
  · obtain ⟨trigger, ht, hpending⟩ := hp
    have hwaits := hw key trigger ht p hpending
    rcases ha.pending key p ⟨trigger, ht, hpending⟩ with hp' | ⟨hd, -⟩ | ⟨e, he, hn⟩
    · -- it would have been raised at this very time, before the day was rolled over
      have hcreated := h.pending key p hp'
      have hobserved := hwaits.created
      have hday := hwaits.day (by omega)
      rw [hcreated] at hday
      exact absurd hlt (not_lt.mpr hday)
    · simp [h.deferred] at hd
    · exact h.unnamed e he key p hwaits.reason hn

lemma Blank.of_eq (h : Blank st) (htriggers : st'.interfaceTriggers = st.interfaceTriggers)
    (hdeferred : st'.deferred = st.deferred) : Blank st' :=
  ⟨htriggers.trans h.triggers, hdeferred.trans h.deferred⟩

lemma blank_advanced (hlt : st.dayUtc < dateNaive now) : Blank (advanced policy now st) := by
  unfold advanced
  obtain ⟨rng, slots, hr, -⟩ := reconcileDay_of_lt policy hlt
  rw [hr]
  exact ⟨rfl, rfl⟩

lemma oldest_blank (h : Blank st) (latestSuccess : BTreeMap String Bool) (allow : Bool) :
    oldestEligiblePendingTrigger st latestSuccess allow = none := by
  rcases hold : oldestEligiblePendingTrigger st latestSuccess allow with _ | ⟨key, p⟩
  · rfl
  · exact absurd (pending_of_oldest hold) (not_pending_empty h.triggers)

lemma forgets_pollDue (h : Blank st) (runId : RunId) (latestSuccess : BTreeMap String Bool) :
    Saves (fun _ => True) st (pollDue policy runId now latestSuccess)
      (fun poll st' => Forgets now poll.events st') E := by
  refine saves_bind (saves_get (saves_ite (fun _ => saves_pure (forgets_nil h)) fun _ => ?_))
  rw [oldest_blank h]
  generalize (st.slots.filter (· ≤ now)).head? = due
  have hdue : Blank (if due.isSome then removeDueSlots now st else st) :=
    h.of_eq (triggers_dueSlots due st).1 (triggers_dueSlots due st).2
  rcases hb : blockReason policy st now with _ | blocked
  · refine saves_bind (saves_modify (saves_bind (saves_modify (saves_bind (saves_save trivial
      (saves_bind (saves_get (saves_pure (forgets_singleton ?_ (.inl rfl) ?_)))))))))
    · exact hdue.of_eq (triggers_useSlot _ _).1 (triggers_useSlot _ _).2
    · simp [event]
  · refine saves_bind (saves_modify (saves_bind (saves_modify (saves_bind (saves_save trivial
      (saves_bind (saves_get (saves_pure (forgets_singleton ?_ (.inl rfl) ?_)))))))))
    · simpa using hdue
    · rcases action_blockReason hb with ha | ha <;> simp [blockedEvent, event, ha]

lemma forgets_pollAccepted (h : Blank st) (runId : RunId) (latestSuccess : BTreeMap String Bool) :
    Saves (fun _ => True) st (pollAccepted policy runId now latestSuccess)
      (fun poll st' => Forgets now poll.events st') E := by
  have hexpire : Saves (fun _ => True) st (expireTriggers policy runId now)
      (fun events st' => events = [] ∧ st' = st) E := by
    refine saves_bind (saves_get (saves_ite (fun _ => saves_pure ⟨rfl, rfl⟩) fun hne => ?_))
    refine absurd ?_ hne
    rw [h.triggers]
    rfl
  have hdeferred : Saves (fun _ => True) st (pollDeferred policy runId now)
      (fun poll st' => poll = { opportunity := none, events := [] } ∧ st' = st) E := by
    refine saves_bind (saves_get ?_)
    rw [h.deferred]
    exact saves_pure ⟨rfl, rfl⟩
  refine saves_bind (saves_mono hexpire (fun expired st₁ h₁ => ?_) fun _ _ he => he)
  obtain ⟨rfl, rfl⟩ := h₁
  refine saves_bind (saves_mono hdeferred (fun deferred st₂ h₂ => ?_) fun _ _ he => he)
  obtain ⟨rfl, rfl⟩ := h₂
  refine saves_ite (fun hsome => by cases hsome) fun _ => saves_bind ?_
  exact saves_mono (forgets_pollDue h runId latestSuccess) (fun due _ hdue => saves_pure hdue)
    fun _ _ he => he

lemma forgets_observeDecision (h : Blank st) (runId : RunId) (interface : Option String)
    (decision : HealthDecision) :
    Saves (fun _ => True) st (observeDecision policy runId now interface decision)
      (fun events st' => Forgets now events st') E := by
  have hfresh : interfaceTrigger st interface = {} := by
    unfold interfaceTrigger
    rw [h.triggers]
    rfl
  cases decision with
  | healthy snapshot => exact saves_pure (forgets_nil h)
  | recovered snapshot =>
    refine saves_bind (saves_get (saves_ite (fun hsome => ?_) fun _ => saves_pure (forgets_nil h)))
    simp [hfresh] at hsome
  | degraded snapshot reason =>
    refine saves_bind (saves_get (saves_ite (fun _ => saves_pure (forgets_nil h)) fun _ => ?_))
    rw [h.deferred]
    refine saves_bind (saves_modify (saves_bind (saves_save trivial (saves_bind (saves_get
      (saves_pure ?_))))))
    constructor
    · rintro key p ⟨trigger, ht, hp⟩
      have ht : (st.interfaceTriggers.insert (interfaceKey interface) _)[key]? = some trigger := ht
      rw [h.triggers, Std.ExtTreeMap.getElem?_insert] at ht
      split at ht
      · cases ht
        simp only [h.deferred, Option.isSome_none, Bool.false_eq_true, if_false] at hp
        obtain rfl := Option.some.inj hp
        rfl
      · simp at ht
    · change st.deferred.map _ = none
      rw [h.deferred]
      rfl
    · intro e he key p _ hn
      obtain rfl := List.mem_singleton.mp he
      rcases hn.ended with ha | ha | ha <;> simp [event, MeasurementEvent.new] at ha
    · intro e he
      obtain rfl := List.mem_singleton.mp he
      simp [event]

/-- **On another day** a quiet call forgets what it finds. -/
theorem forgets_call {c : Call} (hc : Call.Quiet c) (hnow : c.now = some now)
    (hle : st.lastObservedUtc ≤ now) (hlt : st.dayUtc < dateNaive now) :
    Saves (fun _ => True) st (c.run policy) (fun reply st' => Forgets now reply.events st') E := by
  have hclock : ∀ runId, Saves (fun _ => True) st (advanceClock policy runId now)
      (fun events st' => events = [] ∧ Blank st') E := by
    intro runId
    refine saves_bind (saves_get (saves_ite
      (fun hback => absurd hback (not_lt.mpr hle)) fun _ => ?_))
    exact saves_bind (saves_modify (saves_bind (saves_save trivial
      (saves_pure ⟨rfl, blank_advanced hlt⟩))))
  cases c with
  | observeInterfaceHealth runId t interface decision =>
    obtain rfl : t = now := Option.some.inj hnow
    refine saves_bind (saves_bind (saves_mono (hclock runId) (fun events st₁ h₁ => ?_)
      fun _ _ he => he))
    obtain ⟨rfl, hblank⟩ := h₁
    refine saves_bind (saves_mono (forgets_observeDecision hblank runId interface decision)
      (fun events st₂ h₂ => saves_pure (saves_pure h₂)) fun _ _ he => he)
  | pollInterfaces runId t latestSuccess =>
    obtain rfl : t = now := Option.some.inj hnow
    refine saves_bind (saves_bind (saves_mono (hclock runId) (fun events st₁ h₁ => ?_)
      fun _ _ he => he))
    obtain ⟨rfl, hblank⟩ := h₁
    refine saves_bind (saves_get (saves_ite (fun _ => ?_) fun _ => saves_bind ?_))
    · exact saves_pure (saves_pure (forgets_nil hblank))
    · exact saves_mono (forgets_pollAccepted hblank runId latestSuccess)
        (fun poll st₂ h₂ => saves_pure (saves_pure h₂)) fun _ _ he => he
  | preflightManual runId t =>
    obtain rfl : t = now := Option.some.inj hnow
    refine saves_bind (saves_bind (saves_mono (hclock runId)
      (fun events st₁ h₁ => saves_bind (saves_get ?_)) fun _ _ he => he))
    obtain ⟨rfl, hblank⟩ := h₁
    dsimp only [List.getLast?_nil, Option.filter]
    rcases hb : blockReason policy st₁ t with _ | blocked
    · exact saves_pure (saves_pure (forgets_nil hblank))
    · refine saves_pure (saves_pure (forgets_singleton hblank (.inr rfl) ?_))
      rcases action_blockReason hb with ha | ha <;> simp [blockedEvent, event, ha]
  | reserveRun t => exact hc.elim
  | finishAttempt runId t opportunity report => exact hc.elim
  | flush => cases hnow

end traced

/-! ### Every system that is reached -/

/-- **Accounting for opportunities**: a quiet call accounts for every pending trigger and every
deferred run that it takes away, exactly if it does not roll the day over, or none is there. -/
theorem accounted_iff {S : Serde} {w : System} {s s' : Scheduler} {c : Call} {now : ℤ}
    {io : List Io} {e : Entry} {reply : Reply} (h : Reaches S (fun _ _ => True) w)
    (hlive : w.live = some s) (hc : Call.Quiet c) (hnow : c.now = some now)
    (hlive' : (w.step S (.call c, io)).live = some s')
    (htrace : (w.step S (.call c, io)).trace = w.trace ++ [e]) (hok : e.result = .ok reply) :
    Accounted now reply.events s.state s'.state ↔ now < s.state.lastObservedUtc ∨
      dateNaive now ≤ s.state.dayUtc ∨
      (s.state.deferred = none ∧ ∀ key p, ¬ Pending s.state key p) := by
  have hrecords := (clean_of_reaches (kept_validState.and sustained_watched) h).1 s hlive
  have hw : Watched s.policy.providerId s.state := (hrecords _ _ (state_get s)).2
  obtain ⟨t, e', ht, he', -, hresult⟩ := @step_call S _ _ c io hlive
  obtain rfl : t = s' := Option.some.inj (ht.symm.trans hlive')
  obtain rfl : e' = e := by simpa using he'.symm.trans htrace
  obtain ⟨hreply, hstate⟩ := hresult reply hok
  rw [hstate]
  constructor
  · intro ha
    by_contra hnot
    push Not at hnot
    obtain ⟨hle, hlt, hheld⟩ := hnot
    have hforgets := (@forgets_call s.policy _ _ (fun _ _ => True) _ hc hnow hle hlt).2.1
      reply hreply
    refine hforgets.not_accounted hw hle hlt ?_ ha
    by_cases hd : s.state.deferred = none
    · obtain ⟨key, p, hp⟩ := hheld hd
      exact .inr ⟨key, p, hp⟩
    · exact .inl hd
  · rintro (hback | hday | ⟨hd, hp⟩)
    · exact (accounted_call (E := fun _ _ => True) hc hnow hw (.inl hback)).2.1 reply hreply
    · exact (accounted_call (E := fun _ _ => True) hc hnow hw (.inr hday)).2.1 reply hreply
    · exact ⟨fun key p hpending => absurd hpending (hp key p), fun d hmem => by simp [hd] at hmem⟩

/-! ### A retry that is lost at midnight -/

/-- An attempt that discovery refused. -/
def limitedReport (retryAt : ℤ) : BandwidthReport where
  events := [{ MeasurementEvent.new 1 .requestFailure .rateLimited 0 with
    requestStage := some .locate
    requestRetryAtUtc := some retryAt }]
  outcome := .rateLimited
  reserved := false
  reservationError := none

def scheduledOpportunity : BandwidthOpportunity := ⟨.scheduled, some 0, 0, none⟩

/-- At midnight the attempt is rate limited until one o'clock. -/
def limitedCalls : List Call :=
  [.finishAttempt 1 0 scheduledOpportunity (limitedReport 3600000000000)]

/-- The record with the deferred run. -/
def limitedState : ProviderState := (tell mlabPolicy (newState mlabPolicy 0 1) limitedCalls).1

noncomputable def limitedSystem : System :=
  calmRun Encoding.formats mlabPolicy 0 1 (.replicate 16 0) limitedCalls

lemma calm_limited : ∃ s L, Calm Encoding.formats mlabPolicy limitedState 2 s L limitedSystem := by
  obtain ⟨s, L, hcalm, -⟩ := @calmRun_spec Encoding.formats mlabPolicy 0 1
    (.replicate 16 0) limitedCalls (by decide +kernel)
  exact ⟨s, L, hcalm⟩

lemma clock_limited : limitedSystem.clock = some 0 := by
  unfold limitedSystem calmRun limitedCalls
  rfl

lemma watched_limited {s : Scheduler} (h : limitedSystem.live = some s) :
    Watched s.policy.providerId s.state := by
  have hreach : Reaches Encoding.formats (fun _ _ => True) limitedSystem :=
    reaches_calmRun 0 1 (.replicate 16 0) limitedCalls trivial fun _ => trivial
  have hrecords := (clean_of_reaches (kept_validState.and sustained_watched) hreach).1 s h
  exact (hrecords _ _ (state_get s)).2

/-- **A retry that is lost**: the first poll of the next day drops it without an event. -/
theorem retry_lost_at_midnight : ¬ ∀ (w : System) (s s' : Scheduler) (c : Call) (now : ℤ)
    (e : Entry) (reply : Reply), Reaches Encoding.formats InOrder w → w.live = some s →
    Call.Quiet c → c.now = some now → InOrder w (.call c) →
    (w.step Encoding.formats (.call c, [])).live = some s' →
    (w.step Encoding.formats (.call c, [])).trace = w.trace ++ [e] → e.result = .ok reply →
    Accounted now reply.events s.state s'.state := by
  intro h
  obtain ⟨s, L, hcalm⟩ := calm_limited
  obtain ⟨s', L', e, hcalm', htrace, htold, -⟩ :=
    hcalm.call (.pollInterfaces 1 86400000000000 ∅) (by decide +kernel)
  have hresult : e.result = ((Call.pollInterfaces 1 86400000000000 ∅).run mlabPolicy
    limitedState).2.1 := result_of_told htold
  rcases hr : ((Call.pollInterfaces 1 86400000000000 ∅).run mlabPolicy limitedState).2.1 with
    err | reply
  · have hok : (((Call.pollInterfaces 1 86400000000000 ∅).run mlabPolicy
      limitedState).2.1).isOk = true := by decide +kernel
    rw [hr] at hok
    cases hok
  have haccounted := h limitedSystem s s' (.pollInterfaces 1 86400000000000 ∅) 86400000000000 e
    reply (reaches_calmRun_inOrder (by simp [limitedCalls, Ascending, Call.now])) hcalm.live
    trivial rfl (fun clock hclock now hnow => by
      rw [clock_limited] at hclock
      cases hclock
      cases hnow
      decide) hcalm'.live htrace (hresult.trans hr)
  have hforgets := (@forgets_call mlabPolicy _ limitedState
    (fun _ _ => True) (.pollInterfaces 1 86400000000000 ∅) trivial rfl
    (by decide +kernel) (by decide +kernel)).2.1 reply hr
  have hw := watched_limited hcalm.live
  rw [hcalm.state] at haccounted hw
  rw [hcalm'.state] at haccounted
  exact hforgets.not_accounted hw (by decide +kernel) (by decide +kernel)
    (.inl (by decide +kernel)) haccounted

/-- A poll on the day of the record. -/
theorem accounted_on_the_day : ∃ (s s' : Scheduler) (reply : Reply),
    limitedSystem.live = some s ∧ s.state.deferred.isSome = true ∧
    Accounted 60000000000 reply.events s.state s'.state := by
  obtain ⟨s, L, hcalm⟩ := calm_limited
  obtain ⟨s', L', e, hcalm', htrace, htold, -⟩ :=
    hcalm.call (.pollInterfaces 1 60000000000 ∅) (by decide +kernel)
  have hresult : e.result = ((Call.pollInterfaces 1 60000000000 ∅).run mlabPolicy
    limitedState).2.1 := result_of_told htold
  rcases hr : e.result with err | reply
  · have hok : (((Call.pollInterfaces 1 60000000000 ∅).run mlabPolicy
      limitedState).2.1).isOk = true := by decide +kernel
    rw [← hresult, hr] at hok
    cases hok
  have hquiet : Call.Quiet (.pollInterfaces 1 60000000000 ∅) := trivial
  refine ⟨s, s', reply, hcalm.live, ?_, (accounted_iff (reaches_calmRun 0 1 (.replicate 16 0)
    limitedCalls trivial fun _ => trivial) hcalm.live hquiet rfl hcalm'.live htrace hr).mpr
    (.inr (.inl ?_))⟩
  · rw [hcalm.state]
    decide +kernel
  · rw [hcalm.state]
    decide +kernel

end Netband.Opportunities

import Netband.World

/-!
What the operations do to the record of their provider.

Health observations, polls, manual preflights and flushes only roll the day over, note the
time, and edit slots, triggers and the deferred run: a property that these edits keep is
kept by them. Reservations and finished attempts are described exactly.
-/

namespace Netband.Edits

open Netband.Time Netband.Model Netband.State Netband.Plan Netband.Effects Netband.Scheduling
open Netband.World Saving

variable {policy : SchedulerPolicy} {now : ℤ} {R : ProviderState → Prop} {st : ProviderState}

/-! ### Planning changes slots and the generator only -/

lemma rng_planSlot {minSpacing pct : ℕ} {earliest stop totalMs : ℤ} {count index : ℕ}
    {acc : List ℤ × UInt64} (h : acc.2 ≠ 0) :
    (planSlot minSpacing pct earliest stop totalMs count acc index).2 ≠ 0 := by
  simp only [planSlot]
  split_ifs <;> first | exact h | exact nextRandom_ne_zero _

variable (policy) in
lemma planInterval_eq (st : ProviderState) (start stop : ℤ) (count : ℕ) :
    ∃ rng, (planInterval policy st start stop count).2 = { st with rngState := rng } ∧
      (st.rngState ≠ 0 → rng ≠ 0) := by
  unfold planInterval planIntervalWith
  split_ifs
  · exact ⟨st.rngState, rfl, id⟩
  dsimp only
  split_ifs
  · exact ⟨st.rngState, rfl, id⟩
  · refine ⟨_, rfl, fun h => ?_⟩
    exact List.foldlRecOn (motive := fun acc : List ℤ × UInt64 => acc.2 ≠ 0) _ _ h
      fun acc hacc index _ => rng_planSlot hacc

variable (policy now) in
lemma planFullDay_eq (st : ProviderState) :
    ∃ rng, (planFullDay policy st now).2 = { st with rngState := rng } ∧
      (st.rngState ≠ 0 → rng ≠ 0) :=
  planInterval_eq policy st _ _ _

variable (policy now) in
lemma replanRemaining_eq (st : ProviderState) :
    ∃ rng slots, replanRemaining policy now st = { st with rngState := rng, slots } ∧
      (st.rngState ≠ 0 → rng ≠ 0) := by
  obtain ⟨rng, h, hrng⟩ := planInterval_eq policy st now (dayEnd (dateNaive now))
    (policy.dailyMax - runsOnDay st (dateNaive now))
  refine ⟨rng, (planInterval policy st now (dayEnd (dateNaive now))
    (policy.dailyMax - runsOnDay st (dateNaive now))).1, ?_, hrng⟩
  simp only [replanRemaining, h]

lemma reconcileDay_of_le (h : dateNaive now ≤ st.dayUtc) : reconcileDay policy now st = st :=
  if_pos h

variable (policy) in
lemma reconcileDay_of_lt (h : st.dayUtc < dateNaive now) :
    ∃ rng slots, reconcileDay policy now st = { newDay now st with rngState := rng, slots } ∧
      (st.rngState ≠ 0 → rng ≠ 0) := by
  obtain ⟨rng, hp, hrng⟩ := planFullDay_eq policy now (newDay now st)
  refine ⟨rng, (planFullDay policy (newDay now st) now).1, ?_, hrng⟩
  simp only [reconcileDay, if_neg (not_le.mpr h), hp]

variable (policy now) in
lemma day_reconcileDay (st : ProviderState) :
    dateNaive now ≤ (reconcileDay policy now st).dayUtc := by
  rcases le_or_gt (dateNaive now) st.dayUtc with h | h
  · rwa [reconcileDay_of_le h]
  · obtain ⟨rng, slots, hr, -⟩ := reconcileDay_of_lt policy h
    rw [hr]
    exact le_rfl

variable (policy) in
lemma nextBackoff_eq (st : ProviderState) :
    ∃ rng, (nextBackoff policy st).2 =
      { st with backoffStep := min (st.backoffStep + 1) 4, rngState := rng } ∧
      (st.rngState ≠ 0 → rng ≠ 0) := by
  unfold nextBackoff jitterDuration
  dsimp only
  split_ifs
  · exact ⟨st.rngState, rfl, id⟩
  · exact ⟨_, rfl, fun _ => nextRandom_ne_zero _⟩

/-! ### Quiet operations -/

/-- A property of records that does not depend on slots and triggers. -/
structure Frame (R : ProviderState → Prop) : Prop where
  slots : ∀ st slots, R st → R { st with slots }
  triggers : ∀ st interfaceTriggers, R st → R { st with interfaceTriggers }

/-- A property of records that every quiet edit keeps but for the advance of the clock. -/
structure Timeless (R : ProviderState → Prop) : Prop extends Frame R where
  dropped : ∀ st, R st → R { st with deferred := none }
  merged : ∀ st reason interface, R st →
    R { st with deferred := st.deferred.map fun d => { d with reason, interface } }

/-- A property of records that every quiet edit at a time keeps. -/
structure Closed (policy : SchedulerPolicy) (now : ℤ) (R : ProviderState → Prop) : Prop
    extends Timeless R where
  rollover : ∀ st, R st → R (reconcileDay policy now st)
  observed : ∀ st, R st → st.lastObservedUtc ≤ now → R { st with lastObservedUtc := now }

variable (policy now) in
lemma lastObserved_reconcileDay (st : ProviderState) :
    (reconcileDay policy now st).lastObservedUtc = st.lastObservedUtc := by
  rcases le_or_gt (dateNaive now) st.dayUtc with h | h
  · rw [reconcileDay_of_le h]
  · obtain ⟨rng, slots, hr, -⟩ := reconcileDay_of_lt policy h
    rw [hr]
    rfl

/-- The record after its clock was advanced. -/
def advanced (policy : SchedulerPolicy) (now : ℤ) (st : ProviderState) : ProviderState :=
  { reconcileDay policy now st with lastObservedUtc := now }

/-- The clock of a record after it was advanced to a time, or was found to be past it. -/
def Clocked (now : ℤ) (st : ProviderState) : Prop :=
  now < st.lastObservedUtc ∨ st.lastObservedUtc = now ∧ dateNaive now ≤ st.dayUtc

/-- A property of records that the edits of a health observation at a time keep; the recovery of
an interface is only asked for where `recovers` says so. -/
structure Observed (policy : SchedulerPolicy) (now : ℤ) (recovers : Option String → Prop)
    (R : ProviderState → Prop) : Prop where
  advanced : ∀ st, R st → st.lastObservedUtc ≤ now → R (advanced policy now st)
  latched : ∀ st reason interface, R st → Clocked now st →
    (interfaceTrigger st interface).latched = false →
    R (latchTrigger (triggerReasonOf reason) interface now (addDuration now policy.pendingTtl) st)
  recovered : ∀ st interface, recovers interface → R st →
    R (updateTrigger interface (fun _ => { pending := none, latched := false }) st)

/-- A property of records that every edit of a quiet operation at a time keeps. -/
structure Edited (policy : SchedulerPolicy) (now : ℤ) (recovers : Option String → Prop)
    (R : ProviderState → Prop) : Prop extends Observed policy now recovers R where
  expired : ∀ st key, R st → R (expirePending st key)
  dropped : ∀ st, R st → R { st with deferred := none }
  dueSlots : ∀ st, R st → R (removeDueSlots now st)
  usedSlot : ∀ st reason, R st → R (useSlot reason st)
  cleared : ∀ st interface, R st → R (clearPending interface st)

section frame
variable (hR : Frame R)
include hR

lemma Frame.updateTrigger {interface : Option String}
    {f : InterfaceTriggerState → InterfaceTriggerState} (h : R st) :
    R (updateTrigger interface f st) :=
  hR.triggers st _ h

lemma Frame.expirePending {key : String} (h : R st) : R (expirePending st key) := by
  unfold Scheduling.expirePending
  split
  · exact hR.triggers st _ h
  · exact h

lemma Frame.removeDueSlots (h : R st) : R (removeDueSlots now st) := hR.slots st _ h

lemma Frame.useSlot {reason : TriggerReason} (h : R st) : R (useSlot reason st) := by
  unfold Scheduling.useSlot
  split_ifs
  · split
    · exact hR.slots st _ h
    · exact h
  · exact h

end frame

lemma Closed.advanced (hR : Closed policy now R) (h : R st) (ht : st.lastObservedUtc ≤ now) :
    R (advanced policy now st) :=
  hR.observed _ (hR.rollover st h) (by rwa [lastObserved_reconcileDay])

lemma Timeless.latchTrigger (hR : Timeless R) {reason : TriggerReason}
    {interface : Option String} {expiresAt : ℤ} (h : R st) :
    R (latchTrigger reason interface now expiresAt st) := by
  unfold Scheduling.latchTrigger
  exact hR.updateTrigger (hR.merged st reason interface h)

lemma Timeless.edited (hR : Timeless R)
    (hadv : ∀ st, R st → st.lastObservedUtc ≤ now → R (Edits.advanced policy now st)) :
    Edited policy now (fun _ => True) R where
  advanced := hadv
  expired _ _ h := hR.expirePending h
  dropped _ h := hR.dropped _ h
  dueSlots _ h := hR.removeDueSlots h
  usedSlot _ _ h := hR.useSlot h
  cleared _ _ h := hR.updateTrigger h
  latched _ _ _ h _ _ := hR.latchTrigger h
  recovered _ _ _ h := hR.updateTrigger h

lemma Closed.edited (hR : Closed policy now R) : Edited policy now (fun _ => True) R :=
  hR.toTimeless.edited fun _ h ht => hR.advanced h ht

lemma Edited.and {recovers : Option String → Prop} {R' : ProviderState → Prop}
    (h : Edited policy now recovers R) (h' : Edited policy now recovers R') :
    Edited policy now recovers fun st => R st ∧ R' st where
  advanced _ hst ht := ⟨h.advanced _ hst.1 ht, h'.advanced _ hst.2 ht⟩
  expired _ key hst := ⟨h.expired _ key hst.1, h'.expired _ key hst.2⟩
  dropped _ hst := ⟨h.dropped _ hst.1, h'.dropped _ hst.2⟩
  dueSlots _ hst := ⟨h.dueSlots _ hst.1, h'.dueSlots _ hst.2⟩
  usedSlot _ reason hst := ⟨h.usedSlot _ reason hst.1, h'.usedSlot _ reason hst.2⟩
  cleared _ interface hst := ⟨h.cleared _ interface hst.1, h'.cleared _ interface hst.2⟩
  latched _ reason interface hst hc hl :=
    ⟨h.latched _ reason interface hst.1 hc hl, h'.latched _ reason interface hst.2 hc hl⟩
  recovered _ interface hr hst :=
    ⟨h.recovered _ interface hr hst.1, h'.recovered _ interface hr hst.2⟩

/-- The result of advancing the clock: an event on a rollback, or an advanced record. -/
inductive ClockAdvanced (policy : SchedulerPolicy) (now : ℤ) (st : ProviderState) :
    List MeasurementEvent → ProviderState → Prop
  | rollback (h : now < st.lastObservedUtc) (e : MeasurementEvent) :
      ClockAdvanced policy now st [e] st
  | forward (h : st.lastObservedUtc ≤ now) :
      ClockAdvanced policy now st [] (advanced policy now st)

section operations
variable {E : SchedulerError → ProviderState → Prop} {recovers : Option String → Prop}

lemma clocked_advanced (st : ProviderState) : Clocked now (advanced policy now st) :=
  .inr ⟨rfl, day_reconcileDay policy now st⟩

lemma advanceClock_spec (hR : Observed policy now recovers R) (h : R st) (runId : RunId) :
    Saves R st (advanceClock policy runId now)
      (fun events st' => R st' ∧ Clocked now st' ∧ ClockAdvanced policy now st events st') E := by
  refine saves_bind (saves_get (saves_ite (fun ht => ?_) fun ht => ?_))
  · exact saves_pure ⟨h, .inl ht, .rollback ht _⟩
  · have hadv := hR.advanced st h (not_lt.mp ht)
    exact saves_bind (saves_modify (saves_bind (saves_save hadv
      (saves_pure ⟨hadv, clocked_advanced st, .forward (not_lt.mp ht)⟩))))

variable (policy now) in
lemma advanceClock_apply (runId : RunId) (st : ProviderState) :
    (now < st.lastObservedUtc ∧ ∃ e, advanceClock policy runId now st = ([], .ok [e], st)) ∨
    (st.lastObservedUtc ≤ now ∧ advanceClock policy runId now st =
      ([advanced policy now st], .ok [], advanced policy now st)) := by
  unfold advanceClock
  rw [get_bind]
  dsimp only
  split_ifs with h
  · exact .inl ⟨h, _, rfl⟩
  · exact .inr ⟨not_lt.mp h, rfl⟩

/-- A manual run that is allowed was saved, and nothing blocks it. -/
lemma preflightManual_allowed {runId : RunId}
    (h : (preflightManual policy runId now st).2.1 = .ok .allowed) :
    (preflightManual policy runId now st).1 ≠ [] ∧
      blockReason policy (advanced policy now st) now = none := by
  unfold preflightManual at h ⊢
  rcases bind_cases (advanceClock policy runId now) _ st with
    ⟨saves, events, st', hc, hb⟩ | ⟨saves, e, st', hc, hb⟩
  · rw [hb] at h ⊢
    rcases advanceClock_apply policy now runId st with
      ⟨hlt, e, ha⟩ | ⟨hle, ha⟩
    · obtain ⟨rfl, ⟨⟩, rfl⟩ : ([], Except.ok [e], st) = (saves, Except.ok events, st') :=
        ha.symm.trans hc
      simp [get_bind, hlt, Option.filter] at h
      cases h
    · obtain ⟨rfl, ⟨⟩, rfl⟩ : ([advanced policy now st], Except.ok [], advanced policy now st) =
        (saves, Except.ok events, st') := ha.symm.trans hc
      refine ⟨by simp, ?_⟩
      rcases hblock : blockReason policy (advanced policy now st) now with _ | blocked
      · rfl
      · simp [get_bind, hblock] at h
        cases h
  · rw [hb] at h
    cases h

lemma observeDecision_spec (hR : Observed policy now recovers R) (h : R st)
    (hclock : Clocked now st) (runId : RunId) (interface : Option String)
    (decision : HealthDecision)
    (hrec : ∀ snapshot, decision = .recovered snapshot → recovers interface) :
    Saves R st (observeDecision policy runId now interface decision) (fun _ st' => R st') E := by
  cases decision with
  | healthy snapshot => exact saves_pure h
  | degraded snapshot reason =>
    refine saves_bind (saves_get (saves_ite (fun _ => saves_pure h) fun hlatch => ?_))
    have hl : R (latchTrigger (triggerReasonOf reason) interface now
        (addDuration now policy.pendingTtl) st) :=
      hR.latched st reason interface h hclock (Bool.eq_false_iff.mpr hlatch)
    exact saves_bind (saves_modify (saves_bind (saves_save hl (saves_bind (saves_get
      (saves_pure hl))))))
  | recovered snapshot =>
    refine saves_bind (saves_get (saves_ite (fun _ => ?_) fun _ => saves_pure h))
    have hu : R (updateTrigger interface (fun _ => { pending := none, latched := false }) st) :=
      hR.recovered st interface (hrec snapshot rfl) h
    exact saves_bind (saves_modify (saves_bind (saves_save hu (saves_bind (saves_get
      (saves_pure hu))))))

lemma observeInterfaceHealth_spec (hR : Observed policy now recovers R) (h : R st)
    (runId : RunId) (interface : Option String) (decision : HealthDecision)
    (hrec : ∀ snapshot, decision = .recovered snapshot → recovers interface) :
    Saves R st (observeInterfaceHealth policy runId now interface decision)
      (fun _ st' => R st') E :=
  saves_bind (saves_mono (advanceClock_spec hR h runId) (fun _ _ hst => saves_bind
    (saves_mono (observeDecision_spec hR hst.1 hst.2.1 runId interface decision hrec)
      (fun _ _ hst => saves_pure hst) fun _ _ he => he)) fun _ _ he => he)

lemma expireTriggers_spec (hR : Edited policy now recovers R) (h : R st) (runId : RunId) :
    Saves R st (expireTriggers policy runId now) (fun _ st' => R st') E := by
  refine saves_bind (saves_get (saves_ite (fun _ => saves_pure h) fun _ => ?_))
  have hfold : ∀ keys : List String, R (keys.foldl expirePending st) := fun keys =>
    List.foldlRecOn (motive := R) keys _ h fun st hst key _ => hR.expired st key hst
  exact saves_bind (saves_modify (saves_bind (saves_save (hfold _) (saves_bind (saves_get
    (saves_pure (hfold _)))))))

/-- A deferred run that a poll hands out. -/
def retryLive (st : ProviderState) (now : ℤ) : Bool :=
  st.deferred.any (!deferredExpired · now) && st.cooldownUntilUtc.all (· ≤ now)

lemma pollDeferred_spec (hdrop : R { st with deferred := none }) (h : R st) (runId : RunId) :
    Saves R st (pollDeferred policy runId now)
      (fun poll st' => R st' ∧ poll.opportunity.isSome = retryLive st now ∧
        (st' = st ∨ st' = { st with deferred := none })) E := by
  refine saves_bind (saves_get ?_)
  unfold retryLive
  rcases hd : st.deferred with _ | deferred
  · exact saves_pure ⟨h, by simp, .inl rfl⟩
  · refine saves_ite (fun hexp => ?_) fun hexp => saves_ite (fun hcool => ?_) fun hcool => ?_
    · exact saves_bind (saves_modify (saves_bind (saves_save hdrop (saves_bind (saves_get
        (saves_pure ⟨hdrop, by simp [hexp], .inr rfl⟩))))))
    · exact saves_pure ⟨h, by simp [hexp, hcool], .inl rfl⟩
    · exact saves_pure ⟨h, by simp [hexp, hcool], .inl rfl⟩

lemma pollDue_spec (hR : Edited policy now recovers R) (h : R st) (runId : RunId)
    (latestSuccess : BTreeMap String Bool) :
    Saves R st (pollDue policy runId now latestSuccess)
      (fun poll st' => R st' ∧ (poll.opportunity.isSome → blockReason policy st now = none))
      E := by
  refine saves_bind (saves_get (saves_ite (fun _ => ?_) fun _ => ?_))
  · exact saves_pure ⟨h, by simp⟩
  have hdue : ∀ due : Option ℤ, R (if due.isSome then removeDueSlots now st else st) := by
    intro due
    split
    · exact hR.dueSlots st h
    · exact h
  rcases hb : blockReason policy st now with _ | blocked
  · have huse : ∀ (reason : TriggerReason) (due : Option ℤ),
        R (useSlot reason (if due.isSome then removeDueSlots now st else st)) :=
      fun reason due => hR.usedSlot _ reason (hdue due)
    exact saves_bind (saves_modify (saves_bind (saves_modify (saves_bind (saves_save (huse _ _)
      (saves_bind (saves_get (saves_pure ⟨huse _ _, fun _ => rfl⟩))))))))
  · have hclear : ∀ (due : Option ℤ) (b : Bool) (interface : Option String),
        R (if b then clearPending interface (if due.isSome then removeDueSlots now st else st)
          else (if due.isSome then removeDueSlots now st else st)) := by
      intro due b interface
      split
      · exact hR.cleared _ interface (hdue due)
      · exact hdue due
    exact saves_bind (saves_modify (saves_bind (saves_modify (saves_bind
      (saves_save (hclear _ _ _) (saves_bind (saves_get (saves_pure ⟨hclear _ _ _, by simp⟩))))))))

lemma pollAccepted_spec (hR : Edited policy now recovers R) (h : R st) (runId : RunId)
    (latestSuccess : BTreeMap String Bool) :
    Saves R st (pollAccepted policy runId now latestSuccess) (fun _ st' => R st') E := by
  refine saves_bind (saves_mono (expireTriggers_spec hR h runId) (fun _ st hst => ?_)
    fun _ _ he => he)
  refine saves_bind (saves_mono (pollDeferred_spec (hR.dropped st hst) hst runId)
    (fun _ st hst => ?_) fun _ _ he => he)
  refine saves_ite (fun _ => saves_pure hst.1) fun _ => saves_bind ?_
  exact saves_mono (pollDue_spec hR hst.1 runId latestSuccess) (fun _ _ hst => saves_pure hst.1)
    fun _ _ he => he

lemma pollInterfaces_spec (hR : Edited policy now recovers R) (h : R st) (runId : RunId)
    (latestSuccess : BTreeMap String Bool) :
    Saves R st (pollInterfaces policy runId now latestSuccess) (fun _ st' => R st') E := by
  refine saves_bind (saves_mono (advanceClock_spec hR.toObserved h runId) (fun _ st hst => ?_)
    fun _ _ he => he)
  refine saves_bind (saves_get (saves_ite (fun _ => saves_pure hst.1) fun _ => saves_bind ?_))
  exact saves_mono (pollAccepted_spec hR hst.1 runId latestSuccess)
    (fun _ _ hst => saves_pure hst) fun _ _ he => he

lemma preflightManual_spec (hR : Observed policy now recovers R) (h : R st) (runId : RunId) :
    Saves R st (preflightManual policy runId now) (fun _ st' => R st') E := by
  refine saves_bind (saves_mono (advanceClock_spec hR h runId) ?_ fun _ _ he => he)
  rintro events st' ⟨hst, -⟩
  refine saves_bind (saves_get ?_)
  split
  · exact saves_pure hst
  · split <;> exact saves_pure hst

end operations

/-! ### Admission -/

lemma cooldown_filter_eq_none {cooldown : Option ℤ} :
    cooldown.filter (now < ·) = none ↔ ∀ c ∈ cooldown, c ≤ now := by
  cases cooldown <;> simp [Option.filter]

/-- **Admission**: nothing blocks a run below its cap, if limits are forced or the cooldown and
the spacing are over. -/
theorem blockReason_eq_none : blockReason policy st now = none ↔
    capReached policy (runsOnDay st (dateNaive now)) = false ∧ (policy.forceLimits = true ∨
      (∀ c ∈ st.cooldownUntilUtc, c ≤ now) ∧
        ∀ t ∈ st.lastStartedAtUtc, addDuration t policy.minSpacing ≤ now) := by
  unfold blockReason
  dsimp only
  generalize runsOnDay st (dateNaive now) = used
  cases hcap : capReached policy used with
  | true => simp
  | false =>
    cases hforce : policy.forceLimits with
    | true => simp
    | false =>
      simp only [Bool.false_eq_true, if_false, true_and, false_or]
      rw [← cooldown_filter_eq_none]
      cases st.cooldownUntilUtc.filter (now < ·) with
      | some deadline => simp
      | none => cases st.lastStartedAtUtc <;> simp

/-- A blocked run is suppressed or deferred. -/
lemma action_blockReason {blocked : BlockReason} (h : blockReason policy st now = some blocked) :
    blocked.action = .suppressed ∨ blocked.action = .deferred := by
  unfold blockReason at h
  dsimp only at h
  split_ifs at h
  · cases h
    exact .inl rfl
  · split at h
    · cases h
      exact .inr rfl
    · obtain ⟨eligible, -, hb⟩ := Option.bind_eq_some_iff.mp h
      split_ifs at hb
      cases hb
      exact .inr rfl

/-! ### Reservations and finished attempts -/

/-- **Reservations**: a blocked one only rolls the day over, any other is saved. -/
theorem reserveRun_apply (st : ProviderState) : reserveRun policy now st =
    match blockReason policy (reconcileDay policy now st) now with
    | some blocked => ([], .error (.admission ("reservation rejected after preflight: " ++
        blocked.message)), reconcileDay policy now st)
    | none =>
      let started := startRun now (reconcileDay policy now st)
      ([started], .ok { accountingDate := dateNaive now,
                        dailyBandwidthStarts := runsOnDay started (dateNaive now) }, started) := by
  unfold reserveRun
  rw [modify_bind, get_bind]
  cases blockReason policy (reconcileDay policy now st) now with
  | some blocked => rfl
  | none => rfl

/-- The record after a finished attempt. -/
def finished (policy : SchedulerPolicy) (now : ℤ) (opportunity : BandwidthOpportunity)
    (report : BandwidthReport) (st : ProviderState) : ProviderState :=
  match rateLimitFromReport report policy.providerKind with
  | some rateLimit =>
    (finishRateLimited policy now opportunity report.reserved rateLimit st).2
  | none => finishUnlimited policy now opportunity report st

variable (policy now) in
/-- **Finished attempts** are saved. -/
theorem finishAttempt_apply (runId : RunId) (opportunity : BandwidthOpportunity)
    (report : BandwidthReport) (st : ProviderState) : ∃ result,
    finishAttempt policy runId now opportunity report st =
      ([finished policy now opportunity report st], .ok result,
        finished policy now opportunity report st) := by
  unfold finishAttempt finished
  cases rateLimitFromReport report policy.providerKind <;> exact ⟨_, rfl⟩

variable (policy now) in
/-- What a rate-limited attempt edits; its deadline is not before the one in force. -/
lemma finishRateLimited_eq (opportunity : BandwidthOpportunity) (reserved : Bool)
    (rateLimit : RateLimit) (st : ProviderState) : ∃ deadline rng slots backoff,
    finishRateLimited policy now opportunity reserved rateLimit st =
      (deadline, { clearPending opportunity.interface st with
        rngState := rng
        slots
        backoffStep := backoff
        deferred := deferAfter now deadline opportunity reserved st.deferred
        cooldownUntilUtc := some deadline }) ∧
      (st.rngState ≠ 0 → rng ≠ 0) ∧ (st.backoffStep ≤ 4 → backoff ≤ 4) ∧
      ∀ c ∈ st.cooldownUntilUtc, c ≤ deadline := by
  have hlimited : ∃ rng backoff, (rateLimitDeadline policy now rateLimit st).2 =
      { st with backoffStep := backoff, rngState := rng } ∧
      (st.rngState ≠ 0 → rng ≠ 0) ∧ (st.backoffStep ≤ 4 → backoff ≤ 4) := by
    unfold rateLimitDeadline
    cases rateLimit.deadline with
    | some deadline => exact ⟨_, _, rfl, id, id⟩
    | none =>
      obtain ⟨rng, hb, hrng⟩ := nextBackoff_eq policy st
      exact ⟨rng, _, hb, hrng, fun _ => by omega⟩
  obtain ⟨rng, backoff, hl, hrng, hbackoff⟩ := hlimited
  have hdeadline : ∀ c ∈ st.cooldownUntilUtc, c ≤ st.cooldownUntilUtc.elim
      (rateLimitDeadline policy now rateLimit st).1
      (max · (rateLimitDeadline policy now rateLimit st).1) := by
    intro c hc
    rw [Option.mem_def.mp hc]
    exact le_max_left _ _
  simp only [finishRateLimited, hl]
  obtain ⟨rng', slots, hr, hrng'⟩ := replanRemaining_eq policy now
    (clearPending opportunity.interface { st with
      backoffStep := if rateLimit.deadline.isSome = true then min (backoff + 1) 4 else backoff
      rngState := rng
      cooldownUntilUtc := some (st.cooldownUntilUtc.elim
        (rateLimitDeadline policy now rateLimit st).1
        (max · (rateLimitDeadline policy now rateLimit st).1))
      deferred := deferAfter now (st.cooldownUntilUtc.elim
        (rateLimitDeadline policy now rateLimit st).1
        (max · (rateLimitDeadline policy now rateLimit st).1)) opportunity reserved st.deferred })
  rw [hr]
  refine ⟨_, rng', slots, _, rfl, fun h => hrng' (hrng h), fun h => ?_, hdeadline⟩
  have := hbackoff h
  dsimp only [clearPending, updateTrigger]
  split_ifs <;> omega

variable (policy now) in
/-- What an attempt that was not rate limited edits. -/
lemma finishUnlimited_eq (opportunity : BandwidthOpportunity) (report : BandwidthReport)
    (st : ProviderState) : ∃ rng slots,
    finishUnlimited policy now opportunity report st = { clearPending opportunity.interface st with
      rngState := rng
      slots
      deferred := none
      cooldownUntilUtc := if successfulRequest report then none else st.cooldownUntilUtc
      backoffStep := if successfulRequest report then 0 else st.backoffStep } ∧
      (st.rngState ≠ 0 → rng ≠ 0) := by
  unfold finishUnlimited
  dsimp only
  by_cases h1 : opportunity.reason ≠ .scheduled
  · rw [if_pos h1]
    obtain ⟨rng, slots, hr, hrng⟩ := replanRemaining_eq policy now
      (clearPending opportunity.interface { st with
        deferred := none
        cooldownUntilUtc := if successfulRequest report then none else st.cooldownUntilUtc
        backoffStep := if successfulRequest report then 0 else st.backoffStep })
    rw [hr]
    exact ⟨rng, slots, rfl, hrng⟩
  · rw [if_neg h1]
    by_cases h2 : report.reserved = true
    · rw [if_pos h2]
      exact ⟨_, _, rfl, id⟩
    · rw [if_neg h2]
      exact ⟨_, _, rfl, id⟩

variable (policy now) in
/-- What a finished attempt edits besides the pending trigger of its interface. -/
lemma finished_eq (opportunity : BandwidthOpportunity) (report : BandwidthReport)
    (st : ProviderState) : ∃ rng slots deferred cooldown backoff,
    finished policy now opportunity report st = { clearPending opportunity.interface st with
      rngState := rng
      slots
      deferred
      cooldownUntilUtc := cooldown
      backoffStep := backoff } := by
  unfold finished
  cases rateLimitFromReport report policy.providerKind with
  | some rateLimit =>
    obtain ⟨deadline, rng, slots, backoff, he, -⟩ :=
      finishRateLimited_eq policy now opportunity report.reserved rateLimit st
    simp only [he]
    exact ⟨_, _, _, _, _, rfl⟩
  | none =>
    obtain ⟨rng, slots, he, -⟩ := finishUnlimited_eq policy now opportunity report st
    simp only [he]
    exact ⟨_, _, _, _, _, rfl⟩

variable (policy now) in
/-- A finished attempt leaves the runs and their day as they are. -/
lemma accountingOf_finished (opportunity : BandwidthOpportunity) (report : BandwidthReport)
    (st : ProviderState) : ∃ cooldown backoff deferred,
    Recovery.accountingOf (finished policy now opportunity report st) =
      { Recovery.accountingOf st with cooldown, backoff, deferred } := by
  unfold finished
  cases rateLimitFromReport report policy.providerKind with
  | some rateLimit =>
    obtain ⟨deadline, rng, slots, backoff, he, -⟩ :=
      finishRateLimited_eq policy now opportunity report.reserved rateLimit st
    simp only [he]
    exact ⟨_, _, _, rfl⟩
  | none =>
    obtain ⟨rng, slots, he, -⟩ :=
      finishUnlimited_eq policy now opportunity report st
    simp only [he]
    exact ⟨_, _, _, rfl⟩

/-- What an opening edits after the day was rolled over. -/
lemma reconcileState_eq (policy : SchedulerPolicy) (now : ℤ) (st : ProviderState) :
    ∃ rng slots deferred triggers, reconcileState policy now st = { reconcileDay policy now st with
      rngState := rng
      slots
      deferred
      interfaceTriggers := triggers
      policyDailyMax := policy.dailyMax
      policyMinSpacingMs := durationMillis policy.minSpacing
      policySlotJitterPct := policy.slotJitterPct
      lastObservedUtc := if st.lastObservedUtc ≤ now then now else st.lastObservedUtc } ∧
      ((reconcileDay policy now st).rngState ≠ 0 → rng ≠ 0) ∧
      (deferred = (reconcileDay policy now st).deferred ∧
          triggers = (reconcileDay policy now st).interfaceTriggers ∨
        deferred = none ∧ triggers = ∅) := by
  rw [← lastObserved_reconcileDay policy now st]
  unfold reconcileState
  generalize reconcileDay policy now st = day
  by_cases hc : policyChanged policy day = true
  · simp only [if_pos hc, applyPolicy]
    by_cases h0 : policy.dailyMax = 0
    · rw [if_pos h0]
      exact ⟨_, _, _, _, rfl, id, .inr ⟨rfl, rfl⟩⟩
    · rw [if_neg h0]
      obtain ⟨rng, slots, hr, hrng⟩ := replanRemaining_eq policy now
        { day with
          policyDailyMax := policy.dailyMax
          policyMinSpacingMs := durationMillis policy.minSpacing
          policySlotJitterPct := policy.slotJitterPct }
      rw [hr]
      exact ⟨_, _, _, _, rfl, hrng, .inl ⟨rfl, rfl⟩⟩
  · have hsame : day.policyDailyMax = policy.dailyMax ∧
        day.policyMinSpacingMs = durationMillis policy.minSpacing ∧
        day.policySlotJitterPct = policy.slotJitterPct := by
      simpa [policyChanged, and_assoc] using hc
    simp only [if_neg hc]
    rw [← hsame.1, ← hsame.2.1, ← hsame.2.2]
    exact ⟨_, _, _, _, rfl, id, .inl ⟨rfl, rfl⟩⟩

/-! ### Valid records stay valid -/

lemma run_le {id : String} (h : ValidState id st) :
    ∀ run ∈ st.runs, ∃ t ∈ st.lastStartedAtUtc, run ≤ t := by
  intro run hrun
  have hne : st.runs ≠ [] := List.ne_nil_of_mem hrun
  obtain ⟨t, ht, hle⟩ := h.last _ (List.getLast?_eq_some_getLast hne)
  refine ⟨t, ht, le_trans ?_ hle⟩
  have := List.dropLast_append_getLast hne
  rw [← this] at hrun
  rcases List.mem_append.mp hrun with hmem | hmem
  · have hs := h.sorted
    rw [← this] at hs
    exact (List.pairwise_append.mp hs).2.2 run hmem _ (by simp)
  · exact (List.mem_singleton.mp hmem).le

/-- A record is valid if its runs are sorted and not after its last start. -/
lemma validState_of_runs {id : String} {st' : ProviderState} (h : ValidState id st)
    (hrng : st'.rngState ≠ 0) (hbackoff : st'.backoffStep ≤ 4)
    (hjitter : st'.policySlotJitterPct ≤ 100) (hspacing : st'.policyMinSpacingMs ≠ 0)
    (hsorted : st'.runs.Pairwise (· ≤ ·))
    (hlast : ∀ run ∈ st'.runs, ∃ t ∈ st'.lastStartedAtUtc, run ≤ t) : ValidState id st' :=
  ⟨h.id, hrng, hjitter, hspacing, hbackoff, hsorted,
    fun run hrun => hlast run (List.mem_of_getLast? hrun)⟩

variable (policy now) in
lemma validState_reconcileDay {id : String} (h : ValidState id st) :
    ValidState id (reconcileDay policy now st) := by
  rcases le_or_gt (dateNaive now) st.dayUtc with hle | hlt
  · rwa [reconcileDay_of_le hle]
  · obtain ⟨rng, slots, hr, hrng⟩ := reconcileDay_of_lt policy hlt
    rw [hr]
    exact validState_of_runs h (hrng h.rng) h.backoff h.jitter h.spacing
      (h.sorted.filter _) fun run hrun => run_le h run (List.mem_of_mem_filter hrun)

lemma validState_replanRemaining {id : String} (h : ValidState id st) :
    ValidState id (replanRemaining policy now st) := by
  obtain ⟨rng, slots, hr, hrng⟩ := replanRemaining_eq policy now st
  rw [hr]
  exact ⟨h.id, hrng h.rng, h.jitter, h.spacing, h.backoff, h.sorted, h.last⟩

lemma closed_validState (id : String) : Closed policy now (ValidState id) where
  slots _ _ h := ⟨h.id, h.rng, h.jitter, h.spacing, h.backoff, h.sorted, h.last⟩
  triggers _ _ h := ⟨h.id, h.rng, h.jitter, h.spacing, h.backoff, h.sorted, h.last⟩
  rollover _ h := validState_reconcileDay _ _ h
  observed _ h _ := ⟨h.id, h.rng, h.jitter, h.spacing, h.backoff, h.sorted, h.last⟩
  dropped _ h := ⟨h.id, h.rng, h.jitter, h.spacing, h.backoff, h.sorted, h.last⟩
  merged _ _ _ h := ⟨h.id, h.rng, h.jitter, h.spacing, h.backoff, h.sorted, h.last⟩

lemma mem_startRun {run : ℤ} : run ∈ (startRun now st).runs ↔ run ∈ st.runs ∨ run = now := by
  simp [startRun]

lemma validState_startRun {id : String} (h : ValidState id st) :
    ValidState id (startRun now st) := by
  refine validState_of_runs h h.rng h.backoff h.jitter h.spacing
    (List.pairwise_insertionSort _ _) fun run hrun => ?_
  have hmax : ∃ t ∈ (startRun now st).lastStartedAtUtc, now ≤ t ∧
      ∀ t' ∈ st.lastStartedAtUtc, t' ≤ t := by
    refine ⟨_, rfl, ?_⟩
    rcases st.lastStartedAtUtc with _ | t <;> simp
  obtain ⟨t, ht, hnow, hold⟩ := hmax
  rcases mem_startRun.mp hrun with hmem | rfl
  · obtain ⟨t', ht', hle⟩ := run_le h run hmem
    exact ⟨t, ht, hle.trans (hold t' ht')⟩
  · exact ⟨t, ht, hnow⟩

lemma validState_finished {id : String} {opportunity : BandwidthOpportunity}
    {report : BandwidthReport} (h : ValidState id st) :
    ValidState id (finished policy now opportunity report st) := by
  unfold finished
  cases rateLimitFromReport report policy.providerKind with
  | some rateLimit =>
    obtain ⟨deadline, rng, slots, backoff, he, hrng, hbackoff, -⟩ :=
      finishRateLimited_eq policy now opportunity report.reserved rateLimit st
    simp only [he]
    exact ⟨h.id, hrng h.rng, h.jitter, h.spacing, hbackoff h.backoff, h.sorted, h.last⟩
  | none =>
    obtain ⟨rng, slots, he, hrng⟩ :=
      finishUnlimited_eq policy now opportunity report st
    have hbackoff := h.backoff
    simp only [he]
    refine ⟨h.id, hrng h.rng, h.jitter, h.spacing, ?_, h.sorted, h.last⟩
    dsimp only
    split_ifs <;> omega

lemma durationMillis_ne_zero (policy : SchedulerPolicy) :
    durationMillis policy.minSpacing ≠ 0 := by
  have := policy.minSpacing_ge
  simp only [durationMillis, u64Max]
  omega

lemma newState_eq (policy : SchedulerPolicy) (now : ℤ) (seed : UInt64) : ∃ rng slots,
    newState policy now seed = { blankState policy now seed with rngState := rng, slots } ∧
      rng ≠ 0 := by
  obtain ⟨rng, h, hrng⟩ := planFullDay_eq policy now
    (blankState policy now seed)
  refine ⟨rng, (planFullDay policy (blankState policy now seed) now).1, ?_,
    hrng (max_one_ne_zero seed)⟩
  simp only [newState, h]

lemma validState_newState (seed : UInt64) :
    ValidState policy.providerId (newState policy now seed) := by
  obtain ⟨rng, slots, h, hrng⟩ := newState_eq policy now seed
  rw [h]
  exact ⟨policy.providerId_ne, hrng, policy.slotJitterPct_le, durationMillis_ne_zero policy,
    Nat.zero_le _, .nil, by simp [blankState]⟩

lemma validState_reconcileState {id : String} (h : ValidState id st) :
    ValidState id (reconcileState policy now st) := by
  have hday := validState_reconcileDay policy now h
  obtain ⟨rng, slots, deferred, triggers, he, hrng, -⟩ := reconcileState_eq policy now st
  rw [he]
  exact ⟨hday.id, hrng hday.rng, policy.slotJitterPct_le, durationMillis_ne_zero policy,
    hday.backoff, hday.sorted, hday.last⟩

/-! ### What quiet edits do to the accounting -/

/-- What is deferred afterwards was deferred before, with its times and its attempts. -/
def Carries (a b : Option DeferredOpportunity) : Prop :=
  ∀ d' ∈ b, ∃ d ∈ a, d' = { d with reason := d'.reason, interface := d'.interface }

/-- The accounting of a record before and after quiet edits: the same, or rolled over to the day of
a time; its deferred run may be dropped, or merged with a trigger. -/
inductive Rolls (now : ℤ) (a b : Recovery.Accounting) : Prop
  | same (day : b.day = a.day) (runs : b.runs = a.runs) (lastStart : b.lastStart = a.lastStart)
      (cooldown : b.cooldown = a.cooldown) (backoff : b.backoff = a.backoff)
      (deferred : Carries a.deferred b.deferred)
  | newDay (later : a.day < dateNaive now) (day : b.day = dateNaive now)
      (runs : b.runs = a.runs.filter (dateNaive now ≤ dateNaive ·))
      (lastStart : b.lastStart = a.lastStart)
      (cooldown : b.cooldown = a.cooldown.filter (now < ·)) (backoff : b.backoff = a.backoff)
      (deferred : Carries a.deferred b.deferred)

section rolls
variable {a : Recovery.Accounting}

lemma carries_refl (d : Option DeferredOpportunity) : Carries d d := fun d' hd => ⟨d', hd, rfl⟩

lemma carries_none (d : Option DeferredOpportunity) : Carries d none := by
  rintro _ ⟨⟩

lemma Carries.trans {d d' d'' : Option DeferredOpportunity} (h : Carries d d')
    (h' : Carries d' d'') : Carries d d'' := by
  intro x hx
  obtain ⟨y, hy, hxy⟩ := h' x hx
  obtain ⟨z, hz, hyz⟩ := h y hy
  refine ⟨z, hz, ?_⟩
  rw [hxy, hyz]

lemma carries_merged (d : Option DeferredOpportunity) (reason : TriggerReason)
    (interface : Option String) : Carries d (d.map fun d => { d with reason, interface }) := by
  intro x hx
  obtain ⟨y, hy, rfl⟩ := Option.map_eq_some_iff.mp hx
  exact ⟨y, hy, rfl⟩

lemma Rolls.carries {b : Recovery.Accounting} (h : Rolls now a b) :
    Carries a.deferred b.deferred := by
  cases h with
  | same _ _ _ _ _ hd => exact hd
  | newDay _ _ _ _ _ _ hd => exact hd

lemma Rolls.refl (now : ℤ) (a : Recovery.Accounting) : Rolls now a a :=
  .same rfl rfl rfl rfl rfl (carries_refl a.deferred)

lemma Rolls.of_eq {b b' : Recovery.Accounting} (h : Rolls now a b) (day : b'.day = b.day)
    (runs : b'.runs = b.runs) (lastStart : b'.lastStart = b.lastStart)
    (cooldown : b'.cooldown = b.cooldown) (backoff : b'.backoff = b.backoff)
    (deferred : Carries b.deferred b'.deferred) : Rolls now a b' := by
  cases h with
  | same h1 h2 h3 h4 h5 h6 =>
    exact .same (day.trans h1) (runs.trans h2) (lastStart.trans h3) (cooldown.trans h4)
      (backoff.trans h5) (h6.trans deferred)
  | newDay h0 h1 h2 h3 h4 h5 h6 =>
    exact .newDay h0 (day.trans h1) (runs.trans h2) (lastStart.trans h3) (cooldown.trans h4)
      (backoff.trans h5) (h6.trans deferred)

variable (policy) in
lemma rolls_reconcileDay (h : Rolls now a (Recovery.accountingOf st)) :
    Rolls now a (Recovery.accountingOf (reconcileDay policy now st)) := by
  rcases le_or_gt (dateNaive now) st.dayUtc with hle | hlt
  · rwa [reconcileDay_of_le hle]
  obtain ⟨rng, slots, hr, -⟩ := reconcileDay_of_lt policy hlt
  rw [hr]
  cases h with
  | same h1 h2 h3 h4 h5 =>
    refine .newDay ?_ rfl ?_ h3 ?_ h5 (carries_none _)
    · rw [← h1]
      exact hlt
    · rw [← h2]
      rfl
    · rw [← h4]
      rfl
  | newDay h0 h1 => exact absurd hlt (by simp [← h1, Recovery.accountingOf])

lemma closed_rolls : Closed policy now fun st => Rolls now a (Recovery.accountingOf st) where
  slots _ _ h := h.of_eq rfl rfl rfl rfl rfl (carries_refl _)
  triggers _ _ h := h.of_eq rfl rfl rfl rfl rfl (carries_refl _)
  rollover _ h := rolls_reconcileDay _ h
  observed _ h _ := h.of_eq rfl rfl rfl rfl rfl (carries_refl _)
  dropped _ h := h.of_eq rfl rfl rfl rfl rfl (carries_none _)
  merged st reason interface h :=
    h.of_eq rfl rfl rfl rfl rfl (carries_merged st.deferred reason interface)

lemma rolls_reconcileState :
    Rolls now (Recovery.accountingOf st)
      (Recovery.accountingOf (reconcileState policy now st)) := by
  obtain ⟨rng, slots, deferred, triggers, he, -, hdeferred⟩ := reconcileState_eq policy now st
  have hcarries : Carries (reconcileDay policy now st).deferred deferred := by
    rcases hdeferred with ⟨rfl, -⟩ | ⟨rfl, -⟩
    · exact carries_refl _
    · exact carries_none _
  rw [he]
  exact (rolls_reconcileDay policy (.refl now _)).of_eq rfl rfl rfl rfl rfl hcarries

end rolls

lemma accountingOf_replanRemaining (st : ProviderState) :
    Recovery.accountingOf (replanRemaining policy now st) = Recovery.accountingOf st := by
  obtain ⟨rng, slots, hr, -⟩ := replanRemaining_eq policy now st
  rw [hr]
  rfl

/-- The accounting of a provider before its first run. -/
def freshAccounting (now : ℤ) : Recovery.Accounting where
  day := dateNaive now
  runs := []
  lastStart := none
  cooldown := none
  backoff := 0
  deferred := none

lemma accountingOf_newState (seed : UInt64) :
    Recovery.accountingOf (newState policy now seed) = freshAccounting now := by
  obtain ⟨rng, slots, h, -⟩ := newState_eq policy now seed
  rw [h]
  rfl

end Netband.Edits

import Netband.Count
import Netband.Opportunities

/-!
Whether a run that a poll hands out can be reserved.

A due slot or a trigger is handed out when nothing blocks a run; a deferred retry is handed out
when its cooldown is over, whatever the cap and the spacing say.
-/

namespace Netband.Agreement

open Netband.Time Netband.Model Netband.State Netband.Plan Netband.Effects Netband.Recovery
open Netband.Scheduling Netband.World Netband.Edits Netband.Steps Netband.Runs
open Netband.Lines Netband.Count
open Faulty Saving

/-! ### Runs are not after the day of their record -/

def Dated (_ : String) (st : ProviderState) : Prop := ∀ run ∈ st.runs, dateNaive run ≤ st.dayUtc

section dated
variable {policy : SchedulerPolicy} {now : ℤ} {id : String} {st st' : ProviderState}

lemma Dated.mono (h : Dated id st) (hruns : ∀ run ∈ st'.runs, run ∈ st.runs)
    (hday : st.dayUtc ≤ st'.dayUtc) : Dated id st' :=
  fun run hrun => (h run (hruns run hrun)).trans hday

lemma Dated.reconcileDay (h : Dated id st) : Dated id (reconcileDay policy now st) := by
  rcases le_or_gt (dateNaive now) st.dayUtc with hle | hlt
  · rwa [reconcileDay_of_le hle]
  · obtain ⟨rng, slots, hr, -⟩ := reconcileDay_of_lt policy hlt
    rw [hr]
    exact h.mono (fun run hrun => List.mem_of_mem_filter hrun) hlt.le

lemma closed_dated : Closed policy now (Dated id) where
  slots _ _ h := h
  triggers _ _ h := h
  rollover _ h := h.reconcileDay
  observed _ h _ := h
  dropped _ h := h
  merged _ _ _ h := h

theorem sustained_dated : Sustained Dated where
  edited _ _ := closed_dated.edited
  rollover _ _ _ h := h.reconcileDay
  started policy now st h hday run hrun := by
    rcases mem_startRun.mp hrun with hmem | rfl
    · exact h run hmem
    · exact hday
  finished policy now st opportunity report h := by
    obtain ⟨rng, slots, deferred, cooldown, backoff, hf⟩ :=
      finished_eq policy now opportunity report st
    rw [hf]
    exact h
  created policy now seed := by
    obtain ⟨rng, slots, h, -⟩ := newState_eq policy now seed
    rw [h]
    exact fun run hrun => by cases hrun
  reconciled policy now st h := by
    obtain ⟨rng, slots, deferred, triggers, he, -⟩ := reconcileState_eq policy now st
    rw [he]
    exact @Dated.reconcileDay policy now _ _ h
  replanned policy now st h := by
    obtain ⟨rng, slots, hr, -⟩ := replanRemaining_eq policy now st
    rw [hr]
    exact h
  replayed _ hr := hr

end dated

/-! ### Admission over time -/

section admission
variable {policy : SchedulerPolicy} {now now' : ℤ} {id : String} {st st' : ProviderState}

/-- The parts of a record that admission reads. -/
structure SameRuns (st st' : ProviderState) : Prop where
  day : st'.dayUtc = st.dayUtc
  runs : st'.runs = st.runs
  lastStart : st'.lastStartedAtUtc = st.lastStartedAtUtc
  cooldown : st'.cooldownUntilUtc = st.cooldownUntilUtc

lemma SameRuns.refl (st : ProviderState) : SameRuns st st := ⟨rfl, rfl, rfl, rfl⟩

lemma SameRuns.blockReason (h : SameRuns st st') :
    blockReason policy st' now = blockReason policy st now := by
  unfold Scheduling.blockReason runsOnDay
  rw [h.runs, h.lastStart, h.cooldown]

lemma capReached_mono {used used' : ℕ} (h : used ≤ used')
    (hcap : capReached policy used' = false) : capReached policy used = false := by
  simp only [capReached, mlabHardCapReached, configuredCapReached, Bool.or_eq_false_iff,
    Bool.and_eq_false_iff, decide_eq_false_iff_not, not_le, Bool.not_eq_false',
    decide_eq_false_iff_not] at hcap ⊢
  exact ⟨hcap.1.imp_right h.trans_lt,
    hcap.2.imp_right fun hmax => ⟨hmax.1, h.trans_lt hmax.2⟩⟩

/-- What may be reserved on the day of the record may be reserved at any later time. -/
theorem unblocked_later (hdated : Dated id st) (hday : st.dayUtc = dateNaive now)
    (hle : now ≤ now') (h : blockReason policy st now = none) :
    blockReason policy (reconcileDay policy now' st) now' = none := by
  obtain ⟨hcap, htimes⟩ := blockReason_eq_none.mp h
  have hlater : policy.forceLimits = true ∨ (∀ c ∈ st.cooldownUntilUtc, c ≤ now') ∧
      ∀ t ∈ st.lastStartedAtUtc, addDuration t policy.minSpacing ≤ now' :=
    htimes.imp_right fun hs => ⟨fun c hc => (hs.1 c hc).trans hle,
      fun t ht => (hs.2 t ht).trans hle⟩
  rcases le_or_gt (dateNaive now') st.dayUtc with hsame | hlt
  · rw [reconcileDay_of_le hsame]
    refine blockReason_eq_none.mpr ⟨?_, hlater⟩
    have hdate : dateNaive now' = dateNaive now :=
      le_antisymm (hsame.trans hday.le) (dateNaive_mono hle)
    rwa [hdate]
  · -- on a later day no run is left
    obtain ⟨rng, slots, hr, -⟩ := reconcileDay_of_lt policy hlt
    rw [hr]
    refine blockReason_eq_none.mpr ⟨?_, hlater.imp_right fun hs => ⟨fun c hc => ?_, hs.2⟩⟩
    · refine capReached_mono (le_trans ?_ (Nat.zero_le _)) hcap
      have hnone : st.runs.filter (fun run => decide (dateNaive now' ≤ dateNaive run)) = [] := by
        rw [List.filter_eq_nil_iff]
        intro run hrun
        have := hdated run hrun
        simp only [decide_eq_true_eq, not_le]
        exact this.trans_lt hlt
      simp [runsOnDay, newDay, hnone]
    · exact hs.1 c (Option.filter_eq_some_iff.mp hc).1

end admission
/-! ### What a poll hands out -/

section poll
variable {policy : SchedulerPolicy} {now : ℤ} {st st' : ProviderState}
  {E : SchedulerError → ProviderState → Prop}

/-- The parts of a record that a poll reads to admit a run or to hand out the retry. -/
structure SameRetry (st st' : ProviderState) : Prop extends SameRuns st st' where
  deferred : st'.deferred = st.deferred

/-- Within the day quiet edits keep what admission reads. -/
lemma edited_sameRuns (base : ProviderState) : Edited policy now (fun _ => True)
    (fun st => SameRuns base st ∧ dateNaive now ≤ st.dayUtc) where
  advanced st h _ := by
    unfold advanced
    rw [reconcileDay_of_le h.2]
    exact ⟨⟨h.1.day, h.1.runs, h.1.lastStart, h.1.cooldown⟩, h.2⟩
  expired st key h := by
    unfold expirePending
    split
    · exact ⟨⟨h.1.day, h.1.runs, h.1.lastStart, h.1.cooldown⟩, h.2⟩
    · exact h
  dropped _ h := ⟨⟨h.1.day, h.1.runs, h.1.lastStart, h.1.cooldown⟩, h.2⟩
  dueSlots _ h := ⟨⟨h.1.day, h.1.runs, h.1.lastStart, h.1.cooldown⟩, h.2⟩
  usedSlot st reason h := by
    unfold useSlot
    split_ifs
    · split
      · exact ⟨⟨h.1.day, h.1.runs, h.1.lastStart, h.1.cooldown⟩, h.2⟩
      · exact h
    · exact h
  cleared _ _ h := ⟨⟨h.1.day, h.1.runs, h.1.lastStart, h.1.cooldown⟩, h.2⟩
  latched _ _ _ h _ _ := ⟨⟨h.1.day, h.1.runs, h.1.lastStart, h.1.cooldown⟩, h.2⟩
  recovered _ _ _ h := ⟨⟨h.1.day, h.1.runs, h.1.lastStart, h.1.cooldown⟩, h.2⟩

lemma sameRetry_foldl (keys : List String) : SameRetry st (keys.foldl expirePending st) := by
  induction keys generalizing st with
  | nil => exact ⟨.refl st, rfl⟩
  | cons key keys ih =>
    have hfirst : SameRetry st (expirePending st key) := by
      unfold expirePending
      split
      · exact ⟨⟨rfl, rfl, rfl, rfl⟩, rfl⟩
      · exact ⟨.refl st, rfl⟩
    have hrest := @ih (expirePending st key)
    exact ⟨⟨hrest.day.trans hfirst.day, hrest.runs.trans hfirst.runs,
      hrest.lastStart.trans hfirst.lastStart, hrest.cooldown.trans hfirst.cooldown⟩,
      hrest.deferred.trans hfirst.deferred⟩

lemma sameRetry_expireTriggers (runId : RunId) :
    Saves (fun _ => True) st (expireTriggers policy runId now)
      (fun _ st' => SameRetry st st') E := by
  refine saves_bind (saves_get (saves_ite (fun _ => saves_pure ⟨.refl st, rfl⟩) fun _ => ?_))
  exact saves_bind (saves_modify (saves_bind (saves_save trivial (saves_bind (saves_get
    (saves_pure (sameRetry_foldl _)))))))

/-- A poll hands out the retry, or nothing blocks a run. -/
lemma pollAccepted_offers (runId : RunId) (latestSuccess : BTreeMap String Bool)
    (hday : dateNaive now ≤ st.dayUtc) :
    Saves (fun _ => True) st (pollAccepted policy runId now latestSuccess)
      (fun poll st' => SameRuns st st' ∧ (poll.opportunity.isSome = true →
        retryLive st now = true ∨ blockReason policy st now = none)) E := by
  refine saves_bind (saves_mono (sameRetry_expireTriggers runId) (fun expired st₁ h₁ => ?_)
    fun _ _ he => he)
  have hday₁ : dateNaive now ≤ st₁.dayUtc := h₁.day ▸ hday
  have hR := @edited_sameRuns policy now st
  have hbase : SameRuns st st₁ ∧ dateNaive now ≤ st₁.dayUtc := ⟨h₁.toSameRuns, hday₁⟩
  have hdrop := hR.dropped st₁ hbase
  refine saves_bind (saves_mono ((pollDeferred_spec
    (R := fun st' => SameRuns st st' ∧ dateNaive now ≤ st'.dayUtc) hdrop hbase runId).weaken
    fun _ _ => trivial) (fun deferred st₂ h₂ => ?_) fun _ _ he => he)
  obtain ⟨hst₂, hlive, -⟩ := h₂
  have hretry : retryLive st₁ now = retryLive st now := by
    unfold retryLive
    rw [h₁.deferred, h₁.cooldown]
  refine saves_ite (fun hsome => saves_pure ⟨hst₂.1, fun _ => .inl ?_⟩) fun _ => saves_bind ?_
  · rw [← hretry, ← hlive]
    exact hsome
  · refine saves_mono ((pollDue_spec hR hst₂ runId latestSuccess).weaken fun _ _ => trivial)
      (fun due st₃ h₃ => saves_pure ⟨h₃.1.1, fun hsome => .inr ?_⟩) fun _ _ he => he
    rw [← hst₂.1.blockReason]
    exact h₃.2 hsome

/-- What a poll that hands out a run leaves. -/
structure Offers (policy : SchedulerPolicy) (now : ℤ) (st st' : ProviderState) : Prop where
  forward : st.lastObservedUtc ≤ now
  same : SameRuns (advanced policy now st) st'
  why : retryLive (advanced policy now st) now = true ∨
    blockReason policy (advanced policy now st) now = none

lemma pollInterfaces_offers (runId : RunId) (latestSuccess : BTreeMap String Bool) :
    Saves (fun _ => True) st (pollInterfaces policy runId now latestSuccess)
      (fun poll st' => poll.opportunity.isSome = true → Offers policy now st st') E := by
  refine saves_bind ?_
  rcases advanceClock_apply policy now runId st with ⟨hlt, e, ha⟩ | ⟨hle, ha⟩
  · -- the clock went back
    have hclock : Saves (fun _ => True) st (advanceClock policy runId now)
        (fun _ st' => st' = st) E := by
      rw [Saves, ha]
      exact ⟨by simp, fun _ _ => rfl, by simp⟩
    refine saves_mono hclock (fun events st₁ h₁ => ?_) fun _ _ he => he
    subst h₁
    refine saves_bind (saves_get (saves_ite (fun _ => saves_pure (by simp)) fun hnot => ?_))
    exact absurd hlt hnot
  · have hclock : Saves (fun _ => True) st (advanceClock policy runId now)
        (fun _ st' => st' = advanced policy now st) E := by
      rw [Saves, ha]
      exact ⟨by simp, fun _ _ => rfl, by simp⟩
    refine saves_mono hclock (fun events st₁ h₁ => ?_) fun _ _ he => he
    subst h₁
    refine saves_bind (saves_get (saves_ite (fun _ => saves_pure (by simp)) fun _ => saves_bind ?_))
    refine saves_mono (pollAccepted_offers runId latestSuccess (day_reconcileDay policy now st))
      (fun poll st₂ h₂ => saves_pure fun hsome => ⟨hle, h₂.1, h₂.2 hsome⟩) fun _ _ he => he

end poll

/-! ### Rejected reservations -/

/-- A reservation that admission rejects. -/
def Rejected (e : Entry) : Prop := ∃ message, e.result = .error (.admission message)

/-- No step of persisting rejects an admission. -/
def Persisting (e : SchedulerError) : Prop := ∀ message, e ≠ .admission message

section persisting
variable {S : Serde} {d : Disk} {s : Session} {p : Persistence}

lemma persisting_io (f : RecoveryFile) : Persisting (.io f) := fun _ h => by cases h

lemma persisting_corrupt (f : RecoveryFile) (message : String) : Persisting (.corrupt f message) :=
  fun _ h => by cases h

lemma persisting_parse {α : Type} {C : Codec α} {f : RecoveryFile} {bytes : Bytes}
    {e : SchedulerError} (h : parse C f bytes = .error e) : Persisting e := by
  unfold parse at h
  rcases hd : C.decode bytes with message | a
  · rw [hd] at h
    cases h
    exact persisting_corrupt f message
  · rw [hd] at h
    cases h

lemma persisting_require {α : Type} {o : Option α} {e e' : SchedulerError} (he : Persisting e)
    (h : require o e = .error e') : Persisting e' := by
  cases o with
  | none =>
    cases h
    exact he
  | some a => cases h

lemma persisting_readOptional (f : RecoveryFile) :
    Meets True d (readOptional f) (fun _ _ => True) fun e _ => Persisting e := by
  refine meets_bind (meets_nextIo (meets_bind (meets_get (meets_pure trivial))) fun _ k => ?_)
  exact meets_fail (persisting_io f)

lemma persisting_readRequired (f : RecoveryFile) :
    Meets True d (readRequired f) (fun _ _ => True) fun e _ => Persisting e := by
  refine meets_bind (meets_mono (persisting_readOptional f) (fun bytes d₁ _ => ?_) fun _ _ he => he)
  exact meets_ofExcept (fun _ _ => trivial)
    fun e he => persisting_require (persisting_corrupt f _) he

lemma persisting_atomicWrite (f : RecoveryFile) (bytes : Bytes) :
    Meets True d (atomicWrite f bytes) (fun _ _ => True) fun e _ => Persisting e := by
  refine meets_bind (meets_nextIo (meets_modify trivial) fun _ k => ?_)
  cases k with
  | zero => exact meets_fail (persisting_io f)
  | succ k => exact meets_bind (meets_modify (meets_fail (persisting_io f)))

lemma persisting_writeSynced (f : RecoveryFile) (bytes : Bytes) :
    Meets True d (writeSynced f bytes) (fun _ _ => True) fun e _ => Persisting e := by
  refine meets_bind (meets_get (meets_bind (meets_ofExcept (fun old _ => ?_)
    fun e he => persisting_require (persisting_io f) he)))
  refine meets_bind (meets_nextIo (meets_modify trivial) fun _ k => ?_)
  exact meets_bind (meets_modify (meets_fail (persisting_io f)))

lemma persisting_filesUnchanged (previous : Option Bytes) (checkpoint : Checkpoint) :
    Meets True d (filesUnchanged S previous checkpoint p) (fun _ _ => True)
      fun e _ => Persisting e := by
  unfold filesUnchanged
  split
  · exact meets_pure trivial
  · refine meets_bind (meets_bind (meets_mono (persisting_readOptional .ledger)
      (fun bytes d₁ _ => ?_) fun _ _ he => he))
    exact meets_ofExcept (fun _ _ => meets_pure trivial)
      fun e he => persisting_require (persisting_io .ledger) he

lemma persisting_onDisk {α : Type} {c : Faulty Disk SchedulerError α} {Q : α → Session → Prop}
    (hc : ∀ d, Meets True d c (fun _ _ => True) fun e _ => Persisting e) (hQ : ∀ a t, Q a t) :
    Meets True s (onDisk c) Q fun e _ => Persisting e :=
  meets_zoom (meets_mono (hc s.disk) (fun a _ _ => hQ a _) fun _ _ he => he)

lemma persisting_commitAccounting :
    Meets True s (commitAccounting S) (fun _ _ => True) fun e _ => Persisting e := by
  refine meets_bind (meets_get ?_)
  split
  · exact meets_pure trivial
  · refine meets_bind (meets_ensure (fun _ => ?_) fun _ => persisting_corrupt _ _)
    refine meets_bind (persisting_onDisk (fun _ => persisting_writeSynced _ _) fun _ t => ?_)
    refine meets_bind (persisting_onDisk (fun _ => persisting_atomicWrite _ _) fun _ t' => ?_)
    exact meets_modify trivial

lemma persisting_writeBackup (previous : Option Bytes) :
    Meets True d (writeBackup previous) (fun _ _ => True) fun e _ => Persisting e := by
  cases previous with
  | none => exact meets_pure trivial
  | some bytes => exact persisting_atomicWrite .backup bytes

/-- A store is never refused for the reason that a reservation is. -/
lemma persisting_persist :
    Meets True s (Recovery.persist S) (fun _ _ => True) fun e _ => Persisting e := by
  refine meets_bind (meets_get (meets_bind (meets_ensure (fun _ => ?_)
    fun _ => persisting_corrupt _ _)))
  refine meets_bind (meets_modify (meets_bind (meets_ofExcept (fun _ _ => ?_) fun e he => ?_)))
  · refine meets_bind (persisting_onDisk (fun _ => persisting_readOptional _) fun previous t₁ => ?_)
    refine meets_bind (persisting_onDisk (fun _ => persisting_readRequired _) fun marker t₂ => ?_)
    refine meets_bind (meets_ofExcept (fun checkpoint _ => ?_) fun e he => persisting_parse he)
    refine meets_bind (persisting_onDisk (fun _ => persisting_filesUnchanged _ _)
      fun unchanged t₃ => ?_)
    refine meets_bind (meets_ensure (fun _ => ?_) fun _ => persisting_corrupt _ _)
    refine meets_bind (meets_mono persisting_commitAccounting (fun _ t₄ _ => ?_) fun _ _ he => he)
    refine meets_bind (meets_modify (meets_bind (persisting_onDisk
      (fun _ => persisting_writeBackup previous) fun _ t₅ => ?_)))
    refine meets_bind (meets_get (meets_bind (persisting_onDisk
      (fun _ => persisting_atomicWrite _ _) fun _ t₆ => ?_)))
    exact meets_modify trivial
  · unfold validateStore at he
    split_ifs at he
    cases he
    exact persisting_corrupt _ _

lemma persisting_putAll (xs : List ProviderState) (x : Scheduler × Disk) :
    Meets True x ((backend S).putAll xs) (fun _ _ => True) fun e _ => Persisting e := by
  induction xs generalizing x with
  | nil => exact meets_pure trivial
  | cons y xs ih =>
    have hput : Meets True x ((backend S).put y) (fun _ _ => True) fun e _ => Persisting e := by
      intro io hio
      have hp := ends_iff.mp
        (persisting_persist (S := S) (s := (x.1.setState y).session x.2) io hio)
      exact ends_iff.mpr ⟨fun u hu => ⟨.inr trivial, trivial⟩, fun e he => hp.2 e he⟩
    exact meets_bind (meets_mono hput (fun _ x' _ => ih x') fun _ _ he => he)

end persisting

/-! ### What a reservation is rejected for -/

section reserve
variable {S : Serde} {w : System} {s : Scheduler} {now now' : ℤ} {io : List Io} {e : Entry}

/-- **Rejections**: a reservation is rejected exactly if something blocks a run then. -/
lemma rejected_iff (hlive : w.live = some s)
    (htrace : (w.step S (.call (.reserveRun now), io)).trace = w.trace ++ [e]) :
    Rejected e ↔ blockReason s.policy (reconcileDay s.policy now s.state) now ≠ none := by
  have he := result_of_call hlive htrace
  have hview : (backend S).view (s, w.disk) = s.state := rfl
  have hrun := run_reserveRun s.policy now s.state
  unfold Rejected
  rw [he]
  rcases hb : blockReason s.policy (reconcileDay s.policy now s.state) now with _ | blocked
  · -- only a save can fail now
    rw [hb] at hrun
    have hput := ends_iff.mp (persisting_putAll (S := S)
      [startRun now (reconcileDay s.policy now s.state)] (s, w.disk) io (.inr trivial))
    refine iff_of_false ?_ (by simp)
    rintro ⟨message, hm⟩
    rw [Backend.run_apply, hview, hrun] at hm
    generalize (backend S).putAll _ (io, s, w.disk) = r at hm hput
    rcases r with ⟨e' | u, io', x⟩
    · exact hput.2 e' rfl message (Except.error.inj hm)
    · cases hm
  · rw [hb] at hrun
    have hsaves : ((Call.reserveRun now).run s.policy ((backend S).view (s, w.disk))).1 = [] := by
      rw [hview, hrun]
    refine iff_of_true ⟨"reservation rejected after preflight: " ++ blocked.message, ?_⟩ (by simp)
    rw [(backend S).run_unsaved hsaves, hview, hrun]

end reserve

/-! ### Poll and reserve -/

/-- The cap is reached, or the last run is too recent. -/
def Exhausted (policy : SchedulerPolicy) (st : ProviderState) (now : ℤ) : Prop :=
  capReached policy (runsOnDay st (dateNaive now)) = true ∨
    policy.forceLimits = false ∧ ∃ t ∈ st.lastStartedAtUtc, now < addDuration t policy.minSpacing

/-- The poll hands out a deferred retry although admission is exhausted. -/
def RetriesExhausted (policy : SchedulerPolicy) (st : ProviderState) (now : ℤ) : Prop :=
  dateNaive now ≤ st.dayUtc ∧ retryLive st now = true ∧ Exhausted policy st now

section agree
variable {S : Serde} {w : System} {s : Scheduler} {policy : SchedulerPolicy} {now : ℤ}
  {st st' : ProviderState}

/-- A retry is only due when its cooldown is over. -/
lemma blocked_iff_exhausted (hlive : retryLive st now = true) :
    blockReason policy st now ≠ none ↔ Exhausted policy st now := by
  have hcool : ∀ c ∈ st.cooldownUntilUtc, c ≤ now := by
    have hall := (Bool.and_eq_true_iff.mp hlive).2
    simpa [Option.all_eq_true] using hall
  rw [ne_eq, blockReason_eq_none, Exhausted]
  constructor
  · intro h
    by_contra hnot
    push Not at hnot
    obtain ⟨hcap, hspacing⟩ := hnot
    refine h ⟨Bool.eq_false_iff.mpr hcap, ?_⟩
    rcases hforce : policy.forceLimits with _ | _
    · exact .inr ⟨hcool, hspacing hforce⟩
    · exact .inl rfl
  · rintro (hcap | ⟨hforce, t, ht, hlt⟩) ⟨hfree, htimes⟩
    · rw [hcap] at hfree
      cases hfree
    · rcases htimes with htrue | ⟨-, hover⟩
      · rw [hforce] at htrue
        cases htrue
      · exact absurd (hover t ht) (not_le.mpr hlt)

/-- The retry of a day is gone on the next. -/
lemma day_of_retryLive (h : retryLive (advanced policy now st) now = true) :
    dateNaive now ≤ st.dayUtc ∧ retryLive st now = true := by
  rcases le_or_gt (dateNaive now) st.dayUtc with hle | hlt
  · refine ⟨hle, ?_⟩
    unfold advanced at h
    rwa [reconcileDay_of_le hle] at h
  · obtain ⟨rng, slots, hr, -⟩ := reconcileDay_of_lt policy hlt
    unfold advanced at h
    rw [hr] at h
    simp [retryLive, newDay] at h

lemma blockReason_advanced (h : dateNaive now ≤ st.dayUtc) :
    blockReason policy (advanced policy now st) now = blockReason policy st now := by
  unfold advanced
  rw [reconcileDay_of_le h]
  rfl

/-- The record that a poll leaves blocks a run exactly if the poll handed out a retry although
admission was exhausted. -/
lemma Offers.blocked_iff (h : Offers policy now st st') :
    blockReason policy st' now ≠ none ↔ RetriesExhausted policy st now := by
  rw [h.same.blockReason]
  constructor
  · intro hb
    obtain ⟨hday, hlive⟩ := day_of_retryLive (h.why.resolve_right hb)
    rw [blockReason_advanced hday] at hb
    exact ⟨hday, hlive, (blocked_iff_exhausted hlive).mp hb⟩
  · rintro ⟨hday, hlive, hex⟩
    rw [blockReason_advanced hday]
    exact (blocked_iff_exhausted hlive).mpr hex

/-- A poll whose clock is accepted saves. -/
lemma pollInterfaces_saved {runId : RunId} {latestSuccess : BTreeMap String Bool}
    (hle : st.lastObservedUtc ≤ now) :
    ((Call.pollInterfaces runId now latestSuccess).run policy st).1 ≠ [] := by
  have hclock : advanceClock policy runId now st =
      ([advanced policy now st], .ok [], advanced policy now st) :=
    (advanceClock_apply policy now runId st).elim (fun h => absurd h.1 (not_lt.mpr hle)) (·.2)
  have hpoll : (pollInterfaces policy runId now latestSuccess st).1 ≠ [] := by
    unfold pollInterfaces
    rcases bind_cases (advanceClock policy runId now) _ st with
      ⟨saves, events, st₁, hc, hb⟩ | ⟨saves, e, st₁, hc, hb⟩
    · obtain ⟨rfl, -⟩ := Prod.mk.inj (hclock.symm.trans hc)
      rw [hb]
      simp
    · obtain ⟨-, hne⟩ := Prod.mk.inj (hclock.symm.trans hc)
      cases hne
  have hcall : (Call.pollInterfaces runId now latestSuccess).run policy st =
    (pollInterfaces policy runId now latestSuccess >>= fun poll => pure (Reply.polled poll)) st :=
    rfl
  rw [hcall]
  rcases bind_cases (pollInterfaces policy runId now latestSuccess)
    (fun poll => pure (Reply.polled poll)) st with ⟨saves, poll, st₁, hc, hb⟩ |
      ⟨saves, e, st₁, hc, hb⟩
  · rw [hc] at hpoll
    rw [hb]
    exact fun hnil => hpoll (List.append_eq_nil_iff.mp hnil).1
  · rw [hc] at hpoll
    rw [hb]
    exact hpoll

/-- The record of a running scheduler is not ahead of the time. -/
lemma day_le_of_reaches (h : Reaches S InOrder w) (hlive : w.live = some s)
    (hun : s.persistence.poisoned = false) (hnow : ∀ clock ∈ w.clock, clock ≤ now) :
    s.state.dayUtc ≤ dateNaive now :=
  (upheld_of_live kept_validState (upholds_counted s.policy.providerId) h hlive hun rfl).day_le
    hnow

end agree

/-- **Poll and reserve**: after a poll that hands out a run, a reservation at that time or later
is never rejected, exactly if the run is not a deferred retry that was handed out although the
cap was reached or the last run was too recent. -/
theorem agree_iff {S : Serde} {w : System} {s : Scheduler} {runId : RunId} {now : ℤ}
    {latestSuccess : BTreeMap String Bool} {io : List Io} {e : Entry} {poll : SchedulerPoll}
    (h : Reaches S InOrder w) (hlive : w.live = some s)
    (ha : InOrder w (.call (.pollInterfaces runId now latestSuccess)))
    (htrace : (w.step S (.call (.pollInterfaces runId now latestSuccess), io)).trace =
      w.trace ++ [e])
    (hok : e.result = .ok (.polled poll)) (hsome : poll.opportunity.isSome = true) :
    (∀ (now' : ℤ) (io' : List Io) (e' : Entry), now ≤ now' →
      ((w.step S (.call (.pollInterfaces runId now latestSuccess), io)).step S
          (.call (.reserveRun now'), io')).trace =
        (w.step S (.call (.pollInterfaces runId now latestSuccess), io)).trace ++ [e'] →
      ¬ Rejected e') ↔ ¬ RetriesExhausted s.policy s.state now := by
  obtain ⟨s', e₁, hlive', he₁, hpolicy, hresult⟩ :=
    @step_call S _ _ (.pollInterfaces runId now latestSuccess) io hlive
  obtain rfl : e₁ = e := by simpa using he₁.symm.trans htrace
  obtain ⟨hreply, hstate⟩ := hresult _ hok
  have hoffers : Offers s.policy now s.state s'.state := by
    have hspec : Saves (fun _ => True) s.state
        ((Call.pollInterfaces runId now latestSuccess).run s.policy)
        (fun reply st' => ∀ poll, reply = .polled poll → poll.opportunity.isSome = true →
          Offers s.policy now s.state st') fun _ _ => True :=
      saves_bind (saves_mono (pollInterfaces_offers runId latestSuccess)
        (fun poll st' hpoll => saves_pure fun poll' hp hsome => hpoll (by cases hp; exact hsome))
        fun _ _ he => he)
    rw [hstate]
    exact hspec.2.1 _ hreply _ rfl hsome
  have hnow : ∀ clock ∈ w.clock, clock ≤ now := fun clock hc => ha clock hc now rfl
  have hun : s.persistence.poisoned = false :=
    unpoisoned_of_ok hlive htrace hok (pollInterfaces_saved hoffers.forward)
  have hday : s'.state.dayUtc = dateNaive now := by
    rw [hoffers.same.day]
    refine le_antisymm ?_ (day_reconcileDay s.policy now s.state)
    have hle := day_le_of_reaches h hlive hun hnow
    change (reconcileDay s.policy now s.state).dayUtc ≤ _
    rcases hle.lt_or_eq with hlt | heq
    · obtain ⟨rng, slots, hr, -⟩ := reconcileDay_of_lt s.policy hlt
      rw [hr]
      exact le_rfl
    · rw [reconcileDay_of_le heq.ge]
      exact hle
  have hdated : Dated s'.policy.providerId s'.state := by
    have hreach : Reaches S (fun _ _ => True)
        (w.step S (.call (.pollInterfaces runId now latestSuccess), io)) :=
      .step (h.mono fun _ _ _ => trivial) trivial
    exact ((clean_of_reaches (kept_validState.and sustained_dated) hreach).1 s' hlive' _ _
      (state_get s')).2
  rw [← hoffers.blocked_iff]
  constructor
  · intro hnever hblocked
    obtain ⟨t, e', -, he', -⟩ := @step_call S _ _ (.reserveRun now) [] hlive'
    refine hnever now [] e' le_rfl he' ((rejected_iff hlive' he').mpr ?_)
    rw [reconcileDay_of_le hday.ge, hpolicy]
    exact hblocked
  · intro hfree now' io' e' hle he' hrejected
    refine (rejected_iff hlive' he').mp hrejected (unblocked_later hdated hday hle ?_)
    rw [hpolicy]
    exact not_not.mp hfree

/-! ### A retry after a crash -/

/-- Three of four probes are lost. -/
def lossy : HealthSnapshot := ⟨4, 1, 75, none, true⟩

/-- A degradation at midnight starts a run, which is rate limited until one o'clock; then its
retry is handed out and reserved. -/
def retriedCalls : List Call := [
  .observeInterfaceHealth 1 0 none (.degraded lossy .loss),
  .pollInterfaces 1 0 (Std.ExtTreeMap.ofList [("", true)]),
  .finishAttempt 1 0 ⟨.pingLoss, none, 0, none⟩ (Opportunities.limitedReport 3600000000000),
  .pollInterfaces 1 3600000000000 ∅]

/-- The system that is reopened after the process died within the retry. -/
noncomputable def crashedSystem : System :=
  (((calmRun Encoding.formats mlabPolicy 0 1 (.replicate 16 0) retriedCalls).step Encoding.formats
    (.call (.reserveRun 3600000000000), [])).step Encoding.formats (.close, [])).step
    Encoding.formats (.openSeeded mlabPolicy 3660000000000 1 (.ok (.replicate 16 0)), [])

/-- The record that was reserved. -/
def reservedState : ProviderState :=
  ((Call.reserveRun 3600000000000).run mlabPolicy
    (tell mlabPolicy (newState mlabPolicy 0 1) retriedCalls).1).2.2

lemma calm_crashed : ∃ s L, Calm Encoding.formats mlabPolicy
    (reconcileState mlabPolicy 3660000000000 reservedState) 9 s L crashedSystem := by
  obtain ⟨s, L, hcalm, -⟩ := @calmRun_spec Encoding.formats mlabPolicy 0 1
    (.replicate 16 0) retriedCalls (by decide +kernel)
  obtain ⟨s₁, L₁, e, hreserved, -, -, hsaved⟩ :=
    hcalm.call (.reserveRun 3600000000000) (by decide +kernel)
  obtain ⟨s₂, L₂, hopened, -⟩ := hreserved.reopen (hsaved (by decide +kernel)) (by decide +kernel)
    mlabPolicy 3660000000000 1 (.ok (.replicate 16 0)) rfl
  refine ⟨s₂, L₂, ?_⟩
  have hcount : 1 + savedBy mlabPolicy (newState mlabPolicy 0 1) retriedCalls +
      ((Call.reserveRun 3600000000000).run mlabPolicy
        (tell mlabPolicy (newState mlabPolicy 0 1) retriedCalls).1).1.length + 1 = 9 := by
    decide +kernel
  rw [hcount] at hopened
  exact hopened

lemma reaches_crashed : Reaches Encoding.formats InOrder crashedSystem := by
  have hcalls : Reaches Encoding.formats InOrder
      (calmRun Encoding.formats mlabPolicy 0 1 (.replicate 16 0) retriedCalls) :=
    reaches_calmRun_inOrder (by simp [retriedCalls, Ascending, Call.now])
  refine ((hcalls.step ?_).step ?_).step ?_
  · rintro clock hclock now hnow
    cases hclock
    cases hnow
    decide
  · rintro clock - now hnow
    cases hnow
  · rintro clock hclock now hnow
    cases hclock
    cases hnow
    decide

def offers : Except SchedulerError Reply → Bool
  | .ok (.polled poll) => poll.opportunity.isSome
  | _ => false

lemma poll_of_offers {r : Except SchedulerError Reply} (h : offers r = true) :
    ∃ poll, r = .ok (.polled poll) ∧ poll.opportunity.isSome = true := by
  unfold offers at h
  split at h
  · exact ⟨_, rfl, h⟩
  · cases h

def rejects : Except SchedulerError Reply → Bool
  | .error (.admission _) => true
  | _ => false

lemma rejected_of_rejects {e : Entry} (h : rejects e.result = true) : Rejected e := by
  unfold rejects at h
  split at h
  · rename_i message hresult
    exact ⟨message, hresult⟩
  · cases h

/-- **A retry after a crash**: the process dies after a retry was reserved; the retry is handed
out once more, but the run is too recent to be reserved. -/
theorem retry_rejected_after_crash : ¬ ∀ (w : System) (s : Scheduler) (now now' : ℤ)
    (e e' : Entry) (poll : SchedulerPoll), Reaches Encoding.formats InOrder w →
    w.live = some s → InOrder w (.call (.pollInterfaces 1 now ∅)) →
    (w.step Encoding.formats (.call (.pollInterfaces 1 now ∅), [])).trace = w.trace ++ [e] →
    e.result = .ok (.polled poll) → poll.opportunity.isSome = true → now ≤ now' →
    ((w.step Encoding.formats (.call (.pollInterfaces 1 now ∅), [])).step Encoding.formats
        (.call (.reserveRun now'), [])).trace =
      (w.step Encoding.formats (.call (.pollInterfaces 1 now ∅), [])).trace ++ [e'] →
    ¬ Rejected e' := by
  intro h
  obtain ⟨s, L, hcalm⟩ := calm_crashed
  obtain ⟨s₁, L₁, e, hpolled, htrace, htold, -⟩ :=
    hcalm.call (.pollInterfaces 1 3660000000000 ∅) (by decide +kernel)
  obtain ⟨s₂, L₂, e', -, htrace', htold', -⟩ :=
    hpolled.call (.reserveRun 3660000000000) (by decide +kernel)
  obtain ⟨poll, hpoll, hsome⟩ := poll_of_offers (r := e.result) (by
    rw [result_of_told htold]
    decide +kernel)
  have hrejected : Rejected e' := rejected_of_rejects (by
    rw [result_of_told htold']
    decide +kernel)
  refine h crashedSystem s 3660000000000 3660000000000 e e' poll reaches_crashed hcalm.live ?_
    htrace hpoll hsome le_rfl htrace' hrejected
  rintro clock hclock now hnow
  cases hclock
  cases hnow
  decide

/-- A retry that was handed out when the last run was long enough ago. -/
theorem retry_admitted : ∃ (w : System) (s : Scheduler) (e : Entry) (poll : SchedulerPoll),
    w.live = some s ∧ e.result = .ok (.polled poll) ∧ poll.opportunity.isSome = true ∧
    ∀ (now' : ℤ) (io' : List Io) (e' : Entry), 3600000000000 ≤ now' →
      ((w.step Encoding.formats (.call (.pollInterfaces 1 3600000000000 ∅), [])).step
          Encoding.formats (.call (.reserveRun now'), io')).trace =
        (w.step Encoding.formats (.call (.pollInterfaces 1 3600000000000 ∅), [])).trace ++ [e'] →
      ¬ Rejected e' := by
  have hreach : Reaches Encoding.formats InOrder Opportunities.limitedSystem :=
    reaches_calmRun_inOrder (by simp [Opportunities.limitedCalls, Ascending, Call.now])
  obtain ⟨s, L, hcalm⟩ := Opportunities.calm_limited
  obtain ⟨s₁, L₁, e, -, htrace, htold, -⟩ :=
    hcalm.call (.pollInterfaces 1 3600000000000 ∅) (by decide +kernel)
  obtain ⟨poll, hpoll, hsome⟩ := poll_of_offers (r := e.result) (by
    rw [result_of_told htold]
    decide +kernel)
  refine ⟨_, s, e, poll, hcalm.live, hpoll, hsome, (agree_iff hreach hcalm.live ?_ htrace hpoll
    hsome).mpr ?_⟩
  · rintro clock hclock now hnow
    rw [Opportunities.clock_limited] at hclock
    cases hclock
    cases hnow
    decide
  · -- no run was started yet
    rw [hcalm.samePolicy, hcalm.state]
    rintro ⟨-, -, hcap | ⟨-, t, ht, -⟩⟩
    · have hfree : capReached mlabPolicy
        (runsOnDay Opportunities.limitedState (dateNaive 3600000000000)) = false :=
          by decide +kernel
      rw [hfree] at hcap
      cases hcap
    · have hnone : Opportunities.limitedState.lastStartedAtUtc = none := by decide +kernel
      rw [hnone] at ht
      cases ht

end Netband.Agreement

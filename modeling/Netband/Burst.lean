import Netband.Triggers
import Netband.Slots

/-!
Polls at one instant, after the clock has jumped over any number of slots.

Each run that a poll hands out is attempted and finished at the same instant. The second poll
then finds nothing to do, unless the first one handed out a deferred retry and left a slot that
is due, or the plan after it starts with one.
-/

namespace Netband.Burst

open Netband.Time Netband.Model Netband.State Netband.Plan Netband.Effects Netband.Strata
open Netband.Scheduling Netband.World Netband.Edits Netband.Opportunities Netband.Polls
open Netband.Slots Netband.Triggers Netband.Steps
open Saving

/-! ### Polls and attempts at one instant -/

section sequence
variable {σ τ : Type} (does : Call → Reply → σ → σ → Prop) (kind : ProviderKind) (t : ℤ)

/-- A run is attempted and finished at `t` with a report that is not rate limited. It was
reserved, or it failed before. -/
inductive Attempted (opportunity : BandwidthOpportunity) : σ → σ → Prop
  | reserved {reservation : Reservation} {runId : RunId} {report : BandwidthReport}
      {reply : Reply} {x y z : σ} (hreserve : does (.reserveRun t) (.reserved reservation) x y)
      (hreserved : report.reserved = true) (hlimit : rateLimitFromReport report kind = none)
      (hfinish : does (.finishAttempt runId t opportunity report) reply y z) :
      Attempted opportunity x z
  | failed {runId : RunId} {report : BandwidthReport} {reply : Reply} {x y : σ}
      (hreserved : report.reserved = false) (hlimit : rateLimitFromReport report kind = none)
      (hfinish : does (.finishAttempt runId t opportunity report) reply x y) :
      Attempted opportunity x y

/-- After so many polls at `t`, so many runs were handed out, attempted and finished. -/
inductive Polled : ℕ → ℕ → σ → σ → Prop
  | start {x : σ} : Polled 0 0 x x
  | nothing {polls runs : ℕ} {x y z : σ} {runId : RunId} {latestSuccess : BTreeMap String Bool}
      {poll : SchedulerPoll} (before : Polled polls runs x y)
      (hpoll : does (.pollInterfaces runId t latestSuccess) (.polled poll) y z)
      (hnone : poll.opportunity = none) : Polled (polls + 1) runs x z
  | attempt {polls runs : ℕ} {x y z z' : σ} {runId : RunId}
      {latestSuccess : BTreeMap String Bool} {poll : SchedulerPoll}
      {opportunity : BandwidthOpportunity} (before : Polled polls runs x y)
      (hpoll : does (.pollInterfaces runId t latestSuccess) (.polled poll) y z)
      (hsome : poll.opportunity = some opportunity)
      (hattempt : Attempted does kind t opportunity z z') : Polled (polls + 1) (runs + 1) x z'

variable {does kind t} {does' : Call → Reply → τ → τ → Prop} {R : σ → τ → Prop}

lemma Attempted.simulates {opportunity : BandwidthOpportunity} {x y : σ} {a : τ}
    (hsim : ∀ c reply x y a, R x a → does c reply x y → ∃ b, does' c reply a b ∧ R y b)
    (ha : R x a) (h : Attempted does kind t opportunity x y) :
    ∃ b, Attempted does' kind t opportunity a b ∧ R y b := by
  cases h with
  | reserved hreserve hreserved hlimit hfinish =>
    obtain ⟨b, hb, hR⟩ := hsim _ _ _ _ _ ha hreserve
    obtain ⟨c, hc, hR⟩ := hsim _ _ _ _ _ hR hfinish
    exact ⟨c, .reserved hb hreserved hlimit hc, hR⟩
  | failed hreserved hlimit hfinish =>
    obtain ⟨b, hb, hR⟩ := hsim _ _ _ _ _ ha hfinish
    exact ⟨b, .failed hreserved hlimit hb, hR⟩

/-- **Simulation**: what every call follows, the polls at an instant follow. -/
lemma Polled.simulates {polls runs : ℕ} {x y : σ} {a : τ}
    (hsim : ∀ c reply x y a, R x a → does c reply x y → ∃ b, does' c reply a b ∧ R y b)
    (ha : R x a) (h : Polled does kind t polls runs x y) :
    ∃ b, Polled does' kind t polls runs a b ∧ R y b := by
  induction h with
  | start => exact ⟨a, .start, ha⟩
  | nothing before hpoll hnone ih =>
    obtain ⟨b, hb, hR⟩ := ih ha
    obtain ⟨c, hc, hR⟩ := hsim _ _ _ _ _ hR hpoll
    exact ⟨c, .nothing hb hc hnone, hR⟩
  | attempt before hpoll hsome hattempt ih =>
    obtain ⟨b, hb, hR⟩ := ih ha
    obtain ⟨c, hc, hR⟩ := hsim _ _ _ _ _ hR hpoll
    obtain ⟨d, hd, hR⟩ := hattempt.simulates hsim hR
    exact ⟨d, .attempt hb hc hsome hd, hR⟩

end sequence

/-- A call that returned on a record. -/
def Answers (policy : SchedulerPolicy) (c : Call) (reply : Reply) (st st' : ProviderState) : Prop :=
  Returns (c.run policy) st reply st'

/-- A call that returned in a system. -/
def SystemAnswers (S : Recovery.Serde) (c : Call) (reply : Reply) (w w' : System) : Prop :=
  ∃ io e, w' = w.step S (.call c, io) ∧ w'.trace = w.trace ++ [e] ∧ e.result = .ok reply

/-- The record of the running scheduler. -/
def Runs (policy : SchedulerPolicy) (w : System) (st : ProviderState) : Prop :=
  ∃ s, w.live = some s ∧ s.policy = policy ∧ s.state = st

lemma answers_of_system {S : Recovery.Serde} {policy : SchedulerPolicy} {c : Call} {reply : Reply}
    {w w' : System} {st : ProviderState} (hlive : Runs policy w st)
    (h : SystemAnswers S c reply w w') :
    ∃ st', Answers policy c reply st st' ∧ Runs policy w' st' := by
  obtain ⟨s, hs, rfl, rfl⟩ := hlive
  obtain ⟨io, e, rfl, htrace, hok⟩ := h
  obtain ⟨s', e', hlive', -, hpolicy, -⟩ := @step_call S _ _ c io hs
  exact ⟨s'.state, returns_call hs htrace hlive' hok, s', hlive', hpolicy, rfl⟩

/-! ### One poll -/

section record
variable {policy : SchedulerPolicy} {t : ℤ} {st st' : ProviderState}
  {latestSuccess : BTreeMap String Bool} {poll : SchedulerPoll} {runId : RunId}

/-- No health trigger waits for a run. -/
def Untriggered (st : ProviderState) : Prop := ∀ key p, ¬ Pending st key p

/-- The record was looked at on the day of `t`, no trigger is pending and no slot is due. -/
structure Cleared (t : ℤ) (st : ProviderState) : Prop where
  clock : st.lastObservedUtc ≤ t
  day : dateNaive t ≤ st.dayUtc
  untriggered : Untriggered st
  slots : ∀ slot ∈ st.slots, t < slot

/-- A poll at `t` finds nothing in the record. -/
structure Settled (t : ℤ) (st : ProviderState) : Prop extends Cleared t st where
  retry : retryLive st t = false

lemma untriggered_of_all
    (h : st.interfaceTriggers.toList.all (fun q => q.2.pending.isNone) = true) :
    Untriggered st := by
  rintro key p ⟨trigger, htrigger, hp⟩
  have hnone := List.all_eq_true.mp h _ (mem_triggers.mpr htrigger)
  rw [hp] at hnone
  cases hnone

lemma untriggered_opened (h : Untriggered st) :
    Untriggered (withoutRetry t (opened policy t st)) :=
  fun key p hp => h key p (pending_of_opened hp).1

lemma chosen_of_untriggered (h : Untriggered st) : chosen t latestSuccess st = none := by
  rcases hc : chosen t latestSuccess st with _ | ⟨key, p⟩
  · rfl
  · exact absurd (pending_of_oldest hc) (h key p)

lemma dueSlot_of_none (h : dueSlot t st = none) : ∀ slot ∈ st.slots, t < slot := by
  simpa [dueSlot] using h

lemma due_of_dueSlot (h : dueSlot t st ≠ none) : ∃ slot ∈ st.slots, slot ≤ t := by
  by_contra hnot
  push Not at hnot
  exact h (by simpa [dueSlot] using hnot)

lemma day_opened : dateNaive t ≤ (opened policy t st).dayUtc := by
  obtain ⟨triggers, he⟩ := withoutExpired_eq t (advanced policy t st)
  rw [opened, he]
  exact day_reconcileDay policy t st

lemma clock_opened : (opened policy t st).lastObservedUtc = t := by
  obtain ⟨triggers, he⟩ := withoutExpired_eq t (advanced policy t st)
  rw [opened, he]
  rfl

variable (policy) in
/-- On a new day every slot is still to come, and the deferred run is gone. -/
lemma opened_of_rollover (h : st.dayUtc < dateNaive t) :
    (∀ slot ∈ (opened policy t st).slots, t < slot) ∧ (opened policy t st).deferred = none := by
  obtain ⟨triggers, he⟩ := withoutExpired_eq t (advanced policy t st)
  rw [opened, he]
  refine ⟨?_, (blank_advanced h).deferred⟩
  intro slot hslot
  have hplanned : (advanced policy t st).slots = (planFullDay policy (newDay t st) t).1 := by
    simp only [advanced, reconcileDay, if_neg (not_le.mpr h)]
  rw [hplanned] at hslot
  simpa using (List.mem_filter.mp hslot).2

lemma retryLive_withoutRetry (h : retryLive st t = false) :
    retryLive (withoutRetry t st) t = false := by
  rcases @withoutRetry_eq t st with he | he
  · rwa [he]
  · rw [he]
    rfl

/-- The record in which a poll without a live retry looks for a due slot. -/
lemma cleared_due (hquiet : Untriggered st) (hdead : retryLive (opened policy t st) t = false)
    (hslots : ∀ slot ∈ st'.slots, t < slot)
    (heq : ∃ slots, st' = { withoutRetry t (opened policy t st) with slots }) : Settled t st' := by
  obtain ⟨slots, rfl⟩ := heq
  have hopened : (withoutRetry t (opened policy t st)).lastObservedUtc = t ∧
      dateNaive t ≤ (withoutRetry t (opened policy t st)).dayUtc := by
    rcases @withoutRetry_eq t (opened policy t st) with he | he <;>
      rw [he] <;> exact ⟨clock_opened, day_opened⟩
  exact {
    clock := hopened.1.le
    day := hopened.2
    untriggered := untriggered_opened hquiet
    slots := hslots
    retry := retryLive_withoutRetry hdead }

/-- **One poll** without pending triggers: it finds nothing, it takes a due slot, or it hands out
the deferred retry and leaves the slots as they are. -/
lemma polled_cases (hquiet : Untriggered st) (hclock : st.lastObservedUtc ≤ t)
    (h : PollSettled policy runId t latestSuccess st poll st') :
    (poll.opportunity = none ∧ Settled t st') ∨
      (∃ o, poll.opportunity = some o ∧ o.reason = .scheduled ∧ Settled t st' ∧
        dateNaive t ≤ st.dayUtc ∧ ∃ slot ∈ st.slots, slot ≤ t) ∨
      ∃ d triggers, poll.opportunity = some (retryOpportunity d) ∧ st.deferred = some d ∧
        retryLive st t = true ∧ dateNaive t ≤ st.dayUtc ∧
        st' = { st with lastObservedUtc := t, interfaceTriggers := triggers } ∧
        Untriggered st' := by
  cases h with
  | rollback hlt => omega
  | @retry hle d hd hlive =>
    right
    right
    rcases le_or_gt (dateNaive t) st.dayUtc with hday | hday
    · obtain ⟨triggers, he⟩ := opened_of_le policy hday
      have hquiet' : Untriggered (opened policy t st) := by
        intro key p hp
        have hkept : Pending (withoutRetry t (opened policy t st)) key p := by
          rcases @withoutRetry_eq t (opened policy t st) with hr | hr <;> rw [hr] <;> exact hp
        exact hquiet key p (pending_of_opened hkept).1
      rw [he] at hd hlive
      exact ⟨d, triggers, rfl, hd, hlive, hday, he, hquiet'⟩
    · have hnone := (opened_of_rollover policy hday).2
      rw [hd] at hnone
      cases hnone
  | @due hle hdead due st' hdue =>
    have hchosen : chosen t latestSuccess (withoutRetry t (opened policy t st)) = none :=
      chosen_of_untriggered (untriggered_opened hquiet)
    cases hdue with
    | idle hslot hpending =>
      exact .inl ⟨rfl, cleared_due hquiet hdead (dueSlot_of_none hslot) ⟨_, rfl⟩⟩
    | @blocked hfound blocked hb =>
      refine .inl ⟨rfl, cleared_due hquiet hdead ?_ ?_⟩ <;>
        simp only [blockedState, hchosen, Option.isSome_none, Bool.and_false, Bool.false_eq_true,
          if_false]
      · exact withoutDue_slots _
      · exact withoutDue_eq t _
    | ready hfound hb =>
      right
      left
      have hdue : ∃ slot ∈ (withoutRetry t (opened policy t st)).slots, slot ≤ t :=
        due_of_dueSlot (hfound.resolve_right fun hne => hne hchosen)
      have hday : dateNaive t ≤ st.dayUtc := by
        by_contra hnot
        obtain ⟨slot, hslot, hle⟩ := hdue
        have hlater := (opened_of_rollover policy (not_le.mp hnot)).1 slot (by
          rcases @withoutRetry_eq t (opened policy t st) with he | he <;> rwa [he] at hslot)
        omega
      rw [slots_of_opened hday] at hdue
      have hready : readyState t (chosen t latestSuccess (withoutRetry t (opened policy t st)))
          (withoutRetry t (opened policy t st)) =
          withoutDue t (withoutRetry t (opened policy t st)) := by
        rw [hchosen]
        rfl
      refine ⟨_, rfl, by rw [hchosen]; rfl, ?_, hday, hdue⟩
      rw [hready]
      exact cleared_due hquiet hdead (withoutDue_slots _) (withoutDue_eq t _)

lemma Settled.polled (h : Settled t st)
    (hpoll : PollSettled policy runId t latestSuccess st poll st') :
    poll.opportunity = none ∧ Settled t st' := by
  rcases polled_cases h.untriggered h.clock hpoll with hnone | ⟨-, -, -, -, -, slot, hslot, hle⟩ |
    ⟨-, -, -, -, hlive, -⟩
  · exact hnone
  · exact absurd hle (not_le.mpr (h.slots slot hslot))
  · rw [h.retry] at hlive
    cases hlive

lemma pollSettled_of_answers
    (h : Answers policy (.pollInterfaces runId t latestSuccess) (.polled poll) st st') :
    PollSettled policy runId t latestSuccess st poll st' := by
  obtain ⟨poll', t', h, hreply⟩ := returns_bind.mp h
  obtain ⟨hpoll, rfl⟩ := returns_pure.mp hreply
  obtain rfl : poll = poll' := by simpa using hpoll
  exact returns_pollInterfaces h

/-! ### One attempt -/

lemma lt_addDuration (policy : SchedulerPolicy) (hmax : t < maxUtc) :
    t < addDuration t policy.minSpacing := by
  have hspacing := policy.minSpacing_ge
  have hlong : 0 < timeDeltaMax := by decide
  simp only [addDuration]
  split <;> omega

/-- The plan for the rest of the day starts with a slot at `t`. -/
def DrawsNow (policy : SchedulerPolicy) (t : ℤ) (st : ProviderState) : Prop :=
  0 < policy.dailyMax - runsOnDay st (dateNaive t) ∧
    (∀ last, st.lastStartedAtUtc = some last → addDuration last policy.minSpacing ≤ t) ∧
    StartsAtOnce policy.slotJitterPct (max ((dayEnd (dateNaive t) - t) / millisecond) 1)
      (policy.dailyMax - runsOnDay st (dateNaive t)) st.rngState

/-- A plan for the rest of the day has no slot at `t` or before, unless it starts with one. -/
lemma replanned_iff (hcool : ∀ c, st.cooldownUntilUtc = some c → c ≤ t) :
    (∀ slot ∈ (replanRemaining policy t st).slots, t < slot) ↔ ¬ DrawsNow policy t st := by
  have hmem := start_mem_plan policy.minSpacing st
    (policy.dailyMax - runsOnDay st (dateNaive t)) policy.slotJitterPct_le hcool (lt_dayEnd t)
  rw [DrawsNow, ← hmem]
  constructor
  · intro hall ht
    exact lt_irrefl t (hall t ht)
  · intro hnot slot hslot
    have hle := le_of_mem_plan policy.slotJitterPct_le hslot
    rcases hle.lt_or_eq with hlt | rfl
    · exact hlt
    · exact absurd hslot hnot

/-! The record that a finished attempt leaves. -/

lemma untriggered_clearPending (interface : Option String) (h : Untriggered st) :
    Untriggered (clearPending interface st) := by
  rintro key p ⟨trigger, htrigger, hp⟩
  by_cases hk : interfaceKey interface = key
  · have hsame : trigger = { interfaceTrigger st interface with pending := none } := by
      simpa [clearPending, updateTrigger, hk, eq_comm] using htrigger
    rw [hsame] at hp
    cases hp
  · exact h key p ⟨trigger, by
      simpa [clearPending, updateTrigger, Std.ExtTreeMap.getElem?_insert, hk] using htrigger, hp⟩

lemma slots_finishUnlimited {opportunity : BandwidthOpportunity} {report : BandwidthReport}
    (hreason : opportunity.reason = .scheduled) :
    (finishUnlimited policy t opportunity report st).slots =
      if report.reserved then st.slots.filter (addDuration t policy.minSpacing ≤ ·)
      else st.slots := by
  unfold finishUnlimited
  dsimp only
  rw [if_neg (not_not.mpr hreason)]
  split <;> rfl

/-- **One attempt**: after a run that was not rate limited, a poll finds nothing, if the slots that
are due are gone or planned anew. -/
lemma settled_finished {opportunity : BandwidthOpportunity} {report : BandwidthReport}
    (hlimit : rateLimitFromReport report policy.providerKind = none)
    (hclock : st.lastObservedUtc ≤ t) (hday : dateNaive t ≤ st.dayUtc) (hquiet : Untriggered st)
    (hslots : if opportunity.reason = .scheduled then ∀ slot ∈ st.slots, t < slot
      else (∀ c, st.cooldownUntilUtc = some c → c ≤ t) ∧ ¬ DrawsNow policy t st) :
    Settled t (finished policy t opportunity report st) := by
  have hfinished : finished policy t opportunity report st =
      finishUnlimited policy t opportunity report st := by
    rw [finished, hlimit]
  obtain ⟨rng, slots, he, -⟩ := finishUnlimited_eq policy t opportunity report st
  rw [hfinished]
  refine {
    clock := by rw [he]; exact hclock
    day := by rw [he]; exact hday
    untriggered := ?_
    slots := ?_
    retry := by rw [he]; rfl }
  · intro key p hp
    refine untriggered_clearPending opportunity.interface hquiet key p ?_
    rw [he] at hp
    exact hp
  · split_ifs at hslots with hreason
    · intro slot hslot
      rw [slots_finishUnlimited hreason] at hslot
      split at hslot
      · exact hslots slot (List.mem_filter.mp hslot).1
      · exact hslots slot hslot
    · unfold finishUnlimited
      rw [if_pos hreason]
      refine (replanned_iff ?_).mpr hslots.2
      intro c hc
      refine hslots.1 c ?_
      have hsome : (if successfulRequest report then none else st.cooldownUntilUtc) = some c := hc
      split_ifs at hsome
      exact hsome

lemma settled_attempted {opportunity : BandwidthOpportunity} (hmax : t < maxUtc)
    (hclock : st.lastObservedUtc ≤ t) (hday : dateNaive t ≤ st.dayUtc) (hquiet : Untriggered st)
    (hslots : if opportunity.reason = .scheduled then ∀ slot ∈ st.slots, t < slot
      else (∀ c, st.cooldownUntilUtc = some c → c ≤ t) ∧ ¬ DrawsNow policy t st)
    (h : Attempted (Answers policy) policy.providerKind t opportunity st st') : Settled t st' := by
  cases h with
  | failed hreserved hlimit hfinish =>
    obtain ⟨events, report', hr⟩ := run_finishAttempt policy t _ opportunity _ st
    rw [Answers, Returns, hr] at hfinish
    obtain rfl := (congrArg Prod.snd hfinish).symm
    exact settled_finished hlimit hclock hday hquiet hslots
  | @reserved _ _ _ _ _ st₁ _ hreserve hreserved hlimit hfinish =>
    have hstarted : st₁ = startRun t st := by
      rw [Answers, Returns, run_reserveRun, reconcileDay_of_le hday] at hreserve
      split at hreserve
      · cases hreserve
      · exact (congrArg Prod.snd hreserve).symm
    subst hstarted
    obtain ⟨events, report', hr⟩ := run_finishAttempt policy t _ opportunity _ (startRun t st)
    rw [Answers, Returns, hr] at hfinish
    obtain rfl := (congrArg Prod.snd hfinish).symm
    refine settled_finished hlimit (max_le hclock le_rfl) hday hquiet ?_
    split_ifs at hslots ⊢ with hreason
    · exact hslots
    · refine ⟨hslots.1, ?_⟩
      rintro ⟨-, hlast, -⟩
      have hlater := lt_addDuration policy hmax
      cases hs : st.lastStartedAtUtc with
      | none =>
        have := hlast t (by simp [startRun, maxStart, hs])
        omega
      | some last =>
        have := hlast (max t last) (by simp [startRun, maxStart, hs])
        have := addDuration_mono policy.minSpacing (le_max_left t last)
        omega

/-! ### Any number of polls -/

/-- A deferred retry is handed out, and it can leave a slot that is due: the slots that it does not
use are still there, or the plan after it starts at once. -/
def CatchesUp (policy : SchedulerPolicy) (t : ℤ) (st : ProviderState) : Prop :=
  dateNaive t ≤ st.dayUtc ∧ retryLive st t = true ∧ ∃ d, st.deferred = some d ∧
    if d.reason = .scheduled then ∃ slot ∈ st.slots, slot ≤ t else DrawsNow policy t st

/-- No more than one run was handed out, and after the last poll and its attempt no slot is due. -/
def Coalesced (t : ℤ) (polls runs : ℕ) (st' : ProviderState) : Prop :=
  runs ≤ 1 ∧ (0 < polls → ∀ slot ∈ st'.slots, t < slot)

lemma cooldown_of_retryLive (h : retryLive st t = true) :
    ∀ c, st.cooldownUntilUtc = some c → c ≤ t := by
  intro c hc
  simp only [retryLive, hc, Bool.and_eq_true, Option.all_some, decide_eq_true_eq] at h
  exact h.2

/-- **Run**: the first poll may hand out a run; afterwards the record is settled. -/
lemma settled_of_polled {polls runs : ℕ} (hmax : t < maxUtc) (hquiet : Untriggered st)
    (hclock : st.lastObservedUtc ≤ t) (hno : ¬ CatchesUp policy t st)
    (h : Polled (Answers policy) policy.providerKind t polls runs st st') :
    (polls = 0 ∧ runs = 0 ∧ st' = st) ∨ runs ≤ 1 ∧ Settled t st' := by
  induction h with
  | start => exact .inl ⟨rfl, rfl, rfl⟩
  | nothing before hpoll hnone ih =>
    right
    rcases ih hquiet hclock hno with ⟨-, rfl, rfl⟩ | ⟨hle, hsettled⟩
    · rcases polled_cases hquiet hclock (pollSettled_of_answers hpoll) with ⟨-, hsettled⟩ |
        ⟨o, hsome, -⟩ | ⟨d, triggers, hsome, -⟩
      · exact ⟨Nat.zero_le 1, hsettled⟩
      all_goals
        rw [hnone] at hsome
        cases hsome
    · exact ⟨hle, (hsettled.polled (pollSettled_of_answers hpoll)).2⟩
  | attempt before hpoll hsome hattempt ih =>
    right
    rcases ih hquiet hclock hno with ⟨-, rfl, rfl⟩ | ⟨hle, hsettled⟩
    · refine ⟨le_rfl, ?_⟩
      rcases polled_cases hquiet hclock (pollSettled_of_answers hpoll) with ⟨hnone, -⟩ |
        ⟨o, ho, hreason, hsettled, -⟩ | ⟨d, triggers, ho, hd, hlive, hday, he, hquiet'⟩
      · rw [hsome] at hnone
        cases hnone
      · obtain rfl := Option.some.inj (hsome.symm.trans ho)
        exact settled_attempted hmax hsettled.clock hsettled.day hsettled.untriggered
          (by rw [if_pos hreason]; exact hsettled.slots) hattempt
      · obtain rfl := Option.some.inj (hsome.symm.trans ho)
        refine settled_attempted hmax (by rw [he]) (by rw [he]; exact hday) hquiet' ?_ hattempt
        have hleft := fun h => hno ⟨hday, hlive, d, hd, h⟩
        rw [he]
        change if d.reason = .scheduled then _ else _
        split_ifs at hleft ⊢ with hreason
        · exact fun slot hslot => not_le.mp fun hle => hleft ⟨slot, hslot, hle⟩
        · exact ⟨cooldown_of_retryLive hlive, hleft⟩
    · have hnone := (hsettled.polled (pollSettled_of_answers hpoll)).1
      rw [hsome] at hnone
      cases hnone

/-- A poll always returns on a record. -/
lemma poll_answers (policy : SchedulerPolicy) (runId : RunId) (t : ℤ)
    (latestSuccess : BTreeMap String Bool) (st : ProviderState) :
    ∃ poll st', Answers policy (.pollInterfaces runId t latestSuccess) (.polled poll) st st' := by
  have hany : Edited policy t (fun _ => True) fun _ => True := by
    refine ⟨⟨?_, ?_, ?_⟩, ?_, ?_, ?_, ?_, ?_⟩ <;> simp
  have hspec : Saves (fun _ => True) st (pollInterfaces policy runId t latestSuccess)
      (fun _ _ => True) fun _ _ => False := pollInterfaces_spec hany trivial runId latestSuccess
  rcases hr : pollInterfaces policy runId t latestSuccess st with ⟨saves, e | poll, st'⟩
  · exact absurd (hspec.2.2 e (by rw [hr])) id
  · have hreturns : Returns (pollInterfaces policy runId t latestSuccess) st poll st' := by
      rw [Returns, hr]
    exact ⟨poll, st', returns_bind.mpr ⟨poll, st', hreturns, returns_pure.mpr ⟨rfl, rfl⟩⟩⟩

/-- An attempt that failed before a run was reserved. -/
def failedReport : BandwidthReport where
  events := []
  outcome := .error
  reserved := false
  reservationError := none

/-- A retry whose attempt fails before a run is reserved leaves a slot that is due. -/
lemma polled_of_catchesUp (hclock : st.lastObservedUtc ≤ t) (h : CatchesUp policy t st) :
    ∃ st', Polled (Answers policy) policy.providerKind t 1 1 st st' ∧
      ∃ slot ∈ st'.slots, slot ≤ t := by
  obtain ⟨hday, hlive, d, hd, hleft⟩ := h
  obtain ⟨poll, st₁, hpoll⟩ := poll_answers policy 0 t ∅ st
  have hretry : poll.opportunity = some (retryOpportunity d) ∧ ∃ triggers,
      st₁ = { st with lastObservedUtc := t, interfaceTriggers := triggers } := by
    have hsettled := pollSettled_of_answers hpoll
    cases hsettled with
    | rollback hlt => omega
    | retry hle hd' hlive' =>
      obtain ⟨triggers, he⟩ := opened_of_le policy hday
      rw [he] at hd'
      exact ⟨congrArg some (congrArg retryOpportunity (Option.some.inj (hd'.symm.trans hd))),
        triggers, he⟩
    | due hle hdead =>
      obtain ⟨triggers, he⟩ := opened_of_le policy hday
      rw [he] at hdead
      exact absurd hlive (Bool.eq_false_iff.mp hdead)
  obtain ⟨hsome, triggers, he⟩ := hretry
  obtain ⟨events, report', hr⟩ := run_finishAttempt policy t 0 (retryOpportunity d) failedReport st₁
  have hfinish : Answers policy (.finishAttempt 0 t (retryOpportunity d) failedReport)
      (.finished events report') st₁ (finished policy t (retryOpportunity d) failedReport st₁) := by
    rw [Answers, Returns, hr]
  refine ⟨_, .attempt .start hpoll hsome (.failed rfl rfl hfinish), ?_⟩
  change ∃ slot ∈ (finishUnlimited policy t (retryOpportunity d) failedReport st₁).slots, slot ≤ t
  split_ifs at hleft with hreason
  · rw [slots_finishUnlimited (show (retryOpportunity d).reason = .scheduled from hreason), he]
    exact hleft
  · by_contra hnot
    push Not at hnot
    have hnon : (retryOpportunity d).reason ≠ .scheduled := hreason
    unfold finishUnlimited at hnot
    rw [if_pos hnon] at hnot
    refine (replanned_iff ?_).mp hnot ?_
    · have hcool := cooldown_of_retryLive hlive
      rw [he]
      exact hcool
    · rw [he]
      exact hleft

end record

/-- **No burst**: at any instant after the record was last looked at, however many slots were
skipped, the polls hand out at most one run and leave no due slot, exactly unless a deferred retry
is handed out that can leave one. The polls of a running system are polls of its record. -/
theorem coalesced_iff {S : Recovery.Serde} {w : System} {s : Scheduler} {t : ℤ}
    (hlive : w.live = some s) (hquiet : Untriggered s.state)
    (hclock : s.state.lastObservedUtc ≤ t) (hmax : t < maxUtc) :
    ((∀ polls runs st',
        Polled (Answers s.policy) s.policy.providerKind t polls runs s.state st' →
        Coalesced t polls runs st') ↔ ¬ CatchesUp s.policy t s.state) ∧
      ∀ polls runs w', Polled (SystemAnswers S) s.policy.providerKind t polls runs w w' →
        ∃ s', w'.live = some s' ∧
          Polled (Answers s.policy) s.policy.providerKind t polls runs s.state s'.state := by
  refine ⟨⟨?_, ?_⟩, ?_⟩
  · intro hall hcatches
    obtain ⟨st', hpolled, slot, hslot, hle⟩ := polled_of_catchesUp hclock hcatches
    exact absurd hle (not_le.mpr ((hall 1 1 st' hpolled).2 one_pos slot hslot))
  · intro hno polls runs st' hpolled
    rcases settled_of_polled hmax hquiet hclock hno hpolled with ⟨rfl, rfl, -⟩ | ⟨hle, hsettled⟩
    · exact ⟨Nat.zero_le 1, fun h => absurd h (lt_irrefl 0)⟩
    · exact ⟨hle, fun _ => hsettled.slots⟩
  · intro polls runs w' hpolled
    have hruns : Runs s.policy w s.state := ⟨s, hlive, rfl, rfl⟩
    have hsim : ∀ c reply w w' st, Runs s.policy w st → SystemAnswers S c reply w w' →
        ∃ st', Answers s.policy c reply st st' ∧ Runs s.policy w' st' :=
      fun _ _ _ _ _ => answers_of_system
    obtain ⟨st', hpolled', s', hlive', -, rfl⟩ := hpolled.simulates hsim hruns
    exact ⟨s', hlive', hpolled'⟩

/-- After an idle day the polls of the evening hand out at most one run. -/
theorem coalesced_after_idle_day : ∃ w s, Reaches Encoding.formats InOrder w ∧
    w.live = some s ∧ s.state = newState mlabPolicy 0 1 ∧
    ∀ polls runs w', Polled (SystemAnswers Encoding.formats) s.policy.providerKind
        80000000000000 polls runs w w' →
      ∃ s', w'.live = some s' ∧ Coalesced 80000000000000 polls runs s'.state := by
  obtain ⟨s, L, hcalm, -⟩ := @calmRun_spec Encoding.formats mlabPolicy 0 1 (.replicate 16 0) []
    (by decide)
  have hstate : s.state = newState mlabPolicy 0 1 := hcalm.state
  have hquiet : Untriggered s.state := by
    rw [hstate]
    exact untriggered_of_all (by decide +kernel)
  have hclock : s.state.lastObservedUtc ≤ 80000000000000 := by
    rw [hstate]
    decide +kernel
  have hno : ¬ CatchesUp s.policy 80000000000000 s.state := by
    rintro ⟨-, hlive, -⟩
    rw [hstate] at hlive
    exact absurd hlive (by decide +kernel)
  obtain ⟨hiff, hsystem⟩ := @coalesced_iff Encoding.formats _ s 80000000000000 hcalm.live hquiet
    hclock (by decide)
  refine ⟨_, s, reaches_calmRun_inOrder (by simp [Ascending]), hcalm.live, hstate, ?_⟩
  intro polls runs w' hpolled
  obtain ⟨s', hlive', hrecord⟩ := hsystem polls runs w' hpolled
  exact ⟨s', hlive', hiff.mpr hno polls runs s'.state hrecord⟩

/-! ### A retry and then a slot -/

/-- A call without faults that returned. -/
lemma calm_answers {S : Recovery.Serde} {policy : SchedulerPolicy} {st st' : ProviderState} {n : ℕ}
    {s : Scheduler} {L : Recovery.Ledger} {w : System} {c : Call} {reply : Reply}
    (h : Calm S policy st n s L w) (hanswers : Answers policy c reply st st')
    (hn : n + (c.run policy st).1.length ≤ u64Max) :
    ∃ s' L', Calm S policy st' (n + (c.run policy st).1.length) s' L'
        (w.step S (.call c, [])) ∧ SystemAnswers S c reply w (w.step S (.call c, [])) := by
  have hresult := congrArg Prod.fst hanswers
  have hstate := congrArg Prod.snd hanswers
  obtain ⟨s', L', e, hcalm, htrace, htold, -⟩ := h.call c hn
  rw [hstate] at hcalm
  exact ⟨s', L', hcalm, [], e, rfl, htrace, (result_of_told htold).trans hresult⟩

lemma finish_answers (policy : SchedulerPolicy) (t : ℤ) (opportunity : BandwidthOpportunity)
    (report : BandwidthReport) (st : ProviderState) : ∃ reply,
    Answers policy (.finishAttempt 1 t opportunity report) reply st
      (finished policy t opportunity report st) ∧
      ((Call.finishAttempt 1 t opportunity report).run policy st).1.length = 1 := by
  obtain ⟨events, report', hr⟩ := run_finishAttempt policy t 1 opportunity report st
  exact ⟨_, by rw [Answers, Returns, hr], by rw [hr]; rfl⟩

/-- The run that the first slot hands out. -/
def firstOpportunity : BandwidthOpportunity := ⟨.scheduled, some 7669761000000, 7700000000000, none⟩

/-- The run of the first slot is rate limited for an hour before it is reserved. -/
def deferredCalls : List Call :=
  [.pollInterfaces 1 7700000000000 ∅,
    .finishAttempt 1 7700000000000 firstOpportunity (limitedReport 11300000000000)]

def deferredState : ProviderState :=
  (Steps.tell mlabPolicy (newState mlabPolicy 0 1) deferredCalls).1

/-- A poll in the evening, after every slot of the day. -/
def eveningPoll : Call := .pollInterfaces 1 80000000000000 ∅

/-- The opportunity and the record of the poll. -/
def polledOn (st : ProviderState) : Option BandwidthOpportunity × ProviderState :=
  match (eveningPoll.run mlabPolicy st).2 with
  | (.ok (.polled poll), st') => (poll.opportunity, st')
  | (_, st') => (none, st')

lemma polledOn_answers (st : ProviderState) : ∃ poll,
    Answers mlabPolicy eveningPoll (.polled poll) st (polledOn st).2 ∧
      poll.opportunity = (polledOn st).1 := by
  obtain ⟨poll, st', h⟩ := poll_answers mlabPolicy 1 80000000000000 ∅ st
  have hr : (eveningPoll.run mlabPolicy st).2 = (.ok (.polled poll), st') := h
  exact ⟨poll, by simp only [polledOn, Answers, Returns, hr], by simp only [polledOn, hr]⟩

/-- The record after the retry has failed. -/
def retriedState : ProviderState :=
  finished mlabPolicy 80000000000000 firstOpportunity failedReport (polledOn deferredState).2

/-- **A burst**: in the evening the retry is handed out and fails, and then a missed slot is. -/
theorem retry_then_slot : ¬ ∀ (w w' : System) (s s' : Scheduler) (t : ℤ) (polls runs : ℕ),
    Reaches Encoding.formats InOrder w → w.live = some s → Untriggered s.state →
    s.state.lastObservedUtc ≤ t →
    Polled (SystemAnswers Encoding.formats) s.policy.providerKind t polls runs w w' →
    w'.live = some s' → Coalesced t polls runs s'.state := by
  intro h
  have hmax : 1000 ≤ u64Max := by decide
  have hcalls : 1 + savedBy mlabPolicy (newState mlabPolicy 0 1) deferredCalls ≤ 100 := by
    decide +kernel
  have hsaves₁ : (eveningPoll.run mlabPolicy deferredState).1.length ≤ 100 := by decide +kernel
  have hsaves₂ : (eveningPoll.run mlabPolicy retriedState).1.length ≤ 100 := by decide +kernel
  have hretry : (polledOn deferredState).1 = some firstOpportunity := by decide +kernel
  obtain ⟨o, ho⟩ : ∃ o, (polledOn retriedState).1 = some o :=
    Option.isSome_iff_exists.mp (by decide +kernel)
  -- the calls of the evening, on the record
  obtain ⟨poll₁, hpoll₁, hsome₁⟩ := polledOn_answers deferredState
  obtain ⟨reply₁, hfinish₁, hlength₁⟩ := finish_answers mlabPolicy 80000000000000 firstOpportunity
    failedReport (polledOn deferredState).2
  obtain ⟨poll₂, hpoll₂, hsome₂⟩ := polledOn_answers retriedState
  obtain ⟨reply₂, hfinish₂, hlength₂⟩ := finish_answers mlabPolicy 80000000000000 o
    failedReport (polledOn retriedState).2
  -- the same calls in the system
  obtain ⟨s, L, hcalm, -⟩ := @calmRun_spec Encoding.formats mlabPolicy 0 1 (.replicate 16 0)
    deferredCalls (by omega)
  have hcalm : Calm Encoding.formats mlabPolicy deferredState
    (1 + savedBy mlabPolicy (newState mlabPolicy 0 1) deferredCalls) s L _ := hcalm
  have hfinish₁ : Answers mlabPolicy
    (.finishAttempt 1 80000000000000 firstOpportunity failedReport) reply₁
    (polledOn deferredState).2 retriedState := hfinish₁
  obtain ⟨s₁, L₁, hcalm₁, hstep₁⟩ := calm_answers hcalm hpoll₁ (by omega)
  obtain ⟨s₂, L₂, hcalm₂, hstep₂⟩ := calm_answers hcalm₁ hfinish₁ (by omega)
  obtain ⟨s₃, L₃, hcalm₃, hstep₃⟩ := calm_answers hcalm₂ hpoll₂ (by omega)
  obtain ⟨s₄, L₄, hcalm₄, hstep₄⟩ := calm_answers hcalm₃ hfinish₂ (by omega)
  have hpolled : Polled (SystemAnswers Encoding.formats) mlabPolicy.providerKind 80000000000000
    2 2 _ _ := .attempt (.attempt .start hstep₁ (hsome₁.trans hretry)
    (.failed rfl rfl hstep₂)) hstep₃ (hsome₂.trans ho) (.failed rfl rfl hstep₄)
  have hkind : s.policy.providerKind = mlabPolicy.providerKind := by
    rw [hcalm.samePolicy]
  have hquiet : Untriggered s.state := by
    rw [hcalm.state]
    exact untriggered_of_all (by decide +kernel)
  have hclock : s.state.lastObservedUtc ≤ 80000000000000 := by
    rw [hcalm.state]
    decide +kernel
  have hcoalesced := h _ _ s s₄ 80000000000000 2 2 (reaches_calmRun_inOrder
    (by simp [deferredCalls, Ascending, Call.now])) hcalm.live hquiet hclock
    (by rw [hkind]; exact hpolled) hcalm₄.live
  exact absurd hcoalesced.1 (by decide)

end Netband.Burst

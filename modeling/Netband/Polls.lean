import Netband.History

/-!
What a poll that returned has done to its record.

A poll advances the clock, drops the triggers whose time is over, and then hands out the
deferred retry or, when there is none, looks for a due slot or a pending trigger.
-/

namespace Netband.Polls

open Netband.Time Netband.Model Netband.State Netband.Plan Netband.Effects
open Netband.Scheduling Netband.Edits
open Saving

variable (policy : SchedulerPolicy) (runId : RunId) (now : ℤ)

/-! ### The parts of a poll -/

/-- The event of a clock that stepped back. -/
def rollbackEvent (st : ProviderState) : MeasurementEvent :=
  event policy st runId now .suppressed .scheduled { errorKind := some .internal }
    .clockRollback .clockRollback
    ("previous=" ++ toRfc3339 st.lastObservedUtc ++ " current=" ++ toRfc3339 now)

/-- The pending triggers whose time is over, with their keys. -/
def expiredTriggers (st : ProviderState) : List (String × PendingTrigger) :=
  st.interfaceTriggers.toList.filterMap fun p =>
    (p.2.pending.filter fun trigger => trigger.expiresAtUtc ≤ now).map fun trigger =>
      (p.1, trigger)

def withoutExpired (st : ProviderState) : ProviderState :=
  ((expiredTriggers now st).map Prod.fst).foldl expirePending st

def expiryEvents (st : ProviderState) : List MeasurementEvent :=
  (expiredTriggers now st).map fun p =>
    event policy (withoutExpired now st) runId now .expired p.2.reason
      { interface := interfaceFromKey p.1 } .triggerExpired .triggerTtlExpired
      "reason=ttl latch=retained rearm=health_recovery"

/-- The record when the retry is looked at. -/
def opened (st : ProviderState) : ProviderState := withoutExpired now (advanced policy now st)

def retryOpportunity (d : DeferredOpportunity) : BandwidthOpportunity where
  reason := d.reason
  scheduledAtUtc := d.scheduledAtUtc
  requestedAtUtc := d.createdAtUtc
  interface := d.interface

/-- The record when no retry was handed out: a retry whose time is over is gone. -/
def withoutRetry (st : ProviderState) : ProviderState :=
  if st.deferred.any (deferredExpired · now) then { st with deferred := none } else st

def retryEvents (st : ProviderState) : List MeasurementEvent :=
  ((st.deferred.filter (deferredExpired · now)).map fun d =>
    event policy (withoutRetry now st) runId now .expired d.reason
      { cooldownUntil := (withoutRetry now st).cooldownUntilUtc } .deferredExpired
      (if d.expiresAtUtc ≤ now then .dayLimit else .attemptLimit)
      "reason=day_or_attempt_limit").toList

def dueSlot (st : ProviderState) : Option ℤ := (st.slots.filter (· ≤ now)).head?

/-- The trigger that a poll takes up. -/
def chosen (latestSuccess : BTreeMap String Bool) (st : ProviderState) :
    Option (String × PendingTrigger) :=
  oldestEligiblePendingTrigger st latestSuccess (dueSlot now st).isSome

def chosenReason (pending : Option (String × PendingTrigger)) : TriggerReason :=
  (pending.map fun p => p.2.reason).getD .scheduled

def chosenInterface (pending : Option (String × PendingTrigger)) : Option String :=
  pending.bind fun p => interfaceFromKey p.1

/-- Due slots are dropped, whether or not a run is handed out. -/
def withoutDue (st : ProviderState) : ProviderState :=
  if (dueSlot now st).isSome then removeDueSlots now st else st

def blockedState (pending : Option (String × PendingTrigger)) (blocked : BlockReason)
    (st : ProviderState) : ProviderState :=
  if terminalBlock policy blocked now && pending.isSome then
    clearPending (chosenInterface pending) (withoutDue now st)
  else withoutDue now st

def readyState (pending : Option (String × PendingTrigger)) (st : ProviderState) : ProviderState :=
  useSlot (chosenReason pending) (withoutDue now st)

def readyOpportunity (pending : Option (String × PendingTrigger)) (st : ProviderState) :
    BandwidthOpportunity where
  reason := chosenReason pending
  scheduledAtUtc := if pending.isNone then dueSlot now st else none
  requestedAtUtc := (pending.map fun p => p.2.createdAtUtc).getD now
  interface := chosenInterface pending

/-! ### What each part returns -/

/-- A poll for a due slot or a trigger, from the record it looks at. -/
inductive DueSettled (latestSuccess : BTreeMap String Bool) (st : ProviderState) :
    SchedulerPoll → ProviderState → Prop
  | idle (hslot : dueSlot now st = none) (hpending : chosen now latestSuccess st = none) :
      DueSettled latestSuccess st ⟨none, []⟩ st
  | blocked (hfound : dueSlot now st ≠ none ∨ chosen now latestSuccess st ≠ none)
      {blocked : BlockReason} (hb : blockReason policy st now = some blocked) :
      DueSettled latestSuccess st
        ⟨none, [blockedEvent policy
          (blockedState policy now (chosen now latestSuccess st) blocked st) runId now
          (if terminalBlock policy blocked now then .suppressed else .deferred)
          (chosenReason (chosen now latestSuccess st))
          (chosenInterface (chosen now latestSuccess st)) blocked]⟩
        (blockedState policy now (chosen now latestSuccess st) blocked st)
  | ready (hfound : dueSlot now st ≠ none ∨ chosen now latestSuccess st ≠ none)
      (hb : blockReason policy st now = none) :
      DueSettled latestSuccess st
        ⟨some (readyOpportunity now (chosen now latestSuccess st) st),
          [event policy (readyState now (chosen now latestSuccess st) st) runId now .scheduled
            (chosenReason (chosen now latestSuccess st)) {} .bandwidthStart .opportunityReady
            "bandwidth start"]⟩
        (readyState now (chosen now latestSuccess st) st)

/-- A poll, from the record it is called on. -/
inductive PollSettled (latestSuccess : BTreeMap String Bool) (st : ProviderState) :
    SchedulerPoll → ProviderState → Prop
  | rollback (hclock : now < st.lastObservedUtc) :
      PollSettled latestSuccess st ⟨none, [rollbackEvent policy runId now st]⟩ st
  | retry (hclock : st.lastObservedUtc ≤ now) {d : DeferredOpportunity}
      (hd : (opened policy now st).deferred = some d)
      (hlive : retryLive (opened policy now st) now = true) :
      PollSettled latestSuccess st
        ⟨some (retryOpportunity d), expiryEvents policy runId now (advanced policy now st)⟩
        (opened policy now st)
  | due (hclock : st.lastObservedUtc ≤ now)
      (hdead : retryLive (opened policy now st) now = false) {due : SchedulerPoll}
      {st' : ProviderState}
      (hdue : DueSettled policy runId now latestSuccess
        (withoutRetry now (opened policy now st)) due st') :
      PollSettled latestSuccess st
        ⟨due.opportunity, expiryEvents policy runId now (advanced policy now st) ++
          (retryEvents policy runId now (opened policy now st) ++ due.events)⟩ st'

section returns
variable {policy runId now} {st st' : ProviderState} {latestSuccess : BTreeMap String Bool}
  {poll : SchedulerPoll}

lemma returns_advanceClock {events : List MeasurementEvent}
    (h : Returns (advanceClock policy runId now) st events st') :
    (now < st.lastObservedUtc ∧ events = [rollbackEvent policy runId now st] ∧ st' = st) ∨
      st.lastObservedUtc ≤ now ∧ events = [] ∧ st' = advanced policy now st := by
  obtain ⟨base, t, hget, h⟩ := returns_bind.mp h
  obtain ⟨hbase, ht⟩ := returns_get.mp hget
  subst base t
  dsimp only at h
  split_ifs at h with hlt
  · obtain ⟨rfl, rfl⟩ := returns_pure.mp h
    exact .inl ⟨hlt, rfl, rfl⟩
  · obtain ⟨⟩ := h
    exact .inr ⟨not_lt.mp hlt, rfl, rfl⟩

lemma returns_expireTriggers {events : List MeasurementEvent} :
    Returns (expireTriggers policy runId now) st events st' ↔
      events = expiryEvents policy runId now st ∧ st' = withoutExpired now st := by
  have hexpired : expireTriggers policy runId now st =
      if (expiredTriggers now st).isEmpty then ([], .ok [], st)
      else ([withoutExpired now st], .ok (expiryEvents policy runId now st),
        withoutExpired now st) := by
    unfold expireTriggers
    rw [get_bind]
    by_cases he : (expiredTriggers now st).isEmpty = true
    · have he' := he
      unfold expiredTriggers at he'
      simp only [he, he', if_true]
      rfl
    · have he' := he
      unfold expiredTriggers at he'
      simp only [he, he']
      rfl
  unfold Returns
  rw [hexpired]
  by_cases he : (expiredTriggers now st).isEmpty = true
  · have hnil : expiredTriggers now st = [] := List.isEmpty_iff.mp he
    simp [hnil, expiryEvents, withoutExpired, eq_comm]
  · simp [he, eq_comm]

lemma returns_pollDeferred (h : Returns (pollDeferred policy runId now) st poll st') :
    (retryLive st now = true ∧ ∃ d, st.deferred = some d ∧
        poll = ⟨some (retryOpportunity d), []⟩ ∧ st' = st) ∨
      retryLive st now = false ∧ poll = ⟨none, retryEvents policy runId now st⟩ ∧
        st' = withoutRetry now st := by
  unfold pollDeferred at h
  obtain ⟨base, t, hget, h⟩ := returns_bind.mp h
  obtain ⟨hbase, ht⟩ := returns_get.mp hget
  subst base t
  rcases hd : st.deferred with _ | d
  · simp only [hd, returns_pure] at h
    exact .inr ⟨by simp [retryLive, hd], by simp [h.1, retryEvents, hd],
      by simp [h.2, withoutRetry, hd]⟩
  · simp only [hd] at h
    by_cases hexp : deferredExpired d now = true
    · simp only [hexp, if_true] at h
      obtain ⟨⟩ := h
      have hgone : withoutRetry now st = { st with deferred := none } := by
        simp [withoutRetry, hd, hexp]
      exact .inr ⟨by simp [retryLive, hd, hexp],
        by simp [retryEvents, hgone, hd, Option.filter_some, hexp],
        hgone.symm⟩
    · simp only [hexp] at h
      by_cases hcool : st.cooldownUntilUtc.all (fun c => decide (c ≤ now)) = true
      · rw [if_neg (by simp), if_pos hcool] at h
        obtain ⟨rfl, rfl⟩ := returns_pure.mp h
        exact .inl ⟨by simp [retryLive, hd, hexp, hcool], d, rfl, rfl, rfl⟩
      · rw [if_neg (by simp), if_neg hcool] at h
        obtain ⟨rfl, rfl⟩ := returns_pure.mp h
        exact .inr ⟨by simp [retryLive, hd, hcool],
          by simp [retryEvents, hd, Option.filter_some, hexp],
          by simp [withoutRetry, hd, hexp]⟩

lemma returns_pollBlocked {pending : Option (String × PendingTrigger)} {blocked : BlockReason}
    (h : Returns (pollBlocked policy runId now (dueSlot now st) pending blocked) st poll st') :
    poll = ⟨none, [blockedEvent policy (blockedState policy now pending blocked st) runId now
        (if terminalBlock policy blocked now then .suppressed else .deferred)
        (chosenReason pending) (chosenInterface pending) blocked]⟩ ∧
      st' = blockedState policy now pending blocked st := by
  obtain ⟨⟩ := h
  exact ⟨rfl, rfl⟩

lemma returns_pollReady {pending : Option (String × PendingTrigger)}
    (h : Returns (pollReady policy runId now (dueSlot now st) pending) st poll st') :
    poll = ⟨some (readyOpportunity now pending st),
        [event policy (readyState now pending st) runId now .scheduled (chosenReason pending) {}
          .bandwidthStart .opportunityReady "bandwidth start"]⟩ ∧
      st' = readyState now pending st := by
  obtain ⟨⟩ := h
  exact ⟨rfl, rfl⟩

/-- **Due slots and triggers**: every way in which a poll for them returns. -/
theorem returns_pollDue (h : Returns (pollDue policy runId now latestSuccess) st poll st') :
    DueSettled policy runId now latestSuccess st poll st' := by
  obtain ⟨base, t, hget, h⟩ := returns_bind.mp h
  obtain ⟨hbase, ht⟩ := returns_get.mp hget
  subst base t
  dsimp only at h
  by_cases hidle : ((chosen now latestSuccess st).isNone && (dueSlot now st).isNone) = true
  · change Returns (if ((chosen now latestSuccess st).isNone && (dueSlot now st).isNone) = true
      then _ else _) st poll st' at h
    rw [if_pos hidle] at h
    obtain ⟨rfl, rfl⟩ := returns_pure.mp h
    rw [Bool.and_eq_true] at hidle
    exact .idle (Option.isNone_iff_eq_none.mp hidle.2) (Option.isNone_iff_eq_none.mp hidle.1)
  · have hfound : dueSlot now st ≠ none ∨ chosen now latestSuccess st ≠ none := by
      by_contra hnot
      push Not at hnot
      exact hidle (by simp [hnot.1, hnot.2])
    rcases hb : blockReason policy st now with _ | blocked
    · rw [hb] at h
      change Returns (if ((chosen now latestSuccess st).isNone && (dueSlot now st).isNone) = true
        then _ else pollReady policy runId now (dueSlot now st) (chosen now latestSuccess st))
        st poll st' at h
      rw [if_neg hidle] at h
      obtain ⟨rfl, rfl⟩ := returns_pollReady h
      exact .ready hfound hb
    · rw [hb] at h
      change Returns (if ((chosen now latestSuccess st).isNone && (dueSlot now st).isNone) = true
        then _ else pollBlocked policy runId now (dueSlot now st) (chosen now latestSuccess st)
          blocked) st poll st' at h
      rw [if_neg hidle] at h
      obtain ⟨rfl, rfl⟩ := returns_pollBlocked h
      exact .blocked hfound hb

/-- **Polls**: every way in which a poll returns. -/
theorem returns_pollInterfaces
    (h : Returns (pollInterfaces policy runId now latestSuccess) st poll st') :
    PollSettled policy runId now latestSuccess st poll st' := by
  obtain ⟨events, t, hclock, h⟩ := returns_bind.mp h
  obtain ⟨base, t', hget, h⟩ := returns_bind.mp h
  obtain ⟨hbase, ht⟩ := returns_get.mp hget
  subst base t'
  rcases returns_advanceClock hclock with ⟨hlt, rfl, rfl⟩ | ⟨hle, rfl, rfl⟩
  · rw [if_pos hlt] at h
    obtain ⟨rfl, rfl⟩ := returns_pure.mp h
    exact .rollback hlt
  · -- the clock was advanced
    have hsame : ¬ now < (advanced policy now st).lastObservedUtc := lt_irrefl now
    rw [if_neg hsame] at h
    obtain ⟨accepted, t, h, hafter⟩ := returns_bind.mp h
    obtain ⟨rfl, rfl⟩ := returns_pure.mp hafter
    -- the poll was accepted
    obtain ⟨expired, t₁, hexpired, h⟩ := returns_bind.mp h
    obtain ⟨rfl, rfl⟩ := returns_expireTriggers.mp hexpired
    obtain ⟨retry, t₂, hretry, h⟩ := returns_bind.mp h
    rcases returns_pollDeferred hretry with ⟨hlive, d, hd, rfl, rfl⟩ | ⟨hdead, rfl, rfl⟩
    · rw [if_pos (by simp)] at h
      obtain ⟨rfl, rfl⟩ := returns_pure.mp h
      have hpoll : (SchedulerPoll.after (expiryEvents policy runId now (advanced policy now st))
          ⟨some (retryOpportunity d), []⟩).after [] =
          ⟨some (retryOpportunity d), expiryEvents policy runId now (advanced policy now st)⟩ := by
        simp [SchedulerPoll.after]
      rw [hpoll]
      exact .retry hle hd hlive
    · rw [if_neg (by simp)] at h
      obtain ⟨due, t₃, hdue, h⟩ := returns_bind.mp h
      obtain ⟨rfl, rfl⟩ := returns_pure.mp h
      exact .due hle hdead (returns_pollDue hdue)

end returns

/-! ### The records of a poll -/

section records
variable {policy now} {st : ProviderState}

variable (now) in
lemma withoutExpired_eq (st : ProviderState) :
    ∃ triggers, withoutExpired now st = { st with interfaceTriggers := triggers } := by
  unfold withoutExpired
  generalize (expiredTriggers now st).map Prod.fst = keys
  induction keys generalizing st with
  | nil => exact ⟨_, rfl⟩
  | cons key keys ih =>
    obtain ⟨triggers, h⟩ := ih (expirePending st key)
    refine ⟨triggers, ?_⟩
    rw [List.foldl_cons, h]
    unfold expirePending
    split <;> rfl

lemma advanced_of_le (h : dateNaive now ≤ st.dayUtc) :
    advanced policy now st = { st with lastObservedUtc := now } := by
  rw [advanced, reconcileDay_of_le h]

variable (policy) in
/-- Within the day, a poll looks for the retry in the record as it was. -/
lemma opened_of_le (h : dateNaive now ≤ st.dayUtc) : ∃ triggers,
    opened policy now st = { st with lastObservedUtc := now, interfaceTriggers := triggers } := by
  obtain ⟨triggers, he⟩ := withoutExpired_eq now (advanced policy now st)
  refine ⟨triggers, ?_⟩
  rw [opened, he, advanced_of_le h]

lemma withoutRetry_eq (st : ProviderState) :
    withoutRetry now st = st ∨ withoutRetry now st = { st with deferred := none } := by
  unfold withoutRetry
  split
  · exact .inr rfl
  · exact .inl rfl

variable (now) in
lemma withoutDue_eq (st : ProviderState) : ∃ slots, withoutDue now st = { st with slots } := by
  unfold withoutDue
  split
  · exact ⟨_, rfl⟩
  · exact ⟨st.slots, rfl⟩

lemma withoutDue_slots (st : ProviderState) : ∀ slot ∈ (withoutDue now st).slots, now < slot := by
  intro slot hslot
  unfold withoutDue dueSlot at hslot
  split_ifs at hslot with hdue
  · simpa using (List.mem_filter.mp hslot).2
  · have hnone : ∀ slot ∈ st.slots, now < slot := by simpa using hdue
    exact hnone slot hslot

end records

/-! ### Polls of a system -/

section system
variable {S : Recovery.Serde} {w : World.System} {s s' : World.Scheduler} {io : List Io}
  {e : World.Entry} {latestSuccess : BTreeMap String Bool} {poll : SchedulerPoll}

/-- A call that returned has computed its reply on the record of the scheduler. -/
lemma returns_call {c : World.Call} {reply : World.Reply} (hlive : w.live = some s)
    (htrace : (w.step S (.call c, io)).trace = w.trace ++ [e])
    (hlive' : (w.step S (.call c, io)).live = some s') (hok : e.result = .ok reply) :
    Returns (c.run s.policy) s.state reply s'.state := by
  obtain ⟨s₁, e₁, hlive₁, he₁, -, hresult⟩ := @Steps.step_call S _ _ c io hlive
  obtain rfl : s₁ = s' := Option.some.inj (hlive₁.symm.trans hlive')
  obtain rfl : e₁ = e := by simpa using he₁.symm.trans htrace
  obtain ⟨hreply, hstate⟩ := hresult _ hok
  exact Prod.ext hreply hstate.symm

/-- **Polls of an open scheduler**: every way in which one returns. -/
theorem pollSettled_of_step {runId : RunId} {now : ℤ} (hlive : w.live = some s)
    (htrace : (w.step S (.call (.pollInterfaces runId now latestSuccess), io)).trace =
      w.trace ++ [e])
    (hlive' : (w.step S (.call (.pollInterfaces runId now latestSuccess), io)).live = some s')
    (hok : e.result = .ok (.polled poll)) :
    PollSettled s.policy runId now latestSuccess s.state poll s'.state := by
  obtain ⟨poll', t, h, hreply⟩ := returns_bind.mp (returns_call hlive htrace hlive' hok)
  obtain ⟨hpoll, rfl⟩ := returns_pure.mp hreply
  obtain rfl : poll = poll' := by simpa using hpoll
  exact returns_pollInterfaces h

end system
end Netband.Polls

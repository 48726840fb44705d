import Netband.Opportunities
import Netband.Polls

/-!
Which pending triggers a poll takes up, and which it gives up.

A trigger is taken up when its interface has had a success or a planned slot is due. A trigger
that is blocked is given up when the minimum spacing after the poll would pass midnight,
whenever the block itself ends.
-/

namespace Netband.Triggers

open Netband.Time Netband.Model Netband.State Netband.Plan Netband.Effects Netband.Recovery
open Netband.Scheduling Netband.World Netband.Edits Netband.Steps Netband.Runs Netband.Polls
open Netband.Opportunities
open Saving

/-! ### The trigger that a poll takes up -/

section chosen
variable {policy : SchedulerPolicy} {runId : RunId} {now : ℤ} {st st' : ProviderState}
  {latestSuccess : BTreeMap String Bool} {poll : SchedulerPoll} {key : String}
  {p : PendingTrigger} {id : String}

lemma key_injective {key key' : String} (h : interfaceFromKey key = interfaceFromKey key') :
    key = key' := by
  rw [← interfaceKey_fromKey key, h, interfaceKey_fromKey]

lemma pending_of_expirePending {k : String} (h : Pending (expirePending st k) key p) :
    Pending st key p := by
  unfold expirePending at h
  split at h
  · rename_i trigger htrigger
    obtain ⟨t, ht, hp⟩ := h
    by_cases hk : k = key
    · have hsame : t = { trigger with pending := none } := by
        simpa [hk, eq_comm] using ht
      rw [hsame] at hp
      cases hp
    · exact ⟨t, by simpa [Std.ExtTreeMap.getElem?_insert, hk] using ht, hp⟩
  · exact h

lemma pending_of_withoutExpired (h : Pending (withoutExpired now st) key p) :
    Pending st key p := by
  unfold withoutExpired at h
  generalize (expiredTriggers now st).map Prod.fst = keys at h
  induction keys generalizing st with
  | nil => exact h
  | cons k keys ih => exact pending_of_expirePending (ih h)

/-- A trigger that is pending when a poll looks for one was pending before, and the day of the
record has not passed. -/
lemma pending_of_opened (h : Pending (withoutRetry now (opened policy now st)) key p) :
    Pending st key p ∧ dateNaive now ≤ st.dayUtc := by
  have hopened : Pending (opened policy now st) key p := by
    rcases @withoutRetry_eq now (opened policy now st) with he | he <;> rwa [he] at h
  have hadvanced := pending_of_withoutExpired hopened
  rcases le_or_gt (dateNaive now) st.dayUtc with hle | hlt
  · rw [advanced_of_le hle] at hadvanced
    exact ⟨hadvanced, hle⟩
  · exact absurd hadvanced (not_pending_empty (blank_advanced hlt).triggers)

lemma slots_of_opened (hday : dateNaive now ≤ st.dayUtc) :
    (withoutRetry now (opened policy now st)).slots = st.slots := by
  obtain ⟨triggers, he⟩ := opened_of_le policy hday
  rcases @withoutRetry_eq now (opened policy now st) with hr | hr <;> rw [hr, he]

/-- The poll hands out a run for the pending trigger of a key. -/
def Takes (st : ProviderState) (poll : SchedulerPoll) (key : String) : Prop :=
  ∃ p, Pending st key p ∧
    poll.opportunity = some ⟨p.reason, none, p.createdAtUtc, interfaceFromKey key⟩ ∧
    ∃ e ∈ poll.events, e.schedulerAction = some .bandwidthStart

lemma expiryEvents_action {e : MeasurementEvent} (h : e ∈ expiryEvents policy runId now st) :
    e.schedulerAction = some .triggerExpired := by
  obtain ⟨q, -, rfl⟩ := List.mem_map.mp h
  rfl

/-- A trigger that is taken up has had a success, or a slot is due. -/
lemma success_of_takes (hw : Watched id st)
    (h : PollSettled policy runId now latestSuccess st poll st') (ht : Takes st poll key) :
    latestSuccess[key]? = some true ∨ ∃ slot ∈ st.slots, slot ≤ now := by
  obtain ⟨p, hp, hopportunity, e, he, haction⟩ := ht
  cases h with
  | rollback => cases hopportunity
  | retry => simp [expiryEvents_action he] at haction
  | due _ _ hdue =>
    cases hdue with
    | idle => cases hopportunity
    | blocked => cases hopportunity
    | ready =>
      have hready := Option.some.inj hopportunity
      have hreason : chosenReason (chosen now latestSuccess
          (withoutRetry now (opened policy now st))) = p.reason :=
        congrArg BandwidthOpportunity.reason hready
      have hinterface : chosenInterface (chosen now latestSuccess
          (withoutRetry now (opened policy now st))) = interfaceFromKey key :=
        congrArg BandwidthOpportunity.interface hready
      rcases hchosen : chosen now latestSuccess (withoutRetry now (opened policy now st)) with
        _ | ⟨key', p'⟩
      · -- a planned slot has no trigger's reason
        rw [hchosen] at hreason
        obtain ⟨trigger, htrigger, hpending⟩ := hp
        have hwaits := (hw key trigger htrigger p hpending).reason
        rw [← hreason] at hwaits
        simp [chosenReason] at hwaits
      · rw [hchosen] at hinterface
        obtain rfl : key' = key := key_injective hinterface
        obtain ⟨hpending, hallowed⟩ := eligible_of_oldest hchosen
        have hday := (pending_of_opened hpending).2
        rcases hallowed with hdue | hsuccess
        · right
          rw [dueSlot, slots_of_opened hday, Option.isSome_iff_exists] at hdue
          obtain ⟨slot, hslot⟩ := hdue
          have hmem := List.mem_filter.mp (List.mem_of_mem_head? hslot)
          exact ⟨slot, hmem.1, by simpa using hmem.2⟩
        · exact .inl hsuccess

end chosen

/-- **Triggers**: whenever a poll hands out a run for the trigger of an interface, its latest
round had a success or a planned slot is due. -/
theorem takes_success {S : Serde} {w : System} {s s' : Scheduler} {runId : RunId} {now : ℤ}
    {latestSuccess : BTreeMap String Bool} {io : List Io} {e : Entry} {poll : SchedulerPoll}
    {key : String} (h : Reaches S (fun _ _ => True) w) (hlive : w.live = some s)
    (htrace : (w.step S (.call (.pollInterfaces runId now latestSuccess), io)).trace =
      w.trace ++ [e])
    (hlive' : (w.step S (.call (.pollInterfaces runId now latestSuccess), io)).live = some s')
    (hok : e.result = .ok (.polled poll)) (ht : Takes s.state poll key) :
    latestSuccess[key]? = some true ∨ ∃ slot ∈ s.state.slots, slot ≤ now := by
  have hrecords := (clean_of_reaches (kept_validState.and sustained_watched) h).1 s hlive
  exact success_of_takes (hrecords _ _ (state_get s)).2
    (pollSettled_of_step hlive htrace hlive' hok) ht

/-! ### Blocked triggers -/

section blocked
variable {policy : SchedulerPolicy} {runId : RunId} {now t : ℤ} {st st' : ProviderState}
  {latestSuccess : BTreeMap String Bool} {poll : SchedulerPoll} {key : String}
  {p : PendingTrigger} {id : String} {e : MeasurementEvent} {blocked : BlockReason}

/-- The event reports that the pending trigger of a key was blocked. -/
structure ReportsBlocked (key : String) (p : PendingTrigger) (e : MeasurementEvent) : Prop where
  interface : e.interface = interfaceFromKey key
  trigger : e.triggerReason = some p.reason
  reason : e.schedulerReason = some .dailyCap ∨ e.schedulerReason = some .providerCooldown ∨
    e.schedulerReason = some .minimumSpacing

/-- A trigger is given up only if nothing can start on that day any more; one that can start
before midnight and before its time is over waits. -/
structure JustlyReported (policy : SchedulerPolicy) (now : ℤ) (key : String) (p : PendingTrigger)
    (e : MeasurementEvent) (st' : ProviderState) : Prop where
  permanent : e.outcome = .suppressed → ¬ Pending st' key p →
    ∀ t, now ≤ t → dateNaive t = dateNaive now → blockReason policy st' t ≠ none
  retained : ∀ t, now < t → t < p.expiresAtUtc → dateNaive t = dateNaive now →
    blockReason policy st' t = none → Pending st' key p ∧ e.outcome = .deferred

/-- The cap is reached, the spacing after now ends before midnight, or what blocks a run lasts
until midnight. -/
def TerminalAgrees (policy : SchedulerPolicy) (now : ℤ) (st : ProviderState) : Prop :=
  capReached policy (runsOnDay st (dateNaive now)) = true ∨
    addDuration now policy.minSpacing < dayEnd (dateNaive now) ∨
    (∃ c ∈ st.cooldownUntilUtc, dayEnd (dateNaive now) ≤ c) ∨
    ∃ start ∈ st.lastStartedAtUtc, dayEnd (dateNaive now) ≤ addDuration start policy.minSpacing

lemma lt_dayEnd_of_date (h : dateNaive t = dateNaive now) : t < dayEnd (dateNaive now) :=
  h ▸ lt_dayEnd t

lemma date_of_lt_dayEnd (hle : now ≤ t) (h : t < dayEnd (dateNaive now)) :
    dateNaive t = dateNaive now := by
  have hstart : dayEnd (dateNaive now) = dayStart (dateNaive now + 1) := by
    simp only [dayEnd, dayStart]
    ring
  rw [hstart] at h
  have hlt := dateNaive_lt_of_lt_dayStart h
  have hmono := dateNaive_mono hle
  omega

/-- Only the cap is reported as such. -/
lemma kind_blockReason (h : blockReason policy st now = some blocked) :
    (capReached policy (runsOnDay st (dateNaive now)) = true → blocked.kind = .dailyCap) ∧
      (capReached policy (runsOnDay st (dateNaive now)) = false →
        blocked.kind = .providerCooldown ∧ policy.forceLimits = false) := by
  unfold blockReason at h
  dsimp only at h
  rcases hcap : capReached policy (runsOnDay st (dateNaive now)) with _ | _
  · refine ⟨fun hf => (by cases hf), fun _ => ?_⟩
    rw [hcap] at h
    rcases hforce : policy.forceLimits with _ | _
    · rw [hforce] at h
      rcases hcool : st.cooldownUntilUtc.filter (now < ·) with _ | deadline
      · rw [hcool] at h
        obtain ⟨eligible, -, hspacing⟩ := Option.bind_eq_some_iff.mp h
        split_ifs at hspacing
        cases hspacing
        exact ⟨rfl, rfl⟩
      · rw [hcool] at h
        cases h
        exact ⟨rfl, rfl⟩
    · rw [hforce] at h
      cases h
  · refine ⟨fun _ => ?_, fun hf => (by cases hf)⟩
    rw [hcap] at h
    cases h
    rfl

/-- A block that is not the cap's lasts for the day exactly if the cooldown or the spacing does. -/
lemma blocked_all_day (hcap : capReached policy (runsOnDay st (dateNaive now)) = false)
    (hforce : policy.forceLimits = false) :
    (∀ t, now ≤ t → dateNaive t = dateNaive now → blockReason policy st t ≠ none) ↔
      (∃ c ∈ st.cooldownUntilUtc, dayEnd (dateNaive now) ≤ c) ∨
        ∃ start ∈ st.lastStartedAtUtc,
          dayEnd (dateNaive now) ≤ addDuration start policy.minSpacing := by
  constructor
  · intro h
    by_contra hnot
    push Not at hnot
    obtain ⟨hcool, hspacing⟩ := hnot
    -- the first instant at which nothing blocks
    obtain ⟨t, hnow, hday, hc, hs⟩ : ∃ t, now ≤ t ∧ t < dayEnd (dateNaive now) ∧
        (∀ c ∈ st.cooldownUntilUtc, c ≤ t) ∧
        ∀ start ∈ st.lastStartedAtUtc, addDuration start policy.minSpacing ≤ t := by
      have hend := lt_dayEnd now
      rcases hc : st.cooldownUntilUtc with _ | c <;> rcases hs : st.lastStartedAtUtc with _ | start
      · exact ⟨now, le_rfl, hend, by simp, by simp⟩
      · have := hspacing start hs
        exact ⟨max now (addDuration start policy.minSpacing), by omega, by omega, by simp,
          by simp⟩
      · have := hcool c hc
        exact ⟨max now c, by omega, by omega, by simp, by simp⟩
      · have := hspacing start hs
        have := hcool c hc
        exact ⟨max now (max c (addDuration start policy.minSpacing)), by omega, by omega,
          by simp, by simp⟩
    have hdate := date_of_lt_dayEnd hnow hday
    exact h t hnow hdate (blockReason_eq_none.mpr ⟨by rw [hdate]; exact hcap, .inr ⟨hc, hs⟩⟩)
  · intro h t hnow hdate hnone
    have hlt := lt_dayEnd_of_date hdate
    rcases (blockReason_eq_none.mp hnone).2 with hf | ⟨hc, hs⟩
    · rw [hforce] at hf
      cases hf
    · rcases h with ⟨c, hmem, hle⟩ | ⟨start, hmem, hle⟩
      · have := hc c hmem
        omega
      · have := hs start hmem
        omega

/-- What a blocked poll reports of a trigger is just exactly if its test for the end of the day
agrees with the block. -/
lemma justlyReported_iff (hb : blockReason policy st now = some blocked)
    (hsame : ∀ t, blockReason policy st' t = blockReason policy st t)
    (houtcome : e.outcome = if terminalBlock policy blocked now then .suppressed else .deferred)
    (hpending : Pending st' key p ↔ terminalBlock policy blocked now = false) :
    JustlyReported policy now key p e st' ↔ TerminalAgrees policy now st := by
  obtain ⟨hkind, hother⟩ := kind_blockReason hb
  rcases hcap : capReached policy (runsOnDay st (dateNaive now)) with _ | _
  swap
  · -- the cap stays reached for the day
    have hall : ∀ t, dateNaive t = dateNaive now → blockReason policy st' t ≠ none := by
      intro t hdate hnone
      rw [hsame] at hnone
      have hfree := (blockReason_eq_none.mp hnone).1
      rw [hdate, hcap] at hfree
      cases hfree
    exact iff_of_true ⟨fun _ _ t _ hdate => hall t hdate,
      fun t _ _ hdate hnone => absurd hnone (hall t hdate)⟩ (.inl hcap)
  · obtain ⟨hcooldown, hforce⟩ := hother hcap
    have hterminal : terminalBlock policy blocked now =
        decide (dayEnd (dateNaive now) ≤ addDuration now policy.minSpacing) := by
      simp [terminalBlock, hcooldown]
    have hall := blocked_all_day hcap hforce
    rw [TerminalAgrees, hcap]
    by_cases hend : dayEnd (dateNaive now) ≤ addDuration now policy.minSpacing
    · rw [hterminal, decide_eq_true hend] at houtcome hpending
      have hgone : ¬ Pending st' key p := by simp [hpending]
      constructor
      · intro h
        refine .inr (.inr (hall.mp fun t hnow hdate => ?_))
        rw [← hsame]
        exact h.permanent houtcome hgone t hnow hdate
      · rintro (hf | hlt | hlasts)
        · cases hf
        · omega
        · refine ⟨fun _ _ t hnow hdate => ?_, fun t hnow _ hdate hnone => ?_⟩
          · rw [hsame]
            exact hall.mpr hlasts t hnow hdate
          · rw [hsame] at hnone
            exact absurd hnone (hall.mpr hlasts t hnow.le hdate)
    · rw [hterminal, decide_eq_false hend] at houtcome hpending
      refine iff_of_true ⟨fun hsup => ?_, fun _ _ _ _ _ => ⟨hpending.mpr rfl, houtcome⟩⟩
        (.inr (.inl (not_le.mp hend)))
      rw [houtcome] at hsup
      cases hsup

lemma pending_unique {p' : PendingTrigger} (h : Pending st key p) (h' : Pending st key p') :
    p = p' := by
  obtain ⟨t, ht, hp⟩ := h
  obtain ⟨t', ht', hp'⟩ := h'
  obtain rfl : t = t' := Option.some.inj (ht.symm.trans ht')
  exact Option.some.inj (hp.symm.trans hp')

lemma pending_clearPending :
    ¬ Pending (clearPending (interfaceFromKey key) st) key p := by
  rintro ⟨trigger, ht, hp⟩
  have hsame : trigger = { interfaceTrigger st (interfaceFromKey key) with pending := none } := by
    simpa [clearPending, updateTrigger, interfaceKey_fromKey, eq_comm] using ht
  rw [hsame] at hp
  cases hp

lemma blockReason_opened (hday : dateNaive now ≤ st.dayUtc) (t : ℤ) :
    blockReason policy (withoutRetry now (opened policy now st)) t = blockReason policy st t := by
  obtain ⟨triggers, he⟩ := opened_of_le policy hday
  rcases @withoutRetry_eq now (opened policy now st) with hr | hr <;> rw [hr, he] <;> rfl

lemma blockReason_blockedState (pending : Option (String × PendingTrigger)) (t : ℤ) :
    blockReason policy (blockedState policy now pending blocked st) t =
      blockReason policy st t := by
  unfold blockedState withoutDue
  split_ifs <;> rfl

/-- An event that reports a blocked trigger is that of the trigger the poll had chosen. -/
lemma settled_of_reports (hw : Watched id st)
    (h : PollSettled policy runId now latestSuccess st poll st') (hp : Pending st key p)
    (he : e ∈ poll.events) (hr : ReportsBlocked key p e) : ∃ blocked,
    blockReason policy st now = some blocked ∧
    (∀ t, blockReason policy st' t = blockReason policy st t) ∧
    (e.outcome = if terminalBlock policy blocked now then .suppressed else .deferred) ∧
    (Pending st' key p ↔ terminalBlock policy blocked now = false) := by
  have hexpiry : ∀ base, e ∉ expiryEvents policy runId now base := by
    intro base hmem
    obtain ⟨q, -, rfl⟩ := List.mem_map.mp hmem
    rcases hr.reason with hreason | hreason | hreason <;> cases hreason
  cases h with
  | rollback =>
    obtain rfl := List.mem_singleton.mp he
    rcases hr.reason with hreason | hreason | hreason <;> cases hreason
  | retry => exact absurd he (hexpiry _)
  | due _ _ hdue =>
    rcases List.mem_append.mp he with hmem | hmem
    · exact absurd hmem (hexpiry _)
    rcases List.mem_append.mp hmem with hmem | hmem
    · -- the retry has expired
      obtain ⟨d, -, rfl⟩ := Option.map_eq_some_iff.mp (Option.mem_toList.mp hmem)
      rcases hr.reason with hreason | hreason | hreason <;> simp only [event] at hreason <;>
        split_ifs at hreason <;> cases hreason
    cases hdue with
    | idle => cases hmem
    | ready =>
      obtain rfl := List.mem_singleton.mp hmem
      rcases hr.reason with hreason | hreason | hreason <;> cases hreason
    | @blocked _ blocked hb =>
      obtain rfl := List.mem_singleton.mp hmem
      rcases hchosen : chosen now latestSuccess (withoutRetry now (opened policy now st)) with
        _ | ⟨key', p'⟩
      · -- a planned slot has no trigger's reason
        have htrigger := hr.trigger
        rw [hchosen] at htrigger
        obtain ⟨trigger, ht, hpending⟩ := hp
        have hwaits := (hw key trigger ht p hpending).reason
        rw [← Option.some.inj htrigger] at hwaits
        simp [chosenReason] at hwaits
      · have hinterface := hr.interface
        rw [hchosen] at hinterface
        obtain rfl : key' = key := key_injective hinterface
        have hpending := (eligible_of_oldest hchosen).1
        obtain ⟨hbefore, hday⟩ := pending_of_opened hpending
        obtain rfl := pending_unique hbefore hp
        refine ⟨blocked, by rw [← blockReason_opened hday]; exact hb, fun t => ?_, rfl, ?_⟩
        · rw [blockReason_blockedState, blockReason_opened hday]
        · rcases hterminal : terminalBlock policy blocked now with _ | _
          · refine iff_of_true ?_ rfl
            unfold blockedState withoutDue
            rw [hterminal, Bool.false_and, if_neg (by simp)]
            split_ifs
            · exact hpending
            · exact hpending
          · refine iff_of_false ?_ (by simp)
            unfold blockedState
            rw [hterminal, Bool.true_and, if_pos (by simp)]
            exact pending_clearPending

end blocked

/-- **Blocked triggers**: what a poll reports of a blocked trigger is just, exactly if the cap is
reached, the spacing after the poll ends before midnight, or the block lasts until midnight. -/
theorem justlyReported_poll_iff {S : Serde} {w : System} {s s' : Scheduler} {runId : RunId}
    {now : ℤ} {latestSuccess : BTreeMap String Bool} {io : List Io} {entry : Entry}
    {poll : SchedulerPoll} {key : String} {p : PendingTrigger} {e : MeasurementEvent}
    (h : Reaches S (fun _ _ => True) w) (hlive : w.live = some s)
    (htrace : (w.step S (.call (.pollInterfaces runId now latestSuccess), io)).trace =
      w.trace ++ [entry])
    (hlive' : (w.step S (.call (.pollInterfaces runId now latestSuccess), io)).live = some s')
    (hok : entry.result = .ok (.polled poll)) (hp : Pending s.state key p)
    (he : e ∈ poll.events) (hr : ReportsBlocked key p e) :
    JustlyReported s.policy now key p e s'.state ↔ TerminalAgrees s.policy now s.state := by
  have hrecords := (clean_of_reaches (kept_validState.and sustained_watched) h).1 s hlive
  obtain ⟨blocked, hb, hsame, houtcome, hpending⟩ := settled_of_reports
    (hrecords _ _ (state_get s)).2 (pollSettled_of_step hlive htrace hlive' hok) hp he hr
  exact justlyReported_iff hb hsame houtcome hpending

/-! ### A due slot and a trigger that is down -/

/-- All probes are lost. -/
def outage : HealthSnapshot := ⟨6, 0, 100, none, true⟩

def isPolled : Except SchedulerError Reply → Bool
  | .ok (.polled _) => true
  | _ => false

lemma poll_of_isPolled {r : Except SchedulerError Reply} (h : isPolled r = true) :
    ∃ poll, r = .ok (.polled poll) := by
  unfold isPolled at h
  split at h
  · exact ⟨_, rfl⟩
  · cases h

/-- A poll after some calls without faults. -/
lemma polled_run {calls : List Call} {now : ℤ} {latestSuccess : BTreeMap String Bool}
    (hascending : Ascending 0 calls)
    (hcount : savedBy mlabPolicy (newState mlabPolicy 0 1) calls +
      ((Call.pollInterfaces 1 now latestSuccess).run mlabPolicy
        (Steps.tell mlabPolicy (newState mlabPolicy 0 1) calls).1).1.length ≤ 1000)
    (hpolled : isPolled ((Call.pollInterfaces 1 now latestSuccess).run mlabPolicy
      (Steps.tell mlabPolicy (newState mlabPolicy 0 1) calls).1).2.1 = true) :
    ∃ w s s' e poll, Reaches Encoding.formats InOrder w ∧ w.live = some s ∧
      s.policy = mlabPolicy ∧
      s.state = (Steps.tell mlabPolicy (newState mlabPolicy 0 1) calls).1 ∧
      (w.step Encoding.formats (.call (.pollInterfaces 1 now latestSuccess), [])).trace =
        w.trace ++ [e] ∧
      (w.step Encoding.formats (.call (.pollInterfaces 1 now latestSuccess), [])).live = some s' ∧
      e.result = .ok (.polled poll) ∧
      (.ok (.polled poll), s'.state) = ((Call.pollInterfaces 1 now latestSuccess).run mlabPolicy
        (Steps.tell mlabPolicy (newState mlabPolicy 0 1) calls).1).2 := by
  have hmax : 1001 ≤ u64Max := by decide
  obtain ⟨s, L, hcalm, -⟩ := @calmRun_spec Encoding.formats mlabPolicy 0 1
    (.replicate 16 0) calls (by omega)
  obtain ⟨s', L', e, hcalm', htrace, htold, -⟩ :=
    hcalm.call (.pollInterfaces 1 now latestSuccess) (by omega)
  have hresult := result_of_told htold
  obtain ⟨poll, hpoll⟩ := poll_of_isPolled hpolled
  refine ⟨_, s, s', e, poll, reaches_calmRun_inOrder hascending, hcalm.live, hcalm.samePolicy,
    hcalm.state, htrace, hcalm'.live, hresult.trans hpoll, ?_⟩
  exact Prod.ext hpoll.symm hcalm'.state

/-- An interface goes down before the first slot. -/
def downCalls : List Call :=
  [.observeInterfaceHealth 1 7000000000000 (some "down") (.degraded outage .loss)]

/-- The rounds of the interfaces: one of them is down. -/
def downSuccess : BTreeMap String Bool := Std.ExtTreeMap.ofList [("down", false), ("up", true)]

/-- At the first slot the trigger of the interface that is down is taken up. -/
lemma down_taken : ∃ w s s' e poll, Reaches Encoding.formats InOrder w ∧ w.live = some s ∧
    (w.step Encoding.formats (.call (.pollInterfaces 1 7700000000000 downSuccess), [])).trace =
      w.trace ++ [e] ∧
    (w.step Encoding.formats (.call (.pollInterfaces 1 7700000000000 downSuccess), [])).live =
      some s' ∧
    e.result = .ok (.polled poll) ∧ Takes s.state poll "down" := by
  obtain ⟨w, s, s', e, poll, hreach, hlive, -, hstate, htrace, hlive', hok, hpoll⟩ :=
    @polled_run downCalls 7700000000000 downSuccess
      (by simp [downCalls, Ascending, Call.now]) (by decide +kernel) (by decide +kernel)
  have htrigger : (Steps.tell mlabPolicy (newState mlabPolicy 0 1)
      downCalls).1.interfaceTriggers["down"]? =
      some ⟨some ⟨.pingLoss, 7000000000000, 8800000000000⟩, true⟩ := by decide +kernel
  have hshape : (match ((Call.pollInterfaces 1 7700000000000 downSuccess).run mlabPolicy
        (Steps.tell mlabPolicy (newState mlabPolicy 0 1) downCalls).1).2.1 with
      | .ok (.polled poll) =>
        decide (poll.opportunity = some ⟨.pingLoss, none, 7000000000000, some "down"⟩) &&
          poll.events.any fun e => e.schedulerAction = some .bandwidthStart
      | _ => false) = true := by decide +kernel
  rw [← hpoll, Bool.and_eq_true, decide_eq_true_eq, List.any_eq_true] at hshape
  obtain ⟨hopportunity, event, hmem, haction⟩ := hshape
  exact ⟨w, s, s', e, poll, hreach, hlive, htrace, hlive', hok,
    ⟨.pingLoss, 7000000000000, 8800000000000⟩, ⟨_, by rw [hstate]; exact htrigger, rfl⟩,
      hopportunity, event, hmem, by simpa using haction⟩

/-- **A slot for an interface that is down**: at the first slot the run is handed out for the
interface whose latest round had no success. -/
theorem due_slot_takes_down : ¬ ∀ (w : System) (s s' : Scheduler) (runId : RunId) (now : ℤ)
    (latestSuccess : BTreeMap String Bool) (e : Entry) (poll : SchedulerPoll) (key : String),
    Reaches Encoding.formats InOrder w → w.live = some s →
    (w.step Encoding.formats (.call (.pollInterfaces runId now latestSuccess), [])).trace =
      w.trace ++ [e] →
    (w.step Encoding.formats (.call (.pollInterfaces runId now latestSuccess), [])).live =
      some s' →
    e.result = .ok (.polled poll) → Takes s.state poll key → latestSuccess[key]? = some true := by
  intro h
  obtain ⟨w, s, s', e, poll, hreach, hlive, htrace, hlive', hok, htakes⟩ := down_taken
  have hsuccess := h w s s' 1 _ _ e poll "down" hreach hlive htrace hlive' hok htakes
  have hdown : downSuccess["down"]? = some false := by decide +kernel
  rw [hdown] at hsuccess
  cases hsuccess

/-- At the first slot a trigger is taken up. -/
theorem takes_success_at_slot : ∃ (s : Scheduler) (poll : SchedulerPoll),
    Takes s.state poll "down" ∧
    (downSuccess["down"]? = some true ∨ ∃ slot ∈ s.state.slots, slot ≤ 7700000000000) := by
  obtain ⟨w, s, s', e, poll, hreach, hlive, htrace, hlive', hok, htakes⟩ := down_taken
  exact ⟨s, poll, htakes,
    takes_success (hreach.mono fun _ _ _ => trivial) hlive htrace hlive' hok htakes⟩

/-! ### A block that ends before midnight -/

/-- A run starts, and later a degradation asks for another one. -/
def spacedCalls (start : ℤ) : List Call :=
  [.reserveRun start,
   .observeInterfaceHealth 1 (start + 1500000000000) none (.degraded outage .loss)]

def upSuccess : BTreeMap String Bool := Std.ExtTreeMap.ofList [("", true)]

/-- The event of a poll that was blocked by the spacing. -/
def spacedOut (outcome : Outcome) (e : MeasurementEvent) : Bool :=
  e.interface = none && e.triggerReason = some .pingLoss &&
    e.schedulerReason = some .minimumSpacing && e.outcome = outcome

lemma reports_of_spacedOut {outcome : Outcome} {e : MeasurementEvent} {created expires : ℤ}
    (h : spacedOut outcome e = true) :
    ReportsBlocked "" ⟨.pingLoss, created, expires⟩ e ∧ e.outcome = outcome := by
  simp only [spacedOut, Bool.and_eq_true, decide_eq_true_eq] at h
  obtain ⟨⟨⟨hinterface, htrigger⟩, hreason⟩, houtcome⟩ := h
  exact ⟨⟨hinterface.trans rfl, htrigger, .inr (.inr hreason)⟩, houtcome⟩

/-- A trigger that is polled five minutes after it was raised, half an hour after a run. -/
lemma spaced_polled {start : ℤ} {outcome : Outcome} {st st' : ProviderState}
    (hstart : 0 ≤ start) (hst : (Steps.tell mlabPolicy (newState mlabPolicy 0 1)
      (spacedCalls start)).1 = st)
    (hst' : ((Call.pollInterfaces 1 (start + 1800000000000) upSuccess).run mlabPolicy st).2.2 = st')
    (hcount : savedBy mlabPolicy (newState mlabPolicy 0 1) (spacedCalls start) +
      ((Call.pollInterfaces 1 (start + 1800000000000) upSuccess).run mlabPolicy st).1.length ≤ 1000)
    (htrigger : st.interfaceTriggers[""]? =
      some ⟨some ⟨.pingLoss, start + 1500000000000, start + 3300000000000⟩, true⟩)
    (hevents : (match ((Call.pollInterfaces 1 (start + 1800000000000) upSuccess).run
        mlabPolicy st).2.1 with
      | .ok (.polled poll) => poll.events.any (spacedOut outcome)
      | _ => false) = true) :
    ∃ w s s' entry poll e, Reaches Encoding.formats InOrder w ∧ w.live = some s ∧
      s.policy = mlabPolicy ∧ s.state = st ∧ s'.state = st' ∧
      (w.step Encoding.formats (.call (.pollInterfaces 1 (start + 1800000000000) upSuccess),
        [])).trace = w.trace ++ [entry] ∧
      (w.step Encoding.formats (.call (.pollInterfaces 1 (start + 1800000000000) upSuccess),
        [])).live = some s' ∧
      entry.result = .ok (.polled poll) ∧
      Pending s.state "" ⟨.pingLoss, start + 1500000000000, start + 3300000000000⟩ ∧
      e ∈ poll.events ∧
      ReportsBlocked "" ⟨.pingLoss, start + 1500000000000, start + 3300000000000⟩ e ∧
      e.outcome = outcome := by
  subst hst hst'
  obtain ⟨w, s, s', entry, poll, hreach, hlive, hpolicy, hstate, htrace, hlive', hok, hpoll⟩ :=
    @polled_run (spacedCalls start) (start + 1800000000000) upSuccess
      (by simp [spacedCalls, Ascending, Call.now, hstart]) hcount (by
        unfold isPolled
        split at hevents
        · rfl
        · cases hevents)
  rw [← hpoll, List.any_eq_true] at hevents
  obtain ⟨e, hmem, hout⟩ := hevents
  obtain ⟨hreports, houtcome⟩ := reports_of_spacedOut hout
  exact ⟨w, s, s', entry, poll, e, hreach, hlive, hpolicy, hstate, congrArg Prod.snd hpoll, htrace,
    hlive', hok, ⟨_, by rw [hstate]; exact htrigger, rfl⟩, hmem, hreports, houtcome⟩

/-- **A trigger is given up too early**: at half past eleven it is suppressed, although the spacing
ends six minutes later. -/
theorem suppressed_before_midnight : ¬ ∀ (w : System) (s s' : Scheduler) (runId : RunId) (now : ℤ)
    (latestSuccess : BTreeMap String Bool) (entry : Entry) (poll : SchedulerPoll) (key : String)
    (p : PendingTrigger) (e : MeasurementEvent),
    Reaches Encoding.formats InOrder w → w.live = some s →
    (w.step Encoding.formats (.call (.pollInterfaces runId now latestSuccess), [])).trace =
      w.trace ++ [entry] →
    (w.step Encoding.formats (.call (.pollInterfaces runId now latestSuccess), [])).live =
      some s' →
    entry.result = .ok (.polled poll) → Pending s.state key p → e ∈ poll.events →
    ReportsBlocked key p e → JustlyReported s.policy now key p e s'.state := by
  intro h
  obtain ⟨w, s, s', entry, poll, e, hreach, hlive, hpolicy, -, hstate', htrace, hlive', hok, hp,
    hmem, hreports, houtcome⟩ := @spaced_polled 82800000000000 .suppressed _ _ (by decide) rfl rfl
    (by decide +kernel) (by decide +kernel) (by decide +kernel)
  have hjust := h w s s' 1 _ _ entry poll "" _ e hreach hlive htrace hlive' hok hp hmem hreports
  have hfree : blockReason s.policy s'.state 84960000000000 = none := by
    rw [hpolicy, hstate']
    decide +kernel
  obtain ⟨-, hdeferred⟩ := hjust.retained 84960000000000 (by decide) (by decide) (by decide) hfree
  rw [houtcome] at hdeferred
  cases hdeferred

/-- In the morning a trigger that is blocked waits. -/
theorem deferred_in_the_morning : ∃ (s s' : Scheduler) (e : MeasurementEvent),
    e.outcome = .deferred ∧
    JustlyReported s.policy 37800000000000 "" ⟨.pingLoss, 37500000000000, 39300000000000⟩ e
      s'.state := by
  obtain ⟨w, s, s', entry, poll, e, hreach, hlive, hpolicy, -, -, htrace, hlive', hok, hp, hmem,
    hreports, houtcome⟩ := @spaced_polled 36000000000000 .deferred _ _ (by decide) rfl rfl
    (by decide +kernel) (by decide +kernel) (by decide +kernel)
  refine ⟨s, s', e, houtcome, (justlyReported_poll_iff (hreach.mono fun _ _ _ => trivial) hlive
    htrace hlive' hok hp hmem hreports).mpr (.inr (.inl ?_))⟩
  rw [hpolicy]
  decide +kernel

end Netband.Triggers

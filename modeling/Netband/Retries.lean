import Netband.Agreement
import Netband.Burst

/-!
Retries of a rate-limited attempt.

An opportunity whose attempt was rate limited before it reserved a run is deferred, and a poll hands
it out again when the cooldown is over. Only the record knows how often it was tried, and a new day
drops the record of it, also while the retry is under way.
-/

namespace Netband.Retries

open Netband.Time Netband.Model Netband.State Netband.Plan Netband.Effects Netband.Recovery
open Netband.Scheduling Netband.World Netband.Edits Netband.Steps Netband.Runs Netband.Polls
open Netband.Agreement Saving

/-! ### Chains of attempts -/

/-- An opportunity that was handed out and is not finished. -/
structure Outstanding where
  opportunity : BandwidthOpportunity
  retry : Bool
  day : ℤ
  /-- Finishing it has failed, and left no record. -/
  failed : Bool := false
  /-- A call came on a later day. -/
  late : Bool := false
  deriving DecidableEq

/-- The first opportunity of a chain, the number of its attempts so far, and the day on which the
last of them was deferred. -/
structure Chain where
  first : BandwidthOpportunity
  attempts : ℕ
  day : ℤ
  deriving DecidableEq

/-- The chain that was deferred last, and what is handed out. -/
structure Course where
  chain : Option Chain := none
  out : Option Outstanding := none
  deriving DecidableEq

/-- What a poll hands out. It starts a retry without an event. -/
def handedOut (e : Entry) : Option Outstanding :=
  match e.call, e.result with
  | .pollInterfaces _ now _, .ok (.polled poll) =>
    poll.opportunity.map fun opportunity => {
      opportunity
      retry := !poll.events.any fun event => event.schedulerAction = some .bandwidthStart
      day := dateNaive now }
  | _, _ => none

/-- The chain of an attempt that is deferred. A retry goes on with the chain before it. -/
def Course.deferring (c : Course) (opportunity : BandwidthOpportunity) (day : ℤ) : Chain :=
  if c.out.any (·.retry) then
    match c.chain with
    | some chain => { chain with attempts := chain.attempts + 1, day }
    | none => ⟨opportunity, 1, day⟩
  else ⟨opportunity, 1, day⟩

/-- A call of the provider's scheduler. An attempt is finished when its call has returned, or has
failed after its record was in the ledger. -/
def Course.follow (c : Course) (e : Entry) : Course :=
  match e.call with
  | .pollInterfaces .. => { c with out := (handedOut e).or c.out }
  | .finishAttempt _ now opportunity report =>
    if e.result.isOk || e.recorded then
      { chain :=
          if (rateLimitFromReport report e.policy.providerKind).isSome && !report.reserved then
            some (c.deferring opportunity (dateNaive now))
          else none
        out := c.out.filter fun o => o.opportunity ≠ opportunity }
    else { c with out := c.out.map fun o => { o with failed := true } }
  | call =>
    { c with out := c.out.map fun o =>
        { o with late := o.late || call.now.any fun now => o.day < dateNaive now } }

def courseOf (P : String) (trace : List Entry) : Course :=
  trace.foldl (fun c e => if e.policy.providerId = P then c.follow e else c) {}

/-- A retry of the provider that is handed out is the only attempt under way, and goes on with a
chain of at most four attempts, with its times and on the day when it was deferred or before. -/
structure Chained (P : String) (before : List Entry) (e : Entry) : Prop where
  alone : ∀ o ∈ handedOut e, e.policy.providerId = P → o.retry = true →
    (courseOf P before).out = none
  chain : ∀ o ∈ handedOut e, e.policy.providerId = P → o.retry = true →
    ∃ c ∈ (courseOf P before).chain, 1 ≤ c.attempts ∧ c.attempts + 1 ≤ 5 ∧
      o.opportunity.scheduledAtUtc = c.first.scheduledAtUtc ∧
      o.opportunity.requestedAtUtc = c.first.requestedAtUtc ∧ o.day ≤ c.day

/-- An opportunity is finished before the next poll or restart. -/
def Exclusive (P : String) (w : System) : Action → Prop
  | .openSeeded .. | .call (.pollInterfaces ..) => (courseOf P w.trace).out = none
  | _ => True

/-- While a retry is handed out no other attempt is finished. It is finished once, and is not rate
limited again if a call came on a later day meanwhile. -/
def Undisturbed (P : String) (w : System) (a : Action) : Prop :=
  ∀ o ∈ (courseOf P w.trace).out, o.retry = true → ∀ runId now opportunity report,
    a = .call (.finishAttempt runId now opportunity report) →
      opportunity = o.opportunity ∧ o.failed = false ∧
        ((∃ s ∈ w.live, (rateLimitFromReport report s.policy.providerKind).isSome = true) →
          report.reserved = false → o.late = false)

/-! ### Records of retries -/

section records
variable {policy : SchedulerPolicy} {now : ℤ} {st : ProviderState} {id : String}
  {opportunity : BandwidthOpportunity} {report : BandwidthReport} {d : DeferredOpportunity}

/-- What is deferred by an attempt, and how often it was tried then. -/
lemma deferred_finished (hd : d ∈ (finished policy now opportunity report st).deferred) :
    (rateLimitFromReport report policy.providerKind).isSome = true ∧ report.reserved = false ∧
      d.scheduledAtUtc = opportunity.scheduledAtUtc ∧
      d.createdAtUtc = opportunity.requestedAtUtc ∧ d.expiresAtUtc = dayEnd (dateNaive now) ∧
      d.rateLimitAttempts ≤ 4 ∧
      d.rateLimitAttempts = st.deferred.elim 1 fun d => d.rateLimitAttempts + 1 := by
  unfold finished at hd
  cases hlimit : rateLimitFromReport report policy.providerKind with
  | none =>
    obtain ⟨rng, slots, he, -⟩ := finishUnlimited_eq policy now opportunity report st
    simp only [hlimit, he] at hd
    cases hd
  | some limit =>
    obtain ⟨deadline, rng, slots, backoff, he, -⟩ :=
      finishRateLimited_eq policy now opportunity report.reserved limit st
    simp only [hlimit, he] at hd
    have hdefer : deferAfter now deadline opportunity report.reserved st.deferred = some d := hd
    unfold deferAfter at hdefer
    cases hreserved : report.reserved with
    | true => simp [hreserved] at hdefer
    | false =>
      rw [hreserved, if_neg (by simp)] at hdefer
      dsimp only at hdefer
      split_ifs at hdefer with hfew
      obtain rfl := Option.some.inj hdefer
      have hmax : maxRateLimitAttempts = 5 := rfl
      refine ⟨rfl, rfl, rfl, rfl, rfl, by dsimp only; omega, ?_⟩
      cases hst : st.deferred with
      | none => rfl
      | some d' =>
        simp only [hst, Option.elim_some] at hfew ⊢
        omega

/-- A deferred run was tried once at least and four times at most. -/
def Tried (_ : String) (st : ProviderState) : Prop :=
  ∀ d ∈ st.deferred, 1 ≤ d.rateLimitAttempts ∧ d.rateLimitAttempts ≤ 4

lemma Tried.carries {st' : ProviderState} (h : Tried id st)
    (hc : Carries st.deferred st'.deferred) : Tried id st' := by
  intro d' hd'
  obtain ⟨d, hd, he⟩ := hc d' hd'
  rw [he]
  exact h d hd

lemma tried_none (h : st.deferred = none) : Tried id st := by
  intro d hd
  rw [h] at hd
  cases hd

lemma carries_reconcileDay (policy : SchedulerPolicy) (now : ℤ) (st : ProviderState) :
    Carries st.deferred (reconcileDay policy now st).deferred :=
  (rolls_reconcileDay policy (.refl now (accountingOf st))).carries

lemma closed_tried : Closed policy now (Tried id) where
  slots _ _ h := h
  triggers _ _ h := h
  rollover st h := h.carries (carries_reconcileDay policy now st)
  observed _ h _ := h
  dropped _ _ := tried_none rfl
  merged st reason interface h := h.carries (carries_merged st.deferred reason interface)

theorem sustained_tried : Sustained Tried where
  edited _ _ := closed_tried.edited
  rollover policy now st h := h.carries (carries_reconcileDay policy now st)
  started _ _ _ h _ := h
  finished policy now st opportunity report h d hd := by
    obtain ⟨-, -, -, -, -, hle, hattempts⟩ := deferred_finished hd
    refine ⟨?_, hle⟩
    rw [hattempts]
    cases st.deferred <;> simp
  created policy now seed := by
    obtain ⟨rng, slots, h, -⟩ := newState_eq policy now seed
    rw [h]
    exact tried_none rfl
  reconciled policy now st h := h.carries rolls_reconcileState.carries
  replanned policy now st h := by
    obtain ⟨rng, slots, hr, -⟩ := replanRemaining_eq policy now st
    rw [hr]
    exact h
  replayed _ hr := hr

end records

/-! ### Courses -/

section course
variable {P : String} {trace : List Entry} {e : Entry} {J : Option Accounting → Prop}
  {runId : RunId} {now : ℤ} {opportunity : BandwidthOpportunity} {report : BandwidthReport}

lemma courseOf_concat (P : String) (trace : List Entry) (e : Entry) :
    courseOf P (trace ++ [e]) =
      if e.policy.providerId = P then (courseOf P trace).follow e else courseOf P trace := by
  rw [courseOf, List.foldl_append]
  rfl

/-- Any other call may only come late. -/
lemma follow_other (c : Course) (hpoll : ∀ runId now latestSuccess,
      e.call ≠ .pollInterfaces runId now latestSuccess)
    (hfinish : ∀ runId now opportunity report,
      e.call ≠ .finishAttempt runId now opportunity report) :
    c.follow e = { c with out := c.out.map fun o =>
      { o with late := o.late || e.call.now.any fun now => o.day < dateNaive now } } := by
  unfold Course.follow
  split
  · rename_i h
    exact absurd h (hpoll _ _ _)
  · rename_i h
    exact absurd h (hfinish _ _ _ _)
  · rfl

lemma follow_poll (c : Course) {latestSuccess : BTreeMap String Bool}
    (h : e.call = .pollInterfaces runId now latestSuccess) :
    c.follow e = { c with out := (handedOut e).or c.out } := by
  unfold Course.follow
  rw [h]

lemma follow_finished (c : Course) (h : e.call = .finishAttempt runId now opportunity report)
    (hdone : e.result.isOk = true ∨ e.recorded = true) : c.follow e =
      { chain :=
          if (rateLimitFromReport report e.policy.providerKind).isSome && !report.reserved then
            some (c.deferring opportunity (dateNaive now))
          else none
        out := c.out.filter fun o => o.opportunity ≠ opportunity } := by
  unfold Course.follow
  rw [h]
  exact if_pos (by simpa using hdone)

lemma follow_failed (c : Course) (h : e.call = .finishAttempt runId now opportunity report)
    (herr : ∃ err, e.result = .error err) (hrec : e.recorded = false) :
    c.follow e = { c with out := c.out.map fun o => { o with failed := true } } := by
  obtain ⟨err, herr⟩ := herr
  unfold Course.follow
  rw [h]
  refine if_neg ?_
  rw [herr, hrec]
  simp [Except.isOk, Except.toBool]

/-- An entry that did nothing to the accounting leaves the chain. -/
lemma Silent.chain (h : Silent P J e) :
    (courseOf P (trace ++ [e])).chain = (courseOf P trace).chain := by
  rw [courseOf_concat]
  split_ifs with hP
  swap
  · rfl
  cases hcall : e.call with
  | pollInterfaces runId now latestSuccess => rw [follow_poll _ hcall]
  | finishAttempt runId now opportunity report =>
    obtain ⟨herr, hrec⟩ := h.unsaved hP (by simp [hcall, Call.Quiet])
    rw [follow_failed _ hcall herr hrec]
  | _ => rw [follow_other _ (by simp [hcall]) (by simp [hcall])]

end course

/-! ### What is deferred -/

/-- What is deferred is the first opportunity of the chain, with its attempts at least. -/
structure Continues (c : Chain) (d : DeferredOpportunity) : Prop where
  scheduled : d.scheduledAtUtc = c.first.scheduledAtUtc
  requested : d.createdAtUtc = c.first.requestedAtUtc
  expires : d.expiresAtUtc = dayEnd c.day
  some : 1 ≤ c.attempts
  attempts : c.attempts ≤ d.rateLimitAttempts

/-- What an accounting holds deferred continues the chain of the provider. -/
def Matched (P : String) (trace : List Entry) (_ : Option ℤ) (x : Option Accounting) : Prop :=
  ∀ a ∈ x, ∀ d ∈ a.deferred, ∃ c ∈ (courseOf P trace).chain, Continues c d

/-- A retry that is handed out is still deferred in a record of its day. -/
def Awaits (o : Outstanding) (st : ProviderState) : Prop :=
  o.day ≤ st.dayUtc ∧ ∃ d ∈ st.deferred, d.scheduledAtUtc = o.opportunity.scheduledAtUtc ∧
    d.createdAtUtc = o.opportunity.requestedAtUtc

/-- The record of the provider's scheduler awaits the retry that is handed out. -/
def Held (P : String) (w : System) : Prop :=
  ∀ s ∈ w.live, s.policy.providerId = P →
    ∀ o ∈ (courseOf P w.trace).out, o.retry = true → o.failed = false → o.late = false →
      Awaits o s.state

section matched
variable {P : String} {trace : List Entry} {clock : Option ℤ} {a b : Accounting} {e : Entry}
  {c : Chain} {d : DeferredOpportunity} {now : ℤ}

lemma Continues.carries {d' : DeferredOpportunity} (h : Continues c d)
    (he : d' = { d with reason := d'.reason, interface := d'.interface }) : Continues c d' := by
  rw [he]
  exact ⟨h.scheduled, h.requested, h.expires, h.some, h.attempts⟩

lemma Matched.carries {clock' : Option ℤ} (h : Matched P trace clock (some a))
    (hc : Carries a.deferred b.deferred) : Matched P trace clock' (some b) := by
  rintro _ ⟨⟩ d' hd'
  obtain ⟨d, hd, he⟩ := hc d' hd'
  obtain ⟨c, hchain, hd⟩ := h a rfl d hd
  exact ⟨c, hchain, hd.carries he⟩

lemma Matched.concat {x : Option Accounting} {clock' : Option ℤ} (h : Matched P trace clock x)
    (hchain : (courseOf P (trace ++ [e])).chain = (courseOf P trace).chain) :
    Matched P (trace ++ [e]) clock' x := by
  intro a ha d hd
  rw [hchain]
  exact h a ha d hd

/-- The chain of an attempt that is deferred: a retry's continues what was deferred before. -/
lemma continues_deferring {course : Course} {st : ProviderState}
    {opportunity : BandwidthOpportunity} {day : ℤ}
    (h : ∀ d ∈ st.deferred, ∃ c ∈ course.chain, Continues c d)
    (hheld : ∀ o ∈ course.out, o.retry = true → o.opportunity = opportunity ∧ Awaits o st)
    (hscheduled : d.scheduledAtUtc = opportunity.scheduledAtUtc)
    (hrequested : d.createdAtUtc = opportunity.requestedAtUtc)
    (hexpires : d.expiresAtUtc = dayEnd day)
    (hattempts : d.rateLimitAttempts = st.deferred.elim 1 fun d => d.rateLimitAttempts + 1) :
    Continues (course.deferring opportunity day) d := by
  have hpos : 1 ≤ d.rateLimitAttempts := by
    rw [hattempts]
    cases st.deferred <;> simp
  have hfirst : Continues ⟨opportunity, 1, day⟩ d :=
    ⟨hscheduled, hrequested, hexpires, le_rfl, hpos⟩
  unfold Course.deferring
  split_ifs with hretry
  swap
  · exact hfirst
  obtain ⟨o, hout, ho⟩ : ∃ o, course.out = some o ∧ o.retry = true := by
    cases hout : course.out with
    | none => simp [hout] at hretry
    | some o => exact ⟨o, rfl, by simpa [hout] using hretry⟩
  obtain ⟨rfl, -, d₀, hd₀, hscheduled₀, hrequested₀⟩ := hheld o hout ho
  obtain ⟨c, hc, hcontinues⟩ := h d₀ hd₀
  rw [Option.mem_def.mp hc]
  rw [Option.mem_def.mp hd₀, Option.elim_some] at hattempts
  exact {
    scheduled := hscheduled.trans (hscheduled₀.symm.trans hcontinues.scheduled)
    requested := hrequested.trans (hrequested₀.symm.trans hcontinues.requested)
    expires := hexpires
    some := by dsimp only; omega
    attempts := by
      have hle := hcontinues.attempts
      dsimp only
      omega }

/-- **Deferred runs**: every step keeps to the chain while the record awaits the retry. -/
theorem upholds_matched (P : String) : Upholds P
    (fun w a => (InOrder w a ∧ Exclusive P w a ∧ Undisturbed P w a) ∧ Held P w) (Matched P) where
  first := by rintro _ ⟨⟩
  time _ _ _ _ h := h
  opens w policy now seed random x y _ _ h ho := by
    cases ho with
    | created =>
      rintro _ ⟨⟩ _ ⟨⟩
    | kept hr => exact h.carries hr.carries
  silent w c e x _ _ he h := h.concat (Silent.chain he)
  rolls w c now a b _ _ h hr := h.carries hr.carries
  reserves w s now e _ _ _ h _ _ hcall _ := by
    have hstarted : Matched P w.trace w.clock
        (some (accountingOf (startRun now (reconcileDay s.policy now s.state)))) :=
      h.carries (carries_reconcileDay s.policy now s.state)
    refine hstarted.concat ?_
    rw [courseOf_concat]
    split_ifs
    · rw [follow_other _ (by simp [hcall]) (by simp [hcall])]
    · rfl
  finishes w s runId now opportunity report e events report' ha hlive hP h hpolicy hcall _ hl := by
    obtain ⟨⟨-, -, hundisturbed⟩, hheld⟩ := ha
    rintro _ ⟨⟩ d hd
    obtain ⟨hlimit, hreserved, hscheduled, hrequested, hexpires, -, hattempts⟩ :=
      deferred_finished hd
    have hdone : e.result.isOk = true ∨ e.recorded = true := by
      rcases hl with ⟨hok, -⟩ | ⟨-, hrec⟩
      · rw [hok]
        exact .inl rfl
      · exact .inr hrec
    rw [courseOf_concat, if_pos (hpolicy ▸ hP), follow_finished _ hcall hdone, hpolicy, hlimit,
      hreserved]
    refine ⟨_, rfl, continues_deferring (h _ rfl) (fun o hout ho => ?_) hscheduled hrequested
      hexpires hattempts⟩
    obtain ⟨heq, hfailed, hlate⟩ := hundisturbed o hout ho _ _ _ _ rfl
    exact ⟨heq.symm, hheld s hlive hP o hout ho hfailed (hlate ⟨s, hlive, hlimit⟩ hreserved)⟩

end matched

/-! ### The record of a retry that is handed out -/

section awaits
variable {policy : SchedulerPolicy} {now : ℤ} {st : ProviderState} {o : Outstanding}

lemma observed_awaits (hday : dateNaive now ≤ o.day) :
    Observed policy now (fun _ => True) (Awaits o) where
  advanced st h _ := by
    rw [advanced_of_le (hday.trans h.1)]
    exact h
  latched st reason interface h _ _ := by
    obtain ⟨hle, d, hd, hscheduled, hrequested⟩ := h
    refine ⟨hle, { d with reason := triggerReasonOf reason, interface }, ?_, hscheduled, hrequested⟩
    change _ ∈ st.deferred.map _
    rw [Option.mem_def.mp hd]
    rfl
  recovered _ _ _ h := h

/-- A call on the day of the retry that is no poll and finishes no attempt leaves it deferred. -/
lemma awaits_call {c : Call} (h : Awaits o st) (hday : ∀ now ∈ c.now, dateNaive now ≤ o.day)
    (hpoll : ∀ runId now latestSuccess, c ≠ .pollInterfaces runId now latestSuccess)
    (hfinish : ∀ runId now opportunity report, c ≠ .finishAttempt runId now opportunity report) :
    Saves (Awaits o) st (c.run policy) (fun _ => Awaits o) fun _ => Awaits o := by
  cases c with
  | observeInterfaceHealth runId now interface decision =>
    exact saves_bind (saves_mono (observeInterfaceHealth_spec (observed_awaits (hday now rfl)) h
      runId interface decision fun _ _ => trivial) (fun _ _ hst => saves_pure hst) fun _ _ he => he)
  | pollInterfaces runId now latestSuccess => exact absurd rfl (hpoll _ _ _)
  | preflightManual runId now =>
    exact saves_bind (saves_mono (preflightManual_spec (observed_awaits (hday now rfl)) h runId)
      (fun _ _ hst => saves_pure hst) fun _ _ he => he)
  | reserveRun now =>
    have hle : dateNaive now ≤ st.dayUtc := (hday now rfl).trans h.1
    have hs : Awaits o (startRun now st) := h
    rw [Saves, run_reserveRun, reconcileDay_of_le hle]
    cases blockReason policy st now with
    | some blocked => exact ⟨by simp, by simp, by simpa using h⟩
    | none => exact ⟨by simpa using hs, by simpa using hs, by simp⟩
  | finishAttempt runId now opportunity report => exact absurd rfl (hfinish _ _ _ _)
  | flush => exact saves_bind (saves_save h (saves_pure h))

end awaits

section steps
variable {S : Serde} {P : String} {w : System} {s s' : Scheduler} {e : Entry} {io : List Io}
  {o : Outstanding}

lemma trace_of_step {a : Action} (h : ∀ s c, w.live = some s → a ≠ .call c) :
    (w.step S (a, io)).trace = w.trace := by
  cases a with
  | openSeeded policy now seed random =>
    rcases hlive : w.live with _ | s <;> simp [System.step, System.act, System.openScheduler, hlive]
  | close => rfl
  | restore index => rfl
  | call c =>
    rcases hlive : w.live with _ | s
    · simp [System.step, System.act, hlive]
    · exact absurd rfl (h s c hlive)

/-- A poll that hands out a retry has found it in the record, and leaves it there. -/
lemma retry_of_step {runId : RunId} {now : ℤ} {latestSuccess : BTreeMap String Bool}
    (hlive : w.live = some s)
    (htrace : (w.step S (.call (.pollInterfaces runId now latestSuccess), io)).trace =
      w.trace ++ [e])
    (hlive' : (w.step S (.call (.pollInterfaces runId now latestSuccess), io)).live = some s')
    (ho : o ∈ handedOut e) (hretry : o.retry = true) :
    o.day = dateNaive now ∧ s.state.lastObservedUtc ≤ now ∧
      (∃ poll, e.result = .ok (.polled poll)) ∧ s'.state = opened s.policy now s.state ∧
      retryLive (opened s.policy now s.state) now = true ∧
      ∃ d, (opened s.policy now s.state).deferred = some d ∧
        o.opportunity = retryOpportunity d := by
  obtain ⟨-, hcall⟩ := entry_of_call hlive htrace
  obtain ⟨poll, hok⟩ : ∃ poll, e.result = .ok (.polled poll) := by
    unfold handedOut at ho
    split at ho
    · rename_i poll _ hok
      exact ⟨poll, hok⟩
    · cases ho
  have hsettled := pollSettled_of_step hlive htrace hlive' hok
  unfold handedOut at ho
  rw [hcall, hok] at ho
  generalize s'.state = st' at hsettled ⊢
  cases hsettled with
  | rollback hclock => cases ho
  | retry hclock hd hlive =>
    obtain rfl := Option.some.inj ho
    exact ⟨rfl, hclock, ⟨_, hok⟩, rfl, hlive, _, hd, rfl⟩
  | due hclock hdead hdue =>
    cases hdue with
    | idle => cases ho
    | blocked => cases ho
    | ready hfound hb =>
      -- a run of its own starts with an event
      obtain rfl := Option.some.inj ho
      simp [event] at hretry

/-- **Retries under way**: the record awaits them as long as nothing disturbs them. -/
theorem held_of_reaches
    (h : Reaches S (fun w a => InOrder w a ∧ Exclusive P w a ∧ Undisturbed P w a) w) :
    Held P w := by
  refine h.invariant (by rintro s ⟨⟩) ?_
  rintro w ⟨a, io⟩ - hheld ⟨-, hexclusive, hundisturbed⟩ s' hlive' hP o hout hretry hfailed
    hlate
  cases a with
  | openSeeded policy now seed random =>
    rw [trace_of_step (by simp), hexclusive] at hout
    cases hout
  | close => cases hlive'
  | restore index => exact hheld s' hlive' hP o hout hretry hfailed hlate
  | call c =>
    rcases hlive : w.live with _ | s
    · have hnone : (w.step S (.call c, io)).live = none := by
        simp [System.step, System.act, hlive]
      rw [Option.mem_def, hnone] at hlive'
      cases hlive'
    obtain ⟨s₁, e, hlive₁, htrace, hpolicy, -⟩ := @step_call S w s c io hlive
    obtain rfl : s₁ = s' := Option.some.inj (hlive₁.symm.trans hlive')
    obtain ⟨hepolicy, hcall⟩ := entry_of_call hlive htrace
    rw [hpolicy] at hP
    rw [htrace, courseOf_concat, if_pos (by rw [hepolicy, hP])] at hout
    have hother : (∀ runId now latestSuccess, c ≠ .pollInterfaces runId now latestSuccess) →
        (∀ runId now opportunity report, c ≠ .finishAttempt runId now opportunity report) →
        Awaits o s₁.state := by
      intro hpoll hfinish
      rw [follow_other _ (by rwa [hcall]) (by rwa [hcall]), hcall] at hout
      obtain ⟨o', hout', rfl⟩ := Option.map_eq_some_iff.mp hout
      obtain ⟨hlate', hnow⟩ := Bool.or_eq_false_iff.mp hlate
      have hdays : ∀ now ∈ c.now, dateNaive now ≤ o'.day := by
        intro now hmem
        rw [Option.mem_def.mp hmem] at hnow
        simpa using hnow
      have hawaits := hheld s hlive hP o' hout' hretry hfailed hlate'
      obtain ⟨s₂, hlive₂, hawaits₂⟩ := call_keeps (S := S) (w := w) hawaits
        (awaits_call hawaits hdays hpoll hfinish) io
      have hact : (w.step S (.call c, io)).live = (w.call S s c io).live := by
        simp only [System.step, System.act, hlive]
      obtain rfl : s₁ = s₂ := Option.some.inj (hlive₁.symm.trans (hact.trans hlive₂))
      exact hawaits₂
    cases c with
    | pollInterfaces runId now latestSuccess =>
      rw [follow_poll _ hcall, hexclusive, Option.or_none] at hout
      obtain ⟨hday, -, -, hstate, -, d, hd, hopportunity⟩ :=
        retry_of_step hlive htrace hlive₁ hout hretry
      rw [hstate]
      refine ⟨hday ▸ Burst.day_opened, d, hd, ?_, ?_⟩ <;> rw [hopportunity] <;> rfl
    | finishAttempt runId now opportunity report =>
      by_cases hdone : e.result.isOk = true ∨ e.recorded = true
      · rw [follow_finished _ hcall hdone] at hout
        obtain ⟨hout, hne⟩ := Option.filter_eq_some_iff.mp hout
        exact absurd (hundisturbed o hout hretry _ _ _ _ rfl).1.symm (by simpa using hne)
      · push Not at hdone
        have herr : ∃ err, e.result = .error err := by
          rcases hr : e.result with err | reply
          · exact ⟨err, rfl⟩
          · rw [hr] at hdone
            exact absurd rfl hdone.1
        rw [follow_failed _ hcall herr (by simpa using hdone.2)] at hout
        obtain ⟨o', -, rfl⟩ := Option.map_eq_some_iff.mp hout
        cases hfailed
    | _ => exact hother (by simp) (by simp)

lemma dateNaive_le_of_lt {now day : ℤ} (h : now < dayEnd day) : dateNaive now ≤ day := by
  simp only [dateNaive, dayEnd, dayStart, dayLength, daySeconds, second] at *
  omega

/-- **Chains**: a step notes nothing but retries that go on with their chain. -/
theorem chained_of_reaches
    (h : Reaches S (fun w a => InOrder w a ∧ Exclusive P w a ∧ Undisturbed P w a) w) :
    Throughout (Chained P) w.trace := by
  refine h.invariant (I := fun w => Throughout (Chained P) w.trace) throughout_nil ?_
  rintro w ⟨a, io⟩ hreach ih ⟨-, hexclusive, -⟩
  by_cases hcalls : ∃ s c, w.live = some s ∧ a = .call c
  swap
  · push Not at hcalls
    rwa [trace_of_step hcalls]
  obtain ⟨s, c, hlive, rfl⟩ := hcalls
  obtain ⟨s', e, hlive', htrace, -⟩ := @step_call S w s c io hlive
  obtain ⟨hpolicy, hcall⟩ := entry_of_call hlive htrace
  have hpolled : ∀ o ∈ handedOut e, ∃ runId now latestSuccess,
      c = .pollInterfaces runId now latestSuccess := by
    intro o ho
    unfold handedOut at ho
    split at ho
    · rename_i hcall' _
      exact ⟨_, _, _, hcall.symm.trans hcall'⟩
    · cases ho
  rw [htrace]
  refine throughout_concat.mpr ⟨ih, fun o ho hP hretry => ?_, fun o ho hP hretry => ?_⟩
  · obtain ⟨runId, now, latestSuccess, rfl⟩ := hpolled o ho
    exact hexclusive
  · obtain ⟨runId, now, latestSuccess, rfl⟩ := hpolled o ho
    obtain ⟨hday, hclock, ⟨poll, hok⟩, -, hretryLive, d, hd, hopportunity⟩ :=
      retry_of_step hlive htrace hlive' ho hretry
    have hun : s.persistence.poisoned = false :=
      unpoisoned_of_ok hlive htrace hok (pollInterfaces_saved hclock)
    have hmatched := upheld_of_live kept_validState (upholds_matched P)
      (hreach.strengthen fun _ h => held_of_reaches h) hlive hun (hpolicy ▸ hP)
    -- the retry of the record as it was before the poll
    obtain ⟨triggers, he⟩ := withoutExpired_eq now (advanced s.policy now s.state)
    have hcarries : Carries s.state.deferred (opened s.policy now s.state).deferred := by
      rw [opened, he]
      exact carries_reconcileDay s.policy now s.state
    obtain ⟨d₀, hd₀, hd₀'⟩ := hcarries d hd
    obtain ⟨c, hc, hcontinues⟩ := hmatched _ rfl d₀ hd₀
    have hcontinues := hcontinues.carries hd₀'
    simp only [retryLive, hd, Option.any_some, deferredExpired, Bool.and_eq_true,
      Bool.not_eq_true', Bool.or_eq_false_iff, decide_eq_false_iff_not, not_le] at hretryLive
    obtain ⟨⟨hunexpired, hfew⟩, -⟩ := hretryLive
    have hmax : maxRateLimitAttempts = 5 := rfl
    refine ⟨c, hc, hcontinues.some, by have := hcontinues.attempts; omega, ?_, ?_, ?_⟩
    · rw [hopportunity]
      exact hcontinues.scheduled
    · rw [hopportunity]
      exact hcontinues.requested
    · rw [hday]
      rw [hcontinues.expires] at hunexpired
      exact dateNaive_le_of_lt hunexpired

/-- **Retries**: in every run in which an opportunity is finished before the next poll or restart,
and a retry is not disturbed, a chain has five attempts at most, with the times of its first
opportunity and on the day when it was deferred last; whatever is stored was tried four times at
most. -/
theorem retries_bounded (P : String)
    (h : Reaches S (fun w a => InOrder w a ∧ Exclusive P w a ∧ Undisturbed P w a) w) :
    Throughout (Chained P) w.trace ∧ (∀ s ∈ w.live, AllRecords Tried s.store) ∧
      ∀ p ∈ w.disk.persists, AllRecords Tried p.1 := by
  obtain ⟨hlive, hpersisted⟩ := clean_of_reaches (kept_validState.and sustained_tried)
    (h.mono fun _ _ _ => trivial)
  exact ⟨chained_of_reaches h, fun s hs id st hst => (hlive s hs id st hst).2,
    fun p hp id st hst => (hpersisted p hp id st hst).2⟩

end steps

/-! ### Runs on fixed inputs -/

/-- The course after calls that return and pass a check. -/
def replay (check : Course → Call → Bool) (policy : SchedulerPolicy) :
    Course → ProviderState → List Call → Option Course
  | course, _, [] => some course
  | course, st, c :: rest =>
    if check course c && (c.run policy st).2.1.isOk then
      replay check policy (course.follow ⟨policy, c, (c.run policy st).2.1, false⟩)
        (c.run policy st).2.2 rest
    else none

/-- Nothing is handed out when a poll is made. -/
def exclusive (course : Course) : Call → Bool
  | .pollInterfaces .. => course.out.isNone
  | _ => true

/-- A retry is finished as such, and on its day if it reserved no run. -/
def undisturbed (course : Course) : Call → Bool
  | .finishAttempt _ _ opportunity report => course.out.all fun o => !o.retry ||
      opportunity = o.opportunity && !o.failed && (report.reserved || !o.late)
  | _ => true

section replay
variable {S : Serde} {policy : SchedulerPolicy} {st : ProviderState} {n : ℕ} {s : Scheduler}
  {L : Ledger} {w : System} {check : Course → Call → Bool} {course course' : Course}
  {allowed : System → Action → Prop}

lemma handedOut_told {e : Entry} {c : Call} {result : Except SchedulerError Reply}
    (h : told e = (policy, c, result)) : handedOut e = handedOut ⟨policy, c, result, false⟩ := by
  obtain ⟨policy', c', result', recorded⟩ := e
  obtain ⟨rfl, rfl, rfl⟩ : policy' = policy ∧ c' = c ∧ result' = result := by simpa [told] using h
  rfl

lemma follow_told {e : Entry} {c : Call} {result : Except SchedulerError Reply}
    (h : told e = (policy, c, result)) (hok : result.isOk = true) (course : Course) :
    course.follow e = course.follow ⟨policy, c, result, false⟩ := by
  obtain ⟨policy', c', result', recorded⟩ := e
  obtain ⟨rfl, rfl, rfl⟩ : policy' = policy ∧ c' = c ∧ result' = result := by simpa [told] using h
  unfold Course.follow handedOut
  simp only [hok, Bool.true_or]

/-- Calls that pass the check are allowed, and have the course that is replayed. -/
lemma replay_spec (hallowed : ∀ w c, check (courseOf policy.providerId w.trace) c = true →
      allowed w (.call c)) {calls : List Call} (h : Calm S policy st n s L w)
    (hn : n + savedBy policy st calls ≤ u64Max)
    (hcourse : courseOf policy.providerId w.trace = course)
    (hreplay : replay check policy course st calls = some course') :
    Runs.Allowed (System.step S) (fun w x => allowed w x.1) w
        (calls.map fun c => (Action.call c, ([] : List Io))) ∧
      courseOf policy.providerId ((calls.map fun c => (Action.call c, ([] : List Io))).foldl
        (System.step S) w).trace = course' := by
  induction calls generalizing st n s L w course with
  | nil => exact ⟨trivial, hcourse.trans (Option.some.inj hreplay)⟩
  | cons c rest ih =>
    rw [savedBy] at hn
    obtain ⟨s₁, L₁, e, h₁, htrace, htold, -⟩ := h.call c (by omega)
    rw [replay] at hreplay
    split_ifs at hreplay with hcheck
    obtain ⟨hcheck, hok⟩ := Bool.and_eq_true_iff.mp hcheck
    have hpolicy : e.policy = policy := congrArg Prod.fst htold
    have hnext : courseOf policy.providerId (w.step S (.call c, [])).trace =
        course.follow ⟨policy, c, (c.run policy st).2.1, false⟩ := by
      rw [htrace, courseOf_concat, if_pos (by rw [hpolicy]), hcourse, follow_told htold hok]
    obtain ⟨hrest, hfinal⟩ := ih h₁ (by omega) hnext hreplay
    exact ⟨⟨hallowed w c (by rw [hcourse]; exact hcheck), hrest⟩, hfinal⟩

/-- Calls that pass the check, from the first opening. -/
lemma reaches_replayed {now : ℤ} {seed : UInt64} {random : Vector UInt8 16} {calls : List Call}
    (hopen : allowed {} (.openSeeded policy now seed (.ok random)))
    (hallowed : ∀ w c, check (courseOf policy.providerId w.trace) c = true → allowed w (.call c))
    (hascending : Ascending now calls)
    (hn : 1 + savedBy policy (newState policy now seed) calls ≤ u64Max)
    (hreplay : replay check policy {} (newState policy now seed) calls = some course) :
    Reaches S (fun w a => InOrder w a ∧ allowed w a) (calmRun S policy now seed random calls) ∧
      courseOf policy.providerId (calmRun S policy now seed random calls).trace = course := by
  obtain ⟨s, L, hfirst, htrace, -⟩ := calm_first (S := S) policy now seed random
  obtain ⟨hchecked, hcourse⟩ := replay_spec hallowed hfirst hn (by rw [htrace]; rfl) hreplay
  have hfirst : Reaches S (fun w a => InOrder w a ∧ allowed w a)
      (System.step S {} (.openSeeded policy now seed (.ok random), [])) :=
    .step .first ⟨(by rintro _ ⟨⟩), hopen⟩
  exact ⟨hfirst.foldl ((allowed_inOrder rfl hascending).and hchecked), hcourse⟩

end replay

/-- An attempt of an opportunity that is refused for a second. -/
def refused (opportunity : BandwidthOpportunity) (now : ℤ) : List Call :=
  [.pollInterfaces 1 now ∅,
   .finishAttempt 1 now opportunity (Opportunities.limitedReport (now + 1000000000))]

/-- The first slot of the day, which is taken up ten seconds before midnight. -/
def lateOpportunity : BandwidthOpportunity :=
  ⟨.scheduled, some 7669761000000, 86390000000000, none⟩

/-- Five attempts before midnight. -/
def fiveAttempts : List Call :=
  refused lateOpportunity 86390000000000 ++ refused lateOpportunity 86391000000000 ++
    refused lateOpportunity 86392000000000 ++ refused lateOpportunity 86393000000000 ++
    refused lateOpportunity 86394000000000

/-- The fifth attempt ends after midnight, and a round is observed meanwhile. -/
def midnightAttempts : List Call :=
  refused lateOpportunity 86390000000000 ++ refused lateOpportunity 86391000000000 ++
    refused lateOpportunity 86392000000000 ++ refused lateOpportunity 86393000000000 ++
    [.pollInterfaces 1 86394000000000 ∅,
     .observeInterfaceHealth 1 86400000000000 none (.healthy ⟨6, 6, 0, none, true⟩),
     .finishAttempt 1 86400000000000 lateOpportunity
      (Opportunities.limitedReport 86401000000000)]

lemma exclusive_of_check {P : String} {w : System} {c : Call}
    (h : exclusive (courseOf P w.trace) c = true) : Exclusive P w (.call c) := by
  cases c with
  | pollInterfaces runId now latestSuccess => exact Option.isNone_iff_eq_none.mp h
  | _ => trivial

lemma undisturbed_of_check {P : String} {w : System} {c : Call}
    (h : undisturbed (courseOf P w.trace) c = true) : Undisturbed P w (.call c) := by
  rintro o hout hretry runId now opportunity report ⟨⟩
  rw [undisturbed, Option.mem_def.mp hout] at h
  simp only [Option.all_some, hretry, Bool.not_true, Bool.false_or, Bool.and_eq_true,
    decide_eq_true_eq, Bool.not_eq_true', Bool.or_eq_true] at h
  obtain ⟨⟨heq, hfailed⟩, hlate⟩ := h
  exact ⟨heq, hfailed, fun _ hreserved => hlate.resolve_left (by simp [hreserved])⟩

theorem retries_bounded_five : ∃ w, Reaches Encoding.formats
      (fun w a => InOrder w a ∧ Exclusive "mlab" w a ∧ Undisturbed "mlab" w a) w ∧
    (courseOf "mlab" w.trace).chain = some ⟨lateOpportunity, 5, 0⟩ ∧
    Throughout (Chained "mlab") w.trace ∧ (∀ s ∈ w.live, AllRecords Tried s.store) ∧
      ∀ p ∈ w.disk.persists, AllRecords Tried p.1 := by
  obtain ⟨hreach, hcourse⟩ := @reaches_replayed Encoding.formats mlabPolicy
    (fun course c => exclusive course c && undisturbed course c)
    ⟨some ⟨lateOpportunity, 5, 0⟩, none⟩
    (fun w a => Exclusive "mlab" w a ∧ Undisturbed "mlab" w a) 0 1 (.replicate 16 0) fiveAttempts
    ⟨rfl, by rintro _ ⟨⟩⟩ (fun w c hcheck => by
      obtain ⟨hexclusive, hundisturbed⟩ := Bool.and_eq_true_iff.mp hcheck
      exact ⟨exclusive_of_check hexclusive, undisturbed_of_check hundisturbed⟩)
    (by simp [fiveAttempts, refused, Ascending, Call.now]) (by decide +kernel) (by decide +kernel)
  exact ⟨_, hreach, congrArg Course.chain hcourse, retries_bounded "mlab" hreach⟩

/-- Limits are not forced. -/
def Unforced : Action → Prop
  | .openSeeded policy .. => policy.forceLimits = false
  | _ => True

/-- **A retry at midnight**: after a fifth attempt that was under way when a round was observed on
the next day, a sixth is handed out. -/
theorem sixth_attempt : ¬ ∀ w,
    Reaches Encoding.formats (fun w a => InOrder w a ∧ Exclusive "mlab" w a ∧ Unforced a) w →
    Throughout (Chained "mlab") w.trace := by
  intro h
  have hreplayed : ∀ {calls : List Call} {course : Course}, Ascending 0 calls →
      1 + savedBy mlabPolicy (newState mlabPolicy 0 1) calls ≤ u64Max →
      replay exclusive mlabPolicy {} (newState mlabPolicy 0 1) calls = some course →
      Reaches Encoding.formats (fun w a => InOrder w a ∧ Exclusive "mlab" w a ∧ Unforced a)
          (calmRun Encoding.formats mlabPolicy 0 1 (.replicate 16 0) calls) ∧
        courseOf "mlab" (calmRun Encoding.formats mlabPolicy 0 1 (.replicate 16 0) calls).trace =
          course := fun hascending hn hreplay =>
    @reaches_replayed Encoding.formats mlabPolicy exclusive _
      (fun w a => Exclusive "mlab" w a ∧ Unforced a) _ _ _ _ ⟨rfl, rfl⟩
      (fun w c hcheck => ⟨exclusive_of_check hcheck, trivial⟩) hascending hn hreplay
  obtain ⟨-, hcourse⟩ := @hreplayed midnightAttempts ⟨some ⟨lateOpportunity, 5, 1⟩, none⟩
    (by simp [midnightAttempts, refused, Ascending, Call.now]) (by decide +kernel)
    (by decide +kernel)
  obtain ⟨hreach, -⟩ := @hreplayed (midnightAttempts ++ [.pollInterfaces 1 86401000000000 ∅])
    ⟨some ⟨lateOpportunity, 5, 1⟩, some ⟨lateOpportunity, true, 1, false, false⟩⟩
    (by simp [midnightAttempts, refused, Ascending, Call.now]) (by decide +kernel)
    (by decide +kernel)
  obtain ⟨s, L, hcalm, -⟩ := @calmRun_spec Encoding.formats mlabPolicy 0 1 (.replicate 16 0)
    midnightAttempts (by decide +kernel)
  obtain ⟨s', L', e, -, htrace, htold, -⟩ := hcalm.call (.pollInterfaces 1 86401000000000 ∅)
    (by decide +kernel)
  have hlast : calmRun Encoding.formats mlabPolicy 0 1 (.replicate 16 0)
      (midnightAttempts ++ [.pollInterfaces 1 86401000000000 ∅]) =
      (calmRun Encoding.formats mlabPolicy 0 1 (.replicate 16 0) midnightAttempts).step
        Encoding.formats (.call (.pollInterfaces 1 86401000000000 ∅), []) := by
    simp only [calmRun, List.map_append, List.foldl_append]
    rfl
  have hpolicy : e.policy = mlabPolicy := congrArg Prod.fst htold
  have hchained := h _ hreach _ e [] (by rw [hlast, htrace])
  have hout : handedOut e = some ⟨lateOpportunity, true, 1, false, false⟩ := by
    rw [handedOut_told htold]
    decide +kernel
  obtain ⟨c, hc, -, hle, -⟩ := hchained.chain _ hout (by rw [hpolicy]; rfl) rfl
  rw [hcourse] at hc
  obtain rfl := Option.some.inj hc
  exact absurd hle (by decide)

end Netband.Retries

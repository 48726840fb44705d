import Netband.Opportunities
import Netband.Polls

/-!
The cooldown after a rate limit.

A rate-limited attempt moves the cooldown to the deadline of the first rate limit in its
report, or by a backoff when that failure names none. The backoff step is part of the
accounting, so it survives restarts.
-/

namespace Netband.Cooldowns

open Netband.Time Netband.Model Netband.State Netband.Plan Netband.Effects Netband.Recovery
open Netband.Scheduling Netband.World Netband.Edits Netband.Steps Netband.Runs Netband.Polls
open Saving

/-! ### What a rate-limited attempt does -/

section limited
variable {policy : SchedulerPolicy} {now : ℤ} {opportunity : BandwidthOpportunity}
  {report : BandwidthReport} {st : ProviderState} {limit : RateLimit}

/-- The deadline that a rate limit asks for. -/
def limitDeadline (policy : SchedulerPolicy) (now : ℤ) (limit : RateLimit) (st : ProviderState) :
    ℤ :=
  limit.deadline.getD (addDuration now (nextBackoff policy st).1)

/-- The later of the cooldown in force and a deadline. -/
def cooldownAfter (st : ProviderState) (deadline : ℤ) : ℤ :=
  st.cooldownUntilUtc.elim deadline (max · deadline)

lemma cooldown_le_cooldownAfter {c deadline : ℤ} (h : c ∈ st.cooldownUntilUtc) :
    c ≤ cooldownAfter st deadline := by
  rw [cooldownAfter, Option.mem_def.mp h]
  exact le_max_left c deadline

/-- A time is not after the later of the two exactly if it is not after one of them. -/
lemma le_cooldownAfter_iff {d deadline : ℤ} :
    d ≤ cooldownAfter st deadline ↔ d ≤ deadline ∨ ∃ c ∈ st.cooldownUntilUtc, d ≤ c := by
  unfold cooldownAfter
  cases st.cooldownUntilUtc with
  | none => simp
  | some c => simp [or_comm]

variable (policy now) in
/-- The cooldown and the backoff step after a rate limit. -/
lemma limited_finished (hlimit : rateLimitFromReport report policy.providerKind = some limit) :
    (finished policy now opportunity report st).cooldownUntilUtc =
        some (cooldownAfter st (limitDeadline policy now limit st)) ∧
      (finished policy now opportunity report st).backoffStep = min (st.backoffStep + 1) 4 := by
  obtain ⟨rng, hb, -⟩ := nextBackoff_eq policy st
  have hreplan : ∀ st', (replanRemaining policy now st').cooldownUntilUtc = st'.cooldownUntilUtc ∧
      (replanRemaining policy now st').backoffStep = st'.backoffStep := by
    intro st'
    obtain ⟨rng', slots, hr, -⟩ := replanRemaining_eq policy now st'
    rw [hr]
    exact ⟨rfl, rfl⟩
  unfold finished
  rw [hlimit]
  simp only [finishRateLimited, hreplan]
  cases hd : limit.deadline with
  | some deadline =>
    simp [clearPending, updateTrigger, rateLimitDeadline, hd, limitDeadline, cooldownAfter]
  | none =>
    simp [clearPending, updateTrigger, rateLimitDeadline, hd, hb, limitDeadline, cooldownAfter]

variable (policy now) in
/-- The backoff step after an attempt that was not rate limited. -/
lemma unlimited_finished (hlimit : rateLimitFromReport report policy.providerKind = none) :
    (finished policy now opportunity report st).backoffStep =
      if successfulRequest report then 0 else st.backoffStep := by
  obtain ⟨rng, slots, he, -⟩ := finishUnlimited_eq policy now opportunity report st
  unfold finished
  rw [hlimit]
  dsimp only
  rw [he]

/-- A call that returned has left the finished record. -/
lemma finished_of_step {S : Serde} {w : System} {s s' : Scheduler} {runId : RunId}
    {io : List Io} {e : Entry} {reply : Reply} (hlive : w.live = some s)
    (htrace : (w.step S (.call (.finishAttempt runId now opportunity report), io)).trace =
      w.trace ++ [e])
    (hlive' : (w.step S (.call (.finishAttempt runId now opportunity report), io)).live = some s')
    (hok : e.result = .ok reply) : s'.state = finished s.policy now opportunity report s.state := by
  have hreturns := returns_call hlive htrace hlive' hok
  obtain ⟨events, report', hr⟩ := run_finishAttempt s.policy now runId opportunity report s.state
  rw [Returns, hr] at hreturns
  exact (congrArg Prod.snd hreturns).symm

end limited

/-! ### Deadlines of a report -/

/-- A failed request that the provider limits: it says so, or it is refused with a status that
means so at this stage of a provider of this kind. -/
def RateLimiting (providerKind : ProviderKind) (failure : MeasurementEvent) : Prop :=
  failure.eventKind = .requestFailure ∧ ∃ stage ∈ failure.requestStage,
    failure.outcome = .rateLimited ∨ failure.requestHttpStatus = some 429 ∨
    (stage = .locate ∧ providerKind = .mlab ∧
      (failure.requestHttpStatus = some 204 ∨ failure.requestHttpStatus = some 503)) ∨
    (stage = .websocketHandshake ∧ providerKind = .direct ∧
      failure.requestHttpStatus = some 503)

/-- The deadlines that the rate-limiting failures of a report name. -/
def Asks (providerKind : ProviderKind) (report : BandwidthReport) (d : ℤ) : Prop :=
  ∃ failure ∈ report.events, RateLimiting providerKind failure ∧ d ∈ failure.requestRetryAtUtc

/-- The cooldown after an attempt is not before the one in force, nor before any deadline that
the report asks for. -/
structure Honours (providerKind : ProviderKind) (report : BandwidthReport)
    (st st' : ProviderState) : Prop where
  previous : ∀ c ∈ st.cooldownUntilUtc, ∃ c' ∈ st'.cooldownUntilUtc, c ≤ c'
  deadlines : ∀ d, Asks providerKind report d → ∃ c' ∈ st'.cooldownUntilUtc, d ≤ c'

/-- The end of a wait that no failure names: the initial cooldown, doubled with each step, is cut
at the ceiling and jittered by the record's next random number. -/
def fallback (policy : SchedulerPolicy) (now : ℤ) (st : ProviderState) : ℤ :=
  let base := (checkedMul policy.cooldownInitial (2 ^ min st.backoffStep 4)).getD policy.cooldownMax
  addDuration now (jitterDuration st (min base policy.cooldownMax)).1

/-- The jitter does not look at the step. -/
lemma addDuration_nextBackoff (policy : SchedulerPolicy) (now : ℤ) (st : ProviderState) :
    addDuration now (nextBackoff policy st).1 = fallback policy now st := by
  unfold nextBackoff fallback jitterDuration
  dsimp only
  split_ifs <;> rfl

/-- No failure of the report that is rate limiting names a deadline after both the cooldown in
force and the deadline of the first one, which is its own or, where it names none, the
fallback. -/
def FirstCovers (policy : SchedulerPolicy) (now : ℤ) (report : BandwidthReport)
    (st : ProviderState) : Prop :=
  ∃ before first after, report.events = before ++ first :: after ∧
    (∀ failure ∈ before, ¬ RateLimiting policy.providerKind failure) ∧
    RateLimiting policy.providerKind first ∧
    ∀ later ∈ after, RateLimiting policy.providerKind later → ∀ d ∈ later.requestRetryAtUtc,
      d ≤ first.requestRetryAtUtc.getD (fallback policy now st) ∨ ∃ c ∈ st.cooldownUntilUtc, d ≤ c

section report
variable {policy : SchedulerPolicy} {providerKind : ProviderKind} {report : BandwidthReport}
  {failure first : MeasurementEvent} {before after : List MeasurementEvent}

/-- A failure is classified as a rate limit exactly if it is rate limiting, with its deadline. -/
lemma rateLimitFromEvent_eq_some :
    (∃ limit, rateLimitFromEvent providerKind failure = some limit ∧
      limit.deadline = failure.requestRetryAtUtc) ↔ RateLimiting providerKind failure := by
  unfold rateLimitFromEvent RateLimiting
  by_cases hkind : failure.eventKind = .requestFailure
  · cases failure.requestStage with
    | none => simp
    | some stage => simp [hkind, or_assoc, and_assoc]
  · simp [hkind]

lemma rateLimitFromEvent_eq_none :
    rateLimitFromEvent providerKind failure = none ↔ ¬ RateLimiting providerKind failure := by
  rw [← rateLimitFromEvent_eq_some]
  unfold rateLimitFromEvent
  split_ifs with hkind
  · simp
  · cases failure.requestStage with
    | none => simp
    | some stage => simp [imp_iff_not_or]

/-- The first rate-limiting failure of a report gives the deadline. -/
lemma rateLimitFromReport_split (hevents : report.events = before ++ first :: after)
    (hbefore : ∀ failure ∈ before, ¬ RateLimiting providerKind failure)
    (hfirst : RateLimiting providerKind first) :
    ∃ limit, rateLimitFromReport report providerKind = some limit ∧
      limit.deadline = first.requestRetryAtUtc := by
  obtain ⟨limit, hlimit, hdeadline⟩ := rateLimitFromEvent_eq_some.mpr hfirst
  refine ⟨limit, List.findSome?_eq_some_iff.mpr ⟨before, first, after, hevents, hlimit, ?_⟩,
    hdeadline⟩
  exact fun failure hmem => rateLimitFromEvent_eq_none.mpr (hbefore failure hmem)

lemma exists_first (h : ∃ failure ∈ report.events, RateLimiting providerKind failure) :
    ∃ before first after, report.events = before ++ first :: after ∧
      (∀ failure ∈ before, ¬ RateLimiting providerKind failure) ∧
      RateLimiting providerKind first := by
  obtain ⟨failure, hmem, hlimiting⟩ := h
  cases hlimit : rateLimitFromReport report providerKind with
  | none =>
    have hnone := List.findSome?_eq_none_iff.mp hlimit failure hmem
    exact absurd hlimiting (rateLimitFromEvent_eq_none.mp hnone)
  | some limit =>
    obtain ⟨before, first, after, hevents, hsome, hbefore⟩ :=
      List.findSome?_eq_some_iff.mp hlimit
    refine ⟨before, first, after, hevents, fun failure hmem => ?_, ?_⟩
    · exact rateLimitFromEvent_eq_none.mp (hbefore failure hmem)
    · by_contra hnot
      rw [rateLimitFromEvent_eq_none.mpr hnot] at hsome
      cases hsome

/-- The cooldown that the first failure asks for covers all deadlines exactly if it covers those
of the failures after it. -/
lemma asks_le_iff (hevents : report.events = before ++ first :: after)
    (hbefore : ∀ failure ∈ before, ¬ RateLimiting providerKind failure)
    {deadline : ℤ} (hown : ∀ d ∈ first.requestRetryAtUtc, d ≤ deadline) {P : ℤ → Prop} :
    (∀ d, Asks providerKind report d → d ≤ deadline ∨ P d) ↔
      ∀ later ∈ after, RateLimiting providerKind later → ∀ d ∈ later.requestRetryAtUtc,
        d ≤ deadline ∨ P d := by
  constructor
  · intro h later hlater hlimiting d hd
    exact h d ⟨later, by simp [hevents, hlater], hlimiting, hd⟩
  · rintro h d ⟨failure, hmem, hlimiting, hd⟩
    rw [hevents, List.mem_append, List.mem_cons] at hmem
    rcases hmem with hmem | rfl | hmem
    · exact absurd hlimiting (hbefore failure hmem)
    · exact .inl (hown d hd)
    · exact h failure hmem hlimiting d hd

end report

/-- **Deadlines**: after a rate-limited attempt the cooldown covers every deadline of its report,
exactly if no later failure names a deadline after both that of the first rate-limiting one and
the cooldown in force. -/
theorem honours_iff {S : Serde} {w : System} {s s' : Scheduler} {runId : RunId} {now : ℤ}
    {opportunity : BandwidthOpportunity} {report report' : BandwidthReport} {io : List Io}
    {e : Entry} {events : List MeasurementEvent} (hlive : w.live = some s)
    (htrace : (w.step S (.call (.finishAttempt runId now opportunity report), io)).trace =
      w.trace ++ [e])
    (hlive' : (w.step S (.call (.finishAttempt runId now opportunity report), io)).live = some s')
    (hok : e.result = .ok (.finished events report'))
    (hlimited : ∃ failure ∈ report.events, RateLimiting s.policy.providerKind failure) :
    Honours s.policy.providerKind report s.state s'.state ↔
      FirstCovers s.policy now report s.state := by
  have hsplit : ∀ before first after, report.events = before ++ first :: after →
      (∀ failure ∈ before, ¬ RateLimiting s.policy.providerKind failure) →
      RateLimiting s.policy.providerKind first →
      (Honours s.policy.providerKind report s.state s'.state ↔
        ∀ later ∈ after, RateLimiting s.policy.providerKind later →
          ∀ d ∈ later.requestRetryAtUtc,
            d ≤ first.requestRetryAtUtc.getD (fallback s.policy now s.state) ∨
            ∃ c ∈ s.state.cooldownUntilUtc, d ≤ c) := by
    intro before first after hevents hbefore hfirst
    obtain ⟨limit, hlimit, hdeadline⟩ := rateLimitFromReport_split hevents hbefore hfirst
    have hlimitDeadline : limitDeadline s.policy now limit s.state =
        first.requestRetryAtUtc.getD (fallback s.policy now s.state) := by
      rw [limitDeadline, hdeadline, addDuration_nextBackoff]
    have hcooldown : s'.state.cooldownUntilUtc = some (cooldownAfter s.state
        (first.requestRetryAtUtc.getD (fallback s.policy now s.state))) := by
      rw [finished_of_step hlive htrace hlive' hok, ← hlimitDeadline]
      exact (limited_finished s.policy now hlimit).1
    have hown : ∀ d ∈ first.requestRetryAtUtc,
        d ≤ first.requestRetryAtUtc.getD (fallback s.policy now s.state) := by
      intro d hd
      rw [Option.mem_def.mp hd, Option.getD_some]
    rw [← asks_le_iff hevents hbefore hown]
    constructor
    · intro h d hd
      obtain ⟨c', hc', hle⟩ := h.deadlines d hd
      rw [hcooldown, Option.mem_some_iff] at hc'
      exact le_cooldownAfter_iff.mp (hc' ▸ hle)
    · intro h
      refine ⟨fun c hc => ⟨_, hcooldown, cooldown_le_cooldownAfter hc⟩, fun d hd => ?_⟩
      exact ⟨_, hcooldown, le_cooldownAfter_iff.mpr (h d hd)⟩
  constructor
  · intro h
    obtain ⟨before, first, after, hevents, hbefore, hfirst⟩ := exists_first hlimited
    exact ⟨before, first, after, hevents, hbefore, hfirst,
      (hsplit before first after hevents hbefore hfirst).mp h⟩
  · rintro ⟨before, first, after, hevents, hbefore, hfirst, hafter⟩
    exact (hsplit before first after hevents hbefore hfirst).mpr hafter

/-- A handshake that was refused until a time. -/
def refusedHandshake (outcome : Outcome) (status : ℕ) (retryAt : ℤ) : MeasurementEvent :=
  { MeasurementEvent.new 1 .requestFailure outcome 0 with
    requestStage := some .websocketHandshake
    requestHttpStatus := some status
    requestRetryAtUtc := some retryAt }

/-- The download is refused for a minute, then the upload for an hour, or the other way round. -/
def refusedReport (first second : ℤ) : BandwidthReport where
  events := [refusedHandshake .noCapacity 503 first, refusedHandshake .rateLimited 429 second]
  outcome := .rateLimited
  reserved := true
  reservationError := none

/-- What is left of a run whose attempt was refused. -/
lemma refused_run (first second : ℤ) : ∃ w s s' e events report',
    Reaches Encoding.formats InOrder w ∧ w.live = some s ∧ s.policy = directPolicy ∧
    s.state = newState directPolicy 0 1 ∧
    (w.step Encoding.formats (.call (.finishAttempt 1 0 Opportunities.scheduledOpportunity
      (refusedReport first second)), [])).trace = w.trace ++ [e] ∧
    (w.step Encoding.formats (.call (.finishAttempt 1 0 Opportunities.scheduledOpportunity
      (refusedReport first second)), [])).live = some s' ∧
    e.result = .ok (.finished events report') := by
  obtain ⟨s, L, hcalm, -⟩ := @calm_first Encoding.formats directPolicy 0 1 (.replicate 16 0)
  obtain ⟨events, report', hr⟩ := run_finishAttempt directPolicy 0 1
    Opportunities.scheduledOpportunity (refusedReport first second) (newState directPolicy 0 1)
  obtain ⟨s', L', e, hcalm', htrace, htold, -⟩ := hcalm.call
    (.finishAttempt 1 0 Opportunities.scheduledOpportunity (refusedReport first second)) (by
      rw [hr]
      exact (by decide : 1 + 1 ≤ u64Max))
  refine ⟨_, s, s', e, events, report', .step .first ?_, hcalm.live, hcalm.samePolicy,
    hcalm.state, htrace, hcalm'.live, ?_⟩
  · rintro clock ⟨⟩
  · rw [result_of_told htold, hr]

/-- **A later deadline is lost**: the download is refused for a minute and the upload for an
hour; the cooldown is over after a minute. -/
theorem later_deadline_lost : ¬ ∀ (w : System) (s s' : Scheduler) (runId : RunId) (now : ℤ)
    (opportunity : BandwidthOpportunity) (report report' : BandwidthReport) (e : Entry)
    (events : List MeasurementEvent), Reaches Encoding.formats InOrder w → w.live = some s →
    (w.step Encoding.formats (.call (.finishAttempt runId now opportunity report), [])).trace =
      w.trace ++ [e] →
    (w.step Encoding.formats (.call (.finishAttempt runId now opportunity report), [])).live =
      some s' →
    e.result = .ok (.finished events report') →
    (∃ failure ∈ report.events, RateLimiting s.policy.providerKind failure) →
    Honours s.policy.providerKind report s.state s'.state := by
  intro h
  obtain ⟨w, s, s', e, events, report', hreach, hlive, hpolicy, hstate, htrace, hlive', hok⟩ :=
    refused_run 60000000000 3600000000000
  have hlimiting : RateLimiting s.policy.providerKind
      (refusedHandshake .rateLimited 429 3600000000000) :=
    ⟨rfl, .websocketHandshake, rfl, .inl rfl⟩
  have hhonours := h w s s' 1 0 _ _ report' e events hreach hlive htrace hlive' hok
    ⟨_, by simp [refusedReport], hlimiting⟩
  obtain ⟨c', hc', hle⟩ := hhonours.deadlines 3600000000000
    ⟨_, by simp [refusedReport], hlimiting, rfl⟩
  rw [finished_of_step hlive htrace hlive' hok, hpolicy, hstate] at hc'
  have hcooldown : (finished directPolicy 0 Opportunities.scheduledOpportunity
      (refusedReport 60000000000 3600000000000) (newState directPolicy 0 1)).cooldownUntilUtc =
      some 60000000000 := by decide +kernel
  rw [hcooldown, Option.mem_some_iff] at hc'
  omega

/-- The longer deadline comes first. -/
theorem earlier_deadline_covered : ∃ s s' : Scheduler, s.state = newState directPolicy 0 1 ∧
    Honours .direct (refusedReport 3600000000000 60000000000) s.state s'.state := by
  obtain ⟨w, s, s', e, events, report', -, hlive, hpolicy, hstate, htrace, hlive', hok⟩ :=
    refused_run 3600000000000 60000000000
  have hkind : s.policy.providerKind = .direct := by
    rw [hpolicy]
    rfl
  have hfirst : RateLimiting s.policy.providerKind
      (refusedHandshake .noCapacity 503 3600000000000) :=
    ⟨rfl, .websocketHandshake, rfl, .inr (.inr (.inr ⟨rfl, hkind, rfl⟩))⟩
  refine ⟨s, s', hstate, hkind ▸ (honours_iff hlive htrace hlive' hok
    ⟨_, by simp [refusedReport], hfirst⟩).mpr ?_⟩
  refine ⟨[], _, _, rfl, by simp, hfirst, fun later hlater _ d hd => .inl ?_⟩
  obtain rfl := List.mem_singleton.mp hlater
  cases hd
  exact (by decide : (60000000000 : ℤ) ≤ 3600000000000)

/-! ### Backoff steps -/

/-- The number of rate-limited attempts of the provider since its last successful one; an attempt
counts when its call returned or was recorded all the same. -/
def tally (P : String) (n : ℕ) (e : Entry) : ℕ :=
  match e.call with
  | .finishAttempt _ _ _ report =>
    if e.policy.providerId = P ∧ (e.recorded = true ∨ e.result.isOk = true) then
      if (rateLimitFromReport report e.policy.providerKind).isSome then n + 1
      else if successfulRequest report then 0 else n
    else n
  | _ => n

def limits (P : String) (trace : List Entry) : ℕ := trace.foldl (tally P) 0

lemma limits_concat (P : String) (trace : List Entry) (e : Entry) :
    limits P (trace ++ [e]) = tally P (limits P trace) e := by
  simp [limits, List.foldl_append]

/-- The backoff step counts the rate limits, up to four. -/
def Stepped (P : String) (trace : List Entry) (x : Option Accounting) : Prop :=
  (x.map Accounting.backoff).getD 0 = min (limits P trace) 4

section stepped
variable {P : String} {trace : List Entry} {x : Option Accounting} {a b : Accounting} {now : ℤ}
  {e : Entry}

lemma Rolls.backoff (h : Rolls now a b) : b.backoff = a.backoff := by
  cases h with
  | same _ _ _ _ hb => exact hb
  | newDay _ _ _ _ _ hb => exact hb

lemma Stepped.rolls (h : Stepped P trace (some a)) (hr : Rolls now a b) :
    Stepped P trace (some b) :=
  (Rolls.backoff hr).trans h

lemma Stepped.silent {J : Option Accounting → Prop} (h : Stepped P trace x) (he : Silent P J e) :
    Stepped P (trace ++ [e]) x := by
  have hsame : tally P (limits P trace) e = limits P trace := by
    unfold tally
    split
    · rename_i hcall
      rw [if_neg]
      rintro ⟨hP, heffect⟩
      obtain ⟨⟨err, herr⟩, hrec⟩ := he.unsaved hP (by simp [hcall, Call.Quiet])
      simp [hrec, herr, Except.isOk, Except.toBool] at heffect
    · rfl
  rw [Stepped, limits_concat, hsame]
  exact h

/-- Every step keeps the count. -/
theorem upholds_stepped (P : String) :
    Upholds P (fun _ _ => True) fun trace _ x => Stepped P trace x where
  first := rfl
  time _ _ _ _ h := h
  opens w policy now seed random x y _ _ h ho := by
    cases ho with
    | created => exact h
    | kept hr => exact h.rolls hr
  silent _ _ _ _ _ _ he h := h.silent he
  rolls _ _ _ _ _ _ _ h hr := h.rolls hr
  reserves w s now e _ _ _ h _ _ hcall _ := by
    have hrolled := h.rolls (rolls_reconcileDay s.policy (.refl now (accountingOf s.state)))
    have hsame : tally P (limits P w.trace) e = limits P w.trace := by
      unfold tally
      rw [hcall]
    rw [Stepped, limits_concat, hsame]
    exact hrolled
  finishes w s runId now opportunity report e events report' _ _ hP h hpolicy hcall _ hl := by
    have heffect : e.recorded = true ∨ e.result.isOk = true := by
      rcases hl with ⟨hok, -⟩ | ⟨-, hrec⟩
      · right
        rw [hok]
        rfl
      · exact .inl hrec
    have htally : tally P (limits P w.trace) e =
        if (rateLimitFromReport report s.policy.providerKind).isSome then limits P w.trace + 1
        else if successfulRequest report then 0 else limits P w.trace := by
      unfold tally
      simp only [hcall, hpolicy]
      rw [if_pos ⟨hP, heffect⟩]
    have hstep : s.state.backoffStep = min (limits P w.trace) 4 := h
    rw [Stepped, limits_concat, htally]
    change (finished s.policy now opportunity report s.state).backoffStep = _
    cases hlimit : rateLimitFromReport report s.policy.providerKind with
    | some limit =>
      rw [(limited_finished s.policy now hlimit).2, hstep]
      simp only [Option.isSome_some, if_true]
      omega
    | none =>
      rw [unlimited_finished s.policy now hlimit, hstep]
      simp only [Option.isSome_none, Bool.false_eq_true, if_false]
      split_ifs
      · rfl
      · rfl

end stepped

/-! ### Backoff delays -/

section backoff
variable {policy : SchedulerPolicy} {now : ℤ} {st : ProviderState} {initial ceiling : ℕ}

/-- A delay in milliseconds that is at most a fifth away from a base. -/
def Jittered (base delay : ℕ) : Prop := base - base / 5 ≤ delay ∧ delay ≤ base + base / 5

/-- Durations that are too long to be represented end at the same instant. -/
lemma addDuration_of_le {d d' : ℕ} (h : timeDeltaMax ≤ d) (h' : timeDeltaMax ≤ d') :
    addDuration now d = addDuration now d' := by
  unfold addDuration
  rw [min_eq_right h, min_eq_right h']

variable (now) in
/-- Jitter moves a duration of whole milliseconds by at most a fifth. -/
lemma jittered_jitterDuration (st : ProviderState) {base d : ℕ} (hd : d = base * 1000000) :
    ∃ delay, Jittered base delay ∧
      addDuration now (jitterDuration st d).1 = addDuration now (delay * 1000000) := by
  have hmillis : durationMillis d = min base u64Max := by
    rw [durationMillis, hd, Nat.mul_div_cancel _ (by decide)]
  unfold jitterDuration
  rw [hmillis]
  dsimp only
  rcases le_or_gt base u64Max with hle | hlt
  · rw [min_eq_left hle]
    split_ifs with hspread
    · exact ⟨base, ⟨by omega, by omega⟩, by rw [hd]⟩
    · generalize (nextRandom st.rngState).toNat = draw
      have hbound : draw % min (min (base / 5 * 2) u64Max + 1) u64Max < base / 5 * 2 + 1 := by
        have hmin : min (min (base / 5 * 2) u64Max + 1) u64Max ≤ base / 5 * 2 + 1 := by omega
        refine (Nat.mod_lt _ ?_).trans_le hmin
        have hu : 1 < u64Max := by decide
        omega
      refine ⟨_, ⟨?_, ?_⟩, rfl⟩
      · omega
      · omega
  · -- both are too long
    rw [min_eq_right hlt.le]
    have hspread : ¬ u64Max / 5 = 0 := by decide
    rw [if_neg hspread]
    refine ⟨base, ⟨by omega, by omega⟩, addDuration_of_le ?_ ?_⟩
    · have hlong : timeDeltaMax ≤ (u64Max - u64Max / 5) * 1000000 := by decide
      refine hlong.trans (Nat.mul_le_mul_right _ ?_)
      omega
    · have hlong : timeDeltaMax ≤ u64Max * 1000000 := by decide
      exact hlong.trans (Nat.mul_le_mul_right _ hlt.le)

/-- The base of the backoff after so many rate limits, in milliseconds. -/
def doubled (initial ceiling count : ℕ) : ℕ := min (initial * 2 ^ count) ceiling

/-- A product that is too long to be represented is over the ceiling. -/
lemma capped_product {d k c product : ℕ} (hd : d * k = product * 1000000)
    (hc : c = ceiling * 1000000) (hrep : c / 1000000000 ≤ u64Max) :
    min ((checkedMul d k).getD c) c = min product ceiling * 1000000 := by
  unfold checkedMul
  generalize d * k = x at hd
  split_ifs with hfits
  · rw [Option.getD_some]
    omega
  · rw [Option.getD_none]
    omega

/-- The backoff of a record doubles with its step. -/
lemma jittered_nextBackoff (hinitial : policy.cooldownInitial = initial * 1000000)
    (hceiling : policy.cooldownMax = ceiling * 1000000)
    (hrep : policy.cooldownMax / 1000000000 ≤ u64Max) (now : ℤ) (st : ProviderState) :
    ∃ delay, Jittered (doubled initial ceiling (min st.backoffStep 4)) delay ∧
      addDuration now (nextBackoff policy st).1 = addDuration now (delay * 1000000) := by
  have hscale : policy.cooldownInitial * 2 ^ min st.backoffStep 4 =
      initial * 2 ^ min st.backoffStep 4 * 1000000 := by
    rw [hinitial]
    ring
  exact jittered_jitterDuration now _ (capped_product hscale hceiling hrep)

end backoff

/-- **Backoff**: whatever happened before, after `k` rate limits since the last success the next
one without a deadline adds to its time a delay around the initial cooldown, doubled up to four
times and at most the ceiling. -/
theorem backoff_doubles {S : Serde} {w : System} {s s' : Scheduler} {runId : RunId} {now : ℤ}
    {opportunity : BandwidthOpportunity} {report : BandwidthReport} {io : List Io} {e : Entry}
    {reply : Reply} {limit : RateLimit} {initial ceiling k : ℕ}
    (h : Reaches S (fun _ _ => True) w) (hlive : w.live = some s)
    (hinitial : s.policy.cooldownInitial = initial * 1000000)
    (hceiling : s.policy.cooldownMax = ceiling * 1000000)
    (hrep : s.policy.cooldownMax / 1000000000 ≤ u64Max)
    (hk : limits s.policy.providerId w.trace = k)
    (htrace : (w.step S (.call (.finishAttempt runId now opportunity report), io)).trace =
      w.trace ++ [e])
    (hlive' : (w.step S (.call (.finishAttempt runId now opportunity report), io)).live = some s')
    (hok : e.result = .ok reply)
    (hlimit : rateLimitFromReport report s.policy.providerKind = some limit)
    (hnone : limit.deadline = none) :
    ∃ delay, Jittered (doubled initial ceiling (min k 4)) delay ∧
      limitDeadline s.policy now limit s.state = addDuration now (delay * 1000000) ∧
      s'.state.cooldownUntilUtc =
        some (cooldownAfter s.state (addDuration now (delay * 1000000))) := by
  obtain ⟨events, report', hr⟩ := run_finishAttempt s.policy now runId opportunity report s.state
  have hun : s.persistence.poisoned = false :=
    unpoisoned_of_ok hlive htrace hok (by simp [hr])
  have hstep : s.state.backoffStep = min k 4 := by
    rw [← hk]
    exact upheld_of_live kept_validState (upholds_stepped s.policy.providerId) h hlive hun rfl
  obtain ⟨delay, hjitter, hdeadline⟩ := jittered_nextBackoff hinitial hceiling hrep now s.state
  rw [hstep, min_eq_left (min_le_right k 4)] at hjitter
  have hlimitDeadline : limitDeadline s.policy now limit s.state =
      addDuration now (delay * 1000000) := by
    rw [limitDeadline, hnone]
    exact hdeadline
  refine ⟨delay, hjitter, hlimitDeadline, ?_⟩
  rw [finished_of_step hlive htrace hlive' hok, (limited_finished s.policy now hlimit).1,
    hlimitDeadline]

/-! ### A ceiling that is not reached -/

/-- The default settings, with a ceiling of an hour. -/
def hourPolicy : SchedulerPolicy := { mlabPolicy with cooldownMax := 3600000000000 }

/-- An attempt that discovery refused without a deadline. -/
def fallbackReport : BandwidthReport where
  events := [{ MeasurementEvent.new 1 .requestFailure .rateLimited 0 with
    requestStage := some .locate }]
  outcome := .rateLimited
  reserved := false
  reservationError := none

def fallbackCall : Call := .finishAttempt 1 0 Opportunities.scheduledOpportunity fallbackReport

/-- The record after some refused attempts. -/
def refusedState (policy : SchedulerPolicy) (n : ℕ) : ProviderState :=
  (Steps.tell policy (newState policy 0 1) (.replicate n fallbackCall)).1

noncomputable def refusedSystem (policy : SchedulerPolicy) (n : ℕ) : System :=
  calmRun Encoding.formats policy 0 1 (.replicate 16 0) (.replicate n fallbackCall)

section refused
variable {policy : SchedulerPolicy} {st : ProviderState}

lemma told_replicate (n : ℕ) : (Steps.tell policy st (.replicate n fallbackCall)).2.length = n ∧
    ∀ t ∈ (Steps.tell policy st (.replicate n fallbackCall)).2,
      t.1 = policy ∧ t.2.1 = fallbackCall ∧ t.2.2.isOk = true := by
  induction n generalizing st with
  | zero => simp [Steps.tell]
  | succ n ih =>
    obtain ⟨events, report', hr⟩ := run_finishAttempt policy 0 1
      Opportunities.scheduledOpportunity fallbackReport st
    obtain ⟨hlen, hall⟩ := @ih (fallbackCall.run policy st).2.2
    rw [List.replicate_succ, Steps.tell]
    refine ⟨by simp [hlen], fun t ht => ?_⟩
    rcases List.mem_cons.mp ht with rfl | ht
    · refine ⟨rfl, rfl, ?_⟩
      rw [fallbackCall, hr]
      rfl
    · exact hall t ht

lemma savedBy_replicate (n : ℕ) : savedBy policy st (.replicate n fallbackCall) = n := by
  induction n generalizing st with
  | zero => rfl
  | succ n ih =>
    obtain ⟨events, report', hr⟩ := run_finishAttempt policy 0 1
      Opportunities.scheduledOpportunity fallbackReport st
    have hone : (fallbackCall.run policy st).1.length = 1 := by
      rw [fallbackCall, hr]
      rfl
    rw [List.replicate_succ, savedBy, hone, ih, Nat.add_comm]

/-- Every entry is a rate limit of the provider. -/
lemma limits_of_told {trace : List Entry}
    (h : ∀ t ∈ trace.map told, t.1 = policy ∧ t.2.1 = fallbackCall ∧ t.2.2.isOk = true) :
    limits policy.providerId trace = trace.length := by
  induction trace using List.reverseRecOn with
  | nil => rfl
  | append_singleton trace e ih =>
    obtain ⟨hpolicy, hcall, hok⟩ := h (told e) (by simp)
    have hpolicy : e.policy = policy := hpolicy
    have hcall : e.call = fallbackCall := hcall
    have hok : e.result.isOk = true := hok
    have hlimited : (rateLimitFromReport fallbackReport e.policy.providerKind).isSome = true := rfl
    rw [limits_concat, ih fun t ht => h t (by simp [ht]), tally, hcall, fallbackCall]
    dsimp only
    rw [if_pos ⟨by rw [hpolicy], .inr hok⟩, if_pos hlimited, List.length_append,
      List.length_singleton]

lemma calm_refused (policy : SchedulerPolicy) {n : ℕ} (hn : n ≤ 1000) : ∃ s L s' e reply,
    Calm Encoding.formats policy (refusedState policy n) (1 + n) s L (refusedSystem policy n) ∧
    limits policy.providerId (refusedSystem policy n).trace = n ∧
    ((refusedSystem policy n).step Encoding.formats (.call fallbackCall, [])).trace =
      (refusedSystem policy n).trace ++ [e] ∧
    ((refusedSystem policy n).step Encoding.formats (.call fallbackCall, [])).live = some s' ∧
    e.result = .ok reply := by
  have hbound : 1 + savedBy policy (newState policy 0 1) (.replicate n fallbackCall) ≤ u64Max := by
    rw [savedBy_replicate]
    have hu : 1001 ≤ u64Max := by decide
    omega
  obtain ⟨s, L, hcalm, htrace⟩ := @calmRun_spec Encoding.formats policy 0 1
    (.replicate 16 0) _ hbound
  obtain ⟨hlen, hall⟩ := @told_replicate policy (newState policy 0 1) n
  rw [← htrace] at hlen hall
  obtain ⟨events, report', hr⟩ := run_finishAttempt policy 0 1
    Opportunities.scheduledOpportunity fallbackReport (refusedState policy n)
  obtain ⟨s', L', e, hcalm', hstep, htold, -⟩ := hcalm.call fallbackCall (by
    rw [savedBy_replicate, fallbackCall]
    change 1 + n + ((Call.finishAttempt 1 0 Opportunities.scheduledOpportunity
      fallbackReport).run policy (refusedState policy n)).1.length ≤ u64Max
    rw [hr]
    have hu : 1002 ≤ u64Max := by decide
    simp only [List.length_singleton]
    omega)
  rw [savedBy_replicate] at hcalm
  refine ⟨s, L, s', e, .finished events report', hcalm, ?_, hstep, hcalm'.live, ?_⟩
  · exact (limits_of_told hall).trans (by simpa using hlen)
  · rw [result_of_told htold]
    exact congrArg (·.2.1) hr

end refused

/-- **A ceiling that is not reached**: the sixth backoff from a minute is not half an hour, although
the ceiling is an hour. -/
theorem backoff_stops_doubling : ¬ ∀ (w : System) (s s' : Scheduler) (runId : RunId) (now : ℤ)
    (opportunity : BandwidthOpportunity) (report : BandwidthReport) (e : Entry) (reply : Reply)
    (limit : RateLimit) (initial ceiling k : ℕ), Reaches Encoding.formats (fun _ _ => True) w →
    w.live = some s → s.policy.cooldownInitial = initial * 1000000 →
    s.policy.cooldownMax = ceiling * 1000000 → initial ≤ ceiling →
    limits s.policy.providerId w.trace = k →
    (w.step Encoding.formats (.call (.finishAttempt runId now opportunity report), [])).trace =
      w.trace ++ [e] →
    (w.step Encoding.formats (.call (.finishAttempt runId now opportunity report), [])).live =
      some s' →
    e.result = .ok reply → rateLimitFromReport report s.policy.providerKind = some limit →
    limit.deadline = none →
    ∃ delay, Jittered (doubled initial ceiling k) delay ∧
      limitDeadline s.policy now limit s.state = addDuration now (delay * 1000000) ∧
      s'.state.cooldownUntilUtc =
        some (cooldownAfter s.state (addDuration now (delay * 1000000))) := by
  intro h
  obtain ⟨s, L, s', e, reply, hcalm, hlimits, htrace, hlive', hok⟩ :=
    @calm_refused hourPolicy 5 (by decide)
  have hreach : Reaches Encoding.formats (fun _ _ => True) (refusedSystem hourPolicy 5) :=
    reaches_calmRun 0 1 (.replicate 16 0) _ trivial fun _ => trivial
  obtain ⟨delay, ⟨hlow, hhigh⟩, hdeadline, -⟩ := h _ s s' 1 0 _ fallbackReport e reply
    ⟨none, .locate, none, none⟩ 60000 3600000 5 hreach hcalm.live (by rw [hcalm.samePolicy]; rfl)
    (by rw [hcalm.samePolicy]; rfl) (by decide) (by rw [hcalm.samePolicy]; exact hlimits) htrace
    hlive' hok (by rw [hcalm.samePolicy]; rfl) rfl
  rw [hcalm.samePolicy, hcalm.state] at hdeadline
  have hcode : limitDeadline hourPolicy 0 ⟨none, .locate, none, none⟩ (refusedState hourPolicy 5) ≤
      1152000000000 := by decide +kernel
  have hbase : doubled 60000 3600000 5 = 1920000 := by decide
  rw [hbase] at hlow hhigh
  have hplain : addDuration 0 (delay * 1000000) = (delay * 1000000 : ℕ) := by
    have hmax : timeDeltaMax = 9223372036854775807000000 := by decide
    have hutc : maxUtc = 8210266876799999999999 := by decide
    unfold addDuration
    rw [hmax, hutc, min_eq_left (by omega)]
    dsimp only
    rw [if_pos (by omega)]
    omega
  omega

/-- The fifth backoff from a minute is around sixteen minutes. -/
theorem fifth_backoff : ∃ (s' : Scheduler) (delay : ℕ), 768000 ≤ delay ∧ delay ≤ 1152000 ∧
    s'.state.cooldownUntilUtc = some (cooldownAfter (refusedState mlabPolicy 4)
      (addDuration 0 (delay * 1000000))) := by
  obtain ⟨s, L, s', e, reply, hcalm, hlimits, htrace, hlive', hok⟩ :=
    @calm_refused mlabPolicy 4 (by decide)
  have hreach : Reaches Encoding.formats (fun _ _ => True) (refusedSystem mlabPolicy 4) :=
    reaches_calmRun 0 1 (.replicate 16 0) _ trivial fun _ => trivial
  have hinitial : s.policy.cooldownInitial = 60000 * 1000000 := by
    rw [hcalm.samePolicy]
    rfl
  have hceiling : s.policy.cooldownMax = 960000 * 1000000 := by
    rw [hcalm.samePolicy]
    rfl
  have hlimit : rateLimitFromReport fallbackReport s.policy.providerKind =
      some ⟨none, .locate, none, none⟩ := by
    rw [hcalm.samePolicy]
    rfl
  have hcount : limits s.policy.providerId (refusedSystem mlabPolicy 4).trace = 4 := by
    rw [hcalm.samePolicy]
    exact hlimits
  obtain ⟨delay, ⟨hlow, hhigh⟩, -, hcooldown⟩ := backoff_doubles hreach hcalm.live hinitial
    hceiling (by rw [hceiling]; decide) hcount htrace hlive' hok hlimit rfl
  have hbase : doubled 60000 960000 (min 4 4) = 960000 := by decide
  rw [hbase] at hlow hhigh
  rw [hcalm.state] at hcooldown
  exact ⟨s', delay, by omega, by omega, hcooldown⟩

end Netband.Cooldowns

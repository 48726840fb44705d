import Netband.Cooldowns
import Netband.Cuts

/-!
The wait after a rate limit: until the deadline that an attempt has left no run is let in, whatever
happens meanwhile, unless an attempt succeeds.
-/

namespace Netband.Waits

open Netband.Time Netband.Model Netband.State Netband.Plan Netband.Effects Netband.Lines
open Netband.Recovery Netband.Scheduling Netband.World Netband.Edits Netband.Steps Netband.Runs
open Netband.Cooldowns

/-- The deadline that a rate-limited attempt of the provider has left, which its event says. -/
def deadlineOf (P : String) (e : Entry) : Option ℤ :=
  match e.call, e.result with
  | .finishAttempt _ _ _ report, .ok (.finished events _) =>
    if e.policy.providerId = P ∧
        (rateLimitFromReport report e.policy.providerKind).isSome = true then
      events.head?.bind MeasurementEvent.schedulerNotBeforeUtc
    else none
  | _, _ => none

/-- An attempt of the provider had a success and no rate limit. -/
def Succeeds (P : String) (e : Entry) : Prop :=
  e.policy.providerId = P ∧ ∃ runId now opportunity report,
    e.call = .finishAttempt runId now opportunity report ∧
    rateLimitFromReport report e.policy.providerKind = none ∧ successfulRequest report = true

/-- Its call has returned. -/
def Returned (P : String) (e : Entry) : Prop := Succeeds P e ∧ e.result.isOk = true

/-- Its call has returned, or has failed after its record was in the ledger. -/
def TakesEffect (P : String) (e : Entry) : Prop :=
  Succeeds P e ∧ (e.recorded = true ∨ e.result.isOk = true)

/-- The time of an unforced call that lets a run of the provider in. -/
def admits (P : String) (e : Entry) : Option ℤ :=
  if e.policy.providerId = P ∧ e.policy.forceLimits = false then
    match e.call, e.result with
    | .reserveRun now, .ok (.reserved _) => some now
    | .preflightManual _ now, .ok (.preflighted .allowed) => some now
    | _, _ => none
  else none

/-- The deadline was left by an attempt, and nothing has cleared it since. -/
def InForce (clears : Entry → Prop) (P : String) (trace : List Entry) (d : ℤ) : Prop :=
  ∃ earlier first later, trace = earlier ++ first :: later ∧ d ∈ deadlineOf P first ∧
    ∀ e ∈ later, ¬ clears e

/-- Before a deadline that is in force no run is let in, and a rate limit leaves no earlier one. -/
structure Waited (clears : Entry → Prop) (P : String) (before : List Entry) (e : Entry) :
    Prop where
  admits : ∀ d, InForce clears P before d → ∀ now ∈ admits P e, d ≤ now
  limits : ∀ d, InForce clears P before d → ∀ now ∈ e.call.now, now < d →
    ∀ d' ∈ deadlineOf P e, d ≤ d'

/-- The time is past the deadline, or the cooldown lasts until then. -/
def Covers (clock : Option ℤ) (x : Option Accounting) (d : ℤ) : Prop :=
  (∃ t ∈ clock, d ≤ t) ∨ ∃ a ∈ x, ∃ c ∈ a.cooldown, d ≤ c

/-- Every entry has waited, and every deadline in force is covered. -/
def Covered (P : String) (trace : List Entry) (clock : Option ℤ) (x : Option Accounting) : Prop :=
  Throughout (Waited (TakesEffect P) P) trace ∧
    ∀ d, InForce (TakesEffect P) P trace d → Covers clock x d

section entries
variable {clears : Entry → Prop} {P : String} {trace : List Entry} {e : Entry} {d : ℤ}
  {J : Option Accounting → Prop}

lemma not_inForce_nil : ¬ InForce clears P [] d := by
  rintro ⟨earlier, first, later, h, -⟩
  simp at h

lemma inForce_concat : InForce clears P (trace ++ [e]) d ↔
    d ∈ deadlineOf P e ∨ InForce clears P trace d ∧ ¬ clears e := by
  constructor
  · rintro ⟨earlier, first, later, h, hd, hlater⟩
    rcases List.eq_nil_or_concat later with rfl | ⟨later, x, rfl⟩
    · obtain ⟨rfl, he⟩ := List.append_inj' h rfl
      obtain rfl : e = first := by simpa using he
      exact .inl hd
    · rw [List.concat_eq_append, ← List.cons_append, ← List.append_assoc] at h
      obtain ⟨rfl, he⟩ := List.append_inj' h rfl
      obtain rfl : e = x := by simpa using he
      refine .inr ⟨⟨earlier, first, later, rfl, hd, fun y hy => hlater y ?_⟩, hlater e ?_⟩
      · simp [hy]
      · simp
  · rintro (hd | ⟨⟨earlier, first, later, rfl, hd, hlater⟩, he⟩)
    · exact ⟨trace, e, [], rfl, hd, by simp⟩
    · refine ⟨earlier, first, later ++ [e], by simp, hd, fun x hx => ?_⟩
      rcases List.mem_append.mp hx with hx | hx
      · exact hlater x hx
      · rwa [List.mem_singleton.mp hx]

lemma Silent.deadlineOf (h : Silent P J e) : deadlineOf P e = none := by
  unfold Waits.deadlineOf
  split
  · rename_i hcall hok
    refine if_neg fun hlimited => ?_
    obtain ⟨⟨err, he⟩, -⟩ := h.unsaved hlimited.1 (by simp [hcall, Call.Quiet])
    rw [hok] at he
    cases he
  · rfl

lemma admits_eq {now : ℤ} (h : now ∈ admits P e) :
    e.policy.providerId = P ∧ e.policy.forceLimits = false ∧ e.call.now = some now ∧
      ((∃ g, grant P e = some g) ∨ ∃ runId, e.call = .preflightManual runId now ∧
        e.result = .ok (.preflighted .allowed)) := by
  unfold admits at h
  by_cases hP : e.policy.providerId = P ∧ e.policy.forceLimits = false
  swap
  · rw [if_neg hP] at h
    cases h
  rw [if_pos hP] at h
  refine ⟨hP.1, hP.2, ?_⟩
  split at h
  · rename_i hcall hok
    cases h
    refine ⟨by rw [hcall]; rfl, .inl ?_⟩
    unfold grant
    rw [hcall, hok]
    exact ⟨_, if_pos hP.1⟩
  · rename_i runId now' hcall hok
    cases h
    exact ⟨by rw [hcall]; rfl, .inr ⟨runId, hcall, hok⟩⟩
  · cases h

end entries

section covers
variable {clock now' : Option ℤ} {x : Option Accounting} {a b : Accounting} {now d : ℤ}

lemma Covers.later (h : Covers clock x d) (now' : Option ℤ) : Covers (laterOf clock now') x d := by
  refine h.imp_left ?_
  rintro ⟨t, ht, hle⟩
  rw [Option.mem_def] at ht
  subst ht
  cases now' with
  | none => exact ⟨t, rfl, hle⟩
  | some now => exact ⟨max t now, rfl, le_max_of_le_left hle⟩

lemma covers_of_le (h : d ≤ now) : Covers (laterOf clock (some now)) x d := by
  left
  cases clock with
  | none => exact ⟨now, rfl, h⟩
  | some t => exact ⟨max t now, rfl, le_max_of_le_right h⟩

/-- A new day drops a cooldown only when it is over. -/
lemma Covers.rolls (h : Covers clock (some a) d) (hr : Rolls now a b) :
    Covers (laterOf clock (some now)) (some b) d := by
  rcases h with h | ⟨_, ⟨⟩, c, hc, hle⟩
  · exact Covers.later (.inl h) _
  cases hr with
  | same _ _ _ hcooldown => exact .inr ⟨b, rfl, c, hcooldown ▸ hc, hle⟩
  | newDay _ _ _ _ hcooldown =>
    by_cases hlt : now < c
    · refine .inr ⟨b, rfl, c, ?_, hle⟩
      rw [hcooldown, Option.mem_def.mp hc]
      simp [hlt]
    · exact covers_of_le (hle.trans (not_lt.mp hlt))

lemma Covers.of_cooldown (h : Covers clock (some a) d)
    (hb : ∀ c ∈ a.cooldown, ∃ c' ∈ b.cooldown, c ≤ c') : Covers clock (some b) d := by
  refine h.imp_right ?_
  rintro ⟨_, ⟨⟩, c, hc, hle⟩
  obtain ⟨c', hc', hcc'⟩ := hb c hc
  exact ⟨b, rfl, c', hc', hle.trans hcc'⟩

/-- What is covered at a time by a cooldown that is over is past. -/
lemma Covers.le (h : Covers clock (some a) d) (hclock : ∀ t ∈ clock, t ≤ now)
    (hover : ∀ c ∈ a.cooldown, c ≤ now) : d ≤ now := by
  rcases h with ⟨t, ht, hle⟩ | ⟨_, ⟨⟩, c, hc, hle⟩
  · exact hle.trans (hclock t ht)
  · exact hle.trans (hover c hc)

end covers

section covered
variable {P : String} {trace : List Entry} {clock : Option ℤ} {x y : Option Accounting} {e : Entry}
  {now : ℤ}

/-- One entry more that clears nothing and leaves no deadline. -/
lemma Covered.concat (h : Covered P trace clock x) (he : deadlineOf P e = none)
    (hadmits : ∀ d, InForce (TakesEffect P) P trace d → ∀ now ∈ admits P e, d ≤ now)
    (hy : ∀ d, InForce (TakesEffect P) P trace d → Covers clock y d) :
    Covered P (trace ++ [e]) clock y := by
  refine ⟨throughout_concat.mpr ⟨h.1, hadmits, fun d _ now _ _ d' hd' => ?_⟩, fun d hd => ?_⟩
  · rw [he] at hd'
    cases hd'
  · rcases inForce_concat.mp hd with hd | ⟨hd, -⟩
    · rw [he] at hd
      cases hd
    · exact hy d hd

lemma laterOf_le (h : ∀ t ∈ clock, t ≤ now) : ∀ t ∈ laterOf clock (some now), t ≤ now := by
  intro t' ht
  cases clock with
  | none => exact (Option.some.inj ht).ge
  | some t =>
    obtain rfl : max t now = t' := Option.some.inj ht
    exact max_le (h t rfl) le_rfl

variable (now) (policy : SchedulerPolicy) (opportunity : BandwidthOpportunity)
  (st : ProviderState) in
/-- A rate limit leaves a cooldown that is not before the one in force. -/
lemma finished_cooldown {report : BandwidthReport} {limit : RateLimit}
    (hlimit : rateLimitFromReport report policy.providerKind = some limit) :
    ∀ c ∈ (accountingOf st).cooldown,
      ∃ c' ∈ (accountingOf (finished policy now opportunity report st)).cooldown, c ≤ c' := by
  intro c hc
  have hcooldown : (finished policy now opportunity report st).cooldownUntilUtc = _ :=
    (limited_finished policy now hlimit).1
  exact ⟨_, hcooldown, cooldown_le_cooldownAfter hc⟩

variable (now) (policy : SchedulerPolicy) (opportunity : BandwidthOpportunity)
  (st : ProviderState) in
/-- Without a rate limit only a success changes the cooldown. -/
lemma unlimited_cooldown {report : BandwidthReport}
    (hlimit : rateLimitFromReport report policy.providerKind = none) :
    (finished policy now opportunity report st).cooldownUntilUtc =
      if successfulRequest report then none else st.cooldownUntilUtc := by
  obtain ⟨rng, slots, he, -⟩ := finishUnlimited_eq policy now opportunity report st
  unfold finished
  rw [hlimit]
  dsimp only
  rw [he]

/-- The deadline that an attempt has left is in what it returned. -/
lemma deadlineOf_eq {d : ℤ} (hd : d ∈ deadlineOf P e) : ∃ events report',
    e.result = .ok (.finished events report') ∧
      events.head?.bind MeasurementEvent.schedulerNotBeforeUtc = some d := by
  unfold deadlineOf at hd
  split at hd
  · rename_i hok
    split_ifs at hd
    · exact ⟨_, _, hok, hd⟩
    · cases hd
  · cases hd

/-- The event of a rate-limited attempt says the cooldown that it leaves. -/
lemma notBefore_finished {policy : SchedulerPolicy} {runId : RunId}
    {opportunity : BandwidthOpportunity} {report report' : BandwidthReport} {st : ProviderState}
    {events : List MeasurementEvent} {limit : RateLimit}
    (hrun : ((Call.finishAttempt runId now opportunity report).run policy st).2.1 =
      .ok (.finished events report'))
    (hlimit : rateLimitFromReport report policy.providerKind = some limit) :
    events.head?.bind MeasurementEvent.schedulerNotBeforeUtc =
      (finished policy now opportunity report st).cooldownUntilUtc := by
  obtain ⟨deadline, rng, slots, backoff, he, -⟩ :=
    finishRateLimited_eq policy now opportunity report.reserved limit st
  have hevents : ∃ event : MeasurementEvent, event.schedulerNotBeforeUtc = some deadline ∧
      ((Call.finishAttempt runId now opportunity report).run policy st).2.1 =
        .ok (.finished [event] (opportunity.applyTiming report)) := by
    simp only [Call.run, finishAttempt, hlimit]
    change ∃ event : MeasurementEvent, event.schedulerNotBeforeUtc = some deadline ∧
      Except.ok (Reply.finished [_] _) = _
    exact ⟨_, congrArg some (congrArg Prod.fst he), rfl⟩
  obtain ⟨event, hevent, hrun'⟩ := hevents
  have hreply := Except.ok.inj (hrun.symm.trans hrun')
  obtain ⟨rfl, -⟩ : events = [event] ∧ report' = opportunity.applyTiming report := by
    simpa using hreply
  unfold finished
  rw [hlimit]
  simp only [he]
  exact hevent

section attempts
variable {w : System} {s : Scheduler} {runId : RunId} {opportunity : BandwidthOpportunity}
  {report report' : BandwidthReport} {events : List MeasurementEvent} {J : Prop}

lemma admits_finishAttempt (hcall : e.call = .finishAttempt runId now opportunity report) :
    admits P e = none := by
  rw [Option.eq_none_iff_forall_not_mem]
  intro t ht
  obtain ⟨-, -, -, ⟨g, hg⟩ | ⟨_, hpreflight, -⟩⟩ := admits_eq ht
  · rw [(grant_finishAttempt hcall).1] at hg
    cases hg
  · rw [hcall] at hpreflight
    cases hpreflight

lemma deadlineOf_unlimited (hcall : e.call = .finishAttempt runId now opportunity report)
    (hlimit : rateLimitFromReport report e.policy.providerKind = none) : deadlineOf P e = none := by
  unfold deadlineOf
  split
  · rename_i hcall' _
    obtain ⟨-, -, -, rfl⟩ := Call.finishAttempt.inj (hcall.symm.trans hcall')
    rw [hlimit]
    simp
  · rfl

/-- A rate-limited attempt keeps the deadlines covered and covers its own. -/
lemma Covered.limited {limit : RateLimit}
    (h : Covered P w.trace w.clock (some (accountingOf s.state)))
    (hclock : ∀ t ∈ w.clock, t ≤ now)
    (hcall : e.call = .finishAttempt runId now opportunity report)
    (hrun : ((Call.finishAttempt runId now opportunity report).run s.policy s.state).2.1 =
      .ok (.finished events report'))
    (hl : Landed e (.finished events report') J)
    (hlimit : rateLimitFromReport report s.policy.providerKind = some limit) :
    Covered P (w.trace ++ [e]) (laterOf w.clock (some now))
      (some (accountingOf (finished s.policy now opportunity report s.state))) := by
  have hadmits : ∀ d, InForce (TakesEffect P) P w.trace d → ∀ t ∈ admits P e, d ≤ t := by
    simp [admits_finishAttempt hcall]
  have hafter := finished_cooldown now s.policy opportunity s.state hlimit
  -- what the call has left is what its event says
  have hleft : ∀ d ∈ deadlineOf P e,
      d ∈ (finished s.policy now opportunity report s.state).cooldownUntilUtc := by
    intro d hd
    obtain ⟨events', report₁, hok, hhead⟩ := deadlineOf_eq hd
    rcases hl with ⟨hok', -⟩ | ⟨⟨err, herr⟩, -⟩
    · obtain ⟨rfl, -⟩ := Reply.finished.inj (Except.ok.inj (hok'.symm.trans hok))
      rw [← notBefore_finished hrun hlimit]
      exact hhead
    · rw [herr] at hok
      cases hok
  refine ⟨throughout_concat.mpr ⟨h.1, hadmits, fun d hd t ht hlt d' hd' => ?_⟩, fun d hd => ?_⟩
  · rw [hcall] at ht
    obtain rfl : now = t := Option.some.inj ht
    rcases h.2 d hd with ⟨t, ht, hle⟩ | ⟨_, ⟨⟩, c, hc, hle⟩
    · exact absurd (hle.trans (hclock t ht)) (not_le.mpr hlt)
    · obtain ⟨c', hc', hcc'⟩ := hafter c hc
      obtain rfl : c' = d' := Option.some.inj (hc'.symm.trans (hleft d' hd'))
      exact hle.trans hcc'
  · rcases inForce_concat.mp hd with hd | ⟨hd, -⟩
    · exact .inr ⟨_, rfl, d, hleft d hd, le_rfl⟩
    · exact ((h.2 d hd).later _).of_cooldown hafter

/-- Any other attempt leaves the cooldown, or clears what is in force. -/
lemma Covered.unlimited {reply : Reply}
    (h : Covered P w.trace w.clock (some (accountingOf s.state)))
    (hP : s.policy.providerId = P) (hpolicy : e.policy = s.policy)
    (hcall : e.call = .finishAttempt runId now opportunity report) (hl : Landed e reply J)
    (hlimit : rateLimitFromReport report s.policy.providerKind = none) :
    Covered P (w.trace ++ [e]) (laterOf w.clock (some now))
      (some (accountingOf (finished s.policy now opportunity report s.state))) := by
  have hadmits : ∀ d, InForce (TakesEffect P) P w.trace d → ∀ t ∈ admits P e, d ≤ t := by
    simp [admits_finishAttempt hcall]
  have hdeadline : deadlineOf P e = none := deadlineOf_unlimited hcall (hpolicy ▸ hlimit)
  by_cases hsuccess : successfulRequest report = true
  · have hclears : TakesEffect P e := by
      refine ⟨⟨hpolicy ▸ hP, runId, now, opportunity, report, hcall, by rwa [hpolicy],
        hsuccess⟩, ?_⟩
      rcases hl with ⟨hok, -⟩ | ⟨-, hrec⟩
      · right
        rw [hok]
        rfl
      · exact .inl hrec
    refine ⟨throughout_concat.mpr ⟨h.1, hadmits, fun d _ t _ _ d' hd' => ?_⟩, fun d hd => ?_⟩
    · rw [hdeadline] at hd'
      cases hd'
    · rcases inForce_concat.mp hd with hd | ⟨-, hnot⟩
      · rw [hdeadline] at hd
        cases hd
      · exact absurd hclears hnot
  · have hlater : Covered P w.trace (laterOf w.clock (some now)) (some (accountingOf s.state)) :=
      ⟨h.1, fun d hd => (h.2 d hd).later _⟩
    refine hlater.concat hdeadline hadmits fun d hd => ((h.2 d hd).later _).of_cooldown ?_
    intro c hc
    refine ⟨c, ?_, le_rfl⟩
    change c ∈ (finished s.policy now opportunity report s.state).cooldownUntilUtc
    rw [unlimited_cooldown now s.policy opportunity s.state hlimit, if_neg hsuccess]
    exact hc

end attempts

/-- A run that is let in has waited for every deadline in force. -/
lemma Covered.reserved {w : System} {s : Scheduler}
    (h : Covered P w.trace w.clock (some (accountingOf s.state)))
    (hclock : ∀ t ∈ w.clock, t ≤ now)
    (hb : blockReason s.policy (reconcileDay s.policy now s.state) now = none)
    (hpolicy : e.policy = s.policy) (hcall : e.call = .reserveRun now) :
    Covered P (w.trace ++ [e]) (laterOf w.clock (some now))
      (some (accountingOf (startRun now (reconcileDay s.policy now s.state)))) := by
  have hrolled : ∀ d, InForce (TakesEffect P) P w.trace d → Covers (laterOf w.clock (some now))
      (some (accountingOf (reconcileDay s.policy now s.state))) d := fun d hd =>
    (h.2 d hd).rolls (rolls_reconcileDay s.policy (.refl now (accountingOf s.state)))
  have hdeadline : deadlineOf P e = none := by
    unfold deadlineOf
    rw [hcall]
  have hlater : Covered P w.trace (laterOf w.clock (some now))
      (some (accountingOf (reconcileDay s.policy now s.state))) := ⟨h.1, hrolled⟩
  refine hlater.concat hdeadline (fun d hd t ht => ?_) fun d hd =>
    (hrolled d hd).of_cooldown fun c hc => ⟨c, hc, le_rfl⟩
  obtain ⟨-, hforce, htime, -⟩ := admits_eq ht
  rw [hcall] at htime
  obtain rfl : now = t := Option.some.inj htime
  rw [hpolicy] at hforce
  exact (hrolled d hd).le (laterOf_le hclock)
    ((blockReason_eq_none.mp hb).2.resolve_left (by simp [hforce])).1

/-- Every step at a time that is not before the last one keeps the deadlines covered. -/
theorem upholds_covered (P : String) : Upholds P InOrder (Covered P) where
  first := ⟨throughout_nil, fun d hd => absurd hd not_inForce_nil⟩
  time _ _ _ _ h := ⟨h.1, fun d hd => (h.2 d hd).later _⟩
  opens w policy now seed random x y _ _ h ho := by
    refine ⟨h.1, fun d hd => ?_⟩
    cases ho with
    | created =>
      rcases h.2 d hd with hpast | ⟨a, ha, -⟩
      · exact Covers.later (.inl hpast) _
      · cases ha
    | kept hr => exact (h.2 d hd).rolls hr
  silent w c e x ha hcall he h := by
    refine h.concat (Silent.deadlineOf he) (fun d hd now hnow => ?_) h.2
    obtain ⟨hP, hforce, htime, ⟨g, hg⟩ | ⟨runId, hpreflight, hok⟩⟩ := admits_eq hnow
    · rw [Silent.grant he] at hg
      cases hg
    · obtain ⟨a, hJ, hover⟩ := he.preflight runId now hP hpreflight hok
      rw [hcall] at htime
      refine (hJ.2 d hd).le (fun t ht => ?_) (hover hforce)
      rw [htime] at ht
      exact laterOf_le (fun t ht => ha t ht now htime) t ht
  rolls w c now a b _ _ h hr := ⟨h.1, fun d hd => (h.2 d hd).rolls hr⟩
  reserves w s now e ha _ _ h hb hpolicy hcall _ :=
    h.reserved (fun t ht => ha t ht now rfl) hb hpolicy hcall
  finishes w s runId now opportunity report e events report' ha _ hP h hpolicy hcall hrun hl := by
    rw [hcall] at hrun
    cases hlimit : rateLimitFromReport report s.policy.providerKind with
    | some limit => exact h.limited (fun t ht => ha t ht now rfl) hcall hrun hl hlimit
    | none => exact h.unlimited hP hpolicy hcall hl hlimit

end covered

/-- The deadline that a rate-limited attempt has left is its cooldown. -/
def Leaves (S : Serde) (P : String) (w : System) : Prop :=
  ∀ s s' runId now opportunity report io e events report', w.live = some s →
    s.policy.providerId = P →
    (w.step S (.call (.finishAttempt runId now opportunity report), io)).trace = w.trace ++ [e] →
    (w.step S (.call (.finishAttempt runId now opportunity report), io)).live = some s' →
    e.result = .ok (.finished events report') →
    (rateLimitFromReport report s.policy.providerKind).isSome = true →
    ∃ d, deadlineOf P e = some d ∧ s'.state.cooldownUntilUtc = some d

lemma leaves (S : Serde) (P : String) (w : System) : Leaves S P w := by
  intro s s' runId now opportunity report io e events report' hlive hP htrace hlive' hok hlimited
  obtain ⟨limit, hlimit⟩ := Option.isSome_iff_exists.mp hlimited
  obtain ⟨hpolicy, hcall⟩ := entry_of_call hlive htrace
  obtain ⟨s₁, e₁, hlive₁, htrace₁, -, hreply⟩ :=
    @step_call S w s (.finishAttempt runId now opportunity report) io hlive
  obtain rfl : e₁ = e := by simpa using htrace₁.symm.trans htrace
  have hhead := notBefore_finished (hreply _ hok).1 hlimit
  have hcooldown : (finished s.policy now opportunity report s.state).cooldownUntilUtc = _ :=
    (limited_finished s.policy now hlimit).1
  have hdeadline : deadlineOf P e₁ =
      (finished s.policy now opportunity report s.state).cooldownUntilUtc := by
    unfold deadlineOf
    rw [hcall, hok, hpolicy]
    dsimp only
    rw [if_pos ⟨hP, hlimited⟩, hhead]
  exact ⟨_, hdeadline.trans hcooldown,
    (congrArg _ (finished_of_step hlive htrace hlive' hok)).trans hcooldown⟩

/-- **Cooldowns**: in every run in order, no unforced run of a provider is let in before a deadline
that one of its attempts has left, unless a successful attempt has taken effect since, and further
rate limits leave no earlier deadline. -/
theorem cooldown_kept {S : Serde} {w : System} (h : Reaches S InOrder w) (P : String) :
    Throughout (Waited (TakesEffect P) P) w.trace ∧ Leaves S P w := by
  obtain ⟨x, hx⟩ := (keeping_of_reaches kept_validState (upholds_covered P) h).holds
  exact ⟨hx.1, leaves S P w⟩

/-- A test that went through. -/
def doneReport : BandwidthReport where
  events := [MeasurementEvent.new 1 .bandwidth .success 0]
  outcome := .success
  reserved := true
  reservationError := none

/-- At midnight the provider is limited until one o'clock; a run is refused until an attempt has
succeeded. -/
def waitingCalls : List Call := [
  .finishAttempt 1 0 Opportunities.scheduledOpportunity (Opportunities.limitedReport 3600000000000),
  .reserveRun 60000000000,
  .finishAttempt 1 120000000000 Opportunities.scheduledOpportunity doneReport,
  .reserveRun 180000000000]

section told
variable {trace : List Entry} {tells : List (SchedulerPolicy × Call × Except SchedulerError Reply)}

lemma map_deadlineOf (h : trace.map told = tells) : trace.map (deadlineOf "mlab") =
    tells.map fun t => deadlineOf "mlab" ⟨t.1, t.2.1, t.2.2, false⟩ := by
  rw [← h, List.map_map]
  rfl

lemma map_admits (h : trace.map told = tells) : trace.map (admits "mlab") =
    tells.map fun t => admits "mlab" ⟨t.1, t.2.1, t.2.2, false⟩ := by
  rw [← h, List.map_map]
  rfl

end told

theorem cooldown_kept_hour : ∃ w, Reaches Encoding.formats InOrder w ∧
    w.trace.map (deadlineOf "mlab") = [some 3600000000000, none, none, none] ∧
    w.trace.map (admits "mlab") = [none, none, none, some 180000000000] ∧
    Throughout (Waited (TakesEffect "mlab") "mlab") w.trace ∧ Leaves Encoding.formats "mlab" w := by
  have hreach : Reaches Encoding.formats InOrder _ :=
    @reaches_calmRun_inOrder _ mlabPolicy 0 1 (.replicate 16 0) waitingCalls
      (by simp [waitingCalls, Ascending, Call.now])
  obtain ⟨s, L, -, htold⟩ := @calmRun_spec Encoding.formats mlabPolicy 0 1
    (.replicate 16 0) waitingCalls (by decide +kernel)
  refine ⟨_, hreach, (map_deadlineOf htold).trans ?_, (map_admits htold).trans ?_,
    cooldown_kept hreach "mlab"⟩
  · decide +kernel
  · decide +kernel

lemma inOrder_of_clock {w : System} {a : Action} {t : ℤ} (hclock : w.clock = some t)
    (ha : ∀ now ∈ a.now, t ≤ now) : InOrder w a := by
  intro clock hc now hnow
  obtain rfl : t = clock := Option.some.inj (hclock.symm.trans hc)
  exact ha now hnow

/-- The first attempt of a provider at midnight, limited until one o'clock. -/
def limitedState : ProviderState :=
  finished mlabPolicy 0 Opportunities.scheduledOpportunity
    (Opportunities.limitedReport 3600000000000) (newState mlabPolicy 0 1)

lemma limited_first : ∃ w s e, ∃ L : Ledger, Reaches Encoding.formats InOrder w ∧
    w.clock = some 0 ∧ w.trace = [e] ∧ deadlineOf "mlab" e = some 3600000000000 ∧
    Calm Encoding.formats mlabPolicy limitedState 2 s L w ∧ Saved Encoding.formats L s w.disk := by
  let opportunity := Opportunities.scheduledOpportunity
  let limited := Opportunities.limitedReport 3600000000000
  obtain ⟨s₀, L₀, hcalm₀, htrace₀, -⟩ :=
    @calm_first Encoding.formats mlabPolicy 0 1 (.replicate 16 0)
  have hreach₀ : Reaches Encoding.formats InOrder (System.step Encoding.formats {}
      (.openSeeded mlabPolicy 0 1 (.ok (.replicate 16 0)), [])) :=
    .step .first (by rintro _ ⟨⟩)
  have hclock₀ : (System.step Encoding.formats {}
      (.openSeeded mlabPolicy 0 1 (.ok (.replicate 16 0)), [])).clock = some 0 := rfl
  generalize System.step Encoding.formats {}
    (.openSeeded mlabPolicy 0 1 (.ok (.replicate 16 0)), []) = w₀ at *
  obtain ⟨events, report, hrun⟩ :=
    run_finishAttempt mlabPolicy 0 1 opportunity limited (newState mlabPolicy 0 1)
  obtain ⟨s, L, e, hcalm, htrace, htold, hsaved⟩ :=
    hcalm₀.call (.finishAttempt 1 0 opportunity limited) (by
      rw [hrun]
      exact (by decide : 1 + 1 ≤ u64Max))
  rw [hrun] at hcalm htold hsaved
  obtain ⟨d, hdeadline, hcooldown⟩ := leaves Encoding.formats "mlab" w₀ s₀ s 1 0 opportunity
    limited [] e events report hcalm₀.live (by rw [hcalm₀.samePolicy]; rfl) htrace hcalm.live
    (result_of_told htold) (by rw [hcalm₀.samePolicy]; rfl)
  have hd : limitedState.cooldownUntilUtc = some 3600000000000 := by decide +kernel
  rw [hcalm.state] at hcooldown
  obtain rfl : 3600000000000 = d := Option.some.inj (hd.symm.trans hcooldown)
  refine ⟨w₀.step Encoding.formats (.call (.finishAttempt 1 0 opportunity limited), []), s, e, L,
    .step hreach₀ (inOrder_of_clock hclock₀ (by rintro _ ⟨⟩; exact le_rfl)), ?_, ?_, hdeadline,
    hcalm, hsaved rfl⟩
  · change laterOf w₀.clock (some 0) = _
    rw [hclock₀]
    rfl
  · rw [htrace, htrace₀]
    rfl

/-- What is left when an attempt has succeeded and was recorded, but its call has failed. -/
lemma recorded_failure : ∃ w e₁ e₂, ∃ L : Ledger, Reaches Encoding.formats InOrder w ∧
    w.live = none ∧ w.clock = some 0 ∧ w.trace = [e₁, e₂] ∧
    deadlineOf "mlab" e₁ = some 3600000000000 ∧ ¬ Returned "mlab" e₂ ∧
    Consistent Encoding.formats L [] w.disk ∧
    Archive Encoding.formats ValidState L.states w.disk ∧ L.states ≠ [] ∧
    L.states.length ≤ 3 ∧ w.disk.files .primary ≠ none ∧
    (accounting L.committed)["mlab"]? = some ⟨0, [], none, none, 0, none⟩ := by
  let opportunity := Opportunities.scheduledOpportunity
  obtain ⟨w₁, s₁, e₁, L₁, hreach₁, hclock₁, htrace₁, hdeadline, hcalm₁, hsaved₁⟩ := limited_first
  have hlength₁ : L₁.states.length ≤ 2 := hcalm₁.length
  obtain ⟨events₂, report₂, hrun₂⟩ :=
    run_finishAttempt mlabPolicy 0 1 opportunity doneReport limitedState
  have hacc : accountingOf (finished mlabPolicy 0 opportunity doneReport limitedState) =
      ⟨0, [], none, none, 0, none⟩ := by decide +kernel
  generalize finished mlabPolicy 0 opportunity doneReport limitedState = x at *
  have hne : accountingOf x ≠ accountingOf limitedState := by
    rw [hacc]
    decide +kernel
  -- the whole record reaches the ledger and the save stops there
  obtain ⟨s₂, e₂, L₂, torn, -, htrace₂, htold₂, -, hfail, hfiles, -⟩ :=
    hcalm₁.cut hsaved₁ hrun₂ hne (by change 1 + 1 < u64Max; decide)
      (savedLine Encoding.formats L₁ s₁ x).length
  rw [List.take_length] at hfiles
  have hreach₂ : Reaches Encoding.formats InOrder (w₁.step Encoding.formats
      (.call (.finishAttempt 1 0 opportunity doneReport),
        cutAt (savedLine Encoding.formats L₁ s₁ x).length)) :=
    .step hreach₁ (inOrder_of_clock hclock₁ (by rintro _ ⟨⟩; exact le_rfl))
  have hclock₂ : (w₁.step Encoding.formats (.call (.finishAttempt 1 0 opportunity doneReport),
      cutAt (savedLine Encoding.formats L₁ s₁ x).length)).clock = some 0 := by
    change laterOf w₁.clock (some 0) = _
    rw [hclock₁]
    rfl
  generalize w₁.step Encoding.formats (.call (.finishAttempt 1 0 opportunity doneReport),
    cutAt (savedLine Encoding.formats L₁ s₁ x).length) = w₂ at *
  have hledger : w₂.disk.files .ledger =
      some (L₁.bytes Encoding.formats ++ savedLine Encoding.formats L₁ s₁ x) := by
    rw [hfiles, Function.update_self]
  obtain ⟨rfl, hlength⟩ := committed_of_cut hfail.consistent hledger
  have hprimary : w₂.disk.files .primary ≠ none := by
    rw [hfiles, Function.update_of_ne (by decide), hsaved₁.primary]
    simp
  refine ⟨w₂.step Encoding.formats (.close, []), e₁, e₂, L₂,
    .step hreach₂ (by rintro _ - _ ⟨⟩), rfl, ?_, ?_, hdeadline, ?_, hfail.consistent,
    hfail.archive, List.ne_nil_of_length_pos (by omega), by omega, hprimary, ?_⟩
  · change laterOf w₂.clock none = _
    rw [hclock₂]
    rfl
  · change w₂.trace = _
    rw [htrace₂, htrace₁]
    rfl
  · rintro ⟨-, hok⟩
    rw [result_of_told htold₂] at hok
    cases hok
  · rcases hfail.top with rfl | ⟨-, y, hy, hcommitted⟩
    · omega
    · rw [List.mem_singleton.mp hy] at hcommitted
      have hpolicy : s₁.policy.providerId = "mlab" := by
        rw [hcalm₁.samePolicy]
        rfl
      rw [hcommitted, accounting_setState_get, if_pos hpolicy, hacc]

/-- The attempt is recorded, but the marker after it cannot be written, and the call fails. When the
scheduler is opened again the wait is over. -/
lemma unreturned_success_clears : ¬ ∀ w, Reaches Encoding.formats InOrder w →
    Throughout (Waited (Returned "mlab") "mlab") w.trace := by
  intro h
  obtain ⟨w, e₁, e₂, L, hreach, hlive, hclock, htrace, hdeadline, hnot, hc, harch, h0, hlen,
    hprimary, hacc⟩ := recorded_failure
  obtain ⟨s, L', st, hcalm, htrace', hopens⟩ := calm_opened hlive hc harch h0 hprimary
    (lt_of_le_of_lt hlen (by decide)) mlabPolicy 60000000000 1 (.ok (.replicate 16 0))
  -- the accounting that was recorded lets a run in
  have hid : mlabPolicy.providerId = "mlab" := rfl
  rw [hid, hacc] at hopens
  have hday : st.dayUtc = 0 ∧ st.runs = [] ∧ st.lastStartedAtUtc = none ∧
      st.cooldownUntilUtc = none := by
    cases hopens with
    | kept hr =>
      cases hr with
      | same day runs lastStart cooldown => exact ⟨day, runs, lastStart, cooldown⟩
      | newDay later =>
        exact absurd later (by decide)
  obtain ⟨hday, hruns, hlast, hcooldown⟩ := hday
  have hrolled : reconcileDay mlabPolicy 60000000000 st = st :=
    reconcileDay_of_le (by rw [hday]; decide)
  have hblock : blockReason mlabPolicy (reconcileDay mlabPolicy 60000000000 st) 60000000000 =
      none := by
    rw [hrolled, blockReason_eq_none]
    refine ⟨?_, .inr ⟨by simp [hcooldown], by simp [hlast]⟩⟩
    rw [runsOnDay, hruns]
    rfl
  have hrun := run_reserveRun mlabPolicy 60000000000 st
  simp only [hblock] at hrun
  obtain ⟨s', L'', e₃, -, htrace'', htold, -⟩ := hcalm.call (.reserveRun 60000000000) (by
    rw [hrun]
    simp only [List.length_singleton]
    exact le_trans (by omega) (by decide : 5 ≤ u64Max))
  rw [hrun] at htold
  have hopened : Reaches Encoding.formats InOrder (w.step Encoding.formats
      (.openSeeded mlabPolicy 60000000000 1 (.ok (.replicate 16 0)), [])) :=
    .step hreach (inOrder_of_clock hclock (by rintro _ ⟨⟩; decide))
  have hclock' : (w.step Encoding.formats
      (.openSeeded mlabPolicy 60000000000 1 (.ok (.replicate 16 0)), [])).clock =
      some 60000000000 := by
    change laterOf w.clock (some 60000000000) = _
    rw [hclock]
    rfl
  have hwaited := h _ (.step (i := (.call (.reserveRun 60000000000), [])) hopened
    (inOrder_of_clock hclock' (by rintro _ ⟨⟩; exact le_rfl))) [e₁, e₂] e₃ [] (by
      rw [htrace'', htrace', htrace])
  have hforce : InForce (Returned "mlab") "mlab" [e₁, e₂] 3600000000000 :=
    ⟨[], e₁, [e₂], rfl, hdeadline, by simpa using hnot⟩
  have hadmits : admits "mlab" e₃ = some 60000000000 := by
    obtain ⟨policy, call, result, recorded⟩ := e₃
    simp only [told, Prod.mk.injEq] at htold
    obtain ⟨rfl, rfl, rfl⟩ := htold
    rfl
  have hle := hwaited.admits 3600000000000 hforce 60000000000 hadmits
  omega

/-- A forced policy waits for nothing. -/
def forcedPolicy : SchedulerPolicy := { mlabPolicy with forceLimits := true }

/-- A manual run is asked for within the hour. -/
def forcedCalls : List Call := [
  .finishAttempt 1 0 Opportunities.scheduledOpportunity (Opportunities.limitedReport 3600000000000),
  .preflightManual 1 60000000000]

/-- On the next day the provider is limited until a time that is over. -/
def overdueCalls : List Call := [
  .finishAttempt 1 0 Opportunities.scheduledOpportunity (Opportunities.limitedReport 3600000000000),
  .preflightManual 1 86400000000000,
  .finishAttempt 1 86400000000000 Opportunities.scheduledOpportunity
    (Opportunities.limitedReport 1800000000000)]

/-- **Ways round the wait**: an attempt that succeeds ends it although its call fails, a forced
manual run is let in, and when the wait is over a rate limit may leave an earlier deadline. -/
theorem waits_end_early : (¬ ∀ w, Reaches Encoding.formats InOrder w →
      Throughout (Waited (Returned "mlab") "mlab") w.trace) ∧
    (∃ w, Reaches Encoding.formats InOrder w ∧
      w.trace.map (deadlineOf "mlab") = [some 3600000000000, none] ∧
      ∃ e ∈ w.trace, told e =
        (forcedPolicy, .preflightManual 1 60000000000, .ok (.preflighted .allowed))) ∧
    ∃ w, Reaches Encoding.formats InOrder w ∧
      w.trace.map (deadlineOf "mlab") = [some 3600000000000, none, some 1800000000000] := by
  refine ⟨unreturned_success_clears, ?_, ?_⟩
  · have hreach : Reaches Encoding.formats InOrder _ :=
      @reaches_calmRun_inOrder _ forcedPolicy 0 1 (.replicate 16 0) forcedCalls
        (by simp [forcedCalls, Ascending, Call.now])
    obtain ⟨s, L, -, htold⟩ := @calmRun_spec Encoding.formats forcedPolicy 0 1
      (.replicate 16 0) forcedCalls (by decide +kernel)
    refine ⟨_, hreach, (map_deadlineOf htold).trans (by decide +kernel), ?_⟩
    refine List.mem_map.mp ?_
    rw [htold]
    exact List.mem_cons_of_mem _ (List.mem_cons.mpr (.inl (by rfl)))
  · have hreach : Reaches Encoding.formats InOrder _ :=
      @reaches_calmRun_inOrder _ mlabPolicy 0 1 (.replicate 16 0) overdueCalls
        (by simp [overdueCalls, Ascending, Call.now])
    obtain ⟨s, L, -, htold⟩ := @calmRun_spec Encoding.formats mlabPolicy 0 1
      (.replicate 16 0) overdueCalls (by decide +kernel)
    exact ⟨_, hreach, (map_deadlineOf htold).trans (by decide +kernel)⟩

end Netband.Waits

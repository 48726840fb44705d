import Netband.Calm
import Netband.Encoding

/-!
The daily cap. As long as no reservation is asked for a day before the day of the record,
the runs granted on a UTC day stay within the cap of that day; a reservation whose clock
has stepped back over midnight is counted from zero.
-/

namespace Netband.Cap

open Netband.Time Netband.Model Netband.State Netband.Plan Netband.Effects Netband.Lines
open Netband.Recovery Netband.Scheduling Netband.World Netband.Edits Netband.Steps Netband.Runs

/-- The reservation is not for a day before the record's. -/
def NotBehind (P : String) (w : System) (a : Action) : Prop :=
  ∀ now, a = .call (.reserveRun now) → ∀ s ∈ w.live, s.policy.providerId = P →
    s.state.dayUtc ≤ dateNaive now

/-- The running scheduler of the provider grants nothing on a day with `bound` runs. -/
def Bounds (P : String) (bound : ℕ) (w : System) : Prop :=
  ∀ s ∈ w.live, s.policy.providerId = P → ∀ used, capReached s.policy used = false → used < bound

/-- The grants of each day are within the bound, and the record counts those of its own day
and of later ones. -/
def Capped (P : String) (bound : ℕ) (trace : List Entry) (x : Option Accounting) : Prop :=
  (∀ date, grantsOn P date trace ≤ bound) ∧ ∀ date, (∀ a ∈ x, a.day ≤ date) →
    grantsOn P date trace ≤ x.elim 0 fun a => a.runs.countP fun run => dateNaive run = date

section capped
variable {P : String} {bound : ℕ} {trace : List Entry} {x : Option Accounting} {a b : Accounting}
  {now : ℤ} {e : Entry}

lemma capped_some : Capped P bound trace (some a) ↔ (∀ date, grantsOn P date trace ≤ bound) ∧
    ∀ date, a.day ≤ date →
      grantsOn P date trace ≤ a.runs.countP fun run => dateNaive run = date := by
  simp [Capped]

lemma countP_filter_date {runs : List ℤ} {day date : ℤ} (h : day ≤ date) :
    (runs.filter (day ≤ dateNaive ·)).countP (fun run => dateNaive run = date) =
      runs.countP fun run => dateNaive run = date := by
  rw [List.countP_filter]
  refine List.countP_congr fun run _ => ?_
  simp only [Bool.and_eq_true, decide_eq_true_eq, and_iff_left_iff_imp]
  rintro rfl
  exact h

/-- A day's runs are counted alike after a rollover that is not past the day. -/
lemma Rolls.countP (h : Rolls now a b) {date : ℤ} (hd : b.day ≤ date) :
    a.day ≤ date ∧ (b.runs.countP fun run => dateNaive run = date) =
      a.runs.countP fun run => dateNaive run = date := by
  cases h with
  | same hday hruns =>
    rw [hruns]
    exact ⟨hday ▸ hd, rfl⟩
  | newDay later hday hruns =>
    rw [hday] at hd
    rw [hruns, countP_filter_date hd]
    exact ⟨by omega, rfl⟩

lemma Capped.rolls (h : Capped P bound trace (some a)) (hr : Rolls now a b) :
    Capped P bound trace (some b) := by
  rw [capped_some] at h ⊢
  refine ⟨h.1, fun date hd => ?_⟩
  obtain ⟨hday, hcount⟩ := Rolls.countP hr hd
  rw [hcount]
  exact h.2 date hday

lemma Capped.silent (h : Capped P bound trace x) (he : grant P e = none) :
    Capped P bound (trace ++ [e]) x := by
  have hsame : ∀ date, grantsOn P date (trace ++ [e]) = grantsOn P date trace := by
    intro date
    simp [grantsOn_concat, he]
  simpa only [Capped, hsame] using h

lemma countP_startRun (st : ProviderState) (now date : ℤ) :
    ((startRun now st).runs.countP fun run => dateNaive run = date) =
      (st.runs.countP fun run => dateNaive run = date) +
        if dateNaive now = date then 1 else 0 := by
  have hperm := List.perm_insertionSort (· ≤ ·) (st.runs ++ [now])
  change ((st.runs ++ [now]).insertionSort (· ≤ ·)).countP _ = _
  rw [hperm.countP_eq, List.countP_append, List.countP_singleton]
  simp

/-- One more run is granted, or only recorded. -/
lemma Capped.start {st : ProviderState} (h : Capped P bound trace (some (accountingOf st)))
    (hday : st.dayUtc ≤ dateNaive now)
    (hcap : (st.runs.countP fun run => dateNaive run = dateNaive now) < bound)
    (he : ∀ g ∈ grant P e, g.2.accountingDate = dateNaive now) :
    Capped P bound (trace ++ [e]) (some (accountingOf (startRun now st))) := by
  have hle : ∀ date, grantsOn P date (trace ++ [e]) ≤
      grantsOn P date trace + if dateNaive now = date then 1 else 0 := by
    intro date
    rw [grantsOn_concat]
    cases hg : grant P e with
    | none => simp
    | some g => simp [he g hg]
  rw [capped_some] at h ⊢
  refine ⟨fun date => ?_, fun date hd => ?_⟩
  · have h1 := hle date
    have h2 := h.1 date
    split_ifs at h1 with hdate
    · subst hdate
      have h3 : _ ≤ st.runs.countP _ := h.2 _ hday
      omega
    · omega
  · have h1 := hle date
    have h2 : _ ≤ st.runs.countP _ := h.2 date hd
    change _ ≤ (startRun now st).runs.countP _
    rw [countP_startRun]
    omega

lemma runsOnDay_lt {st : ProviderState} {date : ℤ} (hbound : bound ≤ u32Max)
    (h : runsOnDay st date < bound) :
    (st.runs.countP fun run => dateNaive run = date) < bound := by
  unfold runsOnDay at h
  omega

/-- Every step keeps the grants within the bound. -/
theorem upholds_capped (P : String) (hbound : bound ≤ u32Max) :
    Upholds P (fun w a => NotBehind P w a ∧ Bounds P bound w)
      fun trace _ x => Capped P bound trace x where
  first := ⟨by simp [grantsOn], by simp [grantsOn]⟩
  time _ _ _ _ h := h
  opens w policy now seed random x y _ _ h ho := by
    cases ho with
    | created => exact ⟨h.1, fun date _ => by simpa [freshAccounting] using h.2 date (by simp)⟩
    | kept hr => exact h.rolls hr
  silent _ _ _ _ _ _ he h := h.silent he.grant
  rolls _ _ _ _ _ _ _ h hr := h.rolls hr
  reserves w s now e ha hlive hP h hb hpolicy hcall hl := by
    have hday : (reconcileDay s.policy now s.state).dayUtc ≤ dateNaive now := by
      have hnot := ha.1 now rfl s hlive hP
      rcases le_or_gt (dateNaive now) s.state.dayUtc with hle | hlt
      · rwa [reconcileDay_of_le hle]
      · obtain ⟨rng, slots, hr, -⟩ := reconcileDay_of_lt s.policy hlt
        rw [hr]
        rfl
    have hrolled := h.rolls (rolls_reconcileDay s.policy (.refl now _))
    refine hrolled.start hday (runsOnDay_lt hbound
      (ha.2 s hlive hP _ (blockReason_eq_none.mp hb).1)) fun g hg => ?_
    rcases hl.grant (by rw [hpolicy, hP]) hcall with hsome | ⟨hnone, -⟩
    · rw [hsome] at hg
      rw [← Option.some.inj hg]
    · rw [hnone] at hg
      cases hg
  finishes w s runId now opportunity report e events report' _ _ _ h _ hcall _ _ := by
    have hsame : Capped P bound w.trace
        (some (accountingOf (finished s.policy now opportunity report s.state))) := by
      obtain ⟨cooldown, backoff, deferred, hf⟩ :=
        accountingOf_finished s.policy now opportunity report s.state
      rw [hf]
      have h := capped_some.mp h
      exact capped_some.mpr h
    exact hsame.silent (grant_finishAttempt hcall).1

end capped

/-! ### Runs -/

/-- The provider is opened under policies with a property only. -/
def OpensWith (P : String) (ok : SchedulerPolicy → Prop) : Action → Prop
  | .openSeeded policy _ _ _ => policy.providerId = P → ok policy
  | _ => True

lemma capReached_mlab {policy : SchedulerPolicy} (hkind : policy.providerKind = .mlab) {used : ℕ}
    (h : capReached policy used = false) : used < 4 := by
  simp only [capReached, mlabHardCapReached, hkind, Bool.or_eq_false_iff] at h
  simpa using h.1

lemma capReached_unforced {policy : SchedulerPolicy} (hforce : policy.forceLimits = false)
    {used : ℕ} (h : capReached policy used = false) : used < policy.dailyMax := by
  simp only [capReached, configuredCapReached, hforce, Bool.or_eq_false_iff] at h
  have := h.2
  simp only [Bool.not_false, Bool.true_and, Bool.or_eq_false_iff, decide_eq_false_iff_not] at this
  omega

/-- Under policies that bound the runs of a day, the grants of a day are bounded. -/
theorem grants_le {S : Serde} {P : String} {bound : ℕ} {ok : SchedulerPolicy → Prop}
    {w : System} (hbound : bound ≤ u32Max)
    (hok : ∀ policy, ok policy → ∀ used, capReached policy used = false → used < bound)
    (h : Reaches S (fun w a => OpensWith P ok a ∧ NotBehind P w a) w) (date : ℤ) :
    grantsOn P date w.trace ≤ bound := by
  have hpolicy : ∀ w, Reaches S (fun w a => OpensWith P ok a ∧ NotBehind P w a) w →
      ∀ s ∈ w.live, s.policy.providerId = P → ok s.policy := fun w hw =>
    live_policy hw fun _ _ _ _ _ ha => ha.1
  have hstrong : Reaches S (fun w a => NotBehind P w a ∧ Bounds P bound w) w :=
    (h.strengthen hpolicy).mono fun w x hx => ⟨hx.1.2, fun s hs hP => hok s.policy (hx.2 s hs hP)⟩
  obtain ⟨x, hx⟩ :=
    (keeping_of_reaches kept_validState (upholds_capped P hbound) hstrong).holds
  exact hx.1 date

/-- **The daily cap**: as long as no reservation is for a day before the record's, at most 4
runs of an M-Lab provider are granted on a day, and at most `dailyMax` under one policy that is
not forced. -/
theorem grants_le_cap (S : Serde) (P : String) :
    (∀ w, Reaches S (fun w a => OpensWith P (fun policy => policy.providerKind = .mlab) a ∧
      NotBehind P w a) w → ∀ date, grantsOn P date w.trace ≤ 4) ∧
    ∀ policy : SchedulerPolicy, policy.forceLimits = false → ∀ w,
      Reaches S (fun w a => OpensWith P (fun p => p = policy) a ∧ NotBehind P w a) w →
      ∀ date, grantsOn P date w.trace ≤ policy.dailyMax := by
  constructor
  · intro w h date
    exact grants_le (by decide) (fun policy hkind used => capReached_mlab hkind) h date
  · intro policy hforce w h date
    refine grants_le policy.dailyMax_le (fun p hp used hused => ?_) h date
    subst hp
    exact capReached_unforced hforce hused

lemma grantsOn_told (P : String) (date : ℤ) (trace : List Entry) : grantsOn P date trace =
    grantsOn P date ((trace.map told).map fun t => ⟨t.1, t.2.1, t.2.2, false⟩) := by
  rw [grantsOn, grantsOn, List.map_map, List.countP_map]
  rfl

/-- No call is for a day before the record's. -/
def onward (policy : SchedulerPolicy) : ProviderState → List Call → Bool
  | _, [] => true
  | st, c :: rest =>
    c.now.all (fun now => st.dayUtc ≤ dateNaive now) && onward policy (c.run policy st).2.2 rest

lemma allowed_onward {S : Serde} {policy : SchedulerPolicy} {ok : SchedulerPolicy → Prop}
    {st : ProviderState} {n : ℕ} {s : Scheduler} {L : Ledger} {w : System}
    (h : Calm S policy st n s L w) {calls : List Call}
    (hn : n + savedBy policy st calls ≤ u64Max) (hcalls : onward policy st calls = true) :
    Allowed (System.step S) (fun w x => OpensWith policy.providerId ok x.1 ∧
      NotBehind policy.providerId w x.1) w
      (calls.map fun c => (Action.call c, ([] : List Io))) := by
  induction calls generalizing st n s L w with
  | nil => trivial
  | cons c rest ih =>
    rw [savedBy] at hn
    rw [onward, Bool.and_eq_true] at hcalls
    obtain ⟨s', L', e, h', -⟩ := h.call c (by omega)
    refine ⟨⟨trivial, fun now hnow t ht _ => ?_⟩, ih h' (by omega) hcalls.2⟩
    obtain rfl : s = t := Option.some.inj (h.live.symm.trans ht)
    obtain rfl : c = .reserveRun now := Action.call.inj hnow
    rw [h.state]
    simpa [Call.now] using hcalls.1

/-- Four runs on a day, a fifth that is refused, and a run on the next day. -/
def cappedCalls : List Call := [
  .reserveRun 0, .reserveRun 3600000000000, .reserveRun 7200000000000, .reserveRun 10800000000000,
  .reserveRun 14400000000000, .pollInterfaces 1 86400000000000 ∅, .reserveRun 86400000000000]

theorem grants_le_cap_first : ∃ w,
    Reaches Encoding.formats (fun w a => OpensWith "mlab" (fun p => p = mlabPolicy) a ∧
      NotBehind "mlab" w a) w ∧
    grantsOn "mlab" 0 w.trace = 4 ∧ grantsOn "mlab" 1 w.trace = 1 ∧
    ∀ date, grantsOn "mlab" date w.trace ≤ 4 := by
  obtain ⟨s, L, hcalm, -⟩ := calm_first (S := Encoding.formats) mlabPolicy 0 1 (.replicate 16 0)
  obtain ⟨-, -, -, htold⟩ := @calmRun_spec Encoding.formats mlabPolicy 0 1 (.replicate 16 0)
    cappedCalls (by decide +kernel)
  have hopen : Reaches Encoding.formats
      (fun w a => OpensWith "mlab" (fun p => p = mlabPolicy) a ∧ NotBehind "mlab" w a)
      (System.step Encoding.formats {}
        (.openSeeded mlabPolicy 0 1 (.ok (.replicate 16 0)), [])) := by
    refine .step .first ⟨fun _ => rfl, fun now hnow => ?_⟩
    cases hnow
  have hreach : Reaches Encoding.formats
      (fun w a => OpensWith "mlab" (fun p => p = mlabPolicy) a ∧ NotBehind "mlab" w a)
      (calmRun Encoding.formats mlabPolicy 0 1 (.replicate 16 0) cappedCalls) :=
    hopen.foldl (allowed_onward hcalm (by decide +kernel) (by decide +kernel))
  refine ⟨_, hreach, ?_, ?_, (grants_le_cap Encoding.formats "mlab").2 mlabPolicy rfl _ hreach⟩
  · rw [grantsOn_told, htold]
    decide +kernel
  · rw [grantsOn_told, htold]
    decide +kernel

/-! ### A clock that steps back over midnight -/

/-- Four runs on a day, a poll on the next, and a fifth run with the clock set back. -/
def rollbackCalls : List Call := [
  .reserveRun 0, .reserveRun 3600000000000, .reserveRun 7200000000000, .reserveRun 10800000000000,
  .pollInterfaces 1 86400000000000 ∅, .reserveRun 14400000000000]

/-- **Runs that are forgotten**: the runs of a day are dropped when the next day begins, and a
clock that is set back then finds none of them. -/
theorem grants_after_rollback : ∃ w,
    Reaches Encoding.formats (fun _ a => OpensWith "mlab" (fun p => p = mlabPolicy) a) w ∧
      4 < grantsOn "mlab" 0 w.trace := by
  obtain ⟨s, L, -, htold⟩ := @calmRun_spec Encoding.formats mlabPolicy 0 1
    (.replicate 16 0) rollbackCalls (by decide +kernel)
  refine ⟨_, reaches_calmRun 0 1 (.replicate 16 0) rollbackCalls (fun _ => rfl) fun _ => trivial,
    ?_⟩
  rw [grantsOn_told, htold]
  decide +kernel

end Netband.Cap

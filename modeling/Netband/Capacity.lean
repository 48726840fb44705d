import Netband.Settings
import Netband.Slots
import Netband.Calm
import Netband.Cap
import Netband.Encoding

/-!
Whether the cap of an accepted configuration fits in a day.

Runs that are all admitted are a whole spacing apart, so they fit in a UTC day exactly if all
spacings between them do. The configuration divides the day by the whole seconds of the
spacing, which lets a cap through that does not fit when the spacing has a fraction of a second.
-/

namespace Netband.Capacity

open Netband.Time Netband.Model Netband.State Netband.Plan Netband.Effects Netband.Scheduling
open Netband.World Netband.Edits Netband.Steps Netband.Settings Netband.Slots
open Saving

/-! ### Points a whole step apart -/

/-- Each point is at least a step after the one before. -/
def Apart (step : ℕ) (points : List ℤ) : Prop :=
  points.IsChain fun previous next : ℤ => previous + step ≤ next

lemma apart_spread {step : ℕ} {first : ℤ} {rest : List ℤ} (h : Apart step (first :: rest)) :
    ∃ last ∈ first :: rest, first + rest.length * step ≤ last := by
  induction rest generalizing first with
  | nil => exact ⟨first, List.mem_cons_self, by simp⟩
  | cons second rest ih =>
    obtain ⟨hstep, hrest⟩ := List.isChain_cons_cons.mp h
    obtain ⟨last, hmem, hle⟩ := ih hrest
    refine ⟨last, List.mem_cons_of_mem first hmem, ?_⟩
    rw [List.length_cons]
    push_cast
    linarith

/-- Points from a start on, each a step after the one before. -/
def ladder (step : ℕ) : ℤ → ℕ → List ℤ
  | _, 0 => []
  | start, n + 1 => start :: ladder step (start + step) n

lemma length_ladder (step : ℕ) (start : ℤ) (n : ℕ) : (ladder step start n).length = n := by
  induction n generalizing start with
  | zero => rfl
  | succ n ih => simp [ladder, ih]

lemma apart_ladder (step : ℕ) (start : ℤ) (n : ℕ) : Apart step (ladder step start n) := by
  induction n generalizing start with
  | zero => exact .nil
  | succ n ih =>
    cases n with
    | zero => exact .singleton start
    | succ n => exact List.isChain_cons_cons.mpr ⟨le_rfl, ih (start + step)⟩

lemma mem_ladder {step : ℕ} {start point : ℤ} {n : ℕ} (h : point ∈ ladder step start n) :
    start ≤ point ∧ point ≤ start + (n - 1 : ℕ) * step := by
  induction n generalizing start with
  | zero => cases h
  | succ n ih =>
    rcases List.mem_cons.mp h with rfl | h
    · simp
      positivity
    · obtain ⟨hle, hge⟩ := ih h
      cases n with
      | zero => cases h
      | succ n =>
        simp only [Nat.add_sub_cancel] at hge ⊢
        push_cast
        constructor <;> linarith

/-- **Fitting**: so many points a step apart lie between two bounds exactly if all steps between
them do. -/
theorem exists_apart_iff (step n : ℕ) (low high : ℤ) :
    (∃ points : List ℤ, points.length = n ∧ (∀ p ∈ points, low ≤ p ∧ p < high) ∧
      Apart step points) ↔ n = 0 ∨ low + (n - 1 : ℕ) * step < high := by
  constructor
  · rintro ⟨points, rfl, hbounds, happart⟩
    cases points with
    | nil => exact .inl rfl
    | cons first rest =>
      obtain ⟨last, hmem, hle⟩ := apart_spread happart
      have hfirst := hbounds first List.mem_cons_self
      have hlast := hbounds last hmem
      right
      simp only [List.length_cons, Nat.add_sub_cancel]
      linarith
  · intro h
    refine ⟨ladder step low n, length_ladder step low n, ?_, apart_ladder step low n⟩
    intro p hp
    obtain ⟨hle, hge⟩ := mem_ladder hp
    rcases h with rfl | h
    · cases hp
    · exact ⟨hle, by linarith⟩

/-! ### Reservations of one day -/

section day
variable {policy : SchedulerPolicy} {d t : ℤ} {k : ℕ} {last : Option ℤ} {st : ProviderState}

/-- A record with so many runs on a day, the last start, and no cooldown. -/
structure Used (d : ℤ) (k : ℕ) (last : Option ℤ) (st : ProviderState) : Prop where
  count : (st.runs.countP fun run => dateNaive run = d) = k
  last : st.lastStartedAtUtc = last
  cooldown : st.cooldownUntilUtc = none

lemma Used.reconcile (h : Used d k last st) (ht : dateNaive t = d) :
    Used d k last (reconcileDay policy t st) := by
  rcases le_or_gt (dateNaive t) st.dayUtc with hday | hday
  · rwa [reconcileDay_of_le hday]
  obtain ⟨rng, slots, hr, -⟩ := reconcileDay_of_lt policy hday
  rw [hr]
  refine ⟨?_, h.last, by simp [newDay, h.cooldown]⟩
  change (st.runs.filter (dateNaive t ≤ dateNaive ·)).countP (fun run => dateNaive run = d) = k
  rw [List.countP_filter, ← h.count]
  refine List.countP_congr fun run _ => ?_
  simp only [Bool.and_eq_true, decide_eq_true_eq]
  constructor
  · exact fun h => h.1
  · exact fun h => ⟨h, by omega⟩

/-- Below the cap a run is admitted once the spacing after the last start is over. -/
lemma Used.admits (h : Used d k last st) (hforce : policy.forceLimits = false)
    (hkind : policy.providerKind = .direct) (ht : dateNaive t = d) :
    blockReason policy st t = none ↔
      k < policy.dailyMax ∧ ∀ l ∈ last, addDuration l policy.minSpacing ≤ t := by
  have hused : runsOnDay st (dateNaive t) = min k u32Max := by
    rw [runsOnDay, ht, h.count]
  have hcap := policy.dailyMax_le
  rw [blockReason_eq_none, hused, h.last, h.cooldown]
  simp only [capReached, mlabHardCapReached, configuredCapReached, hforce, hkind, Bool.not_false,
    Bool.true_and, reduceCtorEq, decide_false, Bool.false_and, Bool.false_or, Bool.or_eq_false_iff,
    decide_eq_false_iff_not, false_or, Option.mem_def, IsEmpty.forall_iff, implies_true, true_and]
  constructor
  · rintro ⟨⟨hne, hlt⟩, hlast⟩
    exact ⟨by omega, hlast⟩
  · rintro ⟨hlt, hlast⟩
    exact ⟨⟨by omega, by omega⟩, hlast⟩

def isReserved : Except SchedulerError Reply → Bool
  | .ok (.reserved _) => true
  | _ => false

/-- **One reservation** succeeds exactly if the run is admitted, and then counts. -/
lemma Used.reserve (h : Used d k last st) (hforce : policy.forceLimits = false)
    (hkind : policy.providerKind = .direct) (ht : dateNaive t = d) :
    (isReserved ((Call.reserveRun t).run policy st).2.1 = true ↔
      k < policy.dailyMax ∧ ∀ l ∈ last, addDuration l policy.minSpacing ≤ t) ∧
    (isReserved ((Call.reserveRun t).run policy st).2.1 = true →
      Used d (k + 1) (maxStart last t) ((Call.reserveRun t).run policy st).2.2) := by
  have hrolled : Used d k last (reconcileDay policy t st) := h.reconcile ht
  rw [← hrolled.admits hforce hkind ht, run_reserveRun]
  cases hb : blockReason policy (reconcileDay policy t st) t with
  | some blocked => simp [isReserved]
  | none =>
    refine ⟨by simp [isReserved], fun _ => ⟨?_, ?_, hrolled.cooldown⟩⟩
    · change ((startRun t (reconcileDay policy t st)).runs.countP _) = k + 1
      rw [Cap.countP_startRun, hrolled.count, if_pos ht]
    · change maxStart (reconcileDay policy t st).lastStartedAtUtc t = _
      rw [hrolled.last]

/-- Each instant is a spacing after the last start before it. -/
def Follows (minSpacing : ℕ) : Option ℤ → List ℤ → Prop
  | _, [] => True
  | last, t :: instants =>
    (∀ l ∈ last, addDuration l minSpacing ≤ t) ∧ Follows minSpacing (maxStart last t) instants

/-- **Reservations**: all of them succeed exactly if they are within the cap and follow each other
at the spacing. -/
lemma reserved_iff {instants : List ℤ} (h : Used d k last st) (hforce : policy.forceLimits = false)
    (hkind : policy.providerKind = .direct) (hdate : ∀ t ∈ instants, dateNaive t = d)
    (hk : k ≤ policy.dailyMax) :
    (∀ x ∈ (Steps.tell policy st (instants.map .reserveRun)).2, isReserved x.2.2 = true) ↔
      k + instants.length ≤ policy.dailyMax ∧ Follows policy.minSpacing last instants := by
  induction instants generalizing k last st with
  | nil => simpa [Steps.tell, Follows] using hk
  | cons t instants ih =>
    obtain ⟨hiff, hnext⟩ := h.reserve hforce hkind (hdate t List.mem_cons_self)
    have hrest : ∀ u ∈ instants, dateNaive u = d := fun u hu => hdate u (List.mem_cons_of_mem t hu)
    simp only [List.map_cons, Steps.tell, List.forall_mem_cons, List.length_cons, Follows]
    constructor
    · rintro ⟨hfirst, hall⟩
      obtain ⟨hlt, hlast⟩ := hiff.mp hfirst
      obtain ⟨hle, hfollows⟩ := (ih (hnext hfirst) hrest hlt).mp hall
      exact ⟨by omega, hlast, hfollows⟩
    · rintro ⟨hle, hlast, hfollows⟩
      have hfirst := hiff.mpr ⟨by omega, hlast⟩
      exact ⟨hfirst, (ih (hnext hfirst) hrest (by omega)).mpr ⟨by omega, hfollows⟩⟩

/-- Within a day no addition saturates. -/
lemma addDuration_le_iff {u : ℤ} (hd : dayEnd d ≤ maxUtc) (ht : dateNaive t = d)
    (hu : dateNaive u = d) (step : ℕ) : addDuration t step ≤ u ↔ t + step ≤ u := by
  constructor
  · intro h
    refine add_le_of_addDuration_le h ?_ ?_ <;>
      simp only [dateNaive, dayEnd, dayStart, dayLength, daySeconds, second, timeDeltaMax] at * <;>
      omega
  · exact (addDuration_le t step).trans

lemma follows_iff {instants : List ℤ} (step : ℕ) (hd : dayEnd d ≤ maxUtc)
    (hdate : ∀ u ∈ t :: instants, dateNaive u = d) :
    Follows step (some t) instants ↔ Apart step (t :: instants) := by
  induction instants generalizing t with
  | nil => simp [Follows, Apart]
  | cons u instants ih =>
    have ht := hdate t List.mem_cons_self
    have hrest : ∀ v ∈ u :: instants, dateNaive v = d :=
      fun v hv => hdate v (List.mem_cons_of_mem t hv)
    have hstep := addDuration_le_iff hd ht (hrest u List.mem_cons_self) step
    rw [Apart, List.isChain_cons_cons, ← hstep]
    simp only [Follows, Option.mem_some_iff, forall_eq']
    refine and_congr_right fun hle => ?_
    have hmax : maxStart (some t) u = some u := by
      have := hstep.mp hle
      simp only [maxStart, Option.elim_some]
      rw [max_eq_left (by omega)]
    rw [hmax]
    exact ih hrest

/-- From a new record, all of some instants of a day can be reserved exactly if they are within
the cap and a spacing apart. -/
lemma reserved_new_iff {instants : List ℤ} (now : ℤ) (seed : UInt64)
    (hforce : policy.forceLimits = false) (hkind : policy.providerKind = .direct)
    (hd : dayEnd d ≤ maxUtc) (hdate : ∀ t ∈ instants, dateNaive t = d) :
    (∀ x ∈ (Steps.tell policy (newState policy now seed) (instants.map .reserveRun)).2,
        isReserved x.2.2 = true) ↔
      instants.length ≤ policy.dailyMax ∧ Apart policy.minSpacing instants := by
  obtain ⟨rng, hplanned, -⟩ := planFullDay_eq policy now (blankState policy now seed)
  have hnew : newState policy now seed = { blankState policy now seed with
      rngState := rng, slots := (planFullDay policy (blankState policy now seed) now).1 } := by
    simp only [newState, hplanned]
  have hused : Used d 0 none (newState policy now seed) := by
    rw [hnew]
    exact ⟨rfl, rfl, rfl⟩
  rw [reserved_iff hused hforce hkind hdate (Nat.zero_le _), Nat.zero_add]
  refine and_congr_right fun _ => ?_
  cases instants with
  | nil => simp [Follows, Apart]
  | cons t instants =>
    rw [← follows_iff policy.minSpacing hd hdate]
    simp [Follows, maxStart]

end day

/-! ### Schedulable configurations -/

/-- After a first opening, as many runs as the cap allows can be reserved within the day. -/
def Schedulable (S : Recovery.Serde) (policy : SchedulerPolicy) (now : ℤ) (seed : UInt64)
    (random : Vector UInt8 16) (d : ℤ) : Prop :=
  ∃ instants : List ℤ, instants.length = policy.dailyMax ∧ (∀ t ∈ instants, dateNaive t = d) ∧
    (calmRun S policy now seed random (instants.map .reserveRun)).trace.length = policy.dailyMax ∧
    ∀ e ∈ (calmRun S policy now seed random (instants.map .reserveRun)).trace,
      isReserved e.result = true

lemma savedBy_reservations (policy : SchedulerPolicy) (st : ProviderState) (instants : List ℤ) :
    savedBy policy st (instants.map .reserveRun) ≤ instants.length := by
  induction instants generalizing st with
  | nil => exact le_rfl
  | cons t instants ih =>
    have hone : ((Call.reserveRun t).run policy st).1.length ≤ 1 := by
      rw [run_reserveRun]
      split <;> simp
    have := ih ((Call.reserveRun t).run policy st).2.2
    simp only [List.map_cons, savedBy, List.length_cons]
    omega

lemma length_tell (policy : SchedulerPolicy) (st : ProviderState) (calls : List Call) :
    (Steps.tell policy st calls).2.length = calls.length := by
  induction calls generalizing st with
  | nil => rfl
  | cons c calls ih => simp [Steps.tell, ih]

/-- **Capacity**: a direct provider's cap can be used up within a day, exactly if all spacings
between its runs fit in the day. -/
lemma schedulable_iff {S : Recovery.Serde} {policy : SchedulerPolicy} {now : ℤ} {seed : UInt64}
    {random : Vector UInt8 16} {d : ℤ} (hforce : policy.forceLimits = false)
    (hkind : policy.providerKind = .direct) (hd : dayEnd d ≤ maxUtc) :
    Schedulable S policy now seed random d ↔
      policy.dailyMax = 0 ∨ ((policy.dailyMax - 1) * policy.minSpacing : ℕ) < dayLength := by
  have htrace : ∀ instants : List ℤ, instants.length = policy.dailyMax →
      (calmRun S policy now seed random (instants.map .reserveRun)).trace.map told =
        (Steps.tell policy (newState policy now seed) (instants.map .reserveRun)).2 := by
    intro instants hlength
    have hsaved := savedBy_reservations policy (newState policy now seed) instants
    have hcap := policy.dailyMax_le
    have hsmall : u32Max + 1 ≤ u64Max := by decide
    obtain ⟨s, L, -, h⟩ := @calmRun_spec S policy now seed random (instants.map .reserveRun)
      (by omega)
    exact h
  have hall : ∀ instants : List ℤ, instants.length = policy.dailyMax →
      (∀ t ∈ instants, dateNaive t = d) →
      ((∀ e ∈ (calmRun S policy now seed random (instants.map .reserveRun)).trace,
        isReserved e.result = true) ↔ Apart policy.minSpacing instants) := by
    intro instants hlength hdate
    have hreserved := reserved_new_iff now seed hforce hkind hd hdate
    rw [← htrace instants hlength, List.forall_mem_map] at hreserved
    refine hreserved.trans ?_
    simp [hlength]
  have hday : ∀ t, dateNaive t = d ↔ dayStart d ≤ t ∧ t < dayEnd d := by
    intro t
    simp only [dateNaive, dayEnd, dayStart, dayLength, daySeconds, second]
    omega
  have hfits := exists_apart_iff policy.minSpacing policy.dailyMax (dayStart d) (dayEnd d)
  have hspan : dayStart d + ((policy.dailyMax - 1 : ℕ) : ℤ) * policy.minSpacing < dayEnd d ↔
      (((policy.dailyMax - 1) * policy.minSpacing : ℕ) : ℤ) < dayLength := by
    rw [dayEnd, add_lt_add_iff_left, Nat.cast_mul]
  rw [hspan] at hfits
  rw [← hfits]
  constructor
  · rintro ⟨instants, hlength, hdate, -, hreserved⟩
    exact ⟨instants, hlength, fun t ht => (hday t).mp (hdate t ht),
      (hall instants hlength hdate).mp hreserved⟩
  · rintro ⟨instants, hlength, hbounds, happart⟩
    have hdate : ∀ t ∈ instants, dateNaive t = d := fun t ht => (hday t).mpr (hbounds t ht)
    refine ⟨instants, hlength, hdate, ?_, (hall instants hlength hdate).mpr happart⟩
    have hlengths := congrArg List.length (htrace instants hlength)
    simpa [length_tell, hlength] using hlengths

/-- **Accepted direct configurations**: the cap of a direct configuration that was accepted can be
used up within a day, exactly if all spacings between its runs fit in the day. -/
theorem accepted_schedulable_iff {humantime : Humantime} {endpoints : Endpoints}
    {cli file : BandwidthOptions} {config : BandwidthConfig} {S : Recovery.Serde} {now : ℤ}
    {seed : UInt64} {random : Vector UInt8 16} {d : ℤ}
    (h : resolveBandwidth humantime endpoints false cli file = .ok config)
    (hkind : config.provider = .direct) (hd : dayEnd d ≤ maxUtc) :
    Schedulable S (config.policy (resolveBandwidth_accepted h)) now seed random d ↔
      config.dailyMax = 0 ∨
        (((config.dailyMax.toNat - 1) * config.minSpacing : ℕ) : ℤ) < dayLength := by
  have hforce : config.forceLimits = false := (resolveBandwidth_ok h).1
  rw [schedulable_iff hforce hkind hd]
  refine or_congr_left ⟨fun h => UInt32.toNat_inj.mp h, fun h => ?_⟩
  exact congrArg UInt32.toNat h

/-- A spacing of whole seconds always leaves room for the cap. -/
theorem schedulable_of_whole_seconds {humantime : Humantime} {endpoints : Endpoints}
    {cli file : BandwidthOptions} {config : BandwidthConfig} {S : Recovery.Serde} {now : ℤ}
    {seed : UInt64} {random : Vector UInt8 16} {d : ℤ}
    (h : resolveBandwidth humantime endpoints false cli file = .ok config)
    (hkind : config.provider = .direct) (hd : dayEnd d ≤ maxUtc)
    (hwhole : 1000000000 ∣ config.minSpacing) :
    Schedulable S (config.policy (resolveBandwidth_accepted h)) now seed random d := by
  rw [accepted_schedulable_iff h hkind hd]
  have hok := (resolveBandwidth_ok h).2.2.2.2
  rw [hkind] at hok
  obtain ⟨-, hspacing, hcap⟩ := hok
  obtain ⟨seconds, hseconds⟩ := hwhole
  have hpos : 0 < seconds := by omega
  rw [hseconds, Nat.mul_div_cancel_left _ (by decide)] at hcap
  have hfit : config.dailyMax.toNat * seconds ≤ 86400 := (Nat.le_div_iff_mul_le hpos).mp hcap
  rcases Nat.eq_zero_or_pos config.dailyMax.toNat with hzero | hruns
  · exact .inl (UInt32.toNat_inj.mp hzero)
  · right
    have hless : (config.dailyMax.toNat - 1) * seconds < 86400 := by
      calc (config.dailyMax.toNat - 1) * seconds
          < config.dailyMax.toNat * seconds := Nat.mul_lt_mul_of_pos_right (by omega) hpos
        _ ≤ 86400 := hfit
    have hnanos : (config.dailyMax.toNat - 1) * config.minSpacing =
        (config.dailyMax.toNat - 1) * seconds * 1000000000 := by
      rw [hseconds]
      ring
    rw [hnanos]
    simp only [dayLength, daySeconds, second]
    omega

/-! ### A spacing with half a second -/

/-- The durations of the options below. -/
def someDurations : Humantime where
  parseDuration
    | "60s 500ms" => .ok 60500000000
    | "55s" => .ok 55000000000
    | "5s" => .ok 5000000000
    | "30m" => .ok 1800000000000
    | "60s" => .ok 60000000000
    | "16m" => .ok 960000000000
    | _ => .error "expected number at 0"
  formatDuration _ := "1m 500ms"

def someEndpoints : Endpoints where
  parseHttpUrl _ _ := .ok ()
  mlabId := ⟨"8d6a9fdd3a9b2e01", by decide⟩
  resolveDirect _ _ := .ok ⟨"0d1f3c5b7a998877", by decide⟩

/-- A run every minute and a half second, 1440 times a day. -/
def halfSecondOptions : BandwidthOptions where
  provider := some .direct
  dailyMax := some 1440
  minSpacing := some "60s 500ms"
  shutdownMargin := some "5s"
  direct := { target := some "ndt.example.net" }

lemma halfSecond_resolved : ∃ config,
    resolveBandwidth someDurations someEndpoints false halfSecondOptions {} = .ok config ∧
      config.provider = .direct ∧ config.dailyMax = 1440 ∧ config.minSpacing = 60500000000 :=
  ⟨_, rfl, rfl, rfl, rfl⟩

/-- A run every minute, 1440 times a day. -/
def minuteOptions : BandwidthOptions := { halfSecondOptions with minSpacing := some "60s" }

lemma minute_resolved : ∃ config,
    resolveBandwidth someDurations someEndpoints false minuteOptions {} = .ok config ∧
      config.provider = .direct ∧ config.dailyMax = 1440 ∧ config.minSpacing = 60000000000 :=
  ⟨_, rfl, rfl, rfl, rfl⟩

/-- With a spacing of a minute 1440 runs fit in the first day of the epoch. -/
theorem minute_schedulable : ∃ config,
    ∃ h : resolveBandwidth someDurations someEndpoints false minuteOptions {} = .ok config,
      config.dailyMax = 1440 ∧ Schedulable Encoding.formats
        (config.policy (resolveBandwidth_accepted h)) 0 1 (.replicate 16 0) 0 := by
  obtain ⟨config, h, hkind, hcap, hspacing⟩ := minute_resolved
  refine ⟨config, h, hcap, (accepted_schedulable_iff h hkind (by decide)).mpr (.inr ?_)⟩
  rw [hcap, hspacing]
  decide

/-- **A cap that does not fit**: 1440 runs a day are accepted with a spacing of 60.5 seconds. -/
theorem half_second_not_schedulable : ¬ ∀ (humantime : Humantime) (endpoints : Endpoints)
    (cli file : BandwidthOptions) (config : BandwidthConfig) (now : ℤ) (seed : UInt64)
    (random : Vector UInt8 16)
    (h : resolveBandwidth humantime endpoints false cli file = .ok config),
    config.provider = .direct → ∃ d, dayEnd d ≤ maxUtc ∧ Schedulable Encoding.formats
      (config.policy (resolveBandwidth_accepted h)) now seed random d := by
  intro hall
  obtain ⟨config, h, hkind, hcap, hspacing⟩ := halfSecond_resolved
  obtain ⟨d, hd, hschedulable⟩ := hall _ _ _ _ config 0 1 (.replicate 16 0) h hkind
  have hforce : (config.policy (resolveBandwidth_accepted h)).forceLimits = false :=
    (resolveBandwidth_ok h).1
  rw [schedulable_iff hforce hkind hd] at hschedulable
  simp only [BandwidthConfig.policy, hcap, hspacing] at hschedulable
  exact absurd hschedulable (by decide)

end Netband.Capacity

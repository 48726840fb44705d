import Netband.State

/-!
Random slots within a day, the rollover of a UTC day, and the backoff after a rate limit.

Each function takes the record it edits and returns the edited record.
-/

namespace Netband.Plan

open Netband.Time Netband.Model Netband.State

/-- One round of the xorshift generator: the value drawn, which is also the new state. -/
def nextRandom (rng : UInt64) : UInt64 :=
  let value := max rng 1
  let value := value ^^^ (value <<< 13)
  let value := value ^^^ (value >>> 7)
  value ^^^ (value <<< 17)

/-! ### The generator never reaches zero -/

lemma shiftLeft_eq_self {w : ℕ} {x : BitVec w} {k : ℕ} (hk : 0 < k) (h : x <<< k = x) : x = 0 := by
  have hbit : ∀ i, x.getLsbD i = false := by
    intro i
    induction i using Nat.strong_induction_on with
    | _ i ih =>
      rw [← h, BitVec.getLsbD_shiftLeft]
      rcases Nat.lt_or_ge i k with hi | hi
      · simp [hi]
      · simp [ih (i - k) (by omega)]
  exact BitVec.eq_of_getLsbD_eq fun i _ => by simp [hbit]

lemma ushiftRight_eq_self {w : ℕ} {x : BitVec w} {k : ℕ} (hk : 0 < k) (h : x >>> k = x) :
    x = 0 := by
  have hbit : ∀ n i, w ≤ i + n → x.getLsbD i = false := by
    intro n
    induction n with
    | zero => exact fun i hi => BitVec.getLsbD_of_ge x i (by omega)
    | succ n ih =>
      intro i hi
      rw [← h, BitVec.getLsbD_ushiftRight]
      exact ih (k + i) (by omega)
  exact BitVec.eq_of_getLsbD_eq fun i _ => by simp [hbit w i (by omega)]

lemma xor_shiftLeft_ne_zero {x k : UInt64} (hk : 0 < (k.toBitVec % 64).toNat) (hx : x ≠ 0) :
    x ^^^ (x <<< k) ≠ 0 := by
  intro h
  have h := congrArg UInt64.toBitVec (UInt64.xor_eq_zero_iff.mp h).symm
  rw [UInt64.toBitVec_shiftLeft] at h
  exact hx (UInt64.toBitVec_inj.mp (shiftLeft_eq_self hk h))

lemma xor_shiftRight_ne_zero {x k : UInt64} (hk : 0 < (k.toBitVec % 64).toNat) (hx : x ≠ 0) :
    x ^^^ (x >>> k) ≠ 0 := by
  intro h
  have h := congrArg UInt64.toBitVec (UInt64.xor_eq_zero_iff.mp h).symm
  rw [UInt64.toBitVec_shiftRight] at h
  exact hx (UInt64.toBitVec_inj.mp (ushiftRight_eq_self hk h))

lemma max_one_ne_zero (x : UInt64) : max x 1 ≠ 0 := by
  change (if x ≤ 1 then 1 else x) ≠ 0
  split
  · decide
  · rintro rfl
    contradiction

lemma nextRandom_ne_zero (rng : UInt64) : nextRandom rng ≠ 0 :=
  xor_shiftLeft_ne_zero (by decide) <| xor_shiftRight_ne_zero (by decide) <|
    xor_shiftLeft_ne_zero (by decide) (max_one_ne_zero rng)

/-! ### Slots -/

section Interval

variable (minSpacing slotJitterPct : ℕ)

/-- One stratum of `plan_interval`: the slots planned so far and the generator. -/
def planSlot (earliest stop totalMs : ℤ) (count : ℕ) (acc : List ℤ × UInt64) (index : ℕ) :
    List ℤ × UInt64 :=
  let stratumStart := totalMs * index / count
  let stratumEnd := totalMs * (index + 1) / count
  let width := max (stratumEnd - stratumStart) 1
  let jitterWidth := width * slotJitterPct / 100
  let middleStart := stratumStart + (width - jitterWidth).tdiv 2
  let rng := if jitterWidth = 0 then acc.2 else nextRandom acc.2
  let sampled :=
    if jitterWidth = 0 then middleStart
    else middleStart + ((rng.toNat % jitterWidth.toNat : ℕ) : ℤ)
  let candidate := earliest + sampled * millisecond
  if acc.1.getLast?.all (fun previous => addDuration previous minSpacing ≤ candidate)
      && candidate < stop then
    (acc.1 ++ [candidate], rng)
  else (acc.1, rng)

/-- The first instant of an interval at which the spacing and the cooldown allow a run. -/
def earliestSlot (st : ProviderState) (start : ℤ) : ℤ :=
  let spaced := (st.lastStartedAtUtc.map (addDuration · minSpacing)).getD start
  max (max spaced (st.cooldownUntilUtc.getD start)) start

/-- `plan_interval`, from the two fields of the policy that it reads. -/
def planIntervalWith (st : ProviderState) (start stop : ℤ) (count : ℕ) :
    List ℤ × ProviderState :=
  if count = 0 ∨ stop ≤ start then ([], st) else
  let earliest := earliestSlot minSpacing st start
  if stop ≤ earliest then ([], st) else
  let totalMs := max ((stop - earliest) / millisecond) 1
  let planned := (List.range count).foldl
    (planSlot minSpacing slotJitterPct earliest stop totalMs count) ([], st.rngState)
  (planned.1, { st with rngState := planned.2 })

end Interval

variable (policy : SchedulerPolicy)

def planInterval (st : ProviderState) (start stop : ℤ) (count : ℕ) : List ℤ × ProviderState :=
  planIntervalWith policy.minSpacing policy.slotJitterPct st start stop count

def planFullDay (st : ProviderState) (now : ℤ) : List ℤ × ProviderState :=
  let day := dateNaive now
  let planned := planInterval policy st (dayStart day) (dayEnd day) policy.dailyMax
  (planned.1.filter (now < ·), planned.2)

/-- The record on a new UTC day, before its slots are planned. -/
def newDay (now : ℤ) (st : ProviderState) : ProviderState := { st with
  dayUtc := dateNaive now
  runs := st.runs.filter (dateNaive now ≤ dateNaive ·)
  deferred := none
  interfaceTriggers := ∅
  cooldownUntilUtc := st.cooldownUntilUtc.filter (now < ·) }

/-- Roll over to the day of a time, unless the record is on it or on a later one. -/
def reconcileDay (now : ℤ) (st : ProviderState) : ProviderState :=
  if dateNaive now ≤ st.dayUtc then st else
  let planned := planFullDay policy (newDay now st) now
  { planned.2 with slots := planned.1 }

def replanRemaining (now : ℤ) (st : ProviderState) : ProviderState :=
  let day := dateNaive now
  let remaining := policy.dailyMax - runsOnDay st day
  let planned := planInterval policy st now (dayEnd day) remaining
  { planned.2 with slots := planned.1 }

/-! ### Backoff -/

def jitterDuration (st : ProviderState) (base : ℕ) : ℕ × ProviderState :=
  let millis := durationMillis base
  let spread := millis / 5
  if spread = 0 then (base, st) else
  let rng := nextRandom st.rngState
  let offset := rng.toNat % min (min (spread * 2) u64Max + 1) u64Max
  (min (millis - spread + offset) u64Max * 1000000, { st with rngState := rng })

def nextBackoff (st : ProviderState) : ℕ × ProviderState :=
  let multiplier := 2 ^ min st.backoffStep 4
  let base := min ((checkedMul policy.cooldownInitial multiplier).getD policy.cooldownMax)
    policy.cooldownMax
  jitterDuration { st with backoffStep := min (st.backoffStep + 1) 4 } base

end Netband.Plan

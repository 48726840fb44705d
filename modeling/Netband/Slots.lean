import Netband.Edits
import Netband.Strata

/-!
What `plan_interval` plans, for every record, generator state, interval and count.

Each stratum draws one candidate in its centred part. A candidate too close to the slot kept
before it is dropped, so the strata of the slots increase; and when the strata are wide enough
beside their room for the spacing, nothing is dropped.
-/

namespace Netband.Slots

open Netband.Time Netband.Model Netband.State Netband.Plan Netband.Strata

variable {minSpacing pct : ℕ} {st : ProviderState} {earliest start stop totalMs : ℤ}
  {count index : ℕ} {rng : UInt64} {acc : List ℤ × UInt64} {slots : List ℤ}

lemma addDuration_le (t : ℤ) (d : ℕ) : addDuration t d ≤ t + d := by
  simp only [addDuration]
  split <;> omega

/-- An addition that reaches no further than a representable instant did not saturate. -/
lemma add_le_of_addDuration_le {t c : ℤ} {d : ℕ} (h : addDuration t d ≤ c) (hc : c < maxUtc)
    (ht : c < t + timeDeltaMax) : t + d ≤ c := by
  simp only [addDuration] at h
  split at h <;> omega

/-! ### One candidate -/

/-- The generator after the draw for a stratum with so much room. -/
def drawn (room : ℤ) (rng : UInt64) : UInt64 := if room = 0 then rng else nextRandom rng

/-- Milliseconds from the start of the interval to the candidate of a stratum. -/
def offsetOf (pct : ℕ) (totalMs : ℤ) (count index : ℕ) (rng : UInt64) : ℤ :=
  let width := max (width totalMs count index) 1
  let first := cut totalMs count index + (width - room pct width).tdiv 2
  if room pct width = 0 then first
  else first + (((drawn (room pct width) rng).toNat % (room pct width).toNat : ℕ) : ℤ)

/-- The candidate is kept after these slots. -/
def Fits (minSpacing : ℕ) (stop candidate : ℤ) (slots : List ℤ) : Prop :=
  (∀ previous, slots.getLast? = some previous → addDuration previous minSpacing ≤ candidate) ∧
    candidate < stop

variable (minSpacing pct earliest stop totalMs count index acc) in
lemma planSlot_eq : planSlot minSpacing pct earliest stop totalMs count acc index =
    let candidate := earliest + offsetOf pct totalMs count index acc.2 * millisecond
    let rng := drawn (room pct (max (width totalMs count index) 1)) acc.2
    if acc.1.getLast?.all (fun previous => addDuration previous minSpacing ≤ candidate)
      && candidate < stop then (acc.1 ++ [candidate], rng) else (acc.1, rng) := by
  have hcut : totalMs * ((index : ℤ) + 1) / count = cut totalMs count (index + 1) := by
    simp [cut]
  simp only [planSlot, hcut]
  rfl

variable (minSpacing pct earliest stop totalMs count index acc) in
/-- **One stratum** either drops its candidate or appends it to slots it fits after. -/
lemma planSlot_fst :
    let candidate := earliest + offsetOf pct totalMs count index acc.2 * millisecond
    let next := planSlot minSpacing pct earliest stop totalMs count acc index
    (¬ Fits minSpacing stop candidate acc.1 ∧ next.1 = acc.1) ∨
      (Fits minSpacing stop candidate acc.1 ∧ next.1 = acc.1 ++ [candidate]) := by
  intro candidate next
  have hfits : (acc.1.getLast?.all (fun previous => addDuration previous minSpacing ≤ candidate)
      && candidate < stop) = true ↔ Fits minSpacing stop candidate acc.1 := by
    simp only [Fits, Bool.and_eq_true, decide_eq_true_eq, Option.all_eq_true]
  have hnext := planSlot_eq minSpacing pct earliest stop totalMs count index acc
  by_cases h : Fits minSpacing stop candidate acc.1
  · have hkeep := hnext.trans (if_pos (hfits.2 h))
    exact .inr ⟨h, congrArg Prod.fst hkeep⟩
  · have hdrop := hnext.trans (if_neg (mt hfits.1 h))
    exact .inl ⟨h, (congrArg Prod.fst hdrop).trans rfl⟩

/-- The width `plan_interval` works with: at least one millisecond. -/
lemma widened (totalMs : ℤ) (count index : ℕ) (hp : pct ≤ 100) :
    0 ≤ room pct (max (width totalMs count index) 1) ∧
      room pct (max (width totalMs count index) 1) ≤ max (width totalMs count index) 1 :=
  ⟨room_nonneg pct (by omega), room_le hp (by omega)⟩

variable (totalMs count index rng) in
lemma offsetOf_bounds (hp : pct ≤ 100) :
    let width := max (width totalMs count index) 1
    let first := cut totalMs count index + (width - room pct width) / 2
    first ≤ offsetOf pct totalMs count index rng ∧
      offsetOf pct totalMs count index rng < first + max (room pct width) 1 := by
  intro width first
  obtain ⟨hnonneg, hle⟩ : 0 ≤ room pct width ∧ room pct width ≤ width :=
    widened totalMs count index hp
  have hfirst : cut totalMs count index + (width - room pct width).tdiv 2 = first := by
    rw [Int.tdiv_eq_ediv_of_nonneg (by omega)]
  have hdef : offsetOf pct totalMs count index rng = if room pct width = 0 then first
      else first + (((drawn (room pct width) rng).toNat % (room pct width).toNat : ℕ) : ℤ) := by
    rw [← hfirst]
    rfl
  rw [hdef]
  split
  · omega
  · have hmod := Nat.mod_lt (drawn (room pct width) rng).toNat
      (show 0 < (room pct width).toNat by omega)
    omega

variable (index) in
lemma width_nonneg (hc : 0 < count) (ht : 0 ≤ totalMs) : 0 ≤ width totalMs count index := by
  have hq : 0 ≤ totalMs / count := Int.ediv_nonneg ht (by positivity)
  rcases width_eq totalMs index hc with h | h <;> omega

variable (rng) in
/-- A candidate lies in the interval, even when it has fewer milliseconds than strata. -/
lemma offsetOf_mem (hp : pct ≤ 100) (hi : index < count) (ht : 0 < totalMs) :
    0 ≤ offsetOf pct totalMs count index rng ∧
      offsetOf pct totalMs count index rng < totalMs := by
  have hc : 0 < count := by omega
  have hw := width_nonneg index hc ht.le
  have hcut := cut_nonneg count index ht.le
  have hlt := cut_lt ht hc hi
  have hnext := cut_le ht.le hc (show index + 1 ≤ count by omega)
  have hend : cut totalMs count (index + 1) = cut totalMs count index + width totalMs count index
      := by
    simp only [width]
    ring
  obtain ⟨hnonneg, hle⟩ := widened totalMs count index hp
  obtain ⟨hlow, hhigh⟩ := offsetOf_bounds totalMs count index rng hp
  omega

variable (rng) in
/-- When there is a millisecond for every stratum, a candidate lies in the centred part of
its own. -/
lemma offsetOf_centred (hp : pct ≤ 100) (hi : index < count) (h : (count : ℤ) ≤ totalMs) :
    Centred pct totalMs count index (offsetOf pct totalMs count index rng) := by
  have hw := width_pos index (by omega : 0 < count) h
  have hmax : max (width totalMs count index) 1 = width totalMs count index := by omega
  have hbounds := offsetOf_bounds totalMs count index rng hp
  simp only [hmax] at hbounds
  exact hbounds

/-! ### What is kept is sound -/

/-- A slot is the candidate of a stratum, drawn in its centred part. -/
def Placed (pct : ℕ) (earliest totalMs : ℤ) (count index : ℕ) (slot : ℤ) : Prop :=
  ∃ offset, slot = earliest + offset * millisecond ∧ Centred pct totalMs count index offset

/-- The slots kept from the first strata of an interval. -/
structure Kept (minSpacing pct : ℕ) (earliest stop totalMs : ℤ) (count strata : ℕ)
    (slots : List ℤ) : Prop where
  inside : ∀ slot ∈ slots, earliest ≤ slot ∧ slot < stop
  spaced : slots.Pairwise fun previous next : ℤ => previous + minSpacing ≤ next
  placed : ∃ indices : List ℕ, indices.Pairwise (· < ·) ∧ (∀ i ∈ indices, i < strata) ∧
    List.Forall₂ (fun i slot => (count : ℤ) ≤ totalMs → Placed pct earliest totalMs count i slot)
      indices slots

lemma Kept.nil (k : ℕ) : Kept minSpacing pct earliest stop totalMs count k [] where
  inside := by simp
  spaced := .nil
  placed := ⟨[], .nil, by simp, .nil⟩

lemma Kept.weaken {k : ℕ} (h : Kept minSpacing pct earliest stop totalMs count k slots) :
    Kept minSpacing pct earliest stop totalMs count (k + 1) slots := by
  obtain ⟨indices, hinc, hlt, hall⟩ := h.placed
  exact ⟨h.inside, h.spaced, indices, hinc, fun i hi => (hlt i hi).trans (Nat.lt_succ_self k), hall⟩

lemma Kept.length_le {k : ℕ} (h : Kept minSpacing pct earliest stop totalMs count k slots) :
    slots.length ≤ k := by
  obtain ⟨indices, hinc, hlt, hall⟩ := h.placed
  rw [← hall.length_eq]
  have hnodup : indices.Nodup := hinc.imp fun h => Nat.ne_of_lt h
  have hsub : indices ⊆ List.range k := fun i hi => List.mem_range.2 (hlt i hi)
  simpa using (List.subperm_of_subset hnodup hsub).length_le

/-- A fitting candidate is a spacing after every slot kept before it. -/
lemma Kept.spaced_append {k : ℕ} {candidate : ℤ}
    (h : Kept minSpacing pct earliest stop totalMs count k slots)
    (hfits : Fits minSpacing stop candidate slots) (hmax : stop ≤ maxUtc)
    (hday : stop - earliest ≤ dayLength) :
    ∀ previous ∈ slots, previous + minSpacing ≤ candidate := by
  intro previous hprevious
  obtain ⟨before, last, rfl⟩ : ∃ before last, slots = before ++ [last] :=
    ⟨slots.dropLast, slots.getLast (List.ne_nil_of_mem hprevious),
      (List.dropLast_append_getLast _).symm⟩
  have hlong : dayLength < timeDeltaMax := by decide
  have hinside := h.inside last (by simp)
  have hlast : last + minSpacing ≤ candidate :=
    add_le_of_addDuration_le (hfits.1 last (by simp)) (by have := hfits.2; omega)
      (by have := hfits.2; omega)
  rcases List.mem_append.1 hprevious with hmem | hmem
  · have := (List.pairwise_append.1 h.spaced).2.2 previous hmem last (by simp)
    omega
  · rw [List.mem_singleton.1 hmem]
    exact hlast

/-- **Step**: a stratum keeps the plan sound. -/
lemma Kept.planSlot (h : Kept minSpacing pct earliest stop totalMs count index acc.1)
    (hp : pct ≤ 100) (hi : index < count) (ht : 0 < totalMs) (hmax : stop ≤ maxUtc)
    (hday : stop - earliest ≤ dayLength) :
    Kept minSpacing pct earliest stop totalMs count (index + 1)
      (planSlot minSpacing pct earliest stop totalMs count acc index).1 := by
  rcases planSlot_fst minSpacing pct earliest stop totalMs count index acc
    with ⟨-, hdrop⟩ | ⟨hfits, hkeep⟩
  · rw [hdrop]
    exact h.weaken
  rw [hkeep]
  obtain ⟨hnonneg, -⟩ := offsetOf_mem acc.2 hp hi ht
  refine ⟨?_, ?_, ?_⟩
  · intro slot hslot
    rcases List.mem_append.1 hslot with hmem | hmem
    · exact h.inside slot hmem
    · rw [List.mem_singleton.1 hmem]
      refine ⟨?_, hfits.2⟩
      simp only [millisecond]
      omega
  · refine List.pairwise_append.2 ⟨h.spaced, List.pairwise_singleton _ _, ?_⟩
    intro previous hprevious next hnext
    rw [List.mem_singleton.1 hnext]
    exact h.spaced_append hfits hmax hday previous hprevious
  · obtain ⟨indices, hinc, hlt, hall⟩ := h.placed
    refine ⟨indices ++ [index], ?_, ?_, ?_⟩
    · refine List.pairwise_append.2 ⟨hinc, List.pairwise_singleton _ _, ?_⟩
      intro i hmem j hj
      rw [List.mem_singleton.1 hj]
      exact hlt i hmem
    · intro i hmem
      rcases List.mem_append.1 hmem with hmem | hmem
      · exact (hlt i hmem).trans (Nat.lt_succ_self index)
      · rw [List.mem_singleton.1 hmem]
        exact Nat.lt_succ_self index
    · refine List.rel_append hall (.cons ?_ .nil)
      intro hle
      exact ⟨_, rfl, offsetOf_centred _ hp hi hle⟩

/-- **Run**: the strata of an interval, taken one after the other, keep the plan sound. -/
lemma kept_strata (hp : pct ≤ 100) (ht : 0 < totalMs) (hmax : stop ≤ maxUtc)
    (hday : stop - earliest ≤ dayLength) (k : ℕ) (hk : k ≤ count) :
    Kept minSpacing pct earliest stop totalMs count k
      ((List.range k).foldl (Plan.planSlot minSpacing pct earliest stop totalMs count)
        ([], rng)).1 := by
  induction k with
  | zero => exact Kept.nil 0
  | succ k ih =>
    rw [List.range_succ, List.foldl_append]
    exact (ih (by omega)).planSlot hp (by omega) ht hmax hday

/-! ### Wide strata lose no candidate -/

/-- **Run**: when adjacent centred parts are a spacing apart, every stratum keeps its
candidate, and the last one kept is in the centred part of the last stratum taken. -/
lemma full_strata (hp : pct ≤ 100) (hstop : ∀ offset : ℤ, offset < totalMs →
      earliest + offset * millisecond < stop) (hq : 1 ≤ totalMs / count)
    (hgap : (minSpacing : ℤ) ≤ (totalMs / count - room pct (totalMs / count)) * millisecond)
    (k : ℕ) (hk : k ≤ count) :
    let kept := ((List.range k).foldl (Plan.planSlot minSpacing pct earliest stop totalMs count)
      ([], rng)).1
    kept.length = k ∧ ∀ last, kept.getLast? = some last →
      ∃ before, k = before + 1 ∧ Placed pct earliest totalMs count before last := by
  induction k with
  | zero => simp
  | succ k ih =>
    have hc : 0 < count := by omega
    have hcount : (count : ℤ) ≤ totalMs := by
      have := Int.mul_le_of_le_ediv (by exact_mod_cast hc) hq
      omega
    obtain ⟨hlength, hlast⟩ := ih (by omega)
    rw [List.range_succ, List.foldl_append]
    generalize (List.range k).foldl (Plan.planSlot minSpacing pct earliest stop totalMs count)
      ([], rng) = acc at hlength hlast
    have hcentred := offsetOf_centred acc.2 hp (show k < count by omega) hcount
    have hfits : Fits minSpacing stop
        (earliest + offsetOf pct totalMs count k acc.2 * millisecond) acc.1 := by
      refine ⟨?_, hstop _ (offsetOf_mem _ hp (by omega) (by omega)).2⟩
      intro previous hprevious
      obtain ⟨before, rfl, offset, rfl, hbefore⟩ := hlast previous hprevious
      have hapart := Centred.gap hp hc hq hbefore hcentred
      refine (addDuration_le _ _).trans ?_
      simp only [millisecond] at hgap ⊢
      omega
    rcases planSlot_fst minSpacing pct earliest stop totalMs count k acc
      with ⟨hnot, -⟩ | ⟨-, hkeep⟩
    · exact absurd hfits hnot
    · simp only [List.foldl_cons, List.foldl_nil, hkeep]
      refine ⟨by simp [hlength], ?_⟩
      intro last hmem
      rw [List.getLast?_concat] at hmem
      exact ⟨k, rfl, _, (Option.some.inj hmem).symm, hcentred⟩

/-! ### A slot at the start -/

lemma cut_zero : cut totalMs count 0 = 0 := by simp [cut]

lemma width_zero : width totalMs count 0 = totalMs / count := by simp [width, cut]

/-- The first stratum is drawn at its very start. -/
def StartsAtOnce (pct : ℕ) (totalMs : ℤ) (count : ℕ) (rng : UInt64) : Prop :=
  let width := max (totalMs / count) 1
  (width - room pct width) / 2 = 0 ∧
    (room pct width = 0 ∨ (nextRandom rng).toNat % (room pct width).toNat = 0)

lemma offsetOf_zero_iff (hp : pct ≤ 100) :
    offsetOf pct totalMs count 0 rng = 0 ↔ StartsAtOnce pct totalMs count rng := by
  obtain ⟨hnonneg, hle⟩ := widened totalMs count 0 hp
  rw [width_zero] at hnonneg hle
  have hhalf : (max (totalMs / count) 1 - room pct (max (totalMs / count) 1)).tdiv 2 =
      (max (totalMs / count) 1 - room pct (max (totalMs / count) 1)) / 2 :=
    Int.tdiv_eq_ediv_of_nonneg (by omega)
  simp only [offsetOf, StartsAtOnce, cut_zero, width_zero, hhalf, drawn]
  by_cases h : room pct (max (totalMs / count) 1) = 0
  · simp [h]
  · simp only [h, if_false, false_or]
    generalize (nextRandom rng).toNat % (room pct (max (totalMs / count) 1)).toNat = draw
    omega

/-- Only the first stratum is drawn at the start, unless all that the strata before it leave is
one millisecond. -/
lemma startsAtOnce_of_offset (hp : pct ≤ 100) (hi : 0 < index) (hic : index < count)
    (ht : 0 < totalMs) {later : UInt64} (h : offsetOf pct totalMs count index later = 0) :
    StartsAtOnce pct totalMs count rng := by
  have hw := width_nonneg index (show 0 < count by omega) ht.le
  obtain ⟨hnonneg, hle⟩ := widened totalMs count index hp
  obtain ⟨hlow, -⟩ := offsetOf_bounds totalMs count index later hp
  have hcut : cut totalMs count index = 0 := by
    have := cut_nonneg count index ht.le
    omega
  have hsmall : totalMs < count := by
    have hlt : totalMs * index < count := by
      have := Int.lt_mul_ediv_self_add (x := totalMs * index) (k := (count : ℤ)) (by omega)
      rw [cut] at hcut
      rw [hcut] at this
      omega
    exact lt_of_le_of_lt (le_mul_of_one_le_right ht.le (by exact_mod_cast hi)) hlt
  have hquot : totalMs / count = 0 := Int.ediv_eq_zero_of_lt ht.le hsmall
  have hroom : room pct 1 = 0 ∨ room pct 1 = 1 := by
    simp only [room]
    omega
  simp only [StartsAtOnce, hquot]
  rcases hroom with hroom | hroom <;> simp [hroom, Nat.mod_one]

lemma earliest_le_strata {slot : ℤ} (hp : pct ≤ 100) (ht : 0 < totalMs) (k : ℕ) (hk : k ≤ count)
    (h : slot ∈ ((List.range k).foldl (planSlot minSpacing pct earliest stop totalMs count)
      ([], rng)).1) : earliest ≤ slot := by
  induction k with
  | zero => simp at h
  | succ k ih =>
    rw [List.range_succ, List.foldl_append, List.foldl_cons, List.foldl_nil] at h
    generalize (List.range k).foldl (planSlot minSpacing pct earliest stop totalMs count)
      ([], rng) = acc at ih h
    rcases planSlot_fst minSpacing pct earliest stop totalMs count k acc
      with ⟨-, hdrop⟩ | ⟨-, hkeep⟩
    · exact ih (by omega) (hdrop ▸ h)
    · rw [hkeep] at h
      rcases List.mem_append.mp h with hmem | hmem
      · exact ih (by omega) hmem
      · rw [List.mem_singleton.mp hmem]
        have := (offsetOf_mem acc.2 hp (show k < count by omega) ht).1
        simp only [millisecond]
        omega

/-- **Run**: the start of an interval is among the slots exactly if the first stratum is drawn
there. -/
lemma earliest_mem_strata (hp : pct ≤ 100) (ht : 0 < totalMs) (hstop : earliest < stop) (k : ℕ)
    (hk : k ≤ count) : earliest ∈ ((List.range k).foldl
      (planSlot minSpacing pct earliest stop totalMs count) ([], rng)).1 ↔
      0 < k ∧ StartsAtOnce pct totalMs count rng := by
  induction k with
  | zero => simp
  | succ k ih =>
    have ih := ih (by omega)
    have hstep := planSlot_fst minSpacing pct earliest stop totalMs count k
      ((List.range k).foldl (planSlot minSpacing pct earliest stop totalMs count) ([], rng))
    rw [List.range_succ, List.foldl_append, List.foldl_cons, List.foldl_nil]
    constructor
    · intro hmem
      refine ⟨Nat.succ_pos k, ?_⟩
      rcases hstep with ⟨-, hdrop⟩ | ⟨-, hkeep⟩
      · rw [hdrop] at hmem
        exact (ih.mp hmem).2
      · rw [hkeep] at hmem
        rcases List.mem_append.mp hmem with hmem | hmem
        · exact (ih.mp hmem).2
        · have hoffset : offsetOf pct totalMs count k ((List.range k).foldl
              (planSlot minSpacing pct earliest stop totalMs count) ([], rng)).2 = 0 := by
            have := List.mem_singleton.mp hmem
            simp only [millisecond] at this
            omega
          rcases Nat.eq_zero_or_pos k with rfl | hpos
          · exact (offsetOf_zero_iff hp).mp hoffset
          · exact startsAtOnce_of_offset hp hpos hk ht hoffset
    · rintro ⟨-, hstarts⟩
      rcases Nat.eq_zero_or_pos k with rfl | hpos
      · have hoffset := (offsetOf_zero_iff hp).mpr hstarts
        simp only [List.range_zero, List.foldl_nil, hoffset, zero_mul, add_zero] at hstep ⊢
        rcases hstep with ⟨hnot, -⟩ | ⟨-, hkeep⟩
        · exact absurd ⟨by simp, hstop⟩ hnot
        · simp [hkeep]
      · have hmem := ih.mpr ⟨hpos, hstarts⟩
        rcases hstep with ⟨-, hdrop⟩ | ⟨-, hkeep⟩
        · rwa [hdrop]
        · rw [hkeep]
          exact List.mem_append_left _ hmem

/-! ### Machine arithmetic -/

/-- The result of an `i64` operation, unless it overflows. -/
def i64 (x : ℤ) : Option ℤ := if -2 ^ 63 ≤ x ∧ x < 2 ^ 63 then some x else none

/-- The result of a `u32` operation, unless it overflows. -/
def u32 (x : ℕ) : Option ℕ := if x ≤ u32Max then some x else none

/-- The result of an addition to a `DateTime<Utc>`, unless it is out of range. -/
def utc (t : ℤ) : Option ℤ := if minUtc ≤ t ∧ t ≤ maxUtc then some t else none

/-- `planSlot`, with every operation checked. -/
def planSlotChecked (minSpacing slotJitterPct : ℕ) (earliest stop totalMs : ℤ) (count : ℕ)
    (acc : List ℤ × UInt64) (index : ℕ) : Option (List ℤ × UInt64) := do
  let startProduct ← i64 (totalMs * index)
  let following ← u32 (index + 1)
  let endProduct ← i64 (totalMs * following)
  let stratumStart := startProduct / count
  let stratumEnd := endProduct / count
  let difference ← i64 (stratumEnd - stratumStart)
  let width := max difference 1
  let scaled ← i64 (width * slotJitterPct)
  let jitterWidth := scaled / 100
  let margin ← i64 (width - jitterWidth)
  let middleStart ← i64 (stratumStart + margin.tdiv 2)
  let rng := if jitterWidth = 0 then acc.2 else nextRandom acc.2
  let sampled ← (if jitterWidth = 0 then some middleStart
    else i64 (middleStart + ((rng.toNat % jitterWidth.toNat : ℕ) : ℤ)))
  let candidate ← utc (earliest + sampled * millisecond)
  if acc.1.getLast?.all (fun previous => addDuration previous minSpacing ≤ candidate)
      && candidate < stop then
    some (acc.1 ++ [candidate], rng)
  else some (acc.1, rng)

/-- `plan_interval`, with every operation checked. -/
def planIntervalChecked (minSpacing slotJitterPct : ℕ) (st : ProviderState) (start stop : ℤ)
    (count : ℕ) : Option (List ℤ × ProviderState) :=
  if count = 0 ∨ stop ≤ start then some ([], st) else
  let earliest := earliestSlot minSpacing st start
  if stop ≤ earliest then some ([], st) else do
  let milliseconds ← i64 ((stop - earliest) / millisecond)
  let totalMs := max milliseconds 1
  let planned ← (List.range count).foldlM
    (planSlotChecked minSpacing slotJitterPct earliest stop totalMs count) ([], st.rngState)
  some (planned.1, { st with rngState := planned.2 })

lemma i64_eq {x : ℤ} (hlow : 0 ≤ x) (hhigh : x < 2 ^ 63) : i64 x = some x :=
  if_pos ⟨by omega, hhigh⟩

lemma u32_eq {x : ℕ} (h : x ≤ u32Max) : u32 x = some x := if_pos h

lemma utc_eq {t : ℤ} (hlow : minUtc ≤ t) (hhigh : t ≤ maxUtc) : utc t = some t :=
  if_pos ⟨hlow, hhigh⟩

lemma bind_of_eq {α β : Type} {o : Option α} {a : α} {f : α → Option β} (h : o = some a) :
    (o >>= f) = f a := by
  rw [h]
  rfl

lemma product_fits {a : ℤ} {b : ℕ} (ha : 0 ≤ a) (hday : a ≤ 86400000) (hb : b ≤ u32Max) :
    0 ≤ a * b ∧ a * b < 2 ^ 63 := by
  refine ⟨by positivity, ?_⟩
  have hb' : (b : ℤ) ≤ 4294967295 := by
    simp only [u32Max] at hb
    omega
  calc a * b ≤ 86400000 * 4294967295 := mul_le_mul hday hb' (by positivity) (by decide)
    _ < 2 ^ 63 := by decide

/-- No operation of a stratum overflows in an interval of at most a day. -/
lemma planSlotChecked_eq (hp : pct ≤ 100) (hi : index < count) (hcount : count ≤ u32Max)
    (ht : 0 < totalMs) (hday : totalMs ≤ 86400000)
    (hlow : minUtc ≤ earliest) (hhigh : ∀ offset : ℤ, offset < totalMs →
      earliest + offset * millisecond < maxUtc) :
    planSlotChecked minSpacing pct earliest stop totalMs count acc index =
      some (planSlot minSpacing pct earliest stop totalMs count acc index) := by
  have hc : 0 < count := by omega
  have hprod := product_fits ht.le hday (show index ≤ u32Max by omega)
  have hprod' := product_fits ht.le hday (show index + 1 ≤ u32Max by omega)
  have hcut := cut_nonneg count index ht.le
  have hlt := cut_lt ht hc hi
  have hnext := cut_le ht.le hc (show index + 1 ≤ count by omega)
  have hw := width_nonneg index hc ht.le
  obtain ⟨hroom, hle⟩ := widened totalMs count index hp
  have hend : cut totalMs count (index + 1) = cut totalMs count index + width totalMs count index
      := by
    simp only [width]
    ring
  have hscaled := product_fits (a := max (width totalMs count index) 1) (b := pct) (by omega)
    (by omega) (by simp only [u32Max]; omega)
  have hhalf : (max (width totalMs count index) 1 -
      room pct (max (width totalMs count index) 1)).tdiv 2 =
      (max (width totalMs count index) 1 - room pct (max (width totalMs count index) 1)) / 2 :=
    Int.tdiv_eq_ediv_of_nonneg (by omega)
  obtain ⟨hoffset, hoffset'⟩ := offsetOf_mem acc.2 hp hi ht
  have hsampled : (if room pct (max (width totalMs count index) 1) = 0 then
      some (cut totalMs count index + (max (width totalMs count index) 1 -
        room pct (max (width totalMs count index) 1)).tdiv 2)
      else i64 (cut totalMs count index + (max (width totalMs count index) 1 -
        room pct (max (width totalMs count index) 1)).tdiv 2 +
        (((drawn (room pct (max (width totalMs count index) 1)) acc.2).toNat %
          (room pct (max (width totalMs count index) 1)).toNat : ℕ) : ℤ))) =
      some (offsetOf pct totalMs count index acc.2) := by
    by_cases h : room pct (max (width totalMs count index) 1) = 0
    · simp only [offsetOf, if_pos h]
    · simp only [offsetOf, if_neg h] at hoffset hoffset' ⊢
      exact i64_eq hoffset (by omega)
  have hcandidate := hhigh _ hoffset'
  unfold planSlotChecked
  refine (bind_of_eq (i64_eq hprod.1 hprod.2)).trans ?_
  refine (bind_of_eq (u32_eq (by omega))).trans ?_
  refine (bind_of_eq (i64_eq hprod'.1 hprod'.2)).trans ?_
  refine (bind_of_eq (i64_eq (x := width totalMs count index) hw (by omega))).trans ?_
  refine (bind_of_eq (i64_eq hscaled.1 hscaled.2)).trans ?_
  refine (bind_of_eq (i64_eq (x := max (width totalMs count index) 1 -
    room pct (max (width totalMs count index) 1)) (by omega) (by omega))).trans ?_
  refine (bind_of_eq (i64_eq (x := cut totalMs count index + (max (width totalMs count index) 1 -
    room pct (max (width totalMs count index) 1)).tdiv 2) (by omega) (by omega))).trans ?_
  refine (bind_of_eq hsampled).trans ?_
  refine (bind_of_eq (utc_eq ?_ hcandidate.le)).trans ?_
  · simp only [millisecond]
    omega
  · rw [planSlot_eq]
    exact (apply_ite some _ _ _).symm

lemma foldlM_eq {α β : Type} {f : β → α → Option β} {g : β → α → β} {l : List α}
    (h : ∀ acc, ∀ a ∈ l, f acc a = some (g acc a)) (init : β) :
    l.foldlM f init = some (l.foldl g init) := by
  induction l generalizing init with
  | nil => rfl
  | cons a l ih =>
    rw [List.foldlM_cons, List.foldl_cons, h init a List.mem_cons_self]
    exact ih (fun acc b hb => h acc b (List.mem_cons_of_mem a hb)) _

/-! ### The plan of an interval -/

variable (minSpacing st start) in
lemma le_earliestSlot : start ≤ earliestSlot minSpacing st start := le_max_right _ _

lemma cooldown_le_earliestSlot {deadline : ℤ} (h : st.cooldownUntilUtc = some deadline) :
    deadline ≤ earliestSlot minSpacing st start := by
  simp [earliestSlot, h]

/-- A start the clock can show is a whole spacing before an instant it can show. -/
lemma spaced_le_earliestSlot {last : ℤ} (h : st.lastStartedAtUtc = some last)
    (hlast : minUtc ≤ last) (hmax : earliestSlot minSpacing st start < maxUtc) :
    last + minSpacing ≤ earliestSlot minSpacing st start := by
  have hle : addDuration last minSpacing ≤ earliestSlot minSpacing st start := by
    simp [earliestSlot, h]
  have hspan : maxUtc < minUtc + timeDeltaMax := by decide
  exact add_le_of_addDuration_le hle hmax (by omega)

lemma lt_stop_of_offset (h : earliest < stop) {offset : ℤ}
    (ho : offset < max ((stop - earliest) / millisecond) 1) :
    earliest + offset * millisecond < stop := by
  simp only [millisecond] at *
  omega

lemma totalMs_le_day {d : ℤ} (hstart : dayStart d ≤ earliest) (hstop : stop ≤ dayEnd d) :
    max ((stop - earliest) / millisecond) 1 ≤ 86400000 := by
  simp only [dayEnd, dayStart, dayLength, daySeconds, second, millisecond] at *
  omega

lemma planIntervalWith_of_lt (hc : count ≠ 0) (hlt : start < stop)
    (he : earliestSlot minSpacing st start < stop) :
    (planIntervalWith minSpacing pct st start stop count).1 =
      ((List.range count).foldl (Plan.planSlot minSpacing pct (earliestSlot minSpacing st start)
        stop (max ((stop - earliestSlot minSpacing st start) / millisecond) 1) count)
        ([], st.rngState)).1 := by
  rw [planIntervalWith, if_neg (by omega)]
  dsimp only
  rw [if_neg (by omega)]

lemma planIntervalWith_of_le (h : count = 0 ∨ stop ≤ earliestSlot minSpacing st start) :
    planIntervalWith minSpacing pct st start stop count = ([], st) := by
  rw [planIntervalWith]
  split_ifs with hempty
  · rfl
  · have hne : ¬ count = 0 := fun h => hempty (.inl h)
    exact if_pos (h.resolve_left hne)

lemma earliestSlot_eq_start (hcool : ∀ c, st.cooldownUntilUtc = some c → c ≤ start) :
    earliestSlot minSpacing st start = start ↔
      ∀ last, st.lastStartedAtUtc = some last → addDuration last minSpacing ≤ start := by
  have hcooldown : st.cooldownUntilUtc.getD start ≤ start := by
    cases h : st.cooldownUntilUtc with
    | none => exact le_rfl
    | some c => exact hcool c h
  unfold earliestSlot
  cases h : st.lastStartedAtUtc with
  | none => simp [hcooldown]
  | some last => simp [hcooldown]

/-- No slot is before its interval. -/
lemma le_of_mem_plan {slot : ℤ} (hp : pct ≤ 100)
    (h : slot ∈ (planIntervalWith minSpacing pct st start stop count).1) : start ≤ slot := by
  by_cases hnone : count = 0 ∨ stop ≤ earliestSlot minSpacing st start
  · rw [planIntervalWith_of_le hnone] at h
    cases h
  push Not at hnone
  by_cases hlt : start < stop
  · rw [planIntervalWith_of_lt hnone.1 hlt hnone.2] at h
    exact (le_earliestSlot _ _ _).trans
      (earliest_le_strata hp (lt_max_of_lt_right one_pos) count le_rfl h)
  · rw [planIntervalWith, if_pos (.inr (not_lt.mp hlt))] at h
    cases h

variable (minSpacing st count) in
/-- **A slot at the start** is planned exactly if a run may start then and the first stratum is
drawn at once. -/
lemma start_mem_plan (hp : pct ≤ 100) (hcool : ∀ c, st.cooldownUntilUtc = some c → c ≤ start)
    (hlt : start < stop) :
    start ∈ (planIntervalWith minSpacing pct st start stop count).1 ↔
      0 < count ∧
        (∀ last, st.lastStartedAtUtc = some last → addDuration last minSpacing ≤ start) ∧
        StartsAtOnce pct (max ((stop - start) / millisecond) 1) count st.rngState := by
  rw [← earliestSlot_eq_start hcool]
  by_cases hnone : count = 0 ∨ stop ≤ earliestSlot minSpacing st start
  · rw [planIntervalWith_of_le hnone]
    constructor
    · intro h
      cases h
    · rintro ⟨hc, he, -⟩
      omega
  push Not at hnone
  rw [planIntervalWith_of_lt hnone.1 hlt hnone.2]
  by_cases he : earliestSlot minSpacing st start = start
  · rw [he, earliest_mem_strata hp (lt_max_of_lt_right one_pos) hlt count le_rfl]
    simp
  · have hlater : start < earliestSlot minSpacing st start :=
      lt_of_le_of_ne (le_earliestSlot _ _ _) (Ne.symm he)
    constructor
    · intro h
      have := earliest_le_strata hp (lt_max_of_lt_right one_pos) count le_rfl h
      omega
    · rintro ⟨-, heq, -⟩
      exact absurd heq he

/-- The milliseconds that `plan_interval` divides into strata. -/
def planTotalMs (minSpacing : ℕ) (st : ProviderState) (start stop : ℤ) : ℤ :=
  max ((stop - earliestSlot minSpacing st start) / millisecond) 1

lemma kept_planIntervalWith {d : ℤ} (hp : pct ≤ 100) (hstart : dayStart d ≤ start)
    (hlt : start < stop) (hstop : stop ≤ dayEnd d) (hmax : stop ≤ maxUtc) :
    Kept minSpacing pct (earliestSlot minSpacing st start) stop
      (planTotalMs minSpacing st start stop) count count
      (planIntervalWith minSpacing pct st start stop count).1 := by
  by_cases hnone : count = 0 ∨ stop ≤ earliestSlot minSpacing st start
  · rw [planIntervalWith_of_le hnone]
    exact Kept.nil count
  push Not at hnone
  have hspan : stop - earliestSlot minSpacing st start ≤ dayLength := by
    have := le_earliestSlot minSpacing st start
    simp only [dayEnd] at hstop
    omega
  rw [planIntervalWith_of_lt hnone.1 hlt hnone.2]
  exact kept_strata hp (lt_max_of_lt_right one_pos) hmax hspan count le_rfl

lemma planIntervalChecked_eq {d : ℤ} (hp : pct ≤ 100) (hcount : count ≤ u32Max)
    (hmin : minUtc ≤ start) (hstart : dayStart d ≤ start) (hstop : stop ≤ dayEnd d)
    (hmax : stop ≤ maxUtc) :
    planIntervalChecked minSpacing pct st start stop count =
      some (planIntervalWith minSpacing pct st start stop count) := by
  have hle := le_earliestSlot minSpacing st start
  have hday := totalMs_le_day (hstart.trans hle) hstop
  unfold planIntervalChecked planIntervalWith
  by_cases hempty : count = 0 ∨ stop ≤ start
  · rw [if_pos hempty, if_pos hempty]
  rw [if_neg hempty, if_neg hempty]
  dsimp only
  by_cases hlate : stop ≤ earliestSlot minSpacing st start
  · rw [if_pos hlate, if_pos hlate]
  rw [if_neg hlate, if_neg hlate]
  have hms : 0 ≤ (stop - earliestSlot minSpacing st start) / millisecond :=
    Int.ediv_nonneg (by omega) (by decide)
  refine (bind_of_eq (i64_eq hms (by omega))).trans ?_
  refine (bind_of_eq (foldlM_eq ?_ _)).trans rfl
  intro acc index hindex
  refine planSlotChecked_eq hp (List.mem_range.1 hindex) hcount (lt_max_of_lt_right one_pos) hday
    (hmin.trans hle) ?_
  intro offset hoffset
  exact (lt_stop_of_offset (by omega) hoffset).trans_le hmax

lemma length_planIntervalWith (hp : pct ≤ 100) (hlt : start < stop)
    (he : earliestSlot minSpacing st start < stop)
    (hq : 1 ≤ planTotalMs minSpacing st start stop / count)
    (hgap : (minSpacing : ℤ) ≤ (planTotalMs minSpacing st start stop / count -
      room pct (planTotalMs minSpacing st start stop / count)) * millisecond) :
    (planIntervalWith minSpacing pct st start stop count).1.length = count := by
  have hc : count ≠ 0 := by
    rintro rfl
    simp at hq
  rw [planIntervalWith_of_lt hc hlt he]
  exact (full_strata hp (fun _ h => lt_stop_of_offset he h) hq hgap count le_rfl).1

/-- **Slot plans**: the slots planned in an interval of one day are at most as many as asked
for, increase, are a spacing apart, and are not before the interval, a spacing after the last
start or the end of the cooldown; no operation on the way overflows; when there is a
millisecond for every stratum each slot is in the centred part of its own stratum; and when
the strata leave the spacing beside their room, there is a slot for every stratum. -/
theorem planIntervalWith_sound_complete (minSpacing pct : ℕ) (st : ProviderState)
    (start stop d : ℤ) (count : ℕ) (hspacing : 0 < minSpacing) (hpct : pct ≤ 100)
    (hcount : count ≤ u32Max) (hmin : minUtc ≤ start) (hstart : dayStart d ≤ start)
    (hlt : start < stop) (hstop : stop ≤ dayEnd d) (hmax : stop ≤ maxUtc)
    (hlast : ∀ last, st.lastStartedAtUtc = some last → minUtc ≤ last) :
    let slots := (planIntervalWith minSpacing pct st start stop count).1
    let earliest := earliestSlot minSpacing st start
    let total := planTotalMs minSpacing st start stop
    let w := total / count
    slots.length ≤ count ∧ slots.Pairwise (· < ·) ∧
      slots.Pairwise (fun previous next : ℤ => previous + minSpacing ≤ next) ∧
      (∀ slot ∈ slots, start ≤ slot ∧ slot < stop ∧
        (∀ last, st.lastStartedAtUtc = some last → last + minSpacing ≤ slot) ∧
        ∀ deadline, st.cooldownUntilUtc = some deadline → deadline ≤ slot) ∧
      planIntervalChecked minSpacing pct st start stop count =
        some (planIntervalWith minSpacing pct st start stop count) ∧
      ((count : ℤ) ≤ total →
        (∀ index < count, width total count index = w ∨ width total count index = w + 1) ∧
        ∃ indices : List ℕ, indices.Pairwise (· < ·) ∧ (∀ index ∈ indices, index < count) ∧
          List.Forall₂ (fun index slot => Placed pct earliest total count index slot)
            indices slots) ∧
      (earliest < stop → 1 ≤ w → (minSpacing : ℤ) ≤ (w - room pct w) * millisecond →
        slots.length = count) := by
  intro slots earliest total w
  have hkept : Kept minSpacing pct earliest stop total count count slots :=
    kept_planIntervalWith hpct hstart hlt hstop hmax
  refine ⟨hkept.length_le, ?_, hkept.spaced, ?_,
    planIntervalChecked_eq hpct hcount hmin hstart hstop hmax, ?_, ?_⟩
  · exact hkept.spaced.imp fun h => by omega
  · intro slot hslot
    obtain ⟨hfrom, hbefore⟩ := hkept.inside slot hslot
    refine ⟨(le_earliestSlot _ _ _).trans hfrom, hbefore, ?_, ?_⟩
    · intro last hsome
      exact (spaced_le_earliestSlot hsome (hlast last hsome) (by omega)).trans hfrom
    · intro deadline hsome
      exact (cooldown_le_earliestSlot hsome).trans hfrom
  · intro hle
    refine ⟨fun index hindex => width_eq total index (by omega), ?_⟩
    obtain ⟨indices, hinc, hlt, hall⟩ := hkept.placed
    exact ⟨indices, hinc, hlt, hall.imp fun _ _ h => h hle⟩
  · intro he hw hgap
    exact length_planIntervalWith hpct hlt he hw hgap

/-- A record on the first day of the epoch whose only run started at noon. -/
def afterNoon : ProviderState where
  dayUtc := 0
  slots := []
  runs := [43200 * second]
  lastStartedAtUtc := some (43200 * second)
  cooldownUntilUtc := none
  backoffStep := 0
  deferred := none
  interfaceTriggers := ∅
  policyDailyMax := 4
  policyMinSpacingMs := 3600000
  policySlotJitterPct := 50
  rngState := 7
  lastObservedUtc := 43200 * second

/-- The five slots planned with an hour's spacing after a run at noon. -/
theorem five_slots_after_noon :
    let slots := (planIntervalWith 3600000000000 50 afterNoon (43200 * second) dayLength 5).1
    slots.length = 5 ∧ ∀ slot ∈ slots, 46800 * second ≤ slot := by
  obtain ⟨-, -, -, hslots, -, -, hfull⟩ := planIntervalWith_sound_complete 3600000000000 50
    afterNoon (43200 * second) dayLength 0 5 (by decide) (by decide) (by decide) (by decide)
    (by decide) (by decide) (by decide) (by decide)
    (fun last h => by cases h; decide)
  refine ⟨hfull (by decide) (by decide) (by decide), ?_⟩
  intro slot hslot
  exact (hslots slot hslot).2.2.1 _ rfl

end Netband.Slots

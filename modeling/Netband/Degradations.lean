import Netband.Health

/-!
The episodes of degradation, read off the sequence of rounds alone.

An episode starts where the pooled samples of the window degrade and no earlier episode is open;
it is over as soon as enough rounds in a row were of recovery quality. A health window tells
exactly these episodes apart, with a flag, a reason and a streak.
-/

namespace Netband.Degradations

open Netband.Model Netband.Health

/-! ### Percentiles -/

/-- The least of the values that 95% of them do not exceed. -/
def NearestRank95 (values : List ℚ) (p : ℚ) : Prop :=
  IsLeast {x | x ∈ values ∧ 95 * values.length ≤ 100 * values.countP (· ≤ x)} p

lemma nearestRank95_perm {values values' : List ℚ} (h : values.Perm values') {p : ℚ} :
    NearestRank95 values p ↔ NearestRank95 values' p := by
  simp only [NearestRank95, h.mem_iff, h.length_eq, h.countP_eq]

lemma rank_le_iff {n m : ℕ} (hm : 0 < m) : rank n ≤ m ↔ 95 * n ≤ 100 * m := by
  unfold rank
  omega

/-- In a sorted list the elements up to a place do not exceed the element there. -/
lemma lt_countP_le {l : List ℚ} (hl : l.Pairwise (· ≤ ·)) {i : ℕ} {x : ℚ} (hx : l[i]? = some x) :
    i < l.countP (· ≤ x) := by
  induction l generalizing i with
  | nil => simp at hx
  | cons a l ih =>
    rw [List.pairwise_cons] at hl
    cases i with
    | zero =>
      obtain rfl : a = x := by simpa using hx
      simp
    | succ i =>
      have hmem : x ∈ l := List.mem_of_getElem? (by simpa using hx)
      rw [List.countP_cons_of_pos (by simpa using hl.1 x hmem)]
      exact Nat.succ_lt_succ (ih hl.2 (by simpa using hx))

lemma p95_eq_some_iff {l : List ℚ} (hl : l.Pairwise (· ≤ ·)) {p : ℚ} :
    p95 l = some p ↔ NearestRank95 l p := by
  have hleast : ∀ p, p95 l = some p → NearestRank95 l p := by
    intro p hp
    have hpos := rank_pos l.length
    have hcount := lt_countP_le hl hp
    refine ⟨⟨List.mem_of_getElem? hp, (rank_le_iff (by omega)).mp (by omega)⟩, ?_⟩
    rintro q ⟨hq, hmany⟩
    by_contra hlt
    have hself : 0 < l.countP (· ≤ q) := List.countP_pos_iff.mpr ⟨q, hq, by simp⟩
    have hrank := (rank_le_iff hself).mpr hmany
    have hle : l.countP (· ≤ q) ≤ l.countP (· < p) :=
      List.countP_mono_left fun x _ hx => by
        simp only [decide_eq_true_eq] at hx ⊢
        exact hx.trans_lt (not_le.mp hlt)
    exact lt_irrefl p ((sorted_lt_iff hl p hp).mpr (by omega))
  constructor
  · exact hleast p
  · intro h
    rcases hp : p95 l with _ | q
    · have hempty : l.length ≤ rank l.length - 1 := by simpa [p95] using hp
      have hlen : 0 < l.length := List.length_pos_of_mem h.1.1
      have := rank_le hlen
      omega
    · rw [(hleast q hp).unique h]

/-! ### Episodes -/

/-- The round-trip times of the samples that were answered. -/
def replies (samples : Round) : List ℚ := (samples.filter (·.successful)).filterMap (·.rttMs)

/-- Samples that are enough to judge, and bad. -/
def Degrades (config : HealthConfig) (samples : Round) : Prop :=
  config.minSamples ≤ samples.length ∧
    (config.lossThresholdPct ≤ lossPct samples.length (samples.countP (·.successful)) ∨
      ∃ threshold ∈ config.rttThresholdMs, ∃ p, NearestRank95 (replies samples) p ∧ threshold ≤ p)

section episodes
variable (config : HealthConfig) (rounds : ℕ → Round)

/-- The first `n` rounds. -/
def observed (n : ℕ) : List Round := (List.range n).map rounds

/-- The last rounds of the first `n`, as many as the window holds. -/
def window (n : ℕ) : List Round := (observed rounds n).drop (n - config.windowRounds)

def pooled (n : ℕ) : Round := (window config rounds n).flatten

/-- The last of the first `n` rounds come after the first `m` and are of recovery quality, as many
as a recovery takes. -/
def Recovers (m n : ℕ) : Prop :=
  m + config.recoveryRounds ≤ n ∧
    ∀ k, n - config.recoveryRounds ≤ k → k < n → Quality config (rounds k)

/-- An episode starts with the `n`-th round: it degrades, and the earlier episodes are over. -/
def Starts (n : ℕ) : Prop :=
  0 < n ∧ Degrades config (pooled config rounds n) ∧
    ∀ m, m < n → Starts m → ∃ k, m < k ∧ k < n ∧ Recovers config rounds m k
termination_by n

/-- The episode that starts with the `m`-th round ends with the `n`-th. -/
def Ends (m n : ℕ) : Prop :=
  Starts config rounds m ∧ m < n ∧ Recovers config rounds m n ∧
    ∀ k, m < k → k < n → ¬ Recovers config rounds m k

/-- The episode that starts with the `m`-th round is open after the `n`-th. -/
def Inside (m n : ℕ) : Prop :=
  Starts config rounds m ∧ m ≤ n ∧ ∀ k, m < k → k ≤ n → ¬ Recovers config rounds m k

/-- The window after the first `n` rounds. -/
def after (n : ℕ) : HealthWindow := ((HealthWindow.new config).observeRounds (observed rounds n)).2

/-- The decision on the round after the first `n`. -/
def decision (n : ℕ) : HealthDecision := ((after config rounds n).observeRound (rounds n)).1

variable {config rounds} {m n : ℕ}

lemma observed_succ : observed rounds (n + 1) = observed rounds n ++ [rounds n] := by
  rw [observed, List.range_succ, List.map_append]
  rfl

lemma after_succ :
    after config rounds (n + 1) = ((after config rounds n).observeRound (rounds n)).2 := by
  rw [after, observed_succ, observeRounds_append]
  rfl

lemma starts_iff : Starts config rounds n ↔ 0 < n ∧ Degrades config (pooled config rounds n) ∧
    ∀ m, m < n → Starts config rounds m → ∃ k, m < k ∧ k < n ∧ Recovers config rounds m k := by
  rw [Starts]

/-- Samples degrade exactly if there is a reason. -/
lemma degrades_iff {samples : Round} : Degrades config samples ↔
    (degradationReason (snapshot samples config.minSamples) config).isSome = true := by
  have hrtt : rttExceeded (snapshot samples config.minSamples) config = true ↔
      ∃ threshold ∈ config.rttThresholdMs, ∃ p, NearestRank95 (replies samples) p ∧
        threshold ≤ p := by
    have hperm : (rtts samples).Perm (replies samples) := List.perm_insertionSort _ _
    have hp95 : ∀ p, p95 (rtts samples) = some p ↔ NearestRank95 (replies samples) p := fun p =>
      (p95_eq_some_iff (List.pairwise_insertionSort _ _)).trans (nearestRank95_perm hperm)
    simp only [rttExceeded, snapshot, Option.any_eq_true, decide_eq_true_eq, hp95]
    rfl
  have hloss : lossExceeded (snapshot samples config.minSamples) config = true ↔
      config.lossThresholdPct ≤ lossPct samples.length (samples.countP (·.successful)) :=
    decide_eq_true_iff
  have hsufficient : (snapshot samples config.minSamples).sufficientSamples = true ↔
      config.minSamples ≤ samples.length := decide_eq_true_iff
  rw [Degrades, ← hrtt, ← hloss, ← hsufficient]
  constructor
  · rintro ⟨hs, h⟩
    exact degradationReason_isSome hs h
  · intro h
    unfold degradationReason at h
    cases hs : (snapshot samples config.minSamples).sufficientSamples
    · simp [hs] at h
    · refine ⟨rfl, ?_⟩
      cases hl : lossExceeded (snapshot samples config.minSamples) config
      · cases hr : rttExceeded (snapshot samples config.minSamples) config
        · simp [hs, hl, hr] at h
        · exact .inr rfl
      · exact .inl rfl

lemma inside_self (h : Starts config rounds n) : Inside config rounds n n :=
  ⟨h, le_rfl, fun k hk hkn => by omega⟩

/-- Only one episode is open at a time. -/
lemma recovers_of_ne {m' : ℕ} (h : Inside config rounds m n) (hstarts : Starts config rounds m')
    (hle : m' ≤ n) (hne : m' ≠ m) : ∃ k, m' < k ∧ k ≤ n ∧ Recovers config rounds m' k := by
  rcases lt_or_gt_of_ne hne with hlt | hlt
  · obtain ⟨k, hk, hkm, hrecovers⟩ := (starts_iff.mp h.1).2.2 m' hlt hstarts
    exact ⟨k, hk, by have := h.2.1; omega, hrecovers⟩
  · obtain ⟨k, hk, hkm, hrecovers⟩ := (starts_iff.mp hstarts).2.2 m hlt h.1
    exact absurd hrecovers (h.2.2 k hk (by omega))

/-- No episode starts while one is open. -/
lemma not_starts_succ (h : Inside config rounds m n) : ¬ Starts config rounds (n + 1) := by
  intro hstarts
  obtain ⟨k, hk, hkn, hrecovers⟩ := (starts_iff.mp hstarts).2.2 m (by have := h.2.1; omega) h.1
  exact h.2.2 k hk (by omega) hrecovers

/-! ### The window tells the episodes apart -/

/-- So many of the last rounds, all after the first `m`, are of recovery quality, and no more. -/
structure Streak (config : HealthConfig) (rounds : ℕ → Round) (m n s : ℕ) : Prop where
  after : m + s ≤ n
  good : ∀ k, n - s ≤ k → k < n → Quality config (rounds k)
  longest : m + s = n ∨ ¬ Quality config (rounds (n - s - 1))

lemma streak_zero : Streak config rounds n n 0 := ⟨le_rfl, fun k _ _ => by omega, .inl rfl⟩

lemma Streak.succ {s : ℕ} (h : Streak config rounds m n s) :
    Streak config rounds m (n + 1)
      (if recoveryRound (snapshot (rounds n) 0) config then s + 1 else 0) := by
  have hafter := h.after
  by_cases hgood : recoveryRound (snapshot (rounds n) 0) config = true
  · rw [if_pos hgood]
    refine ⟨by omega, fun k hk hkn => ?_, ?_⟩
    · rcases Nat.lt_succ_iff_lt_or_eq.mp hkn with hlt | rfl
      · exact h.good k (by omega) hlt
      · exact good_iff.mp hgood
    · rcases h.longest with heq | hbad
      · exact .inl (by omega)
      · exact .inr (by rwa [show n + 1 - (s + 1) - 1 = n - s - 1 by omega])
  · rw [if_neg hgood]
    exact ⟨by omega, fun k _ _ => by omega, .inr fun hq => hgood (good_iff.mpr hq)⟩

lemma Streak.recovers_iff {s : ℕ} (h : Streak config rounds m n s) :
    Recovers config rounds m n ↔ config.recoveryRounds ≤ s := by
  have hafter := h.after
  constructor
  · rintro ⟨hlen, hgood⟩
    by_contra hlt
    rcases h.longest with heq | hbad
    · omega
    · exact hbad (hgood _ (by omega) (by omega))
  · intro hle
    exact ⟨by omega, fun k hk hkn => h.good k (by omega) hkn⟩

/-- What a window knows after the first `n` rounds. -/
structure Tells (config : HealthConfig) (rounds : ℕ → Round) (n : ℕ) (w : HealthWindow) :
    Prop where
  same : w.config = config
  holds : w.rounds = window config rounds n
  idle : w.degraded = false → ∀ m, m ≤ n → Starts config rounds m →
    ∃ k, m < k ∧ k ≤ n ∧ Recovers config rounds m k
  opened : w.degraded = true → ∃ m, Inside config rounds m n ∧
    w.degradationReason =
      degradationReason (snapshot (pooled config rounds m) config.minSamples) config ∧
    Streak config rounds m n w.recoveryStreak

lemma tells_new : Tells config rounds 0 (.new config) where
  same := rfl
  holds := by simp [window, observed, HealthWindow.new]
  idle _ m hm hstarts := by
    have := (starts_iff.mp hstarts).1
    omega
  opened hopen := by cases hopen

variable {w : HealthWindow}

lemma push_window (h : Tells config rounds n w) :
    w.push (rounds n) = window config rounds (n + 1) := by
  have hlen : (observed rounds n).length = n := by simp [observed]
  rw [HealthWindow.push, h.holds, h.same, window, window, observed_succ,
    ← List.drop_append_of_le_length (by omega), List.drop_drop]
  congr 1
  simp only [List.length_drop, List.length_append, List.length_singleton]
  omega

lemma windowSnapshot_eq (h : Tells config rounds n w) : windowSnapshot w (rounds n) =
    snapshot (pooled config rounds (n + 1)) config.minSamples := by
  rw [windowSnapshot, push_window h, h.same, pooled]

/-- What the round after the first `n` does to the window. -/
inductive Told (config : HealthConfig) (rounds : ℕ → Round) (n : ℕ) (d : HealthDecision) : Prop
  | healthy (hidle : ∀ m, ¬ Inside config rounds m (n + 1) ∧ ¬ Ends config rounds m (n + 1))
      (hd : d = .healthy (snapshot (pooled config rounds (n + 1)) config.minSamples))
  | degraded {m : ℕ} {reason : DegradationReason} (hinside : Inside config rounds m (n + 1))
      (hreason : degradationReason (snapshot (pooled config rounds m) config.minSamples) config =
        some reason)
      (hd : d = .degraded (snapshot (pooled config rounds (n + 1)) config.minSamples) reason)
  | recovered {m : ℕ} (hends : Ends config rounds m (n + 1))
      (hd : d = .recovered (snapshot (pooled config rounds (n + 1)) config.minSamples))

/-- **One round**: a window that tells the episodes apart still does so after one more round. -/
lemma Tells.observeRound (h : Tells config rounds n w) :
    Tells config rounds (n + 1) (w.observeRound (rounds n)).2 ∧
      Told config rounds n (w.observeRound (rounds n)).1 := by
  have hsame := h.same
  have hsnapshot := windowSnapshot_eq h
  have hpush := push_window h
  by_cases hw : w.degraded = true
  · obtain ⟨m, hinside, hreason, hstreak⟩ := h.opened hw
    have hle := hinside.2.1
    have hnext : Streak config rounds m (n + 1) (w.streak (rounds n)) := by
      unfold HealthWindow.streak
      rw [hsame]
      exact hstreak.succ
    by_cases hs : w.config.recoveryRounds ≤ w.streak (rounds n)
    · have hrecovers := hnext.recovers_iff.mpr (hsame ▸ hs)
      have hends : Ends config rounds m (n + 1) :=
        ⟨hinside.1, by omega, hrecovers, fun k hk hkn => hinside.2.2 k hk (by omega)⟩
      rw [observeRound_recovered hw hs]
      refine ⟨⟨hsame, hpush, fun _ m' hm' hstarts => ?_, fun hopen => by cases hopen⟩,
        .recovered hends (by rw [hsnapshot])⟩
      rcases Nat.le_succ_iff.mp hm' with hm' | rfl
      · by_cases hne : m' = m
        · exact ⟨n + 1, by omega, le_rfl, hne ▸ hrecovers⟩
        · obtain ⟨k, hk, hkn, hover⟩ := recovers_of_ne hinside hstarts hm' hne
          exact ⟨k, hk, by omega, hover⟩
      · exact absurd hstarts (not_starts_succ hinside)
    · have hopen : Inside config rounds m (n + 1) := by
        refine ⟨hinside.1, by omega, fun k hk hkn => ?_⟩
        rcases Nat.le_succ_iff.mp hkn with hkn | rfl
        · exact hinside.2.2 k hk hkn
        · rw [hnext.recovers_iff, ← hsame]
          exact hs
      rw [observeRound_remains hw hs]
      refine ⟨⟨hsame, hpush, fun hidle => absurd (hidle.symm.trans hw) Bool.false_ne_true,
        fun _ => ⟨m, hopen, hreason, hnext⟩⟩, .degraded hopen ?_ (by rw [hsnapshot])⟩
      rw [← hreason, Option.some_get]
  · have hw : w.degraded = false := by simpa using hw
    have hidle := h.idle hw
    rcases hreason : degradationReason (windowSnapshot w (rounds n)) w.config with _ | reason
    · have hnot : ¬ Starts config rounds (n + 1) := by
        intro hstarts
        have hdegrades := degrades_iff.mp (starts_iff.mp hstarts).2.1
        rw [← hsnapshot, ← hsame, hreason] at hdegrades
        cases hdegrades
      have hbefore : ∀ m, m ≤ n + 1 → Starts config rounds m → m ≤ n := by
        intro m hm hstarts
        rcases Nat.le_succ_iff.mp hm with hm | rfl
        · exact hm
        · exact absurd hstarts hnot
      rw [observeRound_healthy hw hreason]
      refine ⟨⟨hsame, hpush, fun _ m hm hstarts => ?_, fun hopen => absurd hopen (by simp [hw])⟩,
        .healthy (fun m => ⟨?_, ?_⟩) (by rw [hsnapshot])⟩
      · obtain ⟨k, hk, hkn, hover⟩ := hidle m (hbefore m hm hstarts) hstarts
        exact ⟨k, hk, by omega, hover⟩
      · rintro ⟨hstarts, hm, hnever⟩
        obtain ⟨k, hk, hkn, hover⟩ := hidle m (hbefore m hm hstarts) hstarts
        exact hnever k hk (by omega) hover
      · rintro ⟨hstarts, hm, -, hnever⟩
        obtain ⟨k, hk, hkn, hover⟩ := hidle m (hbefore m hm.le hstarts) hstarts
        exact hnever k hk (by omega) hover
    · have hstarts : Starts config rounds (n + 1) := by
        refine starts_iff.mpr ⟨by omega, ?_, fun m hm hstarts => ?_⟩
        · rw [degrades_iff, ← hsnapshot, ← hsame, hreason]
          rfl
        · obtain ⟨k, hk, hkn, hover⟩ := hidle m (by omega) hstarts
          exact ⟨k, hk, by omega, hover⟩
      have hopen := inside_self hstarts
      have hsome : degradationReason (snapshot (pooled config rounds (n + 1)) config.minSamples)
          config = some reason := by
        rw [← hsnapshot, ← hsame, hreason]
      rw [observeRound_degrades hw hreason]
      exact ⟨⟨hsame, hpush, fun hidle => (by cases hidle),
        fun _ => ⟨n + 1, hopen, hsome.symm, streak_zero⟩⟩,
        .degraded hopen hsome (by rw [hsnapshot])⟩

lemma tells_after (n : ℕ) : Tells config rounds n (after config rounds n) := by
  induction n with
  | zero => exact tells_new
  | succ n ih =>
    rw [after_succ]
    exact ih.observeRound.1

lemma told_after (n : ℕ) : Told config rounds n (decision config rounds n) :=
  (tells_after n).observeRound.2

lemma starts_succ_iff : Starts config rounds (n + 1) ↔
    (¬ ∃ m, Inside config rounds m n) ∧ Degrades config (pooled config rounds (n + 1)) := by
  constructor
  · intro h
    exact ⟨fun ⟨m, hm⟩ => not_starts_succ hm h, (starts_iff.mp h).2.1⟩
  · rintro ⟨hnone, hdegrades⟩
    refine starts_iff.mpr ⟨by omega, hdegrades, fun m hm hstarts => ?_⟩
    by_contra hnever
    push Not at hnever
    exact hnone ⟨m, hstarts, by omega, fun k hk hkn => hnever k hk (by omega)⟩

lemma degraded_iff : (after config rounds n).degraded = true ↔ ∃ m, Inside config rounds m n := by
  constructor
  · intro h
    obtain ⟨m, hm, -⟩ := (tells_after n).opened h
    exact ⟨m, hm⟩
  · rintro ⟨m, hstarts, hm, hnever⟩
    by_contra hw
    obtain ⟨k, hk, hkn, hover⟩ := (tells_after n).idle (by simpa using hw) m hm hstarts
    exact hnever k hk hkn hover

lemma inside_unique {m' : ℕ} (h : Inside config rounds m n) (h' : Inside config rounds m' n) :
    m' = m := by
  by_contra hne
  obtain ⟨k, hk, hkn, hover⟩ := recovers_of_ne h h'.1 h'.2.1 hne
  exact h'.2.2 k hk hkn hover

/-- An episode is open before the round that ends it. -/
lemma Ends.inside (h : Ends config rounds m (n + 1)) : Inside config rounds m n :=
  ⟨h.1, by have := h.2.1; omega, fun k hk hkn => h.2.2.2 k hk (by omega)⟩

lemma Inside.of_succ (h : Inside config rounds m (n + 1)) (hm : m ≤ n) : Inside config rounds m n :=
  ⟨h.1, hm, fun k hk hkn => h.2.2 k hk (by omega)⟩

/-- No episode is open after the round that ends one. -/
lemma not_inside_of_ends {m' : ℕ} (h : Ends config rounds m (n + 1)) :
    ¬ Inside config rounds m' (n + 1) := by
  intro hinside
  rcases Nat.le_succ_iff.mp hinside.2.1 with hle | rfl
  · obtain rfl := inside_unique h.inside (hinside.of_succ hle)
    exact hinside.2.2 (n + 1) h.2.1 le_rfl h.2.2.1
  · exact not_starts_succ h.inside hinside.1

/-- No episode starts with the round that ends another. -/
lemma not_starts_of_ends (h : Ends config rounds m (n + 1)) : ¬ Starts config rounds (n + 1) :=
  not_starts_succ h.inside

end episodes

/-- **Episodes**: the window holds the last rounds; it becomes degraded exactly where an episode
starts, with the first bad round while none is open; it recovers exactly where the episode ends,
until then it reports the reason of the start, and between episodes it is healthy. -/
theorem episodes_characterized (config : HealthConfig) (rounds : ℕ → Round) (n : ℕ) :
    (after config rounds n).rounds = (observed rounds n).drop (n - config.windowRounds) ∧
      (Starts config rounds (n + 1) ↔ (¬ ∃ m, Inside config rounds m n) ∧
        Degrades config (pooled config rounds (n + 1))) ∧
      ((after config rounds n).degraded = true ↔ ∃ m, Inside config rounds m n) ∧
      ((after config rounds n).degraded = false ∧ (after config rounds (n + 1)).degraded = true ↔
        Starts config rounds (n + 1)) ∧
      (isRecovered (decision config rounds n) = true ↔ ∃ m, Ends config rounds m (n + 1)) ∧
      (∀ m, Inside config rounds m (n + 1) → ∃ reason,
        degradationReason (snapshot (pooled config rounds m) config.minSamples) config =
          some reason ∧
        decision config rounds n =
          .degraded (snapshot (pooled config rounds (n + 1)) config.minSamples) reason) ∧
      ((∀ m, ¬ Inside config rounds m (n + 1) ∧ ¬ Ends config rounds m (n + 1)) →
        decision config rounds n =
          .healthy (snapshot (pooled config rounds (n + 1)) config.minSamples)) ∧
      ∀ m, Ends config rounds m (n + 1) → ¬ Starts config rounds (n + 1) := by
  have htold := @told_after config rounds n
  refine ⟨(tells_after n).holds, starts_succ_iff, degraded_iff, ?_, ?_, fun m hm => ?_,
    fun hidle => ?_, fun m hm => not_starts_of_ends hm⟩
  · rw [← Bool.not_eq_true, degraded_iff, degraded_iff]
    constructor
    · rintro ⟨hnone, m, hinside⟩
      rcases Nat.le_succ_iff.mp hinside.2.1 with hm | rfl
      · exact absurd ⟨m, hinside.of_succ hm⟩ hnone
      · exact hinside.1
    · intro hstarts
      exact ⟨(starts_succ_iff.mp hstarts).1, n + 1, inside_self hstarts⟩
  · constructor
    · intro hd
      cases htold with
      | healthy _ hd' => rw [hd'] at hd; cases hd
      | degraded _ _ hd' => rw [hd'] at hd; cases hd
      | recovered hends _ => exact ⟨_, hends⟩
    · rintro ⟨m, hends⟩
      cases htold with
      | healthy hidle _ => exact absurd hends (hidle m).2
      | degraded hinside _ _ => exact absurd hinside (not_inside_of_ends hends)
      | recovered _ hd => rw [hd]; rfl
  · cases htold with
    | healthy hidle _ => exact absurd hm (hidle m).1
    | degraded hinside hreason hd =>
      obtain rfl := inside_unique hm hinside
      exact ⟨_, hreason, hd⟩
    | recovered hends _ => exact absurd hm (not_inside_of_ends hends)
  · cases htold with
    | healthy _ hd => exact hd
    | degraded hinside _ _ => exact absurd hinside (hidle _).1
    | recovered hends _ => exact absurd hends (hidle _).2

end Netband.Degradations

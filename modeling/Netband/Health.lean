import Mathlib
import Netband.Model

/-!
The sliding window of ping rounds, and the episodes of degradation it tells apart.

Degradation is judged on all rounds in the window, recovery on single rounds. Percentages and
round-trip times are exact rationals.
-/

namespace Netband.Health

open Netband.Model

structure HealthSample where
  successful : Bool
  rttMs : Option ℚ
  deriving DecidableEq

abbrev Round := List HealthSample

structure HealthConfig where
  windowRounds : ℕ
  minSamples : ℕ
  lossThresholdPct : ℚ
  rttThresholdMs : Option ℚ
  recoveryLossPct : ℚ
  recoveryRounds : ℕ
  deriving DecidableEq

/-- What the configuration checks of a trigger. -/
structure HealthConfig.Accepted (config : HealthConfig) : Prop where
  windowRounds : 0 < config.windowRounds
  minSamples : 0 < config.minSamples
  recoveryRounds : 0 < config.recoveryRounds
  lossThreshold : 0 ≤ config.lossThresholdPct ∧ config.lossThresholdPct ≤ 100
  recoveryLoss : 0 ≤ config.recoveryLossPct ∧ config.recoveryLossPct ≤ 100
  recoveryBelow : config.recoveryLossPct < config.lossThresholdPct
  rttThreshold : ∀ threshold ∈ config.rttThresholdMs, 0 < threshold

/-- A window that is degraded retains its reason. -/
structure HealthWindow where
  config : HealthConfig
  rounds : List Round := []
  degraded : Bool := false
  degradationReason : Option DegradationReason := none
  recoveryStreak : ℕ := 0
  retained : degraded = true → degradationReason.isSome = true := by simp

def HealthWindow.new (config : HealthConfig) : HealthWindow := { config }

/-! ### Snapshots -/

def lossPct (attempted successful : ℕ) : ℚ :=
  if attempted = 0 then 0 else ((attempted - successful : ℕ) : ℚ) * 100 / attempted

def rtts (samples : Round) : List ℚ :=
  ((samples.filter (·.successful)).filterMap (·.rttMs)).insertionSort (· ≤ ·)

/-- The nearest rank of the 95th percentile, counted from 1. -/
def rank (n : ℕ) : ℕ := max ((n * 95 + 99) / 100) 1

def p95 (sorted : List ℚ) : Option ℚ := sorted[rank sorted.length - 1]?

def snapshot (samples : Round) (minSamples : ℕ) : HealthSnapshot :=
  let attempted := samples.length
  let successful := samples.countP (·.successful)
  { attempted
    successful
    lossPct := lossPct attempted successful
    p95RttMs := p95 (rtts samples)
    sufficientSamples := minSamples ≤ attempted }

def lossExceeded (snapshot : HealthSnapshot) (config : HealthConfig) : Bool :=
  config.lossThresholdPct ≤ snapshot.lossPct

def rttExceeded (snapshot : HealthSnapshot) (config : HealthConfig) : Bool :=
  config.rttThresholdMs.any fun threshold => snapshot.p95RttMs.any fun p95 => threshold ≤ p95

def degradationReason (snapshot : HealthSnapshot) (config : HealthConfig) :
    Option DegradationReason :=
  if !snapshot.sufficientSamples then none
  else
    match lossExceeded snapshot config, rttExceeded snapshot config with
    | true, true => some .lossAndRtt
    | true, false => some .loss
    | false, true => some .rtt
    | false, false => none

def recoveryRound (snapshot : HealthSnapshot) (config : HealthConfig) : Bool :=
  if snapshot.attempted = 0 || config.recoveryLossPct ≤ snapshot.lossPct then false
  else config.rttThresholdMs.all fun threshold => snapshot.p95RttMs.any (· < threshold)

/-! ### Rounds -/

namespace HealthWindow

def push (w : HealthWindow) (samples : Round) : List Round :=
  let rounds := w.rounds ++ [samples]
  rounds.drop (rounds.length - w.config.windowRounds)

/-- The streak of recovery rounds after one more round. -/
def streak (w : HealthWindow) (samples : Round) : ℕ :=
  if recoveryRound (snapshot samples 0) w.config then w.recoveryStreak + 1 else 0

def observeRound (w : HealthWindow) (samples : Round) : HealthDecision × HealthWindow :=
  let rounds := w.push samples
  let windowSnapshot := snapshot rounds.flatten w.config.minSamples
  if h : w.degraded then
    if w.config.recoveryRounds ≤ w.streak samples then
      (.recovered windowSnapshot, { config := w.config, rounds })
    else
      (.degraded windowSnapshot (w.degradationReason.get (w.retained h)),
        { w with rounds, recoveryStreak := w.streak samples })
  else
    match Health.degradationReason windowSnapshot w.config with
    | some reason => (.degraded windowSnapshot reason,
        { config := w.config, rounds, degraded := true, degradationReason := some reason })
    | none => (.healthy windowSnapshot, { w with rounds })

/-- The decisions on some rounds, and the window after them. -/
def observeRounds : HealthWindow → List Round → List HealthDecision × HealthWindow
  | w, [] => ([], w)
  | w, samples :: rest =>
    let r := observeRounds (w.observeRound samples).2 rest
    ((w.observeRound samples).1 :: r.1, r.2)

end HealthWindow

def isDegraded : HealthDecision → Bool
  | .degraded .. => true
  | _ => false

def isRecovered : HealthDecision → Bool
  | .recovered _ => true
  | _ => false

/-- A round of recovery quality. -/
def Good (config : HealthConfig) (samples : Round) : Prop :=
  recoveryRound (snapshot samples 0) config = true

/-! ### Percentiles of a mixture -/

lemma rank_pos (n : ℕ) : 0 < rank n := lt_of_lt_of_le Nat.one_pos (le_max_right _ _)

lemma rank_le {n : ℕ} (h : 0 < n) : rank n ≤ n := by
  unfold rank
  omega

lemma rank_add (a b : ℕ) : rank (a + b) ≤ rank a + rank b := by
  unfold rank
  omega

/-- In a sorted list the elements below a bound come first. -/
lemma sorted_lt_iff {l : List ℚ} (hl : l.Pairwise (· ≤ ·)) (bound : ℚ) {i : ℕ} {x : ℚ}
    (hx : l[i]? = some x) : x < bound ↔ i < l.countP (· < bound) := by
  induction l generalizing i with
  | nil => simp at hx
  | cons a l ih =>
    rw [List.pairwise_cons] at hl
    by_cases ha : a < bound
    · rw [List.countP_cons_of_pos (by simpa using ha)]
      cases i with
      | zero =>
        obtain rfl : a = x := by simpa using hx
        simp [ha]
      | succ i =>
        rw [ih hl.2 (by simpa using hx)]
        omega
    · have hnone : (a :: l).countP (· < bound) = 0 := by
        rw [List.countP_eq_zero]
        intro y hy
        rcases List.mem_cons.mp hy with rfl | hy
        · simpa using ha
        · have := hl.1 y hy
          simp only [decide_eq_true_eq, not_lt] at ha ⊢
          exact ha.trans this
      rw [hnone]
      refine iff_of_false ?_ (by omega)
      have hmem := List.mem_of_getElem? hx
      rcases List.mem_cons.mp hmem with rfl | hmem
      · exact ha
      · exact not_lt.mpr ((not_lt.mp ha).trans (hl.1 x hmem))

/-- The number of round-trip times below a bound. -/
def below (bound : ℚ) (samples : Round) : ℕ := (rtts samples).countP (· < bound)

lemma p95_lt_iff {samples : Round} {bound : ℚ} :
    (p95 (rtts samples)).any (· < bound) = true ↔
      rank (rtts samples).length ≤ below bound samples := by
  have hsorted : (rtts samples).Pairwise (· ≤ ·) := List.pairwise_insertionSort _ _
  have hpos := rank_pos (rtts samples).length
  rcases hp : p95 (rtts samples) with _ | x
  · simp only [Option.any_none, Bool.false_eq_true, false_iff, not_le]
    have hempty : (rtts samples).length ≤ rank (rtts samples).length - 1 := by
      simpa [p95] using hp
    exact lt_of_le_of_lt (List.countP_le_length) (by omega)
  · simp only [Option.any_some, decide_eq_true_eq]
    rw [sorted_lt_iff hsorted bound hp, below]
    omega

lemma length_rtts_append (a b : Round) :
    (rtts (a ++ b)).length = (rtts a).length + (rtts b).length := by
  simp [rtts]

lemma below_eq (bound : ℚ) (samples : Round) : below bound samples =
    ((samples.filter (·.successful)).filterMap (·.rttMs)).countP (· < bound) :=
  (List.perm_insertionSort _ _).countP_eq _

lemma below_append (bound : ℚ) (a b : Round) :
    below bound (a ++ b) = below bound a + below bound b := by
  simp only [below_eq, List.filter_append, List.filterMap_append, List.countP_append]

/-- What a round of recovery quality says of its samples. -/
structure Quality (config : HealthConfig) (samples : Round) : Prop where
  attempted : samples ≠ []
  loss : ((samples.countP fun s => !s.successful : ℕ) : ℚ) * 100 <
    config.recoveryLossPct * samples.length
  rtt : ∀ threshold ∈ config.rttThresholdMs,
    rank (rtts samples).length ≤ below threshold samples

lemma length_sub_countP (samples : Round) :
    samples.length - samples.countP (·.successful) = samples.countP fun s => !s.successful := by
  have h := List.length_eq_countP_add_countP (fun s : HealthSample => s.successful) (l := samples)
  simp only [Bool.not_eq_true, Bool.decide_eq_false] at h
  omega

lemma lossPct_samples {samples : Round} (h : samples ≠ []) :
    lossPct samples.length (samples.countP (·.successful)) * samples.length =
      ((samples.countP fun s => !s.successful : ℕ) : ℚ) * 100 := by
  have hlen : samples.length ≠ 0 := by simpa using h
  have hne : (samples.length : ℚ) ≠ 0 := by exact_mod_cast hlen
  rw [lossPct, if_neg hlen, length_sub_countP]
  field_simp

variable {config : HealthConfig} {samples : Round}

lemma good_iff : Good config samples ↔ Quality config samples := by
  have hrtt : (config.rttThresholdMs.all fun threshold =>
      (p95 (rtts samples)).any (· < threshold)) = true ↔
      ∀ threshold ∈ config.rttThresholdMs,
        rank (rtts samples).length ≤ below threshold samples := by
    simp only [Option.all_eq_true, p95_lt_iff, Option.mem_def]
  by_cases h : samples = []
  · subst h
    refine iff_of_false ?_ fun hq => hq.attempted rfl
    simp [Good, recoveryRound, snapshot]
  · have hlen : samples.length ≠ 0 := by simpa using h
    have hpos : (0 : ℚ) < samples.length := by exact_mod_cast Nat.pos_of_ne_zero hlen
    have hloss : lossPct samples.length (samples.countP (·.successful)) < config.recoveryLossPct ↔
        ((samples.countP fun s => !s.successful : ℕ) : ℚ) * 100 <
          config.recoveryLossPct * samples.length := by
      rw [← lossPct_samples h, mul_lt_mul_iff_of_pos_right hpos]
    have hgood : Good config samples ↔
        ¬ config.recoveryLossPct ≤ lossPct samples.length (samples.countP (·.successful)) ∧
          (config.rttThresholdMs.all fun threshold =>
            (p95 (rtts samples)).any (· < threshold)) = true := by
      simp [Good, recoveryRound, snapshot, h]
    rw [hgood, not_le, hloss, hrtt]
    exact ⟨fun hq => ⟨h, hq.1, hq.2⟩, fun hq => ⟨hq.loss, hq.rtt⟩⟩

/-- Two rounds of recovery quality are together of recovery quality. -/
lemma Quality.append {a b : Round} (ha : Quality config a) (hb : Quality config b) :
    Quality config (a ++ b) := by
  refine ⟨by simp [ha.attempted], ?_, fun threshold ht => ?_⟩
  · have h1 := ha.loss
    have h2 := hb.loss
    rw [List.countP_append, List.length_append]
    push_cast
    linarith
  · rw [length_rtts_append, below_append]
    exact (rank_add _ _).trans (Nat.add_le_add (ha.rtt threshold ht) (hb.rtt threshold ht))

lemma quality_flatten {rounds : List Round} (hne : rounds ≠ [])
    (h : ∀ samples ∈ rounds, Quality config samples) : Quality config rounds.flatten := by
  induction rounds with
  | nil => exact absurd rfl hne
  | cons samples rounds ih =>
    rw [List.flatten_cons]
    rcases rounds with _ | ⟨next, rest⟩
    · simpa using h samples (by simp)
    · exact (h samples (by simp)).append (ih (by simp) fun s hs => h s (by simp [hs]))

/-- Samples of recovery quality are no degradation. -/
lemma Quality.not_degraded (hc : config.Accepted) (h : Quality config samples) :
    degradationReason (snapshot samples config.minSamples) config = none := by
  have hlen : samples.length ≠ 0 := by simpa using h.attempted
  have hpos : (0 : ℚ) < samples.length := by exact_mod_cast Nat.pos_of_ne_zero hlen
  have hloss : lossPct samples.length (samples.countP (·.successful)) <
      config.lossThresholdPct := by
    refine lt_trans ?_ hc.recoveryBelow
    rw [← mul_lt_mul_iff_of_pos_right hpos, lossPct_samples h.attempted]
    exact h.loss
  have hrtt : rttExceeded (snapshot samples config.minSamples) config = false := by
    rw [rttExceeded, Option.any_eq_false]
    intro threshold ht
    have hbelow := p95_lt_iff.mpr (h.rtt threshold ht)
    rcases hp : p95 (rtts samples) with _ | x
    · simp [snapshot, hp]
    · rw [hp] at hbelow
      simpa [snapshot, hp] using hbelow
  have hless : lossExceeded (snapshot samples config.minSamples) config = false :=
    decide_eq_false (not_le.mpr hloss)
  unfold degradationReason
  rw [hrtt, hless]
  split <;> rfl

/-! ### Recovery -/

section recovery
variable {w : HealthWindow}

@[simp] lemma observeRound_config (w : HealthWindow) (samples : Round) :
    (w.observeRound samples).2.config = w.config := by
  unfold HealthWindow.observeRound
  split_ifs
  · rfl
  · rfl
  · dsimp only
    split <;> rfl

lemma observeRound_rounds (w : HealthWindow) (samples : Round) :
    (w.observeRound samples).2.rounds = w.push samples := by
  unfold HealthWindow.observeRound
  split_ifs
  · rfl
  · rfl
  · dsimp only
    split <;> rfl

/-- The snapshot of the window after one more round. -/
def windowSnapshot (w : HealthWindow) (samples : Round) : HealthSnapshot :=
  snapshot (w.push samples).flatten w.config.minSamples

lemma observeRound_recovered {samples : Round} (hw : w.degraded = true)
    (hs : w.config.recoveryRounds ≤ w.streak samples) :
    w.observeRound samples =
      (.recovered (windowSnapshot w samples),
       { config := w.config, rounds := w.push samples }) := by
  unfold HealthWindow.observeRound
  simp only [hw, hs, dif_pos, if_pos]
  rfl

lemma observeRound_remains {samples : Round} (hw : w.degraded = true)
    (hs : ¬ w.config.recoveryRounds ≤ w.streak samples) :
    w.observeRound samples =
      (.degraded (windowSnapshot w samples) (w.degradationReason.get (w.retained hw)),
        { w with rounds := w.push samples, recoveryStreak := w.streak samples }) := by
  unfold HealthWindow.observeRound
  simp only [hw, hs, dif_pos, if_false]
  rfl

lemma observeRound_degrades {samples : Round} {reason : DegradationReason}
    (hw : w.degraded = false)
    (hreason : degradationReason (windowSnapshot w samples) w.config = some reason) :
    w.observeRound samples = (.degraded (windowSnapshot w samples) reason,
      { config := w.config, rounds := w.push samples, degraded := true,
        degradationReason := some reason }) := by
  unfold windowSnapshot at hreason
  unfold HealthWindow.observeRound
  simp only [hw, Bool.false_eq_true, dif_neg, not_false_eq_true, hreason]
  rfl

lemma observeRound_healthy {samples : Round} (hw : w.degraded = false)
    (hreason : degradationReason (windowSnapshot w samples) w.config = none) :
    w.observeRound samples =
      (.healthy (windowSnapshot w samples), { w with rounds := w.push samples }) := by
  unfold windowSnapshot at hreason
  unfold HealthWindow.observeRound
  simp only [hw, Bool.false_eq_true, dif_neg, not_false_eq_true, hreason]
  rfl

/-- A window that is not degraded counts no streak, and the rounds of the streak were good. -/
structure Tracked (w : HealthWindow) : Prop where
  idle : w.degraded = false → w.recoveryStreak = 0
  streak : ∀ samples ∈ w.rounds.reverse.take w.recoveryStreak, Good w.config samples

lemma tracked_new (config : HealthConfig) : Tracked (.new config) :=
  ⟨fun _ => rfl, by simp [HealthWindow.new]⟩

lemma reverse_push (w : HealthWindow) (samples : Round) :
    (w.push samples).reverse = (samples :: w.rounds.reverse).take w.config.windowRounds := by
  rw [HealthWindow.push, List.reverse_drop]
  simp only [List.length_append, List.length_cons, List.length_nil, List.reverse_append,
    List.reverse_cons, List.reverse_nil, List.nil_append, List.singleton_append]
  apply List.take_eq_take_iff.mpr
  simp only [List.length_cons, List.length_reverse]
  omega

lemma mem_take_push {n : ℕ} {x samples : Round}
    (h : x ∈ (w.push samples).reverse.take (n + 1)) :
    x = samples ∨ x ∈ w.rounds.reverse.take n := by
  rw [reverse_push, List.take_take] at h
  have h := List.take_subset_take_left _ (min_le_left _ _) h
  simpa using h

/-- The rounds of the streak after one more round were good. -/
lemma Tracked.push (h : Tracked w) (samples : Round) :
    ∀ x ∈ (w.push samples).reverse.take (w.streak samples), Good w.config x := by
  intro x hx
  unfold HealthWindow.streak at hx
  split_ifs at hx with hgood
  · rcases mem_take_push hx with rfl | hx
    · exact hgood
    · exact h.streak x hx
  · simp at hx

lemma Tracked.observeRound (h : Tracked w) (samples : Round) :
    Tracked (w.observeRound samples).2 := by
  by_cases hw : w.degraded = true
  · by_cases hs : w.config.recoveryRounds ≤ w.streak samples
    · rw [observeRound_recovered hw hs]
      exact ⟨fun _ => rfl, by simp⟩
    · rw [observeRound_remains hw hs]
      exact ⟨fun hidle => absurd hidle (by simp [hw]), h.push samples⟩
  · have hw : w.degraded = false := by simpa using hw
    rcases hreason : degradationReason (windowSnapshot w samples) w.config with _ | reason
    · rw [observeRound_healthy hw hreason]
      exact ⟨fun _ => h.idle hw, by simp [h.idle hw]⟩
    · rw [observeRound_degrades hw hreason]
      exact ⟨fun _ => rfl, by simp⟩

/-- A window is degraded exactly after a decision that says so. -/
lemma degraded_observeRound (w : HealthWindow) (samples : Round) :
    (w.observeRound samples).2.degraded = isDegraded (w.observeRound samples).1 := by
  by_cases hw : w.degraded = true
  · by_cases hs : w.config.recoveryRounds ≤ w.streak samples
    · rw [observeRound_recovered hw hs]
      rfl
    · rw [observeRound_remains hw hs]
      exact hw
  · have hw : w.degraded = false := by simpa using hw
    rcases hreason : degradationReason (windowSnapshot w samples) w.config with _ | reason
    · rw [observeRound_healthy hw hreason]
      exact hw
    · rw [observeRound_degrades hw hreason]
      rfl

/-- A degraded window stays degraded until it recovers. -/
lemma isDegraded_of_degraded {samples : Round} (hw : w.degraded = true)
    (hr : isRecovered (w.observeRound samples).1 = false) :
    isDegraded (w.observeRound samples).1 = true := by
  by_cases hs : w.config.recoveryRounds ≤ w.streak samples
  · rw [observeRound_recovered hw hs] at hr
    cases hr
  · rw [observeRound_remains hw hs]
    rfl

lemma Tracked.observeRounds {rounds : List Round} (h : Tracked w) :
    Tracked (w.observeRounds rounds).2 := by
  induction rounds generalizing w with
  | nil => exact h
  | cons samples rest ih => exact ih (h.observeRound samples)

lemma observeRounds_config (w : HealthWindow) (rounds : List Round) :
    (w.observeRounds rounds).2.config = w.config := by
  induction rounds generalizing w with
  | nil => rfl
  | cons samples rest ih =>
    have hrest := ih (w.observeRound samples).2
    rw [observeRound_config] at hrest
    exact hrest

lemma observeRounds_append (w : HealthWindow) (rounds more : List Round) :
    (w.observeRounds (rounds ++ more)).2 =
      ((w.observeRounds rounds).2.observeRounds more).2 := by
  induction rounds generalizing w with
  | nil => rfl
  | cons samples rest ih => exact ih (w.observeRound samples).2

/-- The window is not degraded, and its latest rounds were good. -/
structure Settled (w : HealthWindow) : Prop where
  healthy : w.degraded = false
  latest : ∀ samples ∈ w.rounds.reverse.take w.config.recoveryRounds, Good w.config samples

/-- A recovery leaves a window whose latest rounds were good. -/
lemma Tracked.settled {samples : Round} (h : Tracked w)
    (hr : isRecovered (w.observeRound samples).1 = true) : Settled (w.observeRound samples).2 := by
  by_cases hw : w.degraded = true
  · by_cases hs : w.config.recoveryRounds ≤ w.streak samples
    · rw [observeRound_recovered hw hs]
      exact ⟨rfl, fun x hx => h.push samples x (List.take_subset_take_left _ hs hx)⟩
    · rw [observeRound_remains hw hs] at hr
      exact absurd hr (by simp [isRecovered])
  · have hw : w.degraded = false := by simpa using hw
    rcases hreason : degradationReason (windowSnapshot w samples) w.config with _ | reason
    · rw [observeRound_healthy hw hreason] at hr
      exact absurd hr (by simp [isRecovered])
    · rw [observeRound_degrades hw hreason] at hr
      exact absurd hr (by simp [isRecovered])

/-- A round on a window that is not degraded is healthy if the rounds in the window are. -/
lemma observeRound_quiet {samples : Round} (hw : w.degraded = false)
    (hreason : degradationReason (windowSnapshot w samples) w.config = none) :
    isDegraded (w.observeRound samples).1 = false ∧
      (w.observeRound samples).2.degraded = false := by
  rw [observeRound_healthy hw hreason]
  exact ⟨rfl, hw⟩

lemma push_ne_nil (hc : w.config.Accepted) (samples : Round) : samples ∈ w.push samples := by
  rw [← List.mem_reverse, reverse_push]
  obtain ⟨n, hn⟩ := Nat.exists_eq_succ_of_ne_zero hc.windowRounds.ne'
  rw [hn]
  simp

/-- A window no longer than the recovery and one round holds good rounds only. -/
lemma Settled.observeRound {samples : Round} (hc : w.config.Accepted)
    (hlen : w.config.windowRounds ≤ w.config.recoveryRounds + 1) (h : Settled w)
    (hgood : Good w.config samples) :
    isDegraded (w.observeRound samples).1 = false ∧ Settled (w.observeRound samples).2 := by
  have hrounds : ∀ x ∈ w.push samples, Good w.config x := by
    intro x hx
    rw [← List.mem_reverse, reverse_push] at hx
    have hx := List.take_subset_take_left _ hlen hx
    rw [List.take_succ_cons] at hx
    rcases List.mem_cons.mp hx with rfl | hx
    · exact hgood
    · exact h.latest x hx
  have hquality := quality_flatten (List.ne_nil_of_mem (push_ne_nil hc samples))
    fun x hx => good_iff.mp (hrounds x hx)
  have hhealthy := observeRound_quiet h.healthy (hquality.not_degraded hc)
  refine ⟨hhealthy.1, hhealthy.2, fun x hx => ?_⟩
  rw [observeRound_rounds] at hx
  rw [observeRound_config]
  exact hrounds x (List.mem_reverse.mp (List.take_subset _ _ hx))

/-- Without a threshold on round-trip times a loss of everything is no good round. -/
lemma observeRound_lossless {samples : Round} (hc : w.config.Accepted)
    (hloss : 100 ≤ w.config.lossThresholdPct) (hrtt : w.config.rttThresholdMs = none)
    (hw : w.degraded = false) (hgood : Good w.config samples) :
    isDegraded (w.observeRound samples).1 = false ∧
      (w.observeRound samples).2.degraded = false := by
  refine observeRound_quiet hw ?_
  unfold windowSnapshot
  have hq := good_iff.mp hgood
  obtain ⟨x, hx, hsuccess⟩ : ∃ x ∈ samples, x.successful = true := by
    by_contra hnone
    push Not at hnone
    have hall : samples.countP (fun s => !s.successful) = samples.length := by
      rw [List.countP_eq_length]
      intro x hx
      simpa using hnone x hx
    have hpos : 0 < (samples.length : ℚ) := by
      exact_mod_cast List.length_pos_iff.mpr hq.attempted
    have hlost := hq.loss
    rw [hall] at hlost
    nlinarith [hc.recoveryLoss.2]
  have hmem : x ∈ (w.push samples).flatten :=
    List.mem_flatten.mpr ⟨samples, push_ne_nil hc samples, hx⟩
  generalize (w.push samples).flatten = all at hmem
  have hpos : 0 < (all.length : ℚ) := by exact_mod_cast List.length_pos_of_mem hmem
  have hless : all.countP (fun s => !s.successful) < all.length := by
    refine lt_of_le_of_ne List.countP_le_length fun heq => ?_
    have := List.countP_eq_length.mp heq x hmem
    simp [hsuccess] at this
  have hlt : lossPct all.length (all.countP (·.successful)) < w.config.lossThresholdPct := by
    refine lt_of_lt_of_le ?_ hloss
    rw [← mul_lt_mul_iff_of_pos_right hpos, lossPct_samples (List.ne_nil_of_mem hmem)]
    have : ((all.countP fun s => !s.successful : ℕ) : ℚ) < all.length := by exact_mod_cast hless
    linarith
  have hexceeded : lossExceeded (snapshot all w.config.minSamples) w.config = false :=
    decide_eq_false (not_le.mpr hlt)
  have hnortt : rttExceeded (snapshot all w.config.minSamples) w.config = false := by
    simp [rttExceeded, hrtt]
  unfold degradationReason
  rw [hexceeded, hnortt]
  split <;> rfl

/-- What good rounds keep holds along them, and no decision degrades. -/
lemma observeRounds_healthy {P : HealthWindow → Prop}
    (hstep : ∀ {w samples}, P w → Good w.config samples →
      isDegraded (w.observeRound samples).1 = false ∧ P (w.observeRound samples).2)
    {after : List Round} (hw : P w) (hafter : ∀ samples ∈ after, Good w.config samples) :
    ∀ decision ∈ (w.observeRounds after).1, isDegraded decision = false := by
  induction after generalizing w with
  | nil => simp [HealthWindow.observeRounds]
  | cons samples rest ih =>
    obtain ⟨hdecision, hnext⟩ := hstep hw (hafter samples (by simp))
    intro decision hmem
    rcases List.mem_cons.mp hmem with rfl | hmem
    · exact hdecision
    · refine ih hnext (fun x hx => ?_) decision hmem
      rw [observeRound_config]
      exact hafter x (by simp [hx])

end recovery

/-! ### Relapse -/

/-- After a recovery good rounds never degrade the window again. -/
def Hysteresis (config : HealthConfig) : Prop :=
  ∀ (before : List Round) (round : Round) (after : List Round),
    let w := (HealthWindow.new config).observeRounds before |>.2
    isRecovered (w.observeRound round).1 = true → (∀ samples ∈ after, Good config samples) →
      ∀ decision ∈ ((w.observeRound round).2.observeRounds after).1, isDegraded decision = false

section relapse
variable {config : HealthConfig} {bad good : Round}

/-- The window after a bad round and some good ones, while it is degraded. -/
def relapsing (config : HealthConfig) (bad good : Round) (reason : DegradationReason) (n : ℕ) :
    HealthWindow :=
  { config
    rounds := bad :: List.replicate n good
    degraded := true
    degradationReason := some reason
    recoveryStreak := n }

lemma push_short {w : HealthWindow} {rounds : List Round} {samples : Round}
    (hw : w.rounds = rounds) (h : rounds.length + 1 ≤ w.config.windowRounds) :
    w.push samples = rounds ++ [samples] := by
  unfold HealthWindow.push
  rw [hw]
  have hzero : (rounds ++ [samples]).length - w.config.windowRounds = 0 := by
    simp only [List.length_append, List.length_singleton]
    omega
  simp only [hzero, List.drop_zero]

lemma relapsing_push {reason : DegradationReason} {n : ℕ} (h : n + 2 ≤ config.windowRounds) :
    (relapsing config bad good reason n).push good = bad :: List.replicate (n + 1) good := by
  have hpush := @push_short _ _ good
    (show (relapsing config bad good reason n).rounds = bad :: List.replicate n good from rfl)
    (by simp only [List.length_cons, List.length_replicate]; exact h)
  rw [hpush, List.replicate_succ']
  rfl

lemma relapsing_observeRound {reason : DegradationReason} {n : ℕ} (hgood : Good config good)
    (h : n + 2 ≤ config.windowRounds) (hn : n + 1 < config.recoveryRounds) :
    ((relapsing config bad good reason n).observeRound good).2 =
      relapsing config bad good reason (n + 1) := by
  have hstreak : (relapsing config bad good reason n).streak good = n + 1 := if_pos hgood
  rw [observeRound_remains rfl (by rw [hstreak]; exact not_le.mpr hn)]
  simp only [hstreak, relapsing_push h]
  rfl

lemma relapsing_observeRounds {reason : DegradationReason} {n : ℕ} (hgood : Good config good)
    (h : n + 2 ≤ config.windowRounds) (hn : n < config.recoveryRounds) :
    ((relapsing config bad good reason 0).observeRounds (List.replicate n good)).2 =
      relapsing config bad good reason n := by
  induction n with
  | zero => rfl
  | succ n ih =>
    rw [List.replicate_succ', observeRounds_append, ih (by omega) (by omega)]
    exact relapsing_observeRound hgood (by omega) hn

/-- A window that still holds a round that is bad on its own and with the good ones after it
degrades again. -/
lemma not_hysteresis (hc : config.Accepted) (hlen : config.recoveryRounds + 2 ≤ config.windowRounds)
    (hgood : Good config good)
    (hbad : ∀ n, (degradationReason (snapshot (bad :: List.replicate n good).flatten
      config.minSamples) config).isSome = true ∨ config.recoveryRounds + 1 < n) :
    ¬ Hysteresis config := by
  obtain ⟨r, hr⟩ := Nat.exists_eq_succ_of_ne_zero hc.recoveryRounds.ne'
  obtain ⟨reason, hreason⟩ := Option.isSome_iff_exists.mp ((hbad 0).resolve_right (by omega))
  obtain ⟨again, hagain⟩ :=
    Option.isSome_iff_exists.mp ((hbad (r + 2)).resolve_right (by omega))
  have hfirst : ((HealthWindow.new config).observeRound bad).2 =
      relapsing config bad good reason 0 := by
    have hpush := @push_short _ _ bad
      (show (HealthWindow.new config).rounds = [] from rfl) hc.windowRounds
    rw [@observeRound_degrades _ _ reason rfl (by unfold windowSnapshot; rw [hpush]; exact hreason),
      hpush]
    rfl
  have hbefore : ((HealthWindow.new config).observeRounds (bad :: List.replicate r good)).2 =
      relapsing config bad good reason r := by
    rw [← relapsing_observeRounds hgood (by omega) (by omega), ← hfirst]
    rfl
  have hstreak : (relapsing config bad good reason r).streak good = r + 1 := if_pos hgood
  have hrecovered := @observeRound_recovered (relapsing config bad good reason r)
    good rfl (by rw [hstreak]; exact hr.le)
  have hpush : ((relapsing config bad good reason r).observeRound good).2.push good =
      bad :: List.replicate (r + 2) good := by
    have hrounds : ((relapsing config bad good reason r).observeRound good).2.rounds =
        bad :: List.replicate (r + 1) good := by
      rw [observeRound_rounds, relapsing_push (by omega)]
    rw [push_short hrounds (by
      rw [observeRound_config]
      simp only [List.length_cons, List.length_replicate]
      exact hlen.trans' (by omega)), List.replicate_succ' (n := r + 1)]
    rfl
  intro h
  have hall := h (bad :: List.replicate r good) good [good]
  rw [hbefore] at hall
  have hlast := hall (by rw [hrecovered]; rfl) (by simpa using hgood) _
    (List.mem_singleton_self _)
  rw [@observeRound_degrades _ _ again (by rw [hrecovered])
    (by unfold windowSnapshot; rw [hpush, observeRound_config]; exact hagain)] at hlast
  exact absurd hlast (by simp [isDegraded])

/-! ### Rounds that relapse -/

def lost (m : ℕ) : Round := List.replicate m ⟨false, none⟩
def slow (threshold : ℚ) (m : ℕ) : Round := List.replicate m ⟨true, some threshold⟩
def swift : Round := [⟨true, some 0⟩]

lemma flatten_swift (bad : Round) (n : ℕ) :
    (bad :: List.replicate n swift).flatten = bad ++ List.replicate n ⟨true, some 0⟩ := by
  simp [swift]

lemma swift_good (hc : config.Accepted) (hpos : 0 < config.recoveryLossPct) :
    Good config swift := by
  refine good_iff.mpr ⟨by simp [swift], by simpa [swift] using hpos, fun threshold ht => ?_⟩
  have hbelow : below threshold swift = 1 := by
    simp [below_eq, swift, hc.rttThreshold threshold ht]
  rw [hbelow]
  exact rank_le (by simp [rtts, swift])

lemma degradationReason_isSome {snapshot : HealthSnapshot} (hs : snapshot.sufficientSamples = true)
    (h : lossExceeded snapshot config = true ∨ rttExceeded snapshot config = true) :
    (degradationReason snapshot config).isSome = true := by
  unfold degradationReason
  rw [hs]
  rcases h with h | h
  · cases hr : rttExceeded snapshot config <;> simp [h]
  · cases hl : lossExceeded snapshot config <;> simp [h]

lemma lost_degrades {m n : ℕ} (hm : config.minSamples ≤ m) (hpos : 0 < m)
    (hloss : config.lossThresholdPct * (m + n) ≤ 100 * m) :
    (degradationReason (snapshot (lost m :: List.replicate n swift).flatten config.minSamples)
      config).isSome = true := by
  rw [flatten_swift]
  refine degradationReason_isSome ?_ (Or.inl (decide_eq_true ?_))
  · simp only [snapshot, lost, List.length_append, List.length_replicate, decide_eq_true_eq]
    omega
  · have hne : lost m ++ List.replicate n ⟨true, some 0⟩ ≠ [] := by
      simp [lost, hpos.ne']
    have hlen : (0 : ℚ) < (lost m ++ List.replicate n ⟨true, some 0⟩ : Round).length := by
      exact_mod_cast List.length_pos_iff.mpr hne
    have hcount : (lost m ++ List.replicate n ⟨true, some 0⟩ : Round).countP
        (fun s => !s.successful) = m := by
      simp [lost, List.countP_replicate]
    refine le_of_mul_le_mul_right ?_ hlen
    refine le_trans ?_ (lossPct_samples hne).ge
    rw [hcount]
    simp only [lost, List.length_append, List.length_replicate, Nat.cast_add]
    linarith

lemma slow_degrades {m n : ℕ} {threshold : ℚ} (ht : config.rttThresholdMs = some threshold)
    (hpos : 0 < threshold) (hm : config.minSamples ≤ m) (hn : n < m) :
    (degradationReason (snapshot (slow threshold m :: List.replicate n swift).flatten
      config.minSamples) config).isSome = true := by
  rw [flatten_swift]
  refine degradationReason_isSome ?_ (Or.inr ?_)
  · simp only [snapshot, slow, List.length_append, List.length_replicate, decide_eq_true_eq]
    omega
  · have hlen : (rtts (slow threshold m ++ List.replicate n ⟨true, some 0⟩)).length = m + n := by
      simp [rtts, slow]
    have hbelow : below threshold (slow threshold m ++ List.replicate n ⟨true, some 0⟩) = n := by
      simp [below_eq, slow, List.countP_replicate, hpos]
    have hover := mt p95_lt_iff.mp (show ¬ rank _ ≤ _ by
      rw [hlen, hbelow]
      unfold rank
      omega)
    rcases hp : p95 (rtts (slow threshold m ++ List.replicate n ⟨true, some 0⟩)) with _ | x
    · have hempty : (rtts (slow threshold m ++ List.replicate n ⟨true, some 0⟩)).length ≤
          rank (rtts (slow threshold m ++ List.replicate n ⟨true, some 0⟩)).length - 1 := by
        simpa [p95] using hp
      have hrank := rank_le (n := m + n) (by omega)
      rw [hlen] at hempty
      omega
    · rw [hp] at hover
      simp only [rttExceeded, ht, Option.any_some, snapshot, hp, decide_eq_true_eq]
      simpa using hover

end relapse

/-- **Hysteresis**: a recovery is stable under good rounds exactly if the window is at most one
round longer than the recovery, or no round can be good, or only a loss of everything degrades. -/
theorem hysteresis_iff {config : HealthConfig} (hc : config.Accepted) :
    Hysteresis config ↔ config.windowRounds ≤ config.recoveryRounds + 1 ∨
      config.recoveryLossPct ≤ 0 ∨
      (100 ≤ config.lossThresholdPct ∧ config.rttThresholdMs = none) := by
  constructor
  · intro h
    by_contra hnot
    push Not at hnot
    obtain ⟨hlen, hpos, hthreshold⟩ := hnot
    have hgood := swift_good hc hpos
    by_cases hloss : config.lossThresholdPct < 100
    · obtain ⟨m, hm⟩ := exists_nat_ge
        (config.lossThresholdPct * (config.recoveryRounds + 1) / (100 - config.lossThresholdPct))
      refine @not_hysteresis _ (lost (m + config.minSamples)) _ hc (by omega) hgood
        (fun n => ?_) h
      rcases Nat.lt_or_ge (config.recoveryRounds + 1) n with hn | hn
      · exact Or.inr hn
      · refine Or.inl (lost_degrades (by omega) (by have := hc.minSamples; omega) ?_)
        rw [div_le_iff₀ (by linarith)] at hm
        have hn : (n : ℚ) ≤ config.recoveryRounds + 1 := by exact_mod_cast hn
        have hmore : (0 : ℚ) ≤ config.minSamples := Nat.cast_nonneg _
        push_cast
        nlinarith [hc.lossThreshold.1]
    · obtain ⟨threshold, ht⟩ := Option.ne_none_iff_exists'.mp (hthreshold (not_lt.mp hloss))
      refine @not_hysteresis _ (slow threshold (config.recoveryRounds + 2 + config.minSamples)) _
        hc (by omega) hgood (fun n => ?_) h
      rcases Nat.lt_or_ge (config.recoveryRounds + 1) n with hn | hn
      · exact Or.inr hn
      · exact Or.inl (slow_degrades ht (hc.rttThreshold threshold ht) (by omega) (by omega))
  · intro h before round after w hrecovered hafter
    have hconfig : (w.observeRound round).2.config = config := by
      rw [observeRound_config, observeRounds_config]
      rfl
    have hsettled : Settled (w.observeRound round).2 :=
      ((tracked_new config).observeRounds).settled hrecovered
    rw [← hconfig] at hafter
    rcases h with hlen | hnone | ⟨hloss, hrtt⟩
    · refine observeRounds_healthy (P := fun w => w.config = config ∧ Settled w)
        (fun {w samples} hw hgood => ?_) ⟨hconfig, hsettled⟩ hafter
      obtain ⟨rfl, hw⟩ := hw
      have hnext := hw.observeRound hc hlen hgood
      exact ⟨hnext.1, observeRound_config _ _, hnext.2⟩
    · rcases after with _ | ⟨samples, rest⟩
      · simp [HealthWindow.observeRounds]
      · have hgood := good_iff.mp (hafter samples (by simp))
        have hlost := hgood.loss
        rw [hconfig] at hlost
        have hzero : (0 : ℚ) ≤ (samples.countP fun s => !s.successful : ℕ) := Nat.cast_nonneg _
        have hlen : (0 : ℚ) ≤ samples.length := Nat.cast_nonneg _
        nlinarith
    · refine observeRounds_healthy (P := fun w => w.config = config ∧ w.degraded = false)
        (fun {w samples} hw hgood => ?_) ⟨hconfig, hsettled.healthy⟩ hafter
      obtain ⟨rfl, hw⟩ := hw
      have hnext := observeRound_lossless hc hloss hrtt hw hgood
      exact ⟨hnext.1, observeRound_config _ _, hnext.2⟩

/-- The default configuration with a lower loss threshold. -/
def stricter : HealthConfig :=
  { windowRounds := 6, minSamples := 6, lossThresholdPct := 20, rttThresholdMs := none,
    recoveryLossPct := 10, recoveryRounds := 3 }

lemma stricter_accepted : stricter.Accepted where
  windowRounds := by decide
  minSamples := by decide
  recoveryRounds := by decide
  lossThreshold := by decide +kernel
  recoveryLoss := by decide +kernel
  recoveryBelow := by decide +kernel
  rttThreshold := by simp [stricter]

theorem hysteresis_stricter : Hysteresis stricter ↔ False := by
  refine (hysteresis_iff stricter_accepted).trans ⟨fun h => ?_, False.elim⟩
  revert h
  decide +kernel

/-- Two rounds of lost samples, three good ones, and the next good round degrades again. -/
theorem relapses_after_recovery :
    ¬ ∀ config : HealthConfig, config.Accepted → Hysteresis config := by
  intro h
  have hround : ∀ samples ∈ [List.replicate 6 (⟨true, some 5⟩ : HealthSample)],
      Good stricter samples := by
    unfold Good
    decide +kernel
  have hall := h stricter stricter_accepted
    [lost 6, lost 6, List.replicate 6 ⟨true, some 5⟩, List.replicate 6 ⟨true, some 5⟩]
    (List.replicate 6 ⟨true, some 5⟩) [List.replicate 6 ⟨true, some 5⟩] (by decide +kernel) hround
  revert hall
  decide +kernel

end Netband.Health

import Mathlib
import Netband.Model

/-!
The scheduler's state: one record for each provider, its policy, and the store that holds
all providers.
-/

namespace Netband.State

open Netband.Time Netband.Model

/-- `BTreeMap`. -/
abbrev BTreeMap (κ α : Type) [Ord κ] := Std.ExtTreeMap κ α compare

def stateSchemaVersion : ℕ := 1
def maxRateLimitAttempts : ℕ := 5
def defaultInterfaceKey : String := ""

structure DeferredOpportunity where
  scheduledAtUtc : Option ℤ
  reason : TriggerReason
  interface : Option String
  createdAtUtc : ℤ
  expiresAtUtc : ℤ
  rateLimitAttempts : ℕ
  deriving DecidableEq

structure PendingTrigger where
  reason : TriggerReason
  createdAtUtc : ℤ
  expiresAtUtc : ℤ
  deriving DecidableEq

structure InterfaceTriggerState where
  pending : Option PendingTrigger := none
  latched : Bool := false
  deriving DecidableEq

structure ProviderState where
  dayUtc : ℤ
  slots : List ℤ
  runs : List ℤ
  lastStartedAtUtc : Option ℤ
  cooldownUntilUtc : Option ℤ
  backoffStep : ℕ
  deferred : Option DeferredOpportunity
  interfaceTriggers : BTreeMap String InterfaceTriggerState
  policyDailyMax : ℕ
  policyMinSpacingMs : ℕ
  policySlotJitterPct : ℕ
  rngState : UInt64
  lastObservedUtc : ℤ
  deriving DecidableEq

structure Checkpoint where
  version : ℕ
  installation : String
  sequence : ℕ
  digest : String
  deriving DecidableEq

structure SchedulerStore where
  schemaVersion : ℕ := stateSchemaVersion
  providers : BTreeMap String ProviderState := ∅
  checkpoint : Option Checkpoint := none
  deriving DecidableEq

def SchedulerStore.withCheckpoint (store : SchedulerStore) (c : Option Checkpoint) :
    SchedulerStore :=
  { store with checkpoint := c }

/-- The policy of a configuration, with what the configuration has checked of it. -/
structure SchedulerPolicy where
  providerId : String
  providerKind : ProviderKind
  forceLimits : Bool
  dailyMax : ℕ
  minSpacing : ℕ
  slotJitterPct : ℕ
  pendingTtl : ℕ
  cooldownInitial : ℕ
  cooldownMax : ℕ
  providerId_ne : providerId ≠ ""
  dailyMax_le : dailyMax ≤ u32Max
  minSpacing_ge : 60000000000 ≤ minSpacing
  slotJitterPct_le : slotJitterPct ≤ 100
  deriving DecidableEq

/-- A rejected persistence file, under the name its path has. -/
inductive RecoveryFile
  | primary | marker | ledger | backup
  deriving DecidableEq

inductive SchedulerError
  | io (path : RecoveryFile)
  | corrupt (path : RecoveryFile) (message : String)
  | unsupportedSchema (version : ℕ)
  | admission (message : String)
  | locked
  deriving DecidableEq

/-- The number of runs on a day, as the 32-bit counter reports it. -/
def runsOnDay (st : ProviderState) (day : ℤ) : ℕ :=
  min (st.runs.countP fun run => dateNaive run = day) u32Max

/-! ### What a store must satisfy to be written or read -/

/-- `Some(run) > last` in the order where `None` is least. -/
def laterThan (run : ℤ) : Option ℤ → Bool
  | none => true
  | some t => t < run

/-- The condition under which `validate_store` rejects a provider. -/
def invalidState (id : String) (st : ProviderState) : Bool :=
  id = "" || st.rngState = 0 || 100 < st.policySlotJitterPct || st.policyMinSpacingMs = 0
    || 4 < st.backoffStep || (st.runs.zip st.runs.tail).any (fun w => w.2 < w.1)
    || st.runs.getLast?.any (laterThan · st.lastStartedAtUtc)

/-- A provider record that may be written and read back. -/
structure ValidState (id : String) (st : ProviderState) : Prop where
  id : id ≠ ""
  rng : st.rngState ≠ 0
  jitter : st.policySlotJitterPct ≤ 100
  spacing : st.policyMinSpacingMs ≠ 0
  backoff : st.backoffStep ≤ 4
  sorted : st.runs.Pairwise (· ≤ ·)
  last : ∀ run ∈ st.runs.getLast?, ∃ t ∈ st.lastStartedAtUtc, run ≤ t

lemma windows_sorted (l : List ℤ) :
    (l.zip l.tail).any (fun w => decide (w.2 < w.1)) = false ↔ l.Pairwise (· ≤ ·) := by
  rw [← List.isChain_iff_pairwise]
  induction l with
  | nil => simp
  | cons a t ih =>
    rcases t with _ | ⟨b, u⟩
    · simp
    · simp only [List.tail_cons, List.zip_cons_cons, List.any_cons, Bool.or_eq_false_iff,
        decide_eq_false_iff_not, not_lt, List.isChain_cons_cons] at ih ⊢
      rw [ih]

lemma laterThan_eq_false {run : ℤ} {last : Option ℤ} :
    laterThan run last = false ↔ ∃ t ∈ last, run ≤ t := by
  cases last <;> simp [laterThan]

lemma invalidState_eq_false {id : String} {st : ProviderState} :
    invalidState id st = false ↔ ValidState id st := by
  simp only [invalidState, Bool.or_eq_false_iff, windows_sorted, decide_eq_false_iff_not]
  have hlast : st.runs.getLast?.any (laterThan · st.lastStartedAtUtc) = false ↔
      ∀ run ∈ st.runs.getLast?, ∃ t ∈ st.lastStartedAtUtc, run ≤ t := by
    cases st.runs.getLast? <;> simp [laterThan_eq_false]
  rw [hlast]
  constructor
  · rintro ⟨⟨⟨⟨⟨⟨h1, h2⟩, h3⟩, h4⟩, h5⟩, h6⟩, h7⟩
    exact ⟨h1, h2, by omega, h4, by omega, h6, h7⟩
  · rintro ⟨h1, h2, h3, h4, h5, h6, h7⟩
    exact ⟨⟨⟨⟨⟨⟨h1, h2⟩, by omega⟩, h4⟩, by omega⟩, h6⟩, h7⟩

end Netband.State

import Netband.Time

/-!
Events, their enumerations, and the reports and health decisions the scheduler reads.

An event carries the columns that the modelled functions read or write.
-/

namespace Netband.Model

open Netband.Time

/-- A run identifier, the 128 bits of a UUID. -/
abbrev RunId := ℕ

inductive SchedulerAction
  | triggerPending | triggerMergedWithDeferred | triggerCancelled | triggerExpired
  | deferredExpired | bandwidthStart | rateLimit | clockRollback | suppressed | deferred
  | interfaceRecovered | interfaceRetry | bandwidthSuppressed | bandwidthInterfaceSkipped
  deriving DecidableEq, Repr

inductive SchedulerReason
  | healthDegraded | healthRecovered | triggerTtlExpired | dayLimit | attemptLimit
  | opportunityReady | providerRateLimit | clockRollback | dailyCap | providerCooldown
  | minimumSpacing | interfaceAvailable | interfaceUnavailable | triggerInterfaceMissing
  | triggerInterfaceBackoff | triggerInterfaceUnavailable | noHealthyInterface
  deriving DecidableEq, Repr

inductive EventKind
  | runStarted | runFinished | pingProbe | bandwidth | requestFailure | scheduler
  deriving DecidableEq, Repr

inductive Outcome
  | started | success | partialResult | timeout | unreachable | permissionDenied | cancelled
  | error | noCapacity | rateLimited | scheduled | rescheduled | deferred | suppressed
  | expired
  deriving DecidableEq, Repr

inductive TriggerReason
  | scheduled | pingLoss | pingRtt | manual
  deriving DecidableEq, Repr

inductive ProviderKind
  | mlab | direct
  deriving DecidableEq, Repr

inductive RequestStage
  | locate | dns | connect | tls | websocketHandshake | download | upload | cleanup
  deriving DecidableEq, Repr

inductive ErrorKind
  | icmpTimeout | icmpUnreachable | permissionDenied | dns | connect | tls | httpStatus
  | websocketHandshake | downloadFailed | uploadFailed | providerCooldown | dailyCap
  | cancelled | timeout | io | protocol | internal
  deriving DecidableEq, Repr

structure MeasurementEvent where
  eventKind : EventKind
  runId : RunId
  outcome : Outcome
  finishedAtUtc : Option ℤ
  scheduledAtUtc : Option ℤ := none
  requestedAtUtc : Option ℤ := none
  message : Option String := none
  interface : Option String := none
  providerId : Option String := none
  providerKind : Option ProviderKind := none
  schedulerAction : Option SchedulerAction := none
  schedulerReason : Option SchedulerReason := none
  triggerReason : Option TriggerReason := none
  schedulerNotBeforeUtc : Option ℤ := none
  providerAccountingDate : Option ℤ := none
  providerDailyStarts : Option ℕ := none
  requestStage : Option RequestStage := none
  requestHttpStatus : Option ℕ := none
  requestRetryAfterMs : Option ℕ := none
  requestRetryAtUtc : Option ℤ := none
  downloadRemoteIp : Option String := none
  uploadRemoteIp : Option String := none
  errorKind : Option ErrorKind := none
  deriving DecidableEq, Repr

def MeasurementEvent.new (runId : RunId) (kind : EventKind) (outcome : Outcome) (now : ℤ) :
    MeasurementEvent :=
  { eventKind := kind, runId, outcome, finishedAtUtc := some now }

/-- What a bandwidth run reports back to the scheduler. -/
structure BandwidthReport where
  events : List MeasurementEvent
  outcome : Outcome
  reserved : Bool
  reservationError : Option String
  deriving DecidableEq, Repr

/-! ### Health decisions -/

/-- Loss and round-trip times are exact rationals. -/
structure HealthSnapshot where
  attempted : ℕ
  successful : ℕ
  lossPct : ℚ
  p95RttMs : Option ℚ
  sufficientSamples : Bool
  deriving DecidableEq, Repr

inductive DegradationReason
  | loss | rtt | lossAndRtt
  deriving DecidableEq, Repr

inductive HealthDecision
  | healthy (snapshot : HealthSnapshot)
  | degraded (snapshot : HealthSnapshot) (reason : DegradationReason)
  | recovered (snapshot : HealthSnapshot)
  deriving DecidableEq, Repr

/-- `{:.3}`: three decimals, halves rounded to even. -/
def fixed3 (q : ℚ) : String :=
  let n := (|q| * 1000).floor.toNat
  let r := |q| * 1000 - n
  let m := if r < 1 / 2 then n else if 1 / 2 < r then n + 1 else n + n % 2
  (if q < 0 then "-" else "") ++ toString (m / 1000) ++ "." ++ padded 3 (m % 1000)

end Netband.Model

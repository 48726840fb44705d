import Netband.Plan
import Netband.Effects

/-!
The operations of a scheduler, as computations on the record of its provider.

The time is an argument of every operation. An operation saves the record where the source
persists the store; a save that is refused ends it.
-/

namespace Netband.Scheduling

open Netband.Time Netband.Model Netband.State Netband.Plan Netband.Effects Saving

structure BandwidthOpportunity where
  reason : TriggerReason
  scheduledAtUtc : Option ℤ
  requestedAtUtc : ℤ
  interface : Option String
  deriving DecidableEq

structure SchedulerPoll where
  opportunity : Option BandwidthOpportunity
  events : List MeasurementEvent
  deriving DecidableEq

inductive ManualDecision
  | allowed
  | blocked (event : MeasurementEvent)
  deriving DecidableEq

structure Reservation where
  accountingDate : ℤ
  dailyBandwidthStarts : ℕ
  deriving DecidableEq

/-- A computation on the record of the scheduler's provider. -/
abbrev Op (α : Type) := Saving ProviderState SchedulerError α

variable (policy : SchedulerPolicy)

/-! ### Admission -/

structure BlockReason where
  action : SchedulerAction
  reason : SchedulerReason
  kind : ErrorKind
  cooldownUntil : Option ℤ
  message : String
  deriving DecidableEq

def mlabHardCapReached (used : ℕ) : Bool := policy.providerKind = .mlab && 4 ≤ used
def configuredCapReached (used : ℕ) : Bool := policy.dailyMax = 0 || policy.dailyMax ≤ used
def capReached (used : ℕ) : Bool :=
  mlabHardCapReached policy used || (!policy.forceLimits && configuredCapReached policy used)

def dailyCapReason (used : ℕ) : BlockReason where
  action := .suppressed
  reason := .dailyCap
  kind := .dailyCap
  cooldownUntil := none
  message := "reason=daily_cap used=" ++ toString used ++ " maximum=" ++
    toString (if policy.forceLimits && policy.providerKind = .mlab then 4 else policy.dailyMax)

def cooldownReason (deadline : ℤ) : BlockReason where
  action := .deferred
  reason := .providerCooldown
  kind := .providerCooldown
  cooldownUntil := some deadline
  message := "reason=provider_cooldown until=" ++ toRfc3339 deadline

def spacingReason (eligible : ℤ) : BlockReason where
  action := .deferred
  reason := .minimumSpacing
  kind := .providerCooldown
  cooldownUntil := some eligible
  message := "reason=minimum_spacing until=" ++ toRfc3339 eligible

def blockReason (st : ProviderState) (now : ℤ) : Option BlockReason :=
  let used := runsOnDay st (dateNaive now)
  if capReached policy used then some (dailyCapReason policy used)
  else if policy.forceLimits then none
  else
    match st.cooldownUntilUtc.filter (now < ·) with
    | some deadline => some (cooldownReason deadline)
    | none =>
      (st.lastStartedAtUtc.map (addDuration · policy.minSpacing)).bind fun eligible =>
        if now < eligible then some (spacingReason eligible) else none

/-! ### Events -/

structure EventContext where
  errorKind : Option ErrorKind := none
  cooldownUntil : Option ℤ := none
  interface : Option String := none
  deriving DecidableEq

def event (st : ProviderState) (runId : RunId) (now : ℤ) (outcome : Outcome)
    (reason : TriggerReason) (context : EventContext) (action : SchedulerAction)
    (schedulerReason : SchedulerReason) (message : String) : MeasurementEvent :=
  { MeasurementEvent.new runId .scheduler outcome now with
    triggerReason := some reason
    providerId := some policy.providerId
    providerKind := some policy.providerKind
    interface := context.interface
    schedulerNotBeforeUtc := context.cooldownUntil
    providerAccountingDate := some (dateNaive now)
    providerDailyStarts := some (runsOnDay st (dateNaive now))
    schedulerAction := some action
    schedulerReason := some schedulerReason
    message := some message
    errorKind := context.errorKind.filter fun kind => kind ≠ .dailyCap ∧ kind ≠ .providerCooldown }

def blockedEvent (st : ProviderState) (runId : RunId) (now : ℤ) (outcome : Outcome)
    (reason : TriggerReason) (interface : Option String) (blocked : BlockReason) :
    MeasurementEvent :=
  event policy st runId now outcome reason
    { errorKind := some blocked.kind, cooldownUntil := blocked.cooldownUntil, interface }
    blocked.action blocked.reason blocked.message

/-! ### Interface triggers -/

def interfaceKey (interface : Option String) : String := interface.getD defaultInterfaceKey
def interfaceFromKey (key : String) : Option String := if key = "" then none else some key

def interfaceTrigger (st : ProviderState) (interface : Option String) : InterfaceTriggerState :=
  st.interfaceTriggers[interfaceKey interface]?.getD {}

/-- Edit the trigger of an interface, which is created when there is none. -/
def updateTrigger (interface : Option String)
    (f : InterfaceTriggerState → InterfaceTriggerState) (st : ProviderState) : ProviderState :=
  { st with interfaceTriggers :=
    st.interfaceTriggers.insert (interfaceKey interface) (f (interfaceTrigger st interface)) }

def clearPending (interface : Option String) : ProviderState → ProviderState :=
  updateTrigger interface fun trigger => { trigger with pending := none }

/-- Drop the pending trigger of a key that is there. -/
def expirePending (st : ProviderState) (key : String) : ProviderState :=
  match st.interfaceTriggers[key]? with
  | some trigger => { st with
      interfaceTriggers := st.interfaceTriggers.insert key { trigger with pending := none } }
  | none => st

/-- The earlier of two candidates, the first one if they are equally old. -/
def earlier (best : Option (String × PendingTrigger)) (candidate : String × PendingTrigger) :
    Option (String × PendingTrigger) :=
  match best with
  | none => some candidate
  | some b => if candidate.2.createdAtUtc < b.2.createdAtUtc then some candidate else some b

def oldestEligiblePendingTrigger (st : ProviderState) (latestSuccess : BTreeMap String Bool)
    (allowWithoutSuccess : Bool) : Option (String × PendingTrigger) :=
  let eligible := st.interfaceTriggers.toList.filterMap fun p =>
    if !allowWithoutSuccess && !(latestSuccess[p.1]?.getD false) then none
    else p.2.pending.map fun pending => (p.1, pending)
  eligible.foldl earlier none

/-! ### The clock -/

def advanceClock (runId : RunId) (now : ℤ) : Op (List MeasurementEvent) := do
  let st ← get
  let previous := st.lastObservedUtc
  if now < previous then
    return [event policy st runId now .suppressed .scheduled { errorKind := some .internal }
      .clockRollback .clockRollback
      ("previous=" ++ toRfc3339 previous ++ " current=" ++ toRfc3339 now)]
  else do
    modify fun st => { reconcileDay policy now st with lastObservedUtc := now }
    save
    return []

/-! ### Health -/

def triggerReasonOf : DegradationReason → TriggerReason
  | .rtt => .pingRtt
  | .loss => .pingLoss
  | .lossAndRtt => .pingLoss

/-- The edit of a degradation: it is merged with a deferred run, or it waits. -/
def latchTrigger (reason : TriggerReason) (interface : Option String) (now expiresAt : ℤ)
    (st : ProviderState) : ProviderState :=
  let merged := { st with
    deferred := st.deferred.map fun deferred => { deferred with reason, interface } }
  updateTrigger interface (fun _ =>
    { latched := true
      pending := if st.deferred.isSome then none
        else some { reason, createdAtUtc := now, expiresAtUtc := expiresAt } }) merged

def degradedMessage (snapshot : HealthSnapshot) (expiresAt : ℤ) : String :=
  "loss_pct=" ++ fixed3 snapshot.lossPct ++ " p95_rtt_ms=" ++
    (snapshot.p95RttMs.map fixed3).getD "none" ++ " expires_at=" ++ toRfc3339 expiresAt

def observeDegraded (runId : RunId) (now : ℤ) (interface : Option String)
    (snapshot : HealthSnapshot) (reason : DegradationReason) : Op (List MeasurementEvent) := do
  let st ← get
  if (interfaceTrigger st interface).latched then return []
  else do
    let expiresAt := addDuration now policy.pendingTtl
    let triggerReason := triggerReasonOf reason
    modify (latchTrigger triggerReason interface now expiresAt)
    save
    let action := if st.deferred.isSome then .triggerMergedWithDeferred else .triggerPending
    let st ← get
    return [event policy st runId now .deferred triggerReason { interface } action
      .healthDegraded (degradedMessage snapshot expiresAt)]

def observeRecovered (runId : RunId) (now : ℤ) (interface : Option String) :
    Op (List MeasurementEvent) := do
  let st ← get
  let trigger := interfaceTrigger st interface
  if trigger.pending.isSome || trigger.latched then do
    modify (updateTrigger interface fun _ => { pending := none, latched := false })
    save
    let st ← get
    return (trigger.pending.map fun pending =>
      event policy st runId now .expired pending.reason { interface } .triggerCancelled
        .healthRecovered "reason=health_recovered").toList
  else return []

def observeDecision (runId : RunId) (now : ℤ) (interface : Option String) :
    HealthDecision → Op (List MeasurementEvent)
  | .degraded snapshot reason => observeDegraded policy runId now interface snapshot reason
  | .recovered _ => observeRecovered policy runId now interface
  | .healthy _ => return []

def observeInterfaceHealth (runId : RunId) (now : ℤ) (interface : Option String)
    (decision : HealthDecision) : Op (List MeasurementEvent) := do
  let clockEvents ← advanceClock policy runId now
  let events ← observeDecision policy runId now interface decision
  return clockEvents ++ events

/-! ### Polling -/

/-- Drop the pending triggers whose time is over. Their latches stay. -/
def expireTriggers (runId : RunId) (now : ℤ) : Op (List MeasurementEvent) := do
  let st ← get
  let expired := st.interfaceTriggers.toList.filterMap fun p =>
    (p.2.pending.filter fun trigger => trigger.expiresAtUtc ≤ now).map fun trigger =>
      (p.1, trigger)
  if expired.isEmpty then return []
  else do
    modify fun st => (expired.map Prod.fst).foldl expirePending st
    save
    let st ← get
    return expired.map fun p =>
      event policy st runId now .expired p.2.reason { interface := interfaceFromKey p.1 }
        .triggerExpired .triggerTtlExpired "reason=ttl latch=retained rearm=health_recovery"

def deferredExpired (deferred : DeferredOpportunity) (now : ℤ) : Bool :=
  deferred.expiresAtUtc ≤ now || maxRateLimitAttempts ≤ deferred.rateLimitAttempts

/-- Hand out the deferred run when its cooldown is over, or drop it. -/
def pollDeferred (runId : RunId) (now : ℤ) : Op SchedulerPoll := do
  let st ← get
  match st.deferred with
  | none => return { opportunity := none, events := [] }
  | some deferred =>
    if deferredExpired deferred now then do
      modify fun st => { st with deferred := none }
      save
      let st ← get
      return {
        opportunity := none
        events := [event policy st runId now .expired deferred.reason
          { cooldownUntil := st.cooldownUntilUtc } .deferredExpired
          (if deferred.expiresAtUtc ≤ now then .dayLimit else .attemptLimit)
          "reason=day_or_attempt_limit"] }
    else if st.cooldownUntilUtc.all (· ≤ now) then
      return {
        opportunity := some {
          reason := deferred.reason
          scheduledAtUtc := deferred.scheduledAtUtc
          requestedAtUtc := deferred.createdAtUtc
          interface := deferred.interface }
        events := [] }
    else return { opportunity := none, events := [] }

def removeDueSlots (now : ℤ) (st : ProviderState) : ProviderState :=
  { st with slots := st.slots.filter (now < ·) }

def removeSlot (slot : ℤ) (st : ProviderState) : ProviderState :=
  { st with slots := st.slots.filter (· ≠ slot) }

/-- No later instant of the day is far enough away. -/
def terminalBlock (blocked : BlockReason) (now : ℤ) : Bool :=
  blocked.kind = .dailyCap || dayEnd (dateNaive now) ≤ addDuration now policy.minSpacing

def pollBlocked (runId : RunId) (now : ℤ) (dueSlot : Option ℤ)
    (pending : Option (String × PendingTrigger)) (blocked : BlockReason) : Op SchedulerPoll := do
  let interface := pending.bind fun p => interfaceFromKey p.1
  let terminal := terminalBlock policy blocked now
  modify fun st => if dueSlot.isSome then removeDueSlots now st else st
  modify fun st => if terminal && pending.isSome then clearPending interface st else st
  save
  let st ← get
  let reason := (pending.map fun p => p.2.reason).getD .scheduled
  return {
    opportunity := none
    events := [blockedEvent policy st runId now (if terminal then .suppressed else .deferred)
      reason interface blocked] }

/-- A trigger uses up the next slot. -/
def useSlot (reason : TriggerReason) (st : ProviderState) : ProviderState :=
  if reason ≠ .scheduled then
    match st.slots.head? with
    | some first => removeSlot first st
    | none => st
  else st

def pollReady (runId : RunId) (now : ℤ) (dueSlot : Option ℤ)
    (pending : Option (String × PendingTrigger)) : Op SchedulerPoll := do
  let reason := (pending.map fun p => p.2.reason).getD .scheduled
  modify fun st => if dueSlot.isSome then removeDueSlots now st else st
  modify (useSlot reason)
  save
  let st ← get
  return {
    opportunity := some {
      reason
      scheduledAtUtc := if pending.isNone then dueSlot else none
      requestedAtUtc := (pending.map fun p => p.2.createdAtUtc).getD now
      interface := pending.bind fun p => interfaceFromKey p.1 }
    events := [event policy st runId now .scheduled reason {} .bandwidthStart
      .opportunityReady "bandwidth start"] }

/-- A due slot or a pending trigger. -/
def pollDue (runId : RunId) (now : ℤ) (latestSuccess : BTreeMap String Bool) :
    Op SchedulerPoll := do
  let st ← get
  let dueSlot := (st.slots.filter (· ≤ now)).head?
  let pending := oldestEligiblePendingTrigger st latestSuccess dueSlot.isSome
  if pending.isNone && dueSlot.isNone then return { opportunity := none, events := [] }
  else
    match blockReason policy st now with
    | some blocked => pollBlocked policy runId now dueSlot pending blocked
    | none => pollReady policy runId now dueSlot pending

def SchedulerPoll.after (events : List MeasurementEvent) (poll : SchedulerPoll) :
    SchedulerPoll :=
  { poll with events := events ++ poll.events }

/-- The part of a poll after its clock was accepted. -/
def pollAccepted (runId : RunId) (now : ℤ) (latestSuccess : BTreeMap String Bool) :
    Op SchedulerPoll := do
  let expired ← expireTriggers policy runId now
  let deferred ← pollDeferred policy runId now
  if deferred.opportunity.isSome then return deferred.after expired
  else do
    let due ← pollDue policy runId now latestSuccess
    return (due.after deferred.events).after expired

def pollInterfaces (runId : RunId) (now : ℤ) (latestSuccess : BTreeMap String Bool) :
    Op SchedulerPoll := do
  let events ← advanceClock policy runId now
  let st ← get
  if now < st.lastObservedUtc then return { opportunity := none, events }
  else do
    let poll ← pollAccepted policy runId now latestSuccess
    return poll.after events

/-! ### Manual runs and reservations -/

def preflightManual (runId : RunId) (now : ℤ) : Op ManualDecision := do
  let clockEvents ← advanceClock policy runId now
  let st ← get
  match clockEvents.getLast?.filter fun _ => now < st.lastObservedUtc with
  | some event => return .blocked event
  | none =>
    match blockReason policy st now with
    | some blocked =>
      return .blocked (blockedEvent policy st runId now .suppressed .manual none blocked)
    | none => return .allowed

/-- `max` in the order where `None` is least. -/
def maxStart (last : Option ℤ) (now : ℤ) : Option ℤ := some (last.elim now (max now))

def startRun (now : ℤ) (st : ProviderState) : ProviderState := { st with
  runs := (st.runs ++ [now]).insertionSort (· ≤ ·)
  lastStartedAtUtc := maxStart st.lastStartedAtUtc now
  lastObservedUtc := max st.lastObservedUtc now }

def reserveRun (now : ℤ) : Op Reservation := do
  modify (reconcileDay policy now)
  let st ← get
  match blockReason policy st now with
  | some blocked => fail (.admission ("reservation rejected after preflight: " ++ blocked.message))
  | none => do
    modify (startRun now)
    save
    let st ← get
    return {
      accountingDate := dateNaive now
      dailyBandwidthStarts := runsOnDay st (dateNaive now) }

/-! ### Finished attempts -/

structure RateLimit where
  deadline : Option ℤ
  stage : RequestStage
  status : Option ℕ
  retryAfter : Option ℕ
  deriving DecidableEq

def rateLimitFromEvent (providerKind : ProviderKind) (event : MeasurementEvent) :
    Option RateLimit :=
  if event.eventKind ≠ .requestFailure then none
  else
    event.requestStage.bind fun stage =>
      let status := event.requestHttpStatus
      let rateLimited := event.outcome = .rateLimited || status = some 429
        || (stage = .locate && providerKind = .mlab && (status = some 204 || status = some 503))
        || (stage = .websocketHandshake && providerKind = .direct && status = some 503)
      if rateLimited then
        some {
          deadline := event.requestRetryAtUtc
          stage
          status
          retryAfter := event.requestRetryAfterMs.map (· * 1000000) }
      else none

def rateLimitFromReport (report : BandwidthReport) (providerKind : ProviderKind) :
    Option RateLimit :=
  report.events.findSome? (rateLimitFromEvent providerKind)

def stageText : RequestStage → String
  | .locate => "locate"
  | .dns => "dns"
  | .connect => "connect"
  | .tls => "tls"
  | .websocketHandshake => "websocket_handshake"
  | .download => "download"
  | .upload => "upload"
  | .cleanup => "cleanup"

def BandwidthOpportunity.applyTimingEvent (opportunity : BandwidthOpportunity)
    (event : MeasurementEvent) : MeasurementEvent := { event with
  triggerReason := some opportunity.reason
  scheduledAtUtc := opportunity.scheduledAtUtc
  requestedAtUtc := if event.eventKind = .bandwidth then some opportunity.requestedAtUtc
    else event.requestedAtUtc }

def BandwidthOpportunity.applyTiming (opportunity : BandwidthOpportunity)
    (report : BandwidthReport) : BandwidthReport :=
  { report with events := report.events.map opportunity.applyTimingEvent }

/-- The deadline of a rate limit: the provider's own, or a backoff. -/
def rateLimitDeadline (now : ℤ) (rateLimit : RateLimit) (st : ProviderState) :
    ℤ × ProviderState :=
  match rateLimit.deadline with
  | some deadline => (deadline, st)
  | none =>
    let backoff := nextBackoff policy st
    (addDuration now backoff.1, backoff.2)

/-- The deferred run after a rate limit: a retry within the day, or none. -/
def deferAfter (now deadline : ℤ) (opportunity : BandwidthOpportunity) (reserved : Bool)
    (deferred : Option DeferredOpportunity) : Option DeferredOpportunity :=
  if reserved then none
  else
    let attempts := deferred.elim 1 fun d => min (d.rateLimitAttempts + 1) 255
    if attempts < maxRateLimitAttempts ∧ deadline < dayEnd (dateNaive now) then
      some {
        reason := opportunity.reason
        interface := opportunity.interface
        createdAtUtc := opportunity.requestedAtUtc
        scheduledAtUtc := opportunity.scheduledAtUtc
        expiresAtUtc := dayEnd (dateNaive now)
        rateLimitAttempts := attempts }
    else none

/-- The edits of a rate-limited attempt; the deadline in force is returned. -/
def finishRateLimited (now : ℤ) (opportunity : BandwidthOpportunity) (reserved : Bool)
    (rateLimit : RateLimit) (st : ProviderState) : ℤ × ProviderState :=
  let limited := rateLimitDeadline policy now rateLimit st
  let deadline := limited.2.cooldownUntilUtc.elim limited.1 (max · limited.1)
  let st := { limited.2 with
    cooldownUntilUtc := some deadline
    backoffStep := if rateLimit.deadline.isSome then min (limited.2.backoffStep + 1) 4
      else limited.2.backoffStep
    deferred := deferAfter now deadline opportunity reserved limited.2.deferred }
  (deadline, replanRemaining policy now (clearPending opportunity.interface st))

def successfulEvent (event : MeasurementEvent) : Bool :=
  event.eventKind = .bandwidth && (event.downloadRemoteIp.isSome || event.uploadRemoteIp.isSome
    || event.outcome = .success || event.outcome = .partialResult)

def successfulRequest (report : BandwidthReport) : Bool := report.events.any successfulEvent

/-- The edits of an attempt that was not rate limited. -/
def finishUnlimited (now : ℤ) (opportunity : BandwidthOpportunity) (report : BandwidthReport)
    (st : ProviderState) : ProviderState :=
  let st := { st with
    deferred := none
    cooldownUntilUtc := if successfulRequest report then none else st.cooldownUntilUtc
    backoffStep := if successfulRequest report then 0 else st.backoffStep }
  let st := clearPending opportunity.interface st
  if opportunity.reason ≠ .scheduled then replanRemaining policy now st
  else if report.reserved then
    { st with slots := st.slots.filter (addDuration now policy.minSpacing ≤ ·) }
  else st

def rateLimitMessage (rateLimit : RateLimit) (reserved : Bool)
    (deferred : Option DeferredOpportunity) : String :=
  "stage=" ++ stageText rateLimit.stage
    ++ " status=" ++ (rateLimit.status.map toString).getD "none"
    ++ " retry_after=" ++ (rateLimit.retryAfter.map fun d => toString (d / 1000000) ++ "ms").getD
      (if rateLimit.deadline.isSome then "unrepresentable" else "fallback")
    ++ " reserved=" ++ toString reserved
    ++ " deferred_attempts=" ++ toString (deferred.elim 0 DeferredOpportunity.rateLimitAttempts)

def finishAttempt (runId : RunId) (now : ℤ) (opportunity : BandwidthOpportunity)
    (report : BandwidthReport) : Op (List MeasurementEvent × BandwidthReport) :=
  match rateLimitFromReport report policy.providerKind with
  | some rateLimit => do
    let deadline ← edit (finishRateLimited policy now opportunity report.reserved rateLimit)
    save
    let st ← get
    return ([event policy st runId now (if report.reserved then .suppressed else .deferred)
      opportunity.reason
      { errorKind := some .providerCooldown
        cooldownUntil := some deadline
        interface := opportunity.interface }
      .rateLimit .providerRateLimit (rateLimitMessage rateLimit report.reserved st.deferred)],
      opportunity.applyTiming report)
  | none => do
    modify (finishUnlimited policy now opportunity report)
    save
    return ([], opportunity.applyTiming report)

def flush : Op Unit := save

/-! ### Opening -/

/-- The record of a provider that the store did not have, before its slots are planned. -/
def blankState (now : ℤ) (seed : UInt64) : ProviderState where
  dayUtc := dateNaive now
  slots := []
  runs := []
  lastStartedAtUtc := none
  cooldownUntilUtc := none
  backoffStep := 0
  deferred := none
  interfaceTriggers := ∅
  policyDailyMax := policy.dailyMax
  policyMinSpacingMs := durationMillis policy.minSpacing
  policySlotJitterPct := policy.slotJitterPct
  rngState := max seed 1
  lastObservedUtc := now

def newState (now : ℤ) (seed : UInt64) : ProviderState :=
  let planned := planFullDay policy (blankState policy now seed) now
  { planned.2 with slots := planned.1 }

def policyChanged (st : ProviderState) : Bool :=
  st.policyDailyMax ≠ policy.dailyMax || st.policyMinSpacingMs ≠ durationMillis policy.minSpacing
    || st.policySlotJitterPct ≠ policy.slotJitterPct

def applyPolicy (now : ℤ) (st : ProviderState) : ProviderState :=
  let st := { st with
    policyDailyMax := policy.dailyMax
    policyMinSpacingMs := durationMillis policy.minSpacing
    policySlotJitterPct := policy.slotJitterPct }
  if policy.dailyMax = 0 then { st with slots := [], interfaceTriggers := ∅, deferred := none }
  else replanRemaining policy now st

/-- Bring a stored record up to the time and the policy of an opening. -/
def reconcileState (now : ℤ) (st : ProviderState) : ProviderState :=
  let st := reconcileDay policy now st
  let st := if policyChanged policy st then applyPolicy policy now st else st
  { st with
    slots := st.slots.filter (now < ·)
    lastObservedUtc := if st.lastObservedUtc ≤ now then now else st.lastObservedUtc }

/-- The store, and whether it has changed. -/
def reconcile (now : ℤ) (seed : UInt64) (store : SchedulerStore) : SchedulerStore × Bool :=
  match store.providers[policy.providerId]? with
  | none => ({ store with
      providers := store.providers.insert policy.providerId (newState policy now seed) }, true)
  | some st =>
    let st' := reconcileState policy now st
    ({ store with providers := store.providers.insert policy.providerId st' }, st ≠ st')

end Netband.Scheduling

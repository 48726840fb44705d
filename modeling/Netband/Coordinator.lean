import Netband.Effects
import Netband.Model
import Netband.State

/-!
The output coordinator: the runs that are active, the numbering of events, and the two sinks
that events are published to.

The journal is seen through its appends, each with its success, and the console through what it
was offered. The readings of the two clocks come in any order.
-/

namespace Netband.Coordinator

open Netband.Time Netband.Model Netband.State Netband.Effects Faulty

/-! ### Events -/

inductive RunKind
  | session | pingRound | bandwidth
  deriving DecidableEq, Repr

inductive LoadPhase
  | setup | download | upload
  deriving DecidableEq, Repr

/-- An event with the columns of its run. -/
structure JournalEvent extends MeasurementEvent where
  eventSequence : Option ℕ := none
  parentRunId : Option RunId := none
  rootRunId : RunId
  runKind : RunKind
  startedAtUtc : Option ℤ := none
  elapsedMs : Option ℚ := none
  command : Option String := none
  netbandVersion : Option String := none
  processId : Option ℕ := none
  loadRunId : Option RunId := none
  loadPhase : Option LoadPhase := none
  deriving DecidableEq, Repr

def JournalEvent.new (runId : RunId) (kind : EventKind) (outcome : Outcome) (now : ℤ) :
    JournalEvent :=
  { MeasurementEvent.new runId kind outcome now with
    rootRunId := runId
    runKind := match kind with
      | .pingProbe => .pingRound
      | .bandwidth | .requestFailure => .bandwidth
      | _ => .session }

/-- Known intent at run start. -/
structure RunContext where
  interface : Option String := none
  providerId : Option String := none
  providerKind : Option ProviderKind := none
  triggerReason : Option TriggerReason := none
  loadRunId : Option RunId := none
  loadPhase : Option LoadPhase := none
  deriving DecidableEq, Repr

structure ActiveRun where
  root : RunId
  parent : Option RunId
  kind : RunKind
  startedAt : ℤ
  started : ℕ
  deriving DecidableEq, Repr

/-! ### The coordinator -/

inductive JournalError
  | other (message : String)
  | append
  | flush
  deriving DecidableEq, Repr

/-- What the process has: the readings of its two clocks, in nanoseconds, and its identifier. -/
structure Process where
  clock : ℕ → ℤ × ℕ
  id : ℕ

def netbandVersion : String := "1.0.0"

/-- The coordinator, with the appends that the journal was asked for and their success, the
events that the console was offered, and the number of clock readings so far. -/
structure OutputCoordinator where
  appends : List (List JournalEvent × Bool) := []
  offered : List JournalEvent := []
  sequence : ℕ := 0
  failed : Bool := false
  runs : BTreeMap RunId ActiveRun := ∅
  readings : ℕ := 0

/-- The events of the appends that succeeded. -/
def accepted (appends : List (List JournalEvent × Bool)) : List JournalEvent :=
  (appends.filter (·.2)).flatMap Prod.fst

def OutputCoordinator.journaled (c : OutputCoordinator) : List JournalEvent := accepted c.appends

/-- A computation of the coordinator. -/
abbrev Op (α : Type) := Faulty OutputCoordinator JournalError α

/-- Number an event; one of an active run carries what is known of the run. -/
def stamp (runs : BTreeMap RunId ActiveRun) (sequence : ℕ) (event : JournalEvent) : JournalEvent :=
  let event := { event with eventSequence := some sequence }
  match runs[event.runId]? with
  | some run => { event with
      parentRunId := run.parent
      rootRunId := run.root
      runKind := run.kind }
  | none => event

def stampAll : List JournalEvent → Op (List JournalEvent)
  | [] => pure []
  | event :: rest => do
    let c ← get
    ensure (c.sequence < u64Max) (.other "event sequence exhausted")
    modify fun c => { c with sequence := c.sequence + 1 }
    let rest ← stampAll rest
    return stamp c.runs (c.sequence + 1) event :: rest

def appendBatch (events : List JournalEvent) : Op Unit := do
  match ← nextIo with
  | .done => modify fun c => { c with appends := c.appends ++ [(events, true)] }
  | .failed _ => do
    modify fun c => { c with appends := c.appends ++ [(events, false)], failed := true }
    fail .append

def publishBatch (events : List JournalEvent) : Op Unit := do
  let c ← get
  ensure (c.failed = false) (.other "journal publication previously failed")
  let events ← stampAll events
  appendBatch events
  modify fun c => { c with offered := c.offered ++ events }

variable (process : Process)

def readClock : Op (ℤ × ℕ) := do
  let c ← get
  modify fun c => { c with readings := c.readings + 1 }
  return process.clock c.readings

def startedEvent (id : RunId) (parent : Option RunId) (root : RunId) (kind : RunKind)
    (command : Option String) (context : RunContext) (now : ℤ) : JournalEvent :=
  { JournalEvent.new id .runStarted .started now with
    parentRunId := parent
    rootRunId := root
    runKind := kind
    startedAtUtc := some now
    finishedAtUtc := none
    interface := context.interface
    providerId := context.providerId
    providerKind := context.providerKind
    triggerReason := context.triggerReason
    loadRunId := context.loadRunId
    loadPhase := context.loadPhase
    command := command
    netbandVersion := command.map fun _ => netbandVersion
    processId := command.map fun _ => process.id }

/-- The root of a parent's tree; a run without a parent is a root itself. -/
def rootOf (runs : BTreeMap RunId ActiveRun) (id : RunId) (parent : Option RunId) : RunId :=
  (parent.bind fun parent => runs[parent]?.map ActiveRun.root).getD id

def beginRun (id : RunId) (parent : Option RunId) (kind : RunKind) (command : Option String)
    (context : RunContext) : Op Unit := do
  let c ← get
  ensure (id ∉ c.runs) (.other "run is already active")
  let root := rootOf c.runs id parent
  let (now, started) ← readClock process
  publishBatch [startedEvent process id parent root kind command context now]
  modify fun c => { c with
    runs := c.runs.insert id { root, parent, kind, startedAt := now, started } }

def startSession (id : RunId) (command : String) : Op Unit := do
  let c ← get
  ensure (c.runs.isEmpty = true) (.other "session is already active")
  modify fun c => { c with sequence := 0 }
  beginRun process id none .session (some command) {}

def startRunWithContext (id parent : RunId) (kind : RunKind) (context : RunContext) : Op Unit := do
  let c ← get
  ensure (parent ∈ c.runs) (.other "parent run is not active")
  beginRun process id (some parent) kind none context

def startRun (id parent : RunId) (kind : RunKind) : Op Unit :=
  startRunWithContext process id parent kind {}

def hasChildren (runs : BTreeMap RunId ActiveRun) (id : RunId) : Bool :=
  runs.toList.any fun p => p.2.parent = some id

def finishedEvent (id : RunId) (run : ActiveRun) (outcome : Outcome) (error : Option String)
    (now : ℤ) (instant : ℕ) : JournalEvent :=
  { JournalEvent.new id .runFinished outcome now with
    startedAtUtc := some run.startedAt
    elapsedMs := some (((instant - run.started : ℕ) : ℚ) / 1000000)
    errorKind := error.map fun _ => .internal
    message := error }

def finishRun (id : RunId) (outcome : Outcome) (error : Option String) : Op Unit := do
  let c ← get
  ensure (hasChildren c.runs id = false) (.other "run has active children")
  match c.runs[id]? with
  | none => fail (.other "run is not active")
  | some run => do
    let (now, instant) ← readClock process
    publishBatch [finishedEvent id run outcome error now instant]
    modify fun c => { c with runs := c.runs.erase id }

/-- The first run of the session's tree that has no active child. -/
def childlessRun (runs : BTreeMap RunId ActiveRun) (id : RunId) : Option RunId :=
  (runs.toList.find? fun p => p.1 ≠ id ∧ p.2.root = id ∧ hasChildren runs p.1 = false).map Prod.fst

/-- Finish such runs until there is none; every round finishes one. -/
def finishChildren (id : RunId) (error : Option String) : ℕ → Op Unit
  | 0 => pure ()
  | rounds + 1 => do
    let c ← get
    match childlessRun c.runs id with
    | none => pure ()
    | some child => do
      finishRun process child .error error
      finishChildren id error rounds

def finishSession (id : RunId) (outcome : Outcome) (error : Option String) : Op Unit := do
  let c ← get
  if error.isSome then finishChildren process id error c.runs.size
  finishRun process id outcome error

def flush : Op Unit := do
  match ← nextIo with
  | .done => pure ()
  | .failed _ => fail .flush

/-! ### Calls -/

inductive Call
  | publishBatch (events : List JournalEvent)
  | startSession (id : RunId) (command : String)
  | startRunWithContext (id parent : RunId) (kind : RunKind) (context : RunContext)
  | finishRun (id : RunId) (outcome : Outcome) (error : Option String)
  | finishSession (id : RunId) (outcome : Outcome) (error : Option String)
  | flush

def Call.run : Call → Op Unit
  | publishBatch events => Coordinator.publishBatch events
  | startSession id command => Coordinator.startSession process id command
  | startRunWithContext id parent kind context =>
    Coordinator.startRunWithContext process id parent kind context
  | finishRun id outcome error => Coordinator.finishRun process id outcome error
  | finishSession id outcome error => Coordinator.finishSession process id outcome error
  | flush => Coordinator.flush

end Netband.Coordinator

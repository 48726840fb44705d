import Netband.State
import Netband.Effects
import Netband.Lines

/-!
The recovery set of the scheduler: a snapshot, a checkpoint marker, an accounting ledger
and a backup, and the two procedures that read and write it.

JSON and SHA-256 come from outside the repository; `Serde` is what the code uses of them.
-/

namespace Netband.Recovery

open Netband.Time Netband.Model Netband.State Netband.Effects Netband.Lines Faulty

structure Header where
  version : ℕ
  installation : String
  deriving DecidableEq

structure Record where
  sequence : ℕ
  previousDigest : String
  state : SchedulerStore
  digest : String
  deriving DecidableEq

/-- The JSON codecs of the four types that are written, the JSON text of a digest's input,
and the hexadecimal SHA-256 digest. -/
structure Serde where
  header : Codec Header
  record : Codec Record
  checkpoint : Codec Checkpoint
  store : Codec SchedulerStore
  body : ℕ × String × SchedulerStore → Bytes
  digest : Bytes → String

/-! ### Accounting -/

structure Accounting where
  day : ℤ
  runs : List ℤ
  lastStart : Option ℤ
  cooldown : Option ℤ
  backoff : ℕ
  deferred : Option DeferredOpportunity
  deriving DecidableEq

def accountingOf (st : ProviderState) : Accounting where
  day := st.dayUtc
  runs := st.runs
  lastStart := st.lastStartedAtUtc
  cooldown := st.cooldownUntilUtc
  backoff := st.backoffStep
  deferred := st.deferred

def accounting (store : SchedulerStore) : BTreeMap String Accounting :=
  store.providers.map fun _ st => accountingOf st

def replayAccounting (st recorded : ProviderState) : ProviderState := { st with
  dayUtc := recorded.dayUtc
  runs := recorded.runs
  lastStartedAtUtc := recorded.lastStartedAtUtc
  cooldownUntilUtc := recorded.cooldownUntilUtc
  backoffStep := recorded.backoffStep
  lastObservedUtc := max st.lastObservedUtc recorded.lastObservedUtc
  deferred := recorded.deferred
  interfaceTriggers := recorded.interfaceTriggers }

def replayProvider (providers : BTreeMap String ProviderState) (p : String × ProviderState) :
    BTreeMap String ProviderState :=
  match providers[p.1]? with
  | some st => providers.insert p.1 (replayAccounting st p.2)
  | none => providers.insert p.1 p.2

/-- Replay a recorded store over the providers of a snapshot. -/
def replay (providers : BTreeMap String ProviderState) (committed : SchedulerStore) :
    BTreeMap String ProviderState :=
  committed.providers.toList.foldl replayProvider providers

def replayStore (store committed : SchedulerStore) : SchedulerStore :=
  { store with providers := replay store.providers committed }

/-! ### Reading the ledger -/

variable (S : Serde)

def Record.computedDigest (r : Record) : String :=
  S.digest (S.body (r.sequence, r.previousDigest, r.state))

def Record.new (sequence : ℕ) (previousDigest : String) (state : SchedulerStore) : Record where
  sequence := sequence
  previousDigest := previousDigest
  state := state
  digest := S.digest (S.body (sequence, previousDigest, state))

/-- The record that follows a checkpoint. -/
def Record.after (previous : Checkpoint) (state : SchedulerStore) : Record :=
  Record.new S (previous.sequence + 1) previous.digest state

/-- The checkpoint of a record that follows a checkpoint. -/
def Record.checkpoint (r : Record) (previous : Checkpoint) : Checkpoint :=
  { previous with sequence := r.sequence, digest := r.digest }

def parse {α : Type} (C : Codec α) (path : RecoveryFile) (bytes : Bytes) :
    Except SchedulerError α :=
  (C.decode bytes).mapError (SchedulerError.corrupt path)

def validateStore (path : RecoveryFile) (store : SchedulerStore) : Except SchedulerError Unit :=
  if store.providers.toList.any fun p => invalidState p.1 p.2 then
    .error (.corrupt path "invalid provider accounting or scheduling state")
  else .ok ()

def parseStore (path : RecoveryFile) (bytes : Bytes) : Except SchedulerError SchedulerStore := do
  let store ← parse S.store path bytes
  if store.schemaVersion ≠ stateSchemaVersion then
    .error (.unsupportedSchema store.schemaVersion)
  validateStore path store
  return store

/-- A ledger that was read: the checkpoint of its header, and each record's checkpoint with
its state. -/
structure Log where
  first : Checkpoint
  records : List (Checkpoint × SchedulerStore) := []

def Log.checkpoints (log : Log) : List Checkpoint := log.first :: log.records.map Prod.fst
def Log.states (log : Log) : List SchedulerStore := log.records.map Prod.snd
def Log.last (log : Log) : Checkpoint := (log.records.getLast?.map Prod.fst).getD log.first
/-- The state of the last record. -/
def Log.committed (log : Log) : SchedulerStore := (log.states.getLast?).getD {}

def isHexDigit (c : Char) : Bool := c.isDigit || ('a' ≤ c && c ≤ 'f') || ('A' ≤ c && c ≤ 'F')

def readHeader (path : RecoveryFile) (bytes : Bytes) : Except SchedulerError Log := do
  let header ← parse S.header path bytes
  if header.version ≠ stateSchemaVersion ∨ header.installation.toList.length ≠ 32
      ∨ ¬ header.installation.toList.all isHexDigit then
    .error (.corrupt path "unsupported accounting header or invalid installation identity")
  return { first := {
    version := header.version
    installation := header.installation
    sequence := 0
    digest := S.digest bytes } }

def readRecord (path : RecoveryFile) (log : Log) (bytes : Bytes) : Except SchedulerError Log := do
  let record ← parse S.record path bytes
  let previous := log.last
  if record.sequence ≠ previous.sequence + 1 ∨ record.previousDigest ≠ previous.digest
      ∨ record.state.schemaVersion ≠ stateSchemaVersion ∨ record.state.checkpoint ≠ none
      ∨ record.digest ≠ record.computedDigest S then
    .error (.corrupt path "accounting sequence, digest chain, or record schema is invalid")
  validateStore path record.state
  return { log with records := log.records ++ [(record.checkpoint previous, record.state)] }

def readLog (path : RecoveryFile) (bytes : Bytes) : Except SchedulerError Log :=
  match lines bytes with
  | none => .error (.corrupt path "accounting log has an incomplete final record")
  | some [] => .error (.corrupt path "accounting log is empty")
  | some (first :: rest) => do
    let log ← readHeader S path first
    rest.foldlM (readRecord S path) log

def validateCheckpoint (path : RecoveryFile) (checkpoint : Checkpoint) (log : Log) :
    Except SchedulerError Unit :=
  if log.checkpoints[checkpoint.sequence]? ≠ some checkpoint then
    .error (.corrupt path "accounting log does not match the committed checkpoint")
  else .ok ()

/-! ### The disk -/

/-- The files of the recovery set, with two histories that no code reads: every content the
snapshot file was given, and every call of `persist` with its success. -/
structure Disk where
  files : RecoveryFile → Option Bytes := fun _ => none
  snapshots : List Bytes := []
  persists : List (SchedulerStore × Bool) := []

namespace Disk

def write (d : Disk) (f : RecoveryFile) (bytes : Bytes) : Disk := { d with
  files := Function.update d.files f (some bytes)
  snapshots := if f = .primary then d.snapshots ++ [bytes] else d.snapshots }

end Disk

def readOptional (f : RecoveryFile) : Faulty Disk SchedulerError (Option Bytes) := do
  match ← nextIo with
  | .done => do
    let d ← get
    return d.files f
  | .failed _ => fail (.io f)

def require {α : Type} (o : Option α) (e : SchedulerError) : Except SchedulerError α :=
  o.elim (.error e) .ok

def readRequired (f : RecoveryFile) : Faulty Disk SchedulerError Bytes := do
  let bytes ← readOptional f
  ofExcept (require bytes (.corrupt f "required recovery file is missing"))

def tryExists (f : RecoveryFile) : Faulty Disk SchedulerError Bool := do
  let bytes ← readOptional f
  return bytes.isSome

def metadataLen (f : RecoveryFile) : Faulty Disk SchedulerError ℕ := do
  let bytes ← readOptional f
  ofExcept (require (bytes.map List.length) (.io f))

/-- Replace a file whole. A replacement that fails late, after the rename, has replaced it. -/
def atomicWrite (f : RecoveryFile) (bytes : Bytes) : Faulty Disk SchedulerError Unit := do
  match ← nextIo with
  | .done => modify (·.write f bytes)
  | .failed 0 => fail (.io f)
  | .failed (_ + 1) => do
    modify (·.write f bytes)
    fail (.io f)

/-- Open a file for appending and append to it. An append that fails has written some of its
bytes, or all of them. -/
def writeSynced (f : RecoveryFile) (bytes : Bytes) : Faulty Disk SchedulerError Unit := do
  let d ← get
  let old ← ofExcept (require (d.files f) (.io f))
  match ← nextIo with
  | .done => modify (·.write f (old ++ bytes))
  | .failed k => do
    modify (·.write f (old ++ bytes.take k))
    fail (.io f)

/-- Create the parent directories and take the lock, which is no file of the set. -/
def acquireLock : Faulty Disk SchedulerError Unit := do
  match ← nextIo with
  | .done => pure ()
  | .failed _ => fail (.io .primary)

/-! ### Opening the recovery set -/

structure Persistence where
  checkpoint : Checkpoint
  committed : SchedulerStore
  snapshotDigest : Option String
  ledgerLen : ℕ
  poisoned : Bool

/-- Sixteen random bytes, unless the system has none to give. -/
abbrev Random := Except String (Vector UInt8 16)

def hex (bytes : List UInt8) : String :=
  String.ofList (bytes.flatMap fun b => [(b.toNat / 16).digitChar, (b.toNat % 16).digitChar])

def newHeader (random : Vector UInt8 16) : Header :=
  { version := stateSchemaVersion, installation := hex random.toList }

def missingState : SchedulerError := .corrupt .primary
  "initialized state is missing; preserve the recovery set and restore a verified snapshot"

/-- No bandwidth run has touched the provider. -/
def unused (st : ProviderState) : Bool :=
  st.runs.isEmpty && st.lastStartedAtUtc.isNone && st.cooldownUntilUtc.isNone
    && st.backoffStep == 0

/-- The store of an installation whose first snapshot was not written. -/
def initialStore (marker ledger : Option Bytes) : Faulty Disk SchedulerError SchedulerStore := do
  let bytes ← ofExcept (require ledger
    (.corrupt .primary "initialized state and accounting log are missing"))
  let log ← ofExcept (readLog S .ledger bytes)
  let bytes ← ofExcept (require marker (.corrupt .primary "initialized state is missing"))
  let checkpoint ← ofExcept (parse S.checkpoint .marker bytes)
  ofExcept (validateCheckpoint .marker checkpoint log)
  ensure (log.states.length ≤ 1 ∧
    log.states.all fun state => state.providers.toList.all fun p => unused p.2) missingState
  let backup ← tryExists .backup
  ensure (backup = false) missingState
  return log.committed

def isFresh (primary marker : Option Bytes) : Faulty Disk SchedulerError Bool :=
  if primary.isNone && marker.isNone then do
    let backup ← tryExists .backup
    return !backup
  else pure false

def openStore (fresh : Bool) (primary marker ledger : Option Bytes) :
    Faulty Disk SchedulerError SchedulerStore :=
  match primary with
  | some bytes => ofExcept (parseStore S .primary bytes)
  | none => if fresh then pure {} else initialStore S marker ledger

def openLedger (random : Random) (fresh : Bool) : Option Bytes → Faulty Disk SchedulerError Log
  | some bytes => ofExcept (readLog S .ledger bytes)
  | none => do
    ensure (fresh = true) (.corrupt .ledger "required accounting log is missing")
    let random ← ofExcept (random.mapError fun e =>
      .corrupt .primary ("cannot create accounting identity: " ++ e))
    let bytes := line (S.header.encode (newHeader random))
    atomicWrite .ledger bytes
    ofExcept (readLog S .ledger bytes)

/-- The snapshot carries the accounting of the record its checkpoint names. -/
def validateSnapshot (store : SchedulerStore) (log : Log) : Except SchedulerError Unit := do
  let checkpoint ← require store.checkpoint
    (.corrupt .primary "snapshot has no accounting checkpoint")
  validateCheckpoint .primary checkpoint log
  let baseline := if checkpoint.sequence = 0 then none else log.states[checkpoint.sequence - 1]?
  if baseline.all fun baseline => accounting baseline ≠ accounting store then
    .error (.corrupt .primary "snapshot accounting differs from its log record")
  else .ok ()

def validateMarker (marker : Option Bytes) (log : Log) : Except SchedulerError Unit := do
  let checkpoint ← parse S.checkpoint .marker (marker.getD [])
  validateCheckpoint .marker checkpoint log

def validateLog (fresh resuming : Bool) (marker : Option Bytes) (store : SchedulerStore)
    (log : Log) : Except SchedulerError Unit :=
  if fresh then
    if log.states ≠ [] then
      .error (.corrupt .ledger "orphan accounting records are not a new installation")
    else .ok ()
  else if resuming then validateMarker S marker log
  else do
    validateSnapshot store log
    validateMarker S marker log

def writeMarker (marker : Option Bytes) (last : Checkpoint) : Faulty Disk SchedulerError Unit :=
  if marker = some (S.checkpoint.encode last) then pure ()
  else atomicWrite .marker (S.checkpoint.encode last)

/-- The last part of opening, once everything read was found valid. -/
def recoverStore (fresh : Bool) (primary marker : Option Bytes) (store : SchedulerStore)
    (log : Log) : Faulty Disk SchedulerError (Persistence × SchedulerStore × Bool) := do
  let recovered := !fresh && !log.states.isEmpty && store.checkpoint != some log.last
  let store := if recovered then replayStore store log.committed else store
  writeMarker S marker log.last
  let ledgerLen ← metadataLen .ledger
  let persistence : Persistence :=
    { checkpoint := log.last
      committed := log.committed
      snapshotDigest := primary.map S.digest
      ledgerLen
      poisoned := false }
  return (persistence, store.withCheckpoint (some log.last), recovered)

def openPersistence (random : Random) :
    Faulty Disk SchedulerError (Persistence × SchedulerStore × Bool) := do
  acquireLock
  let primary ← readOptional .primary
  let marker ← readOptional .marker
  let ledger ← readOptional .ledger
  let fresh ← isFresh primary marker
  let store ← openStore S fresh primary marker ledger
  ensure (fresh = true ∨ marker.getD [] ≠ [])
    (.corrupt .marker "accounting checkpoint is missing or empty")
  let log ← openLedger S random fresh ledger
  ofExcept (validateLog S fresh primary.isNone marker store log)
  recoverStore S fresh primary marker store log

def needsSnapshot (p : Persistence) (store : SchedulerStore) : Bool :=
  p.snapshotDigest ≠ some (S.digest (S.store.encode store))

/-! ### Writing the recovery set -/

/-- An open recovery set: what the process holds of it, and the disk. -/
structure Session where
  persistence : Persistence
  store : SchedulerStore
  disk : Disk

def onDisk {α : Type} (c : Faulty Disk SchedulerError α) : Faulty Session SchedulerError α :=
  zoom Session.disk (fun disk s => { s with disk }) c

/-- The recovery files are as this process left them. The length is asked last. -/
def filesUnchanged (previous : Option Bytes) (checkpoint : Checkpoint) (p : Persistence) :
    Faulty Disk SchedulerError Bool :=
  if previous.map S.digest ≠ p.snapshotDigest ∨ checkpoint ≠ p.checkpoint then pure false
  else do
    let len ← metadataLen .ledger
    return len = p.ledgerLen

/-- Append a record to the ledger, and move the marker to it. -/
def appendRecord (record : Record) (checkpoint : Checkpoint) :
    Faulty Session SchedulerError Unit := do
  let bytes := line (S.record.encode record)
  onDisk (writeSynced .ledger bytes)
  onDisk (atomicWrite .marker (S.checkpoint.encode checkpoint))
  modify fun s => { s with persistence := { s.persistence with
    checkpoint
    ledgerLen := s.persistence.ledgerLen + bytes.length
    committed := record.state } }

/-- Commit the accounting if it has changed. -/
def commitAccounting : Faulty Session SchedulerError Unit := do
  let s ← get
  if accounting s.store = accounting s.persistence.committed then pure () else do
    ensure (s.persistence.checkpoint.sequence < u64Max)
      (.corrupt .primary "accounting sequence exhausted")
    let record := Record.after S s.persistence.checkpoint (s.store.withCheckpoint none)
    appendRecord S record (record.checkpoint s.persistence.checkpoint)

def writeBackup : Option Bytes → Faulty Disk SchedulerError Unit
  | some previous => atomicWrite .backup previous
  | none => pure ()

def replaceSnapshot : Faulty Session SchedulerError Unit := do
  let s ← get
  onDisk (atomicWrite .primary (S.store.encode s.store))
  modify fun s => { s with persistence := { s.persistence with
    snapshotDigest := some (S.digest (S.store.encode s.store))
    poisoned := false } }

/-- Write the snapshot, after the one it replaces is backed up. -/
def writeSnapshot (previous : Option Bytes) : Faulty Session SchedulerError Unit := do
  modify fun s => { s with store := s.store.withCheckpoint (some s.persistence.checkpoint) }
  onDisk (writeBackup previous)
  replaceSnapshot S

/-- Write the store. From its first step until its last, the persistence is poisoned. -/
def persist : Faulty Session SchedulerError Unit := do
  let s ← get
  ensure (s.persistence.poisoned = false) (.corrupt .primary
    "previous persistence failure; reopen the scheduler before admitting traffic")
  modify fun s => { s with persistence := { s.persistence with poisoned := true } }
  ofExcept (validateStore .primary s.store)
  let previous ← onDisk (readOptional .primary)
  let marker ← onDisk (readRequired .marker)
  let checkpoint ← ofExcept (parse S.checkpoint .marker marker)
  let unchanged ← onDisk (filesUnchanged S previous checkpoint s.persistence)
  ensure (unchanged = true)
    (.corrupt .primary "recovery files changed while the scheduler was running")
  commitAccounting S
  writeSnapshot S previous

end Netband.Recovery

import Netband.Effects
import Netband.State
import Netband.Journal

/-!
A journal on its own file, or on a directory of segments of which the last is written to.

A directory has files that are reached through their names. What a file holds beyond its synced
length may be lost in a crash; names change at once. The names hold regular files, and a file is
no longer than its 64-bit length can say.
-/

namespace Netband.Segments

open Netband.Time Netband.State Netband.Effects Netband.Lines Netband.Csv Netband.Json
open Netband.Journal Faulty

/-! ### Directories -/

structure Inode where
  content : Bytes := []
  synced : ℕ := 0
  deriving DecidableEq

/-- A directory whose names lead to files, with the segments that were published in it so far. -/
structure Folder where
  inodes : List Inode := []
  entries : BTreeMap String ℕ := ∅
  segments : List ℕ := []
  there : ∀ (name : String) (file : ℕ), entries[name]? = some file → file < inodes.length := by simp

namespace Folder

def content (d : Folder) (file : ℕ) : Bytes := (d.inodes[file]?.map Inode.content).getD []

def update (d : Folder) (file : ℕ) (f : Inode → Inode) : Folder := { d with
  inodes := d.inodes.modify file f
  there := by simpa using d.there }

def append (file : ℕ) (bytes : Bytes) (d : Folder) : Folder :=
  d.update file fun i => { i with content := i.content ++ bytes }

def sync (file : ℕ) (d : Folder) : Folder :=
  d.update file fun i => { i with synced := i.content.length }

def truncate (file length : ℕ) (d : Folder) : Folder :=
  d.update file fun i => { content := i.content.take length, synced := min i.synced length }

def create (name : String) (d : Folder) : Folder := { d with
  inodes := d.inodes ++ [{}]
  entries := d.entries.insert name d.inodes.length
  there := by
    intro n file h
    rw [Std.ExtTreeMap.getElem?_insert] at h
    split at h
    · obtain rfl := Option.some.inj h
      simp
    · have := d.there n file h
      simp
      omega }

def remove (name : String) (d : Folder) : Folder := { d with
  entries := d.entries.erase name
  there := by
    intro n file h
    rw [Std.ExtTreeMap.getElem?_erase] at h
    split at h
    · cases h
    · exact d.there n file h }

/-- A second name for a file that is there. -/
def publish (file : ℕ) (name : String) (d : Folder) : Folder :=
  if hfile : file < d.inodes.length then { d with
    entries := d.entries.insert name file
    segments := d.segments ++ [file]
    there := by
      intro n x h
      rw [Std.ExtTreeMap.getElem?_insert] at h
      split at h
      · obtain rfl := Option.some.inj h
        exact hfile
      · exact d.there n x h }
  else d

def rename (source target : String) (d : Folder) : Folder :=
  match hsource : d.entries[source]? with
  | some file => { d with
    entries := (d.entries.erase source).insert target file
    there := by
      intro n x h
      rw [Std.ExtTreeMap.getElem?_insert, Std.ExtTreeMap.getElem?_erase] at h
      split at h
      · obtain rfl := Option.some.inj h
        exact d.there source file hsource
      · split at h
        · cases h
        · exact d.there n x h }
  | none => d

end Folder

abbrev Op (α : Type) := Faulty Folder JournalError α

/-- A call without effect on the directory. -/
def inspect (e : JournalError) : Op Unit := do
  match ← nextIo with
  | .done => pure ()
  | .failed _ => fail e

/-- A call that has all of its effect or none. -/
def atomically (f : Folder → Folder) (e : JournalError) : Op Unit := do
  match ← nextIo with
  | .done => modify f
  | .failed 0 => fail e
  | .failed (_ + 1) => do
    modify f
    fail e

def require {α : Type} (o : Option α) (e : JournalError) : Except JournalError α :=
  o.elim (.error e) .ok

def regularOrMissing (name : String) : Op Bool := do
  inspect (.io name)
  let d ← get
  return d.entries.contains name

def openFile (name : String) : Op ℕ := do
  inspect (.io name)
  let d ← get
  ofExcept (require d.entries[name]? (.io name))

def createNew (name : String) : Op ℕ := do
  let d ← get
  ensure (name ∉ d.entries) (.io name)
  atomically (Folder.create name) (.io name)
  return d.inodes.length

def openOrCreate (name : String) : Op ℕ := do
  let d ← get
  if name ∈ d.entries then openFile name else createNew name

def lockFile (name : String) : Op Unit := inspect (.locked name)

def readContent (file : ℕ) : Op Bytes := do
  inspect (.io "read")
  let d ← get
  return d.content file

def metadataLen (file : ℕ) : Op ℕ := do
  let content ← readContent file
  return content.length

/-- A write that fails has written some of the bytes. -/
def writeAll (file : ℕ) (bytes : Bytes) : Op Unit := do
  let d ← get
  ensure ((d.content file).length + bytes.length ≤ u64Max) (.io "file too large")
  match ← nextIo with
  | .done => modify (Folder.append file bytes)
  | .failed k => do
    modify (Folder.append file (bytes.take k))
    fail (.io "write")

def syncData (file : ℕ) : Op Unit := do
  inspect (.io "sync")
  modify (Folder.sync file)

def setLen (file length : ℕ) : Op Unit := atomically (Folder.truncate file length) (.io "truncate")
def removeFile (name : String) : Op Unit := atomically (Folder.remove name) (.io name)

def renameFile (source target : String) : Op Unit :=
  atomically (Folder.rename source target) (.io target)

def syncDirectory : Op Unit := inspect (.io "sync directory")

/-- A link to a file under a name that is free. -/
def hardLink (file : ℕ) (name : String) : Op Bool := do
  let d ← get
  if name ∈ d.entries then do
    inspect (.io name)
    return false
  else do
    atomically (Folder.publish file name) (.io name)
    return true

/-! ### Names -/

def lockName : String := ".netband-output.lock"
def activeName : String := ".netband-active"
def pendingName : String := ".netband-header.tmp"
def markerTempName : String := ".netband-active.tmp"

variable [Crates]

def segmentName (now : ℤ) (sequence : ℕ) : String :=
  "netband-" ++ Crates.compactText now ++
    (if sequence = 0 then "" else "-" ++ toString sequence) ++ ".csv"

def validName (name : String) : Bool :=
  name.startsWith "netband-" && name.endsWith ".csv" &&
    name.toList.all fun c => c.isAlphanum || c = '-' || c = '.' || c = '_'

/-- The name in a marker. -/
def markedName (content : Bytes) : Option String :=
  (String.fromUTF8? content.toByteArray).map fun text =>
    String.ofList (text.toList.rdropWhile (· = '\n'))

/-! ### Opening -/

/-- Validate a file that is not new, and cut a last record that is incomplete. -/
def recoverFile (name : String) (file : ℕ) : Op Unit := do
  let content ← readContent file
  ofExcept (validateHeader name content)
  match ← ofExcept (recoverTrailingRecord name content) with
  | .keep => pure ()
  | .terminate => do
    writeAll file [cr, lf]
    syncData file
  | .truncate length => do
    setLen file length
    syncData file

/-- Recover the segment that the marker names. -/
def recoverDirectory : Op Unit := do
  let marked ← regularOrMissing activeName
  if marked then do
    let marker ← openFile activeName
    let content ← readContent marker
    let name ← ofExcept (require (markedName content) (.io activeName))
    ensure (validName name = true) (.corrupt activeName)
    let there ← regularOrMissing name
    ensure (there = true) (.corrupt name)
    let file ← openFile name
    lockFile name
    recoverFile name file
    syncData file
  else pure ()

/-- Link the staged file under the first name that is free. -/
def publishSegment (file : ℕ) (now : ℤ) : ℕ → ℕ → Op String
  | 0, _ => fail (.io "sequence exhausted")
  | rounds + 1, sequence => do
    let linked ← hardLink file (segmentName now sequence)
    if linked then return segmentName now sequence
    else publishSegment file now rounds (sequence + 1)

/-- Remove what an earlier process has staged. -/
def removeStale : Op Unit := do
  let stale ← regularOrMissing pendingName
  if stale then do
    let _ ← openFile pendingName
    lockFile pendingName
    removeFile pendingName
  else pure ()

/-- Stage a file with the header. -/
def stageHeader : Op ℕ := do
  removeStale
  let file ← createNew pendingName
  lockFile pendingName
  writeAll file headerLine
  syncData file
  return file

/-- Let the marker name a segment. -/
def writeMarker (name : String) : Op Unit := do
  let _ ← regularOrMissing markerTempName
  let marker ← openOrCreate markerTempName
  lockFile markerTempName
  setLen marker 0
  writeAll marker (utf8 (name.toList ++ ['\n']))
  syncData marker
  renameFile markerTempName activeName
  syncDirectory

/-- Among as many names as there are entries, and one more, one is free. -/
def createSegment (now : ℤ) : Op (ℕ × String) := do
  let file ← stageHeader
  let d ← get
  let name ← publishSegment file now (d.entries.size + 1) 0
  removeFile pendingName
  syncDirectory
  writeMarker name
  return (file, name)

/-- Open a file that is given; a new one gets the header. -/
def openExplicit (name : String) : Op ℕ := do
  let file ← openOrCreate name
  lockFile name
  let length ← metadataLen file
  if length = 0 then writeAll file headerLine else recoverFile name file
  syncData file
  syncDirectory
  return file

structure Directory where
  date : ℤ
  maxBytes : Option ℕ
  deriving DecidableEq

/-- A journal that is open on a file, of a directory or on its own. -/
structure Journal where
  file : ℕ
  path : String
  directory : Option Directory
  bytes : ℕ
  hasEvents : Bool
  poisoned : Bool
  deriving DecidableEq

inductive OutputTarget
  | file (name : String)
  | directory
  deriving DecidableEq

def openDirectory (maxBytes : Option ℕ) (now : ℤ) : Op Journal := do
  let _ ← regularOrMissing lockName
  let _ ← openOrCreate lockName
  lockFile lockName
  recoverDirectory
  let (file, path) ← createSegment now
  let bytes ← metadataLen file
  return {
    file, path, bytes
    directory := some { date := dateNaive now, maxBytes }
    hasEvents := false
    poisoned := false }

def openAt (target : OutputTarget) (maxBytes : Option ℕ) (now : ℤ) : Op Journal := do
  ensure (¬ (maxBytes = some 0 ∨ maxBytes.isSome = true ∧ target ≠ .directory))
    (.io "positive rotate_max_bytes requires directory output")
  match target with
  | .directory => openDirectory maxBytes now
  | .file path => do
    let file ← openExplicit path
    let bytes ← metadataLen file
    return { file, path, directory := none, bytes, hasEvents := false, poisoned := false }

/-! ### Appending -/

/-- An open journal and its directory. -/
structure Output where
  journal : Journal
  folder : Folder

def onFolder {α : Type} (c : Op α) : Faulty Output JournalError α :=
  zoom Output.folder (fun folder o => { o with folder }) c

def edit (f : Journal → Journal) : Faulty Output JournalError Unit :=
  modify fun o => { o with journal := f o.journal }

/-- The batch does not go to the current segment: its day is later, or it would make a segment
that already has events too long. -/
def rotates (j : Journal) (d : Directory) (encoded : Bytes) (now : ℤ) : Bool :=
  d.date < dateNaive now ||
    (j.hasEvents && d.maxBytes.any (· < min (j.bytes + encoded.length) u64Max))

def rotate (d : Directory) (now : ℤ) : Faulty Output JournalError Unit := do
  let o ← get
  onFolder (syncData o.journal.file)
  let (file, path) ← onFolder (createSegment now)
  edit fun j => { j with
    file, path, directory := some { d with date := max d.date (dateNaive now) } }
  let bytes ← onFolder (metadataLen file)
  edit fun j => { j with bytes, hasEvents := false }

/-- Write a batch to the current file and sync it. -/
def writeBatch (encoded : Bytes) : Faulty Output JournalError Unit := do
  let o ← get
  onFolder (writeAll o.journal.file encoded)
  onFolder (syncData o.journal.file)

def append (events : Batch) (now : ℤ) : Faulty Output JournalError Unit := do
  let o ← get
  if events = [] then pure ()
  else
    match o.journal.directory with
    | none => writeBatch (encodeBatch events)
    | some d => do
      let encoded := encodeBatch events
      if rotates o.journal d encoded now then rotate d now
      writeBatch encoded
      edit fun j => { j with bytes := j.bytes + encoded.length, hasEvents := true }

/-- Run a computation of a journal that has not failed, and note whether it fails. -/
def guarded (c : Faulty Output JournalError Unit) : Faulty Output JournalError Unit := do
  let o ← get
  ensure (o.journal.poisoned = false)
    (.io "journal failed; reopen and recover before writing again")
  fun x =>
    let r := c x
    (r.1, r.2.1, { r.2.2 with journal := { r.2.2.journal with poisoned := !r.1.isOk } })

def appendBatchAt (events : Batch) (now : ℤ) : Faulty Output JournalError Unit :=
  guarded (append events now)

def flush : Faulty Output JournalError Unit := guarded do
  let o ← get
  onFolder (syncData o.journal.file)

end Netband.Segments

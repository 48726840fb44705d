import Netband.Chain

/-!
Openings that are rejected. All checks come before the first write, and once they are passed
nothing is rejected any more: only an I/O call can still fail.
-/

namespace Netband.Steps

open Netband.Time Netband.Model Netband.State Netband.Plan Netband.Effects Netband.Lines
open Netband.Recovery Netband.Scheduling Netband.World Netband.Edits Netband.Runs
open Faulty

variable {S : Serde} {K : String → ProviderState → Prop} {path : RecoveryFile} {log log' : Log}
  {bytes : Bytes} {d : Disk} {store : SchedulerStore} {p : Persistence}

/-- The longest `Vec<u8>`. -/
def vecMax : ℕ := 2 ^ 63 - 1

/-- Files that can be read into memory. -/
def Readable (d : Disk) : Prop := ∀ f b, d.files f = some b → b.length ≤ vecMax

/-- An I/O call has failed. -/
def IoFailed (e : SchedulerError) : Prop := ∃ f, e = .io f

/-! ### What was read is valid -/

lemma validateStore_ok (h : validateStore path store = .ok ()) : AllRecords ValidState store :=
  validateStore_eq_ok.mp h

lemma parseStore_ok (h : parseStore S path bytes = .ok store) : AllRecords ValidState store := by
  obtain ⟨s, -, h⟩ := bind_ok h
  dsimp only at h
  split_ifs at h
  · cases h
  · obtain ⟨u, hv, h⟩ := bind_ok h
    cases h
    exact validateStore_ok hv

lemma readRecord_valid (h : readRecord S path log bytes = .ok log')
    (hlog : ∀ s ∈ log.states, AllRecords ValidState s) :
    (∀ s ∈ log'.states, AllRecords ValidState s) ∧
      log'.records.length = log.records.length + 1 := by
  obtain ⟨record, -, h⟩ := bind_ok h
  dsimp only at h
  split_ifs at h
  · cases h
  · obtain ⟨u, hv, h⟩ := bind_ok h
    cases h
    refine ⟨fun s hs => ?_, by simp⟩
    simp only [Log.states, List.map_append, List.map_singleton, List.mem_append,
      List.mem_singleton] at hs
    rcases hs with hs | rfl
    · exact hlog s hs
    · exact validateStore_ok hv

lemma foldlM_readRecord_valid {rest : List Bytes}
    (h : rest.foldlM (readRecord S path) log = .ok log')
    (hlog : ∀ s ∈ log.states, AllRecords ValidState s) :
    (∀ s ∈ log'.states, AllRecords ValidState s) ∧
      log'.records.length = log.records.length + rest.length := by
  induction rest generalizing log with
  | nil =>
    cases h
    exact ⟨hlog, rfl⟩
  | cons l rest ih =>
    rw [List.foldlM_cons] at h
    obtain ⟨log₁, h₁, h⟩ := bind_ok h
    obtain ⟨hvalid, hlen⟩ := readRecord_valid h₁ hlog
    obtain ⟨hvalid', hlen'⟩ := ih h hvalid
    exact ⟨hvalid', by rw [hlen', hlen, List.length_cons]; omega⟩

lemma length_le_intercalate {α : Type} (x : α) (ls : List (List α)) :
    ls.length ≤ ([x].intercalate ls).length + 1 := by
  induction ls with
  | nil => simp
  | cons l ls ih =>
    rcases ls with _ | ⟨m, ls⟩
    · simp
    · rw [List.intercalate_cons_cons]
      simp only [List.length_append, List.length_cons, List.length_nil] at ih ⊢
      omega

lemma length_lines {ls : List Bytes} (h : lines bytes = some ls) : ls.length ≤ bytes.length := by
  unfold lines at h
  split_ifs at h with hlast
  obtain rfl := Option.some.inj h
  have hne : bytes ≠ [] := by
    rintro rfl
    simp at hlast
  have hpos := List.length_pos_of_ne_nil hne
  have hle := length_le_intercalate newline (bytes.dropLast.splitOn newline)
  rw [List.intercalate_splitOn, List.length_dropLast] at hle
  omega

/-- **Accepted ledgers** hold valid stores, and fewer of them than bytes. -/
lemma readLog_valid (h : readLog S path bytes = .ok log) :
    (∀ s ∈ log.states, AllRecords ValidState s) ∧ log.records.length < bytes.length := by
  unfold readLog at h
  split at h
  · cases h
  · cases h
  · rename_i header rest hlines
    have hlen := length_lines hlines
    obtain ⟨log₀, h₀, h⟩ := bind_ok h
    obtain ⟨hrecords, -, -⟩ := readHeader_ok h₀
    obtain ⟨hvalid, hlen'⟩ := foldlM_readRecord_valid h (by simp [Log.states, hrecords])
    refine ⟨hvalid, ?_⟩
    rw [hlen', hrecords]
    simpa using hlen

lemma AllRecords.replayStore {committed : SchedulerStore} (h : AllRecords ValidState store)
    (hc : AllRecords ValidState committed) :
    AllRecords ValidState (replayStore store committed) := by
  intro id st hst
  simp only [Recovery.replayStore, replay_get] at hst
  cases hs : store.providers[id]? <;> cases hr : committed.providers[id]? <;>
    rw [hs, hr] at hst <;> simp only [replayed, Option.some.injEq, reduceCtorEq] at hst
  · exact hst ▸ hc id _ hr
  · exact hst ▸ h id _ hs
  · exact hst ▸ validState_replay (h id _ hs) (hc id _ hr)

lemma valid_committed (h : ∀ s ∈ log.states, AllRecords ValidState s) :
    AllRecords ValidState log.committed := by
  unfold Log.committed
  cases hl : log.states.getLast? with
  | none =>
    intro id st hst
    simp at hst
  | some s => exact h s (List.mem_of_getLast? hl)

/-! ### Opening the recovery set -/

/-- A recovery set that was accepted: persisting to it can only fail in an I/O call. -/
structure Accepted (S : Serde) (p : Persistence) (store : SchedulerStore) (d : Disk) : Prop where
  snapshotDigest : p.snapshotDigest = (d.files .primary).map S.digest
  marker : d.files .marker = some (S.checkpoint.encode p.checkpoint)
  ledger : ∃ b, d.files .ledger = some b ∧ p.ledgerLen = b.length
  sequence : p.checkpoint.sequence < u64Max
  unpoisoned : p.poisoned = false
  records : AllRecords ValidState store

/-- The files are as they were, unless an I/O call has failed. -/
def Rejected (d : Disk) (e : SchedulerError) (d' : Disk) : Prop :=
  IoFailed e ∨ d'.files = d.files

lemma rejected_io {f : RecoveryFile} {d' : Disk} : Rejected d (.io f) d' := .inl ⟨f, rfl⟩

lemma rejected_same {e : SchedulerError} : Rejected d e d := .inr rfl

lemma valid_openStore (fresh : Bool) (primary marker ledger : Option Bytes) :
    Meets True d (openStore S fresh primary marker ledger)
      (fun store d' => d = d' ∧ AllRecords ValidState store) fun e d' => Rejected d e d' := by
  unfold openStore
  cases primary with
  | some b =>
    exact meets_ofExcept (fun store h => ⟨rfl, parseStore_ok h⟩) fun _ _ => rejected_same
  | none =>
    dsimp only
    split
    · refine meets_pure ⟨rfl, fun id st hst => ?_⟩
      simp at hst
    · refine meets_bind (meets_ofExcept (fun b _ => ?_) fun _ _ => rejected_same)
      refine meets_bind (meets_ofExcept (fun log hlog => ?_) fun _ _ => rejected_same)
      refine meets_bind (meets_ofExcept (fun b _ => ?_) fun _ _ => rejected_same)
      refine meets_bind (meets_ofExcept (fun c _ => ?_) fun _ _ => rejected_same)
      refine meets_bind (meets_ofExcept (fun _ _ => ?_) fun _ _ => rejected_same)
      refine meets_bind (meets_ensure (fun _ => ?_) fun _ => rejected_same)
      refine meets_bind (meets_bind (meets_readOptional (meets_pure ?_) fun _ => rejected_io))
      refine meets_bind (meets_ensure (fun _ => meets_pure ⟨rfl, ?_⟩) fun _ => rejected_same)
      exact valid_committed (readLog_valid hlog).1

/-- Once everything is checked, only an I/O call can fail. -/
lemma recoverStore_accepted {fresh : Bool} {b : Bytes} (hledger : d.files .ledger = some b)
    (hseq : log.last.sequence < u64Max) (hlog : ∀ s ∈ log.states, AllRecords ValidState s)
    (hstore : AllRecords ValidState store) :
    Meets True d (recoverStore S fresh (d.files .primary) (d.files .marker) store log)
      (fun r d' => Accepted S r.1 r.2.1 d') fun e _ => IoFailed e := by
  have hrecords : ∀ recovered : Bool, AllRecords ValidState
      (if recovered then replayStore store log.committed else store) := by
    intro recovered
    split
    · exact hstore.replayStore (valid_committed hlog)
    · exact hstore
  have hrest : ∀ d' : Disk, d'.files .primary = d.files .primary → d'.files .ledger = some b →
      d'.files .marker = some (S.checkpoint.encode log.last) → ∀ recovered : Bool,
      Meets True d' (do
        let ledgerLen ← metadataLen .ledger
        let persistence : Persistence :=
          { checkpoint := log.last
            committed := log.committed
            snapshotDigest := (d.files .primary).map S.digest
            ledgerLen
            poisoned := false }
        pure (persistence,
          (if recovered then replayStore store log.committed else store).withCheckpoint
          (some log.last), recovered))
        (fun r d' => Accepted S r.1 r.2.1 d') fun e _ => IoFailed e := by
    intro d' hp hl hm recovered
    refine meets_bind (meets_metadataLen hl (meets_pure ?_) fun _ => ⟨_, rfl⟩)
    exact ⟨by rw [hp], hm, ⟨b, hl, rfl⟩, hseq, rfl, hrecords recovered⟩
  refine meets_bind ?_
  unfold writeMarker
  split
  · rename_i hmarker
    exact meets_pure (hrest d rfl hledger hmarker _)
  · refine meets_atomicWrite (hrest _ ?_ ?_ ?_ _) fun _ => ⟨⟨_, rfl⟩, ⟨_, rfl⟩⟩
    · simp [Disk.write]
    · simpa [Disk.write] using hledger
    · simp [Disk.write]

/-- **Opening the recovery set**: it is rejected before anything was written. -/
theorem openPersistence_rejected (hd : Readable d) (random : Random) :
    Meets True d (openPersistence S random) (fun r d' => Accepted S r.1 r.2.1 d')
      fun e d' => Rejected d e d' := by
  have hlock : Meets True d acquireLock (fun _ d' => d = d') fun e d' => Rejected d e d' :=
    meets_bind (meets_nextIo (meets_pure rfl) fun _ _ => meets_fail rejected_io)
  refine meets_bind (meets_mono hlock ?_ fun _ _ h => h)
  rintro u _ rfl
  refine meets_bind (meets_readOptional ?_ fun _ => rejected_io)
  refine meets_bind (meets_readOptional ?_ fun _ => rejected_io)
  refine meets_bind (meets_readOptional ?_ fun _ => rejected_io)
  have hfresh : Meets True d (isFresh (d.files .primary) (d.files .marker)) (fun _ d' => d = d')
      fun e d' => Rejected d e d' := by
    unfold isFresh
    split
    · exact meets_bind (meets_bind (meets_readOptional (meets_pure (meets_pure rfl))
        fun _ => rejected_io))
    · exact meets_pure rfl
  refine meets_bind (meets_mono hfresh ?_ fun _ _ h => h)
  rintro fresh _ rfl
  refine meets_bind (meets_mono (valid_openStore fresh _ _ _) ?_ fun _ _ h => h)
  rintro store _ ⟨rfl, hstore⟩
  refine meets_bind (meets_ensure (fun _ => ?_) fun _ => rejected_same)
  cases hledger : d.files .ledger with
  | some b =>
    refine meets_bind (meets_ofExcept (fun log hlog => ?_) fun _ _ => rejected_same)
    refine meets_bind (meets_ofExcept (fun _ _ => ?_) fun _ _ => rejected_same)
    obtain ⟨hvalid, hlen⟩ := readLog_valid hlog
    have hseq : log.last.sequence < u64Max := by
      have hmax := hd _ _ hledger
      rw [(chained_readLog hlog).sequence_last]
      simp only [vecMax, u64Max] at hmax ⊢
      omega
    exact meets_mono (recoverStore_accepted hledger hseq hvalid hstore) (fun _ _ h => h)
      fun _ _ h => .inl h
  | none =>
    -- a new ledger is written, and from here on only an I/O call can fail
    refine meets_bind (meets_bind (meets_ensure (fun hf => ?_) fun _ => rejected_same))
    subst hf
    refine meets_bind (meets_ofExcept (fun random _ => ?_) fun _ _ => rejected_same)
    have hread : readLog S .ledger (line (S.header.encode (newHeader random))) =
        .ok (Log.new S (newHeader random)) := readLog_header (headerOk_newHeader random)
    refine meets_bind (meets_atomicWrite ?_ fun _ => ⟨rejected_io, rejected_io⟩)
    rw [hread]
    refine meets_ofExcept (fun log hlog => ?_) fun _ he => by cases he
    obtain rfl : Log.new S (newHeader random) = log := Except.ok.inj hlog
    refine meets_bind (meets_ofExcept (fun _ _ => ?_) fun _ he => by simp [validateLog] at he)
    have hrec := @recoverStore_accepted S (Log.new S (newHeader random))
      (d.write .ledger (line (S.header.encode (newHeader random)))) store true _
      (by simp [Disk.write]; rfl)
      (by exact (by decide : 0 < u64Max)) (by simp) hstore
    have hprimary : (d.write .ledger (line (S.header.encode (newHeader random)))).files .primary =
        d.files .primary := by simp [Disk.write]
    have hmarker : (d.write .ledger (line (S.header.encode (newHeader random)))).files .marker =
        d.files .marker := by simp [Disk.write]
    rw [hprimary, hmarker] at hrec
    exact meets_mono hrec (fun _ _ h => h) fun _ _ h => .inl h

/-! ### Persisting what was accepted -/

/-- Committing fails only in an I/O call, as long as there are sequence numbers. -/
lemma commitAccounting_accepted {s : Session} {b : Bytes} (hledger : s.disk.files .ledger = some b)
    (hseq : s.persistence.checkpoint.sequence < u64Max) :
    Meets True s (commitAccounting S) (fun _ _ => True) fun e _ => IoFailed e := by
  refine meets_bind (meets_get ?_)
  split
  · exact meets_pure trivial
  · refine meets_bind (meets_ensure (fun _ => ?_) fun hne => absurd hseq hne)
    refine meets_bind (meets_onDisk (meets_writeSynced hledger ?_ fun _ _ => ⟨_, rfl⟩))
    refine meets_bind (meets_onDisk (meets_atomicWrite ?_ fun _ => ⟨⟨_, rfl⟩, ⟨_, rfl⟩⟩))
    exact meets_modify trivial

/-- **Persisting** to an accepted recovery set can only fail in an I/O call. -/
lemma persist_accepted {s : Session} (h : Accepted S s.persistence s.store s.disk) :
    Meets True s (persist S) (fun _ _ => True) fun e _ => IoFailed e := by
  obtain ⟨b, hledger, hlen⟩ := h.ledger
  have hio : ∀ {f : RecoveryFile}, IoFailed (.io f) := fun {f} => ⟨f, rfl⟩
  refine meets_bind (meets_get (meets_bind (meets_ensure (fun _ => ?_) fun hp => ?_)))
  swap
  · exact absurd h.unpoisoned hp
  refine meets_bind (meets_modify (meets_bind ?_))
  rw [validateStore_eq_ok.mpr h.records]
  refine meets_ofExcept (fun _ _ => ?_) fun _ he => by cases he
  refine meets_bind (meets_onDisk (meets_readOptional ?_ fun _ => hio))
  refine meets_bind (meets_onDisk (meets_readRequired h.marker ?_ fun _ => hio))
  have hparse : parse S.checkpoint .marker (S.checkpoint.encode s.persistence.checkpoint) =
      .ok s.persistence.checkpoint := by
    simp [parse, S.checkpoint.decode_encode, Except.mapError]
  rw [hparse]
  refine meets_bind (meets_ofExcept (fun c hc => ?_) fun _ he => by cases he)
  obtain rfl : s.persistence.checkpoint = c := Except.ok.inj hc
  refine meets_bind (meets_onDisk ?_)
  unfold filesUnchanged
  rw [if_neg (by simp [h.snapshotDigest])]
  refine meets_bind (meets_metadataLen hledger (meets_pure ?_) fun _ => hio)
  refine meets_bind (meets_ensure (fun _ => ?_) fun hne => absurd (by simp [hlen]) hne)
  refine meets_bind (meets_mono (commitAccounting_accepted hledger h.sequence) ?_ fun _ _ h => h)
  rintro _ t -
  refine meets_bind (meets_modify (meets_bind ?_))
  have hsnapshot : ∀ t : Session, Meets True t (replaceSnapshot S) (fun _ _ => True)
      fun e _ => IoFailed e := fun t => meets_bind (meets_get (meets_bind (meets_onDisk
    (meets_atomicWrite (meets_modify trivial) fun _ => ⟨hio, hio⟩))))
  cases s.disk.files .primary with
  | none => exact meets_onDisk (meets_pure (hsnapshot _))
  | some b => exact meets_onDisk (meets_atomicWrite (hsnapshot _) fun _ => ⟨hio, hio⟩)

/-- **Openings that are rejected change nothing**: unless an I/O call fails, a rejected opening
leaves every file as it was. -/
lemma openSeeded_rejected (hd : Readable d) (policy : SchedulerPolicy) (now : ℤ) (seed : UInt64)
    (random : Random) : Meets True d (openSeeded S policy now seed random) (fun _ _ => True)
      fun e d' => Rejected d e d' := by
  refine meets_bind (meets_mono (openPersistence_rejected hd random) ?_ fun _ _ h => h)
  rintro ⟨p, store, recovered⟩ d' hacc
  have hacc : Accepted S p store d' := hacc
  dsimp only
  split
  · refine meets_persistOpening fun io hio => ends_iff.mpr ⟨fun _ _ => ⟨.inr trivial, trivial⟩, ?_⟩
    intro e he
    have hadmitted : Accepted S (admitRecovered policy now seed p store recovered).persistence
        (admitRecovered policy now seed p store recovered).store d' := by
      rw [admitRecovered_persistence]
      exact ⟨hacc.snapshotDigest, hacc.marker, hacc.ledger, hacc.sequence, hacc.unpoisoned,
        hacc.records.admitRecovered kept_validState policy now seed p recovered⟩
    have hpersist := persist_accepted (S := S)
      (s := (admitRecovered policy now seed p store recovered).session d') hadmitted io hio
    exact .inl ((ends_iff.mp hpersist).2 e he)
  · exact meets_pure trivial

/-- **Rejected openings**: when an opening returns an error other than that of an I/O call, every
file is as it was before. -/
theorem open_rejected (S : Serde) (policy : SchedulerPolicy) (now : ℤ) (seed : UInt64)
    (random : Random) (io : List Io) (d : Disk) (hd : Readable d) {e : SchedulerError}
    (h : (openSeeded S policy now seed random (io, d)).1 = .error e) (he : ¬ IoFailed e) :
    (openSeeded S policy now seed random (io, d)).2.2.files = d.files :=
  have hspec := ends_iff.mp (openSeeded_rejected hd policy now seed random io (.inr trivial))
  (hspec.2 e h).resolve_left he

/-- A ledger that was cut in its last line. -/
theorem open_rejected_torn :
    let d : Disk := { files := Function.update (fun _ => none) .ledger (some [1, 2, 3]) }
    (openSeeded Encoding.formats mlabPolicy 0 1 (.ok (.replicate 16 0)) ([], d)).1.isOk = false ∧
    (openSeeded Encoding.formats mlabPolicy 0 1 (.ok (.replicate 16 0)) ([], d)).2.2.files =
      d.files := by
  intro d
  have herr : (openSeeded Encoding.formats mlabPolicy 0 1 (.ok (.replicate 16 0)) ([], d)).1 =
      .error (.corrupt .ledger "accounting log has an incomplete final record") := rfl
  refine ⟨by rw [herr]; rfl,
    open_rejected Encoding.formats mlabPolicy 0 1 (.ok (.replicate 16 0)) []
    d (fun f b hb => ?_) herr (by simp [IoFailed])⟩
  cases f <;> simp_all [d, Function.update]
  subst hb
  decide

end Netband.Steps

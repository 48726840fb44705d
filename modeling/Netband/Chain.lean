import Netband.Validity

/-!
The chain of the ledger. Each record names the digest of the one before it, so a checkpoint
determines everything up to its record; and as the ledger file is only appended to, a
checkpoint that was valid once stays valid.
-/

namespace Netband.Recovery

open Netband.Time Netband.Model Netband.State Netband.Effects Netband.Lines

variable {S : Serde} {path : RecoveryFile} {log log' log₁ log₂ : Log}
  {first first₁ first₂ : Checkpoint}
  {states : List SchedulerStore} {bytes : Bytes} {c : Checkpoint}

/-! ### Accepted ledgers -/

lemma bind_ok {ε α β : Type} {x : Except ε α} {f : α → Except ε β} {b : β}
    (h : x >>= f = .ok b) : ∃ a, x = .ok a ∧ f a = .ok b := by
  cases x with
  | error e => cases h
  | ok a => exact ⟨a, rfl, h⟩

/-- What is read of a header line commits to the line. -/
lemma readHeader_ok (h : readHeader S path bytes = .ok log) :
    log.records = [] ∧ log.first.sequence = 0 ∧ log.first.digest = S.digest bytes := by
  obtain ⟨header, -, h⟩ := bind_ok h
  dsimp only at h
  split_ifs at h
  · cases h
  · cases h
    exact ⟨rfl, rfl, rfl⟩

/-- A record that is accepted is the next of its log. -/
lemma readRecord_ok (h : readRecord S path log bytes = .ok log') :
    ∃ state, log' = log.push S state := by
  obtain ⟨record, -, h⟩ := bind_ok h
  dsimp only at h
  split_ifs at h with hbad
  · cases h
  · obtain ⟨hseq, hprev, -, -, hdigest⟩ : record.sequence = log.last.sequence + 1 ∧
        record.previousDigest = log.last.digest ∧ _ ∧ _ ∧
        record.digest = record.computedDigest S := by
      simpa only [ne_eq, not_or, not_not] using hbad
    obtain ⟨u, -, h⟩ := bind_ok h
    cases h
    refine ⟨record.state, ?_⟩
    have hrec : record = log.record S record.state := by
      rcases record with ⟨sequence, previous, state, digest⟩
      simp only [Record.computedDigest] at hseq hprev hdigest
      subst hseq hprev hdigest
      rfl
    conv_lhs => rw [hrec]
    conv_rhs => rw [Log.push]
    rfl

lemma foldlM_readRecord_ok {rest : List Bytes}
    (h : rest.foldlM (readRecord S path) log = .ok log') :
    ∃ states : List SchedulerStore, log' = states.foldl (Log.push S) log := by
  induction rest generalizing log with
  | nil =>
    cases h
    exact ⟨[], rfl⟩
  | cons l rest ih =>
    rw [List.foldlM_cons] at h
    obtain ⟨log₁, h₁, h⟩ := bind_ok h
    obtain ⟨state, rfl⟩ := readRecord_ok h₁
    obtain ⟨states, rfl⟩ := ih h
    exact ⟨state :: states, rfl⟩

/-- The log of some states after a first checkpoint. -/
def logFrom (S : Serde) (first : Checkpoint) (states : List SchedulerStore) : Log :=
  states.foldl (Log.push S) { first }

/-- The first line of a file. -/
def firstLine (bytes : Bytes) : Option Bytes := (lines bytes).bind List.head?

/-- **Accepted ledgers** are chained from the digest of their first line. -/
theorem readLog_ok (h : readLog S path bytes = .ok log) : ∃ (first : Checkpoint)
    (states : List SchedulerStore) (header : Bytes), log = logFrom S first states ∧
      first.sequence = 0 ∧
      firstLine bytes = some header ∧ first.digest = S.digest header := by
  unfold readLog at h
  split at h
  · cases h
  · cases h
  · rename_i header rest hlines
    obtain ⟨log₀, h₀, h⟩ := bind_ok h
    obtain ⟨hrecords, hseq, hdigest⟩ := readHeader_ok h₀
    obtain ⟨states, rfl⟩ := foldlM_readRecord_ok h
    refine ⟨log₀.first, states, header, ?_, hseq, by simp [firstLine, hlines], hdigest⟩
    rcases log₀ with ⟨first, records⟩
    cases hrecords
    rfl

lemma readLog_header {header : Header} (h : HeaderOk header) :
    readLog S path (line (S.header.encode header)) = .ok (Log.new S header) := by
  have hread := @readLog_ledgerBytes S _ [] path h (by simp)
  rwa [ledgerBytes, recordLines, unlines_cons, unlines_nil, List.append_nil] at hread

/-! ### What a checkpoint commits to -/

@[simp] lemma logFrom_first : (logFrom S first states).first = first := by
  induction states using List.reverseRecOn with
  | nil => rfl
  | append_singleton states s ih =>
    simpa [logFrom, Log.push] using ih

lemma logFrom_append {state : SchedulerStore} :
    logFrom S first (states ++ [state]) = (logFrom S first states).push S state := by
  simp [logFrom]

lemma length_checkpoints' : log.checkpoints.length = log.records.length + 1 := by
  simp [Log.checkpoints]

lemma getElem?_checkpoints_succ (i : ℕ) :
    log.checkpoints[i + 1]? = log.records[i]?.map Prod.fst := by
  simp [Log.checkpoints]

lemma last_eq : log.checkpoints[log.records.length]? = some log.last := by
  rcases hr : log.records.getLast? with _ | r
  · have hnil : log.records = [] := by simpa using hr
    simp [Log.checkpoints, Log.last, hnil]
  · obtain ⟨rs, hrs⟩ : ∃ rs, log.records = rs ++ [r] := by
      rw [List.getLast?_eq_some_iff] at hr
      exact hr
    rw [Log.checkpoints, Log.last, hrs]
    simp

/-- Every record follows the one before it. -/
def Chained (S : Serde) (log : Log) : Prop :=
  log.first.sequence = 0 ∧ ∀ (i : ℕ) (r : Checkpoint × SchedulerStore), log.records[i]? = some r →
    ∃ previous : Checkpoint, log.checkpoints[i]? = some previous ∧ previous.sequence = i ∧
      r.1 = { previous with
        sequence := i + 1
        digest := S.digest (S.body (i + 1, previous.digest, r.2)) }

lemma Chained.sequence_last (h : Chained S log) : log.last.sequence = log.records.length := by
  have hlast := @last_eq log
  rcases hn : log.records.length with _ | n
  · rw [hn] at hlast
    rw [← h.1]
    exact congrArg Checkpoint.sequence (Option.some.inj hlast).symm
  · rw [hn, getElem?_checkpoints_succ] at hlast
    obtain ⟨r, hr, hrlast⟩ := Option.map_eq_some_iff.mp hlast
    obtain ⟨previous, -, -, hr1⟩ := h.2 n r hr
    rw [← hrlast, hr1]

lemma Chained.push (h : Chained S log) (state : SchedulerStore) : Chained S (log.push S state) := by
  have hseq := h.sequence_last
  refine ⟨h.1, fun i r hr => ?_⟩
  change (log.records ++ [_])[i]? = some r at hr
  have hcheckpoints : ∀ {j}, j ≤ log.records.length →
      (log.push S state).checkpoints[j]? = log.checkpoints[j]? := fun {j} hj => by
    rw [Log.push_checkpoints, List.getElem?_append_left (by rw [length_checkpoints']; omega)]
  rcases Nat.lt_trichotomy i log.records.length with hi | rfl | hi
  · rw [List.getElem?_append_left hi] at hr
    rw [hcheckpoints hi.le]
    exact h.2 i r hr
  · rw [List.getElem?_append_right le_rfl, Nat.sub_self] at hr
    cases hr
    rw [hcheckpoints le_rfl]
    refine ⟨_, last_eq, hseq, ?_⟩
    simp only [Record.checkpoint, Log.record, Record.after, Record.new, hseq]
  · rw [List.getElem?_eq_none (by simp; omega)] at hr
    cases hr

lemma chained_logFrom (h : first.sequence = 0) : Chained S (logFrom S first states) := by
  induction states using List.reverseRecOn with
  | nil => exact ⟨h, fun i r hr => by simp [logFrom] at hr⟩
  | append_singleton states s ih =>
    rw [logFrom_append]
    exact ih.push s

/-- **Accepted ledgers are chained**: their records are numbered from 1 on, each after the digest of
the one before it. -/
lemma chained_readLog (h : readLog S path bytes = .ok log) : Chained S log := by
  obtain ⟨first, states, -, rfl, hseq, -, -⟩ := readLog_ok h
  exact chained_logFrom hseq

/-- **Commitment**: two chains with a common checkpoint agree up to its record. -/
theorem Chained.commits (h₁ : Chained S log₁) (h₂ : Chained S log₂)
    (hdigest : Function.Injective S.digest) (hbody : Function.Injective S.body) {n : ℕ}
    (hc₁ : log₁.checkpoints[n]? = some c) (hc₂ : log₂.checkpoints[n]? = some c) :
    log₁.first = log₂.first ∧ log₁.records.take n = log₂.records.take n := by
  induction n generalizing c with
  | zero =>
    refine ⟨?_, by simp⟩
    exact (Option.some.inj hc₁).trans (Option.some.inj hc₂).symm
  | succ n ih =>
    rw [getElem?_checkpoints_succ] at hc₁ hc₂
    obtain ⟨⟨c₁, s₁⟩, hr₁, rfl⟩ := Option.map_eq_some_iff.mp hc₁
    obtain ⟨⟨c₂, s₂⟩, hr₂, hcc⟩ := Option.map_eq_some_iff.mp hc₂
    obtain rfl : c₂ = c₁ := hcc
    obtain ⟨p₁, hp₁, hseq₁, he₁⟩ := h₁.2 n _ hr₁
    obtain ⟨p₂, hp₂, hseq₂, he₂⟩ := h₂.2 n _ hr₂
    -- the digest of the record commits to its state and to the digest before it
    have hsame := he₁.symm.trans he₂
    simp only [Checkpoint.mk.injEq, true_and] at hsame
    obtain ⟨hversion, hinstallation, hd⟩ := hsame
    have hb := hbody (hdigest hd)
    simp only [Prod.mk.injEq, true_and] at hb
    obtain ⟨hprevious, rfl⟩ := hb
    obtain rfl : p₁ = p₂ := by
      rcases p₁ with ⟨v₁, i₁, q₁, d₁⟩
      rcases p₂ with ⟨v₂, i₂, q₂, d₂⟩
      simp_all
    obtain ⟨hfirst, htake⟩ := ih hp₁ hp₂
    refine ⟨hfirst, ?_⟩
    rw [List.take_add_one, List.take_add_one, htake, hr₁, hr₂]

lemma validateCheckpoint_ok (h : validateCheckpoint path c log = .ok ()) :
    log.checkpoints[c.sequence]? = some c := by
  unfold validateCheckpoint at h
  split_ifs at h with hc
  exact not_not.mp hc

/-! ### The ledger is only appended to -/

section appended
open Faulty

/-- A ledger file that was there is there, with the same beginning. -/
def Appended (d d' : Disk) : Prop :=
  ∀ b, d.files .ledger = some b → ∃ b', d'.files .ledger = some b' ∧ b <+: b'

instance : IsPreorder Disk Appended where
  refl _ b hb := ⟨b, hb, List.prefix_rfl⟩
  trans _ _ _ h h' b hb := by
    obtain ⟨b₁, hb₁, hp₁⟩ := h b hb
    obtain ⟨b₂, hb₂, hp₂⟩ := h' b₁ hb₁
    exact ⟨b₂, hb₂, hp₁.trans hp₂⟩

instance : IsPreorder Session fun s t => Appended s.disk t.disk where
  refl s := refl_of Appended s.disk
  trans _ _ _ h h' := trans_of Appended h h'

lemma appended_write {d : Disk} {f : RecoveryFile} {b : Bytes} (hf : f ≠ .ledger) :
    Appended d (d.write f b) := by
  intro old hold
  exact ⟨old, by simpa [Disk.write, hf.symm] using hold, List.prefix_rfl⟩

lemma along_readOptional {R : Disk → Disk → Prop} [IsPreorder Disk R] (f : RecoveryFile) :
    Along R (readOptional f) := by
  refine along_bind along_nextIo fun io => ?_
  cases io with
  | done => exact along_bind along_get fun _ => along_pure
  | failed k => exact along_fail

lemma along_readRequired {R : Disk → Disk → Prop} [IsPreorder Disk R] (f : RecoveryFile) :
    Along R (readRequired f) :=
  along_bind (along_readOptional f) fun _ => along_ofExcept

lemma along_metadataLen {R : Disk → Disk → Prop} [IsPreorder Disk R] (f : RecoveryFile) :
    Along R (metadataLen f) :=
  along_bind (along_readOptional f) fun _ => along_ofExcept

lemma along_atomicWrite {f : RecoveryFile} {b : Bytes} (hf : f ≠ .ledger) :
    Along Appended (atomicWrite f b) := by
  refine along_bind along_nextIo fun io => ?_
  have hwrite : Along Appended (modify (ε := SchedulerError) fun d => d.write f b) :=
    along_modify fun d => appended_write hf
  rcases io with _ | _ | k
  · exact hwrite
  · exact along_fail
  · exact along_bind hwrite fun _ => along_fail

lemma along_writeSynced (b : Bytes) : Along Appended (writeSynced .ledger b) := by
  intro x
  rcases hold : x.2.files .ledger with _ | old
  · intro b' hb'
    rw [hold] at hb'
    cases hb'
  · have hspec : Meets True x.2 (writeSynced .ledger b) (fun _ d => Appended x.2 d)
        fun _ d => Appended x.2 d := by
      have hwrite : ∀ more, Appended x.2 (x.2.write .ledger (old ++ more)) := by
        intro more b' hb'
        rw [hold, Option.some.injEq] at hb'
        subst hb'
        exact ⟨old ++ more, by simp [Disk.write], List.prefix_append _ _⟩
      exact meets_writeSynced hold (hwrite b) fun _ k => hwrite _
    exact hspec.along x.1

lemma along_onDisk {α : Type} {c : Faulty Disk SchedulerError α} (h : Along Appended c) :
    Along (fun s t : Session => Appended s.disk t.disk) (onDisk c) :=
  along_zoom h fun _ _ hd => hd

lemma appended_filesUnchanged (previous : Option Bytes) (checkpoint : Checkpoint)
    (p : Persistence) : Along Appended (filesUnchanged S previous checkpoint p) := by
  unfold filesUnchanged
  split
  · exact along_pure
  · exact along_bind (along_metadataLen _) fun _ => along_pure

lemma appended_commitAccounting :
    Along (fun s t : Session => Appended s.disk t.disk) (commitAccounting S) := by
  refine along_bind along_get fun s => ?_
  split
  · exact along_pure
  · refine along_bind along_ensure fun _ => ?_
    refine along_bind (along_onDisk (along_writeSynced _)) fun _ => ?_
    refine along_bind (along_onDisk (along_atomicWrite (by decide))) fun _ => ?_
    exact along_modify fun t => refl_of Appended t.disk

/-- **Persisting** only appends to the ledger. -/
lemma appended_persist : Along (fun s t : Session => Appended s.disk t.disk) (persist S) := by
  refine along_bind along_get fun s => along_bind along_ensure fun _ => ?_
  refine along_bind (along_modify fun t => refl_of Appended t.disk) fun _ => ?_
  refine along_bind along_ofExcept fun _ => ?_
  refine along_bind (along_onDisk (along_readOptional _)) fun previous => ?_
  refine along_bind (along_onDisk (along_readRequired _)) fun _ => ?_
  refine along_bind along_ofExcept fun checkpoint => ?_
  refine along_bind (along_onDisk (appended_filesUnchanged _ _ _)) fun _ => ?_
  refine along_bind along_ensure fun _ => along_bind appended_commitAccounting fun _ => ?_
  refine along_bind (along_modify fun t => refl_of Appended t.disk) fun _ => ?_
  refine along_bind (along_onDisk ?_) fun _ => along_bind along_get fun t => ?_
  · cases previous with
    | none => exact along_pure
    | some b => exact along_atomicWrite (by decide)
  · refine along_bind (along_onDisk (along_atomicWrite (by decide))) fun _ => ?_
    exact along_modify fun t => refl_of Appended t.disk

/-! ### Opening reads, and then appends -/

lemma along_tryExists {R : Disk → Disk → Prop} [IsPreorder Disk R] (f : RecoveryFile) :
    Along R (tryExists f) :=
  along_bind (along_readOptional f) fun _ => along_pure

lemma reads_isFresh (primary marker : Option Bytes) : Along Eq (isFresh primary marker) := by
  unfold isFresh
  split
  · exact along_bind (along_tryExists _) fun _ => along_pure
  · exact along_pure

lemma reads_openStore (fresh : Bool) (primary marker ledger : Option Bytes) :
    Along Eq (openStore S fresh primary marker ledger) := by
  unfold openStore
  cases primary with
  | some b => exact along_ofExcept
  | none =>
    dsimp only
    split
    · exact along_pure
    · refine along_bind along_ofExcept fun _ => along_bind along_ofExcept fun _ => ?_
      refine along_bind along_ofExcept fun _ => along_bind along_ofExcept fun _ => ?_
      refine along_bind along_ofExcept fun _ => along_bind along_ensure fun _ => ?_
      exact along_bind (along_tryExists _) fun _ => along_bind along_ensure fun _ => along_pure

lemma appended_recoverStore (fresh : Bool) (primary marker : Option Bytes)
    (store : SchedulerStore) (log : Log) :
    Along Appended (recoverStore S fresh primary marker store log) := by
  refine along_bind ?_ fun _ => along_bind (along_metadataLen _) fun _ => along_pure
  unfold writeMarker
  split
  · exact along_pure
  · exact along_atomicWrite (by decide)

lemma appended_openPersistence (random : Random) : Along Appended (openPersistence S random) := by
  intro x
  rcases hledger : x.2.files .ledger with _ | bytes
  · intro b hb
    rw [hledger] at hb
    cases hb
  · -- a ledger that is there is only read
    have hspec : Meets True x.2 (openPersistence S random) (fun _ d => Appended x.2 d)
        fun _ d => Appended x.2 d := by
      have hrefl : Appended x.2 x.2 := refl_of Appended _
      have hlock : Along Eq acquireLock := along_bind along_nextIo fun io => by
        cases io with
        | done => exact along_pure
        | failed k => exact along_fail
      refine meets_bind (meets_mono (hlock.meets x.2) ?_ fun e d he => he ▸ hrefl)
      rintro u _ rfl
      refine meets_bind (meets_readOptional ?_ fun _ => hrefl)
      refine meets_bind (meets_readOptional ?_ fun _ => hrefl)
      refine meets_bind (meets_readOptional ?_ fun _ => hrefl)
      refine meets_bind (meets_mono ((reads_isFresh _ _).meets _) ?_ fun e d he => he ▸ hrefl)
      rintro fresh _ rfl
      refine meets_bind (meets_mono ((reads_openStore _ _ _ _).meets _) ?_ fun e d he => he ▸ hrefl)
      rintro store _ rfl
      refine meets_bind (meets_ensure (fun _ => ?_) fun _ => hrefl)
      rw [hledger]
      refine meets_bind (meets_ofExcept (fun log _ => ?_) fun _ _ => hrefl)
      exact meets_bind (meets_ofExcept (fun _ _ => (appended_recoverStore _ _ _ _ _).meets _)
        fun _ _ => hrefl)
    exact hspec.along x.1

end appended

/-! ### Longer ledgers -/

lemma checkpoints_foldl (states : List SchedulerStore) (log : Log) :
    log.checkpoints <+: (states.foldl (Log.push S) log).checkpoints := by
  induction states generalizing log with
  | nil => exact List.prefix_rfl
  | cons state states ih =>
    refine List.IsPrefix.trans ?_ (ih (log.push S state))
    rw [Log.push_checkpoints]
    exact List.prefix_append _ _

/-- The checkpoints of a ledger are those of any longer one. -/
theorem Ledger.checkpoints_prefix {L₁ L₂ : Ledger} {torn : Bytes}
    (h : L₁.bytes S ++ torn <+: L₂.bytes S) :
    (L₁.log S).checkpoints <+: (L₂.log S).checkpoints := by
  obtain ⟨more, hmore⟩ := unlines_prefix newline_notMem_lines newline_notMem_lines h
  have hread := L₂.readLog_bytes S .ledger
  have hfirst := L₁.readLog_bytes S .ledger
  have hlines : lines (L₁.bytes S) = some (S.header.encode L₁.header ::
      recordLines S (Log.new S L₁.header) L₁.states) :=
    lines_unlines (by simp) newline_notMem_lines
  have hlines' : lines (L₂.bytes S) = some (S.header.encode L₁.header ::
      (recordLines S (Log.new S L₁.header) L₁.states ++ more)) := by
    rw [List.cons_append] at hmore
    rw [hmore]
    exact lines_unlines (by simp) newline_notMem_lines
  rw [readLog, hlines] at hfirst
  rw [readLog, hlines'] at hread
  obtain ⟨log₀, h₀, hfirst⟩ := bind_ok hfirst
  obtain ⟨log₀', h₀', hread⟩ := bind_ok hread
  obtain rfl : log₀ = log₀' := Except.ok.inj (h₀.symm.trans h₀')
  rw [List.foldlM_append] at hread
  obtain ⟨log₁, h₁, hread⟩ := bind_ok hread
  obtain rfl : L₁.log S = log₁ := Except.ok.inj (hfirst.symm.trans h₁)
  obtain ⟨states, hstates⟩ := foldlM_readRecord_ok hread
  rw [hstates]
  exact checkpoints_foldl states _

end Netband.Recovery

namespace Netband.Steps

open Netband.Time Netband.Model Netband.State Netband.Plan Netband.Effects Netband.Lines
open Netband.Recovery Netband.Scheduling Netband.World Netband.Edits Netband.Runs
open Faulty

/-! ### Systems -/

section systems
variable {S : Serde} {w w' : System}

instance : IsPreorder (Scheduler × Disk) fun x y => Appended x.2 y.2 where
  refl x := refl_of Appended x.2
  trans _ _ _ h h' := trans_of Appended h h'

lemma appended_schedulerPersist :
    Along (fun x y : Scheduler × Disk => Appended x.2 y.2) (Scheduler.persist S) :=
  fun x => appended_persist (S := S) (x.1, x.2.1.session x.2.2)

lemma appended_putAll (xs : List ProviderState) :
    Along (fun x y : Scheduler × Disk => Appended x.2 y.2) ((backend S).putAll xs) := by
  induction xs with
  | nil => exact along_pure
  | cons x xs ih =>
    have hput : Along (fun x y : Scheduler × Disk => Appended x.2 y.2) ((backend S).put x) :=
      fun y => appended_schedulerPersist (S := S) (y.1, y.2.1.setState x, y.2.2)
    exact along_bind hput fun _ => ih

lemma appended_run {α : Type} (c : Scheduling.Op α) :
    Along (fun x y : Scheduler × Disk => Appended x.2 y.2) ((backend S).run c) := by
  refine along_bind along_get fun x => along_bind (appended_putAll _) fun _ => ?_
  exact along_bind (along_modify fun y => refl_of Appended y.2) fun _ => along_ofExcept

lemma appended_openSeeded (policy : SchedulerPolicy) (now : ℤ) (seed : UInt64) (random : Random) :
    Along Appended (openSeeded S policy now seed random) := by
  refine along_bind (appended_openPersistence random) ?_
  rintro ⟨p, store, recovered⟩
  dsimp only
  split
  · exact fun x => appended_schedulerPersist (S := S)
      (x.1, admitRecovered policy now seed p store recovered, x.2)
  · exact along_pure

/-- **Steps** only append to the ledger. -/
theorem appended_step (w : System) (x : World.Step) :
    Appended w.disk (w.step S x).disk := by
  obtain ⟨a, io⟩ := x
  change Appended w.disk (w.act S a io).disk
  cases a with
  | close => exact refl_of Appended _
  | restore index =>
    intro b hb
    refine ⟨b, ?_, List.prefix_rfl⟩
    change (restoreSnapshot w.disk index).files .ledger = some b
    unfold restoreSnapshot
    cases w.disk.snapshots[index]? with
    | none => exact hb
    | some bytes => simpa using hb
  | openSeeded policy now seed random =>
    rcases hl : w.live with _ | s
    · simp only [System.act, hl]
      exact appended_openSeeded (S := S) policy now seed random (io, w.disk)
    · simp only [System.act, hl]
      exact refl_of Appended _
  | call c =>
    rcases hl : w.live with _ | s
    · simp only [System.act, hl]
      exact refl_of Appended _
    · simp only [System.act, hl]
      exact appended_run (S := S) (c.run s.policy) (io, s, w.disk)

lemma appended_of_reachable (h : Reachable (System.step S) (fun _ _ => True) w w') :
    Appended w.disk w'.disk :=
  h.invariant (I := fun w' => Appended w.disk w'.disk) (refl_of Appended _)
    fun _ _ _ hw _ => trans_of Appended hw (appended_step _ _)

/-- What the files of a running scheduler hold. -/
lemma running_of_reaches (h : Reaches S (fun _ _ => True) w) {s : Scheduler} (hs : w.live = some s)
    (hok : AllDone w.disk.persists ∨ s.persistence.poisoned = false) :
    ∃ L, Running S ValidState L s w.disk := by
  cases keeping_of_reaches kept_validState (upholds_true "") h with
  | idle _ hstopped _ =>
    obtain ⟨hp, hnot⟩ := hstopped s hs
    rcases hok with hall | hun
    · exact absurd hall hnot
    · rw [hp] at hun
      cases hun
  | @running L s' hl hr _ _ _ _ =>
    obtain rfl : s' = s := Option.some.inj (hl.symm.trans hs)
    exact ⟨L, hr⟩

/-- The marker of an earlier system names a checkpoint of the ledger. -/
lemma validateMarker_of_earlier {L : Ledger} {s : Scheduler} (h : Reaches S (fun _ _ => True) w)
    (h' : Reachable (System.step S) (fun _ _ => True) w w') (hr : Running S ValidState L s w'.disk)
    {m : Bytes} (hm : w.disk.files .marker = some m) :
    validateMarker S (some m) (L.log S) = .ok () := by
  obtain ⟨states, torn, hrest⟩ := resting_of_reaches kept_validState h
  cases hrest.sound with
  | untouched hu =>
    rw [hu.files] at hm
    cases hm
  | @consistent L₁ _ hc =>
    obtain ⟨c, rfl, hn⟩ := hc.marker m hm
    obtain ⟨b, hb, hprefix⟩ := appended_of_reachable h' _ hc.ledger
    have hledger : w'.disk.files .ledger = some (L.bytes S ++ []) := hr.ready.consistent.ledger
    rw [hledger, List.append_nil, Option.some.injEq] at hb
    subst hb
    obtain ⟨more, hmore⟩ := Ledger.checkpoints_prefix hprefix
    refine validateMarker_names ?_
    obtain ⟨hlt, hget⟩ := List.getElem?_eq_some_iff.mp hn
    rw [Ledger.Names, ← hmore, List.getElem?_append_left hlt]
    exact hn

/-- **Checkpoints**: with injective digests, a checkpoint commits to everything up to its record;
accepted ledgers are chained; and while nothing has failed the ledger is accepted, ends with the
marker, and has every checkpoint that was ever the marker. -/
theorem checkpoint_commits (S : Serde) (hdigest : Function.Injective S.digest)
    (hbody : Function.Injective S.body) :
    (∀ path b₁ b₂ log₁ log₂ c, readLog S path b₁ = .ok log₁ → readLog S path b₂ = .ok log₂ →
      validateCheckpoint path c log₁ = .ok () → validateCheckpoint path c log₂ = .ok () →
      firstLine b₁ = firstLine b₂ ∧ log₁.first = log₂.first ∧
        log₁.records.take c.sequence = log₂.records.take c.sequence) ∧
    (∀ path b log, readLog S path b = .ok log → Chained S log) ∧
    ∀ w w', Reaches S (fun _ _ => True) w → Reachable (System.step S) (fun _ _ => True) w w' →
      ∀ s, w'.live = some s → AllDone w'.disk.persists ∨ s.persistence.poisoned = false →
      ∃ b log, w'.disk.files .ledger = some b ∧ readLog S .ledger b = .ok log ∧
        w'.disk.files .marker = some (S.checkpoint.encode log.last) ∧
        ∀ m, w.disk.files .marker = some m → validateMarker S (some m) log = .ok () := by
  refine ⟨?_, fun path b log h => chained_readLog h, ?_⟩
  · intro path b₁ b₂ log₁ log₂ c h₁ h₂ hc₁ hc₂
    obtain ⟨hfirst, hrecords⟩ := (chained_readLog h₁).commits (chained_readLog h₂) hdigest hbody
      (validateCheckpoint_ok hc₁) (validateCheckpoint_ok hc₂)
    refine ⟨?_, hfirst, hrecords⟩
    obtain ⟨f₁, states₁, header₁, rfl, -, hl₁, hd₁⟩ := readLog_ok h₁
    obtain ⟨f₂, states₂, header₂, rfl, -, hl₂, hd₂⟩ := readLog_ok h₂
    rw [logFrom_first, logFrom_first] at hfirst
    subst hfirst
    rw [hl₁, hl₂, hdigest (hd₁.symm.trans hd₂)]
  · intro w w' h h' s hs hok
    obtain ⟨L, hr⟩ := running_of_reaches (h.trans h') hs hok
    refine ⟨L.bytes S, L.log S, ?_, L.readLog_bytes S .ledger, hr.ready.held.marker, fun m hm => ?_⟩
    · have hledger : w'.disk.files .ledger = some (L.bytes S ++ []) := hr.ready.consistent.ledger
      rwa [List.append_nil] at hledger
    · exact validateMarker_of_earlier h h' hr hm

end systems

/-! ### Digests without collisions -/

/-- Digests that never collide, and are those of the repository on one text. -/
def digestOf (known bytes : Bytes) : String :=
  if bytes = known then hex (Encoding.sha256 bytes)
  else String.ofList ('-' :: bytes.map fun b => Char.ofNat b.toNat)

lemma digestOf_injective (known : Bytes) : Function.Injective (digestOf known) := by
  have hdash : ∀ (l : List UInt8) (cs : List Char), hex l ≠ String.ofList ('-' :: cs) := by
    intro l cs h
    have hmem : '-' ∈ (hex l).toList := by simp [h]
    have := isHexDigit_hex hmem
    simp [isHexDigit] at this
  have hchar : Function.Injective fun b : UInt8 => Char.ofNat b.toNat := by
    intro a b h
    have h : Char.ofNat a.toNat = Char.ofNat b.toNat := h
    have hvalid : ∀ n < 256, (Char.ofNat n).toNat = n := by decide +kernel
    have h := congrArg Char.toNat h
    rw [hvalid _ a.toNat_lt, hvalid _ b.toNat_lt] at h
    exact UInt8.toNat_inj.mp h
  intro x y h
  unfold digestOf at h
  split_ifs at h with hx hy hy
  · rw [hx, hy]
  · exact absurd h (hdash _ _)
  · exact absurd h.symm (hdash _ _)
  · have h := congrArg String.toList h
    simpa [hchar.list_map.eq_iff] using h

/-- The formats of the repository, with digests that never collide. -/
noncomputable def collisionFree (known : Bytes) : Serde :=
  { Encoding.formats with digest := digestOf known }

lemma body_injective : Function.Injective Encoding.formats.body := fun _ _ h =>
  Encoding.body.text_injective (Json.utf8_injective h)

/-- The checkpoint after a first opening commits to the header line and to the record. -/
theorem checkpoint_commits_first :
    let header := Encoding.formats.header.encode (newHeader (.replicate 16 0))
    let S := collisionFree header
    S.digest header = Encoding.formats.digest header ∧
    ∃ w b log, Reaches S (fun _ _ => True) w ∧ w.disk.files .ledger = some b ∧
      readLog S .ledger b = .ok log ∧ log.records ≠ [] ∧
      w.disk.files .marker = some (S.checkpoint.encode log.last) ∧
      ∀ b' log', readLog S .ledger b' = .ok log' →
        validateCheckpoint .ledger log.last log' = .ok () →
        firstLine b = firstLine b' ∧ log.records = log'.records.take log.records.length := by
  intro header S
  obtain ⟨hsame, -, -⟩ := checkpoint_commits S (digestOf_injective header) body_injective
  obtain ⟨s, L, hcalm, -⟩ := calm_first (S := S) mlabPolicy 0 1 (.replicate 16 0)
  have hreach : Reaches S (fun _ _ => True)
      (System.step S {} (.openSeeded mlabPolicy 0 1 (.ok (.replicate 16 0)), [])) :=
    .step .first trivial
  generalize System.step S {} (.openSeeded mlabPolicy 0 1 (.ok (.replicate 16 0)), []) = w at *
  have hledger : w.disk.files .ledger = some (L.bytes S ++ []) :=
    hcalm.running.ready.consistent.ledger
  rw [List.append_nil] at hledger
  have hread := L.readLog_bytes S .ledger
  have hseq := (chained_readLog hread).sequence_last
  have hvalid : validateCheckpoint .ledger (L.log S).last (L.log S) = .ok () := by
    rw [validateCheckpoint, hseq, last_eq, if_neg (by simp)]
  refine ⟨?_, w, L.bytes S, L.log S, hreach, hledger, hread, fun hempty => ?_,
    hcalm.running.ready.held.marker, fun b' log' hread' hvalid' => ?_⟩
  · change digestOf header header = _
    rw [digestOf, if_pos rfl]
    rfl
  · have hstates : (L.log S).states = L.states := L.log_states S
    rw [Log.states, hempty] at hstates
    exact hcalm.started hstates.symm
  · obtain ⟨hfirst, -, hrecords⟩ := hsame .ledger _ _ _ _ _ hread hread' hvalid hvalid'
    rw [hseq, List.take_length] at hrecords
    exact ⟨hfirst, hrecords⟩

end Netband.Steps

import Netband.Ledger

/-!
What the files of a recovery set can hold, whatever was interrupted, and what one call of
`persist` does to them.

A recovery set is consistent with a ledger when the ledger file holds its records and
perhaps a torn tail, the marker names one of its records, and every snapshot ever written
carries the accounting of the record that its own checkpoint names.
-/

namespace Netband.Recovery

open Netband.Time Netband.Model Netband.State Netband.Effects Netband.Lines Faulty

/-! ### Ledgers -/

/-- The store that was committed last. -/
def lastState (states : List SchedulerStore) : SchedulerStore := states.getLast?.getD {}

/-- The stores committed so far, in order. -/
structure Ledger where
  header : Header
  states : List SchedulerStore
  headerOk : HeaderOk header
  statesOk : ∀ s ∈ states, RecordOk s
  /-- A provider is never removed. -/
  keys : states.Pairwise KeysSubset

namespace Ledger

variable (S : Serde) (L : Ledger)

def log : Log := logOf S L.header L.states
def bytes : Bytes := ledgerBytes S L.header L.states
/-- The checkpoint of the last record. -/
def last : Checkpoint := (L.log S).last
/-- The store of the last record. -/
def committed : SchedulerStore := lastState L.states
/-- The checkpoint is one of the ledger's. -/
def Names (c : Checkpoint) : Prop := (L.log S).checkpoints[c.sequence]? = some c

variable {L}

lemma committed_mem (h : L.states ≠ []) : L.committed ∈ L.states := by
  unfold committed lastState
  rw [List.getLast?_eq_some_getLast h]
  exact List.getLast_mem h

lemma committed_empty (h : L.states = []) : L.committed = {} := by
  simp [committed, lastState, h]

lemma storeOk_committed (L : Ledger) : StoreOk L.committed := by
  by_cases h : L.states = []
  · rw [committed_empty h]
    exact storeOk_empty
  · exact (L.statesOk _ (committed_mem h)).toStoreOk

lemma keys_committed {s : SchedulerStore} (h : s ∈ L.states) : KeysSubset s L.committed := by
  obtain ⟨l, x, hl⟩ := List.eq_nil_or_concat L.states |>.resolve_left (by rintro he; simp_all)
  have hk := L.keys
  simp only [committed, lastState, hl, List.concat_eq_append, List.getLast?_concat,
    Option.getD_some] at *
  rcases List.mem_append.mp h with h | h
  · exact (List.pairwise_append.mp hk).2.2 s h x (by simp)
  · rw [List.mem_singleton.mp h]
    exact fun _ hid => hid

/-- Commit one more store. -/
def push (L : Ledger) (s : SchedulerStore) (hs : RecordOk s) (hk : KeysSubset L.committed s) :
    Ledger where
  header := L.header
  states := L.states ++ [s]
  headerOk := L.headerOk
  statesOk := by
    intro t ht
    rcases List.mem_append.mp ht with ht | ht
    · exact L.statesOk t ht
    · exact List.mem_singleton.mp ht ▸ hs
  keys := by
    refine List.pairwise_append.mpr ⟨L.keys, List.pairwise_singleton _ _, fun a ha b hb => ?_⟩
    rw [List.mem_singleton.mp hb]
    exact fun id hid => hk id (keys_committed ha id hid)

lemma readLog_bytes (path : RecoveryFile) : readLog S path (L.bytes S) = .ok (L.log S) :=
  readLog_ledgerBytes L.headerOk L.statesOk

lemma names_last : L.Names S (L.last S) := by
  unfold Names last log
  rw [sequence_logOf]
  exact getElem?_checkpoints_last

lemma sequence_last : (L.last S).sequence = L.states.length := sequence_logOf

lemma log_committed : (L.log S).committed = L.committed := committed_logOf

lemma log_states : (L.log S).states = L.states := states_logOf

section push
variable {S} {s : SchedulerStore} {hs : RecordOk s} {hk : KeysSubset L.committed s}

variable (hs hk) in
@[simp] lemma push_committed : (L.push s hs hk).committed = s := by
  simp [committed, lastState, push]

lemma push_bytes : (L.push s hs hk).bytes S = L.bytes S ++ nextLine S L.header L.states s :=
  ledgerBytes_append

variable (hs hk) in
lemma push_last :
    (L.push s hs hk).last S = (Record.after S (L.last S) s).checkpoint (L.last S) := by
  change (logOf S L.header (L.states ++ [s])).last = _
  rw [logOf_append, Log.push_last]
  rfl

lemma Names.push {c : Checkpoint} (h : L.Names S c) : (L.push s hs hk).Names S c :=
  getElem?_checkpoints_append h

end push
end Ledger

/-! ### Consistent recovery sets -/

/-- A snapshot with the accounting of the record that its checkpoint names. -/
structure IsSnapshot (S : Serde) (L : Ledger) (s : SchedulerStore) : Prop where
  ok : StoreOk s
  recorded : ∃ c ∈ s.checkpoint, L.Names S c ∧ c.sequence ≠ 0 ∧
    ∃ r ∈ L.states[c.sequence - 1]?, accounting r = accounting s

structure Consistent (S : Serde) (L : Ledger) (torn : Bytes) (d : Disk) : Prop where
  ledger : d.files .ledger = some (L.bytes S ++ torn)
  noBreak : newline ∉ torn
  marker : ∀ b ∈ d.files .marker, ∃ c, b = S.checkpoint.encode c ∧ L.Names S c
  noMarker : d.files .marker = none → L.states = [] ∧ torn = []
  snapshots : ∀ b ∈ d.snapshots, ∃ s, b = S.store.encode s ∧ IsSnapshot S L s
  primary : ∀ b ∈ d.files .primary, b ∈ d.snapshots
  noPrimary : d.files .primary = none → d.snapshots = []
  backup : ∀ b ∈ d.files .backup, b ∈ d.snapshots

/-- Nothing was written yet. -/
structure Untouched (d : Disk) : Prop where
  files : ∀ f, d.files f = none
  snapshots : d.snapshots = []

/-- What an unpoisoned process knows of its recovery set. -/
structure Held (S : Serde) (L : Ledger) (p : Persistence) (d : Disk) : Prop where
  checkpoint : p.checkpoint = L.last S
  committed : p.committed = L.committed
  marker : d.files .marker = some (S.checkpoint.encode (L.last S))
  ledgerLen : p.ledgerLen = (L.bytes S).length

/-- The ledger once the accounting of `store` is committed: a record was appended if the
accounting has changed. -/
inductive Commits (L : Ledger) (store : SchedulerStore) : Ledger → Prop
  | unchanged (h : accounting store = accounting L.committed) : Commits L store L
  | recorded (h : accounting store ≠ accounting L.committed)
      (hs : RecordOk (store.withCheckpoint none))
      (hk : KeysSubset L.committed (store.withCheckpoint none)) :
      Commits L store (L.push (store.withCheckpoint none) hs hk)

/-- The ledger and its torn tail when a call of `persist` was interrupted. -/
inductive Interrupted (S : Serde) (L : Ledger) (store : SchedulerStore) : Ledger → Bytes → Prop
  | before : Interrupted S L store L []
  | torn (h : accounting store ≠ accounting L.committed) (k : ℕ) (h0 : k ≠ 0)
      (hk : k < (nextLine S L.header L.states (store.withCheckpoint none)).length) :
      Interrupted S L store L
        ((nextLine S L.header L.states (store.withCheckpoint none)).take k)
  | after {L' : Ledger} (h : Commits L store L') : Interrupted S L store L' []

section consistency
variable {S : Serde} {L L' : Ledger} {d : Disk} {store : SchedulerStore} {b : Bytes}

lemma Commits.accounting (h : Commits L store L') :
    accounting L'.committed = accounting store := by
  cases h with
  | unchanged h => exact h.symm
  | recorded h hs hk => rw [Ledger.push_committed, accounting_withCheckpoint]

lemma Commits.states_ne_nil {id : String} (h : Commits L store L') (hid : id ∈ store.providers) :
    L'.states ≠ [] := by
  intro he
  have := h.accounting
  rw [Ledger.committed_empty he, accounting_empty] at this
  exact accounting_ne_empty hid this.symm

lemma IsSnapshot.push {s r : SchedulerStore} {hr : RecordOk r} {hk : KeysSubset L.committed r}
    (h : IsSnapshot S L s) : IsSnapshot S (L.push r hr hk) s := by
  obtain ⟨c, hc, hn, h0, x, hx, ha⟩ := h.recorded
  refine ⟨h.ok, c, hc, hn.push, h0, x, ?_, ha⟩
  obtain ⟨hlt, rfl⟩ := List.getElem?_eq_some_iff.mp hx
  exact (List.getElem?_append_left hlt).trans hx

lemma Consistent.of_files {torn : Bytes} (h : Consistent S L torn d) {d' : Disk}
    (hs : d'.snapshots = d.snapshots) (hf : d'.files = d.files) : Consistent S L torn d' := by
  obtain ⟨h1, h2, h3, h4, h5, h6, h7, h8⟩ := h
  rw [← hf] at h1 h3 h4 h6 h7 h8
  rw [← hs] at h5 h6 h7 h8
  exact ⟨h1, h2, h3, h4, h5, h6, h7, h8⟩

/-- The ledger after an append: cut, or complete. -/
lemma Consistent.append (h : Consistent S L [] d) {r : SchedulerStore} (hr : RecordOk r)
    (hk : KeysSubset L.committed r) (hm : d.files .marker ≠ none) {torn : Bytes}
    (ht : newline ∉ torn) :
    Consistent S L torn (d.write .ledger (L.bytes S ++ torn)) ∧
    Consistent S (L.push r hr hk) []
      (d.write .ledger (L.bytes S ++ nextLine S L.header L.states r)) := by
  constructor
  · exact ⟨by simp [Disk.write], ht, h.marker, fun hn => absurd hn hm,
      h.snapshots, h.primary, h.noPrimary, h.backup⟩
  · refine ⟨by simp [Disk.write, Ledger.push_bytes], List.not_mem_nil, ?_,
      fun hn => absurd hn hm, ?_,
      h.primary, h.noPrimary, h.backup⟩
    · intro b hb
      obtain ⟨c, hc, hn⟩ := h.marker b hb
      exact ⟨c, hc, hn.push⟩
    · intro b hb
      obtain ⟨s, hs, his⟩ := h.snapshots b hb
      exact ⟨s, hs, his.push⟩

lemma Consistent.writeMarker (h : Consistent S L [] d) :
    Consistent S L [] (d.write .marker (S.checkpoint.encode (L.last S))) := by
  refine ⟨h.ledger, h.noBreak, ?_, ?_, h.snapshots, h.primary, h.noPrimary, h.backup⟩
  · intro b hb
    simp only [Disk.write, Function.update_self, Option.mem_def, Option.some.injEq] at hb
    exact ⟨_, hb.symm, L.names_last S⟩
  · intro hn
    simp [Disk.write] at hn

lemma Consistent.writeBackup (h : Consistent S L [] d) (hb : b ∈ d.snapshots) :
    Consistent S L [] (d.write .backup b) := by
  refine ⟨h.ledger, h.noBreak, h.marker, h.noMarker, h.snapshots, h.primary, h.noPrimary, ?_⟩
  intro c hc
  simp only [Disk.write, Function.update_self, Option.mem_def, Option.some.injEq] at hc
  exact hc ▸ hb

lemma Consistent.writeSnapshot (h : Consistent S L [] d) {s : SchedulerStore}
    (hs : IsSnapshot S L s) : Consistent S L [] (d.write .primary (S.store.encode s)) := by
  refine ⟨h.ledger, h.noBreak, h.marker, h.noMarker, ?_, ?_, ?_, ?_⟩
  · intro b hb
    rcases List.mem_append.mp hb with hb | hb
    · exact h.snapshots b hb
    · exact ⟨s, List.mem_singleton.mp hb, hs⟩
  · intro b hb
    simp only [Disk.write, Function.update_self, Option.mem_def, Option.some.injEq] at hb
    simp [Disk.write, ← hb]
  · intro hn
    simp [Disk.write] at hn
  · intro b hb
    exact List.mem_append.mpr (.inl (h.backup b hb))

/-- The store that `persist` writes last is a snapshot. -/
lemma isSnapshot_last (hs : StoreOk store) (hne : L.states ≠ [])
    (ha : accounting L.committed = accounting store) :
    IsSnapshot S L (store.withCheckpoint (some (L.last S))) := by
  have hpos : L.states.length ≠ 0 := by simpa using hne
  refine ⟨hs.withCheckpoint _, L.last S, rfl, L.names_last S, ?_, L.committed, ?_, ha⟩
  · rw [L.sequence_last]
    exact hpos
  · rw [L.sequence_last, Ledger.committed, lastState, List.getLast?_eq_getElem?]
    simp [List.getElem?_eq_getElem (show L.states.length - 1 < L.states.length by omega)]

end consistency

/-! ### The files, one call at a time -/

section calls
variable {faults : Prop} {d : Disk} {f : RecoveryFile} {b : Bytes}
  {E : SchedulerError → Disk → Prop}

lemma meets_readOptional {Q : Option Bytes → Disk → Prop} (h : Q (d.files f) d)
    (hE : faults → E (.io f) d) : Meets faults d (readOptional f) Q E :=
  meets_bind <| meets_nextIo (meets_bind (meets_get (meets_pure h)))
    fun hf _ => meets_fail (hE hf)

lemma meets_readRequired {Q : Bytes → Disk → Prop} (hb : d.files f = some b) (h : Q b d)
    (hE : faults → E (.io f) d) : Meets faults d (readRequired f) Q E := by
  refine meets_bind (meets_readOptional (meets_ofExcept ?_ ?_) hE) <;>
    simp only [hb, require, Option.elim_some]
  · rintro a ⟨⟩
    exact h
  · rintro e ⟨⟩

lemma meets_metadataLen {Q : ℕ → Disk → Prop} (hb : d.files f = some b) (h : Q b.length d)
    (hE : faults → E (.io f) d) : Meets faults d (metadataLen f) Q E := by
  refine meets_bind (meets_readOptional (meets_ofExcept ?_ ?_) hE) <;>
    simp only [hb, require, Option.elim_some, Option.map_some]
  · rintro a ⟨⟩
    exact h
  · rintro e ⟨⟩

lemma meets_atomicWrite {Q : Unit → Disk → Prop} (h : Q () (d.write f b))
    (hE : faults → E (.io f) d ∧ E (.io f) (d.write f b)) :
    Meets faults d (atomicWrite f b) Q E := by
  refine meets_bind (meets_nextIo (meets_modify h) fun hf k => ?_)
  rcases k with _ | k
  · exact meets_fail (hE hf).1
  · exact meets_bind (meets_modify (meets_fail (hE hf).2))

lemma meets_writeSynced {Q : Unit → Disk → Prop} {old : Bytes} (hold : d.files f = some old)
    (h : Q () (d.write f (old ++ b)))
    (hE : faults → ∀ k, E (.io f) (d.write f (old ++ b.take k))) :
    Meets faults d (writeSynced f b) Q E := by
  refine meets_bind (meets_get (meets_bind (meets_ofExcept ?_ ?_))) <;>
    simp only [hold, require, Option.elim_some]
  · rintro a ⟨⟩
    refine meets_bind (meets_nextIo (meets_modify h) fun hf k => ?_)
    exact meets_bind (meets_modify (meets_fail (hE hf k)))
  · rintro e ⟨⟩

lemma meets_onDisk {α : Type} {s : Session} {c : Faulty Disk SchedulerError α}
    {Q : α → Session → Prop} {E : SchedulerError → Session → Prop}
    (h : Meets faults s.disk c (fun a disk => Q a { s with disk }) fun e disk =>
      E e { s with disk }) : Meets faults s (onDisk c) Q E :=
  meets_zoom h

end calls

/-! ### One call of `persist` -/

section persist
variable {S : Serde} {L L' : Ledger} {faults : Prop} {s : Session}

lemma newline_notMem_take {k : ℕ} {header : Header} {states : List SchedulerStore}
    {store : SchedulerStore} (hk : k < (nextLine S header states store).length) :
    newline ∉ (nextLine S header states store).take k := by
  rw [nextLine, take_of_lt_line hk]
  exact fun h => S.record.no_newline _ (List.mem_of_mem_take h)

/-- What a session whose recovery set it holds may go on to write. -/
structure Ready (S : Serde) (L : Ledger) (s : Session) : Prop where
  consistent : Consistent S L [] s.disk
  held : Held S L s.persistence s.disk
  storeOk : StoreOk s.store
  keys : KeysSubset L.committed s.store
  nonempty : ∃ id, id ∈ s.store.providers

/-- What is the same before and after the accounting is committed. -/
structure SameSnapshot (s s' : Session) : Prop where
  store : s'.store = s.store
  snapshotDigest : s'.persistence.snapshotDigest = s.persistence.snapshotDigest
  poisoned : s'.persistence.poisoned = s.persistence.poisoned
  primary : s'.disk.files .primary = s.disk.files .primary
  snapshots : s'.disk.snapshots = s.disk.snapshots
  persists : s'.disk.persists = s.disk.persists

lemma commitAccounting_spec (hs : Ready S L s) :
    Meets faults s (commitAccounting S)
      (fun _ s' => SameSnapshot s s' ∧ ∃ L', Commits L s.store L' ∧ Ready S L' s')
      fun _ s' => SameSnapshot s s' ∧ (faults ∨ u64Max ≤ s.persistence.checkpoint.sequence ∧
          accounting s.store ≠ accounting s.persistence.committed) ∧
        ∃ L' torn, Interrupted S L s.store L' torn ∧ Consistent S L' torn s'.disk := by
  obtain ⟨hC, hH, hok, hk, hne⟩ := hs
  refine meets_bind (meets_get ?_)
  rw [hH.committed, hH.checkpoint]
  by_cases ha : accounting s.store = accounting L.committed
  · rw [if_pos ha]
    exact meets_pure ⟨⟨rfl, rfl, rfl, rfl, rfl, rfl⟩, L, .unchanged ha, hC, hH, hok, hk, hne⟩
  rw [if_neg ha]
  have hm : s.disk.files .marker ≠ none := by simp [hH.marker]
  have hold : s.disk.files .ledger = some (L.bytes S) := by simpa using hC.ledger
  refine meets_bind (meets_ensure (fun hseq => ?_) fun hseq =>
    ⟨⟨rfl, rfl, rfl, rfl, rfl, rfl⟩, .inr ⟨by omega, ha⟩, L, [], .before, hC⟩)
  have hk : KeysSubset L.committed (s.store.withCheckpoint none) := hk
  have hlast := Ledger.push_last (S := S) hok.toRecord hk
  have hline : line (S.record.encode (Record.after S (L.last S) (s.store.withCheckpoint none))) =
      nextLine S L.header L.states (s.store.withCheckpoint none) := rfl
  simp only [appendRecord, ← hlast, hline]
  refine meets_bind (meets_onDisk (meets_writeSynced hold ?_ fun hf k => ?_))
  · -- the record is complete
    have hC' := (hC.append hok.toRecord hk hm List.not_mem_nil).2
    refine meets_bind (meets_onDisk (meets_atomicWrite (meets_modify ?_) fun hf => ?_))
    · refine ⟨⟨rfl, rfl, rfl, rfl, rfl, rfl⟩, _, .recorded ha hok.toRecord hk, hC'.writeMarker,
        ⟨rfl, ?_, ?_, ?_⟩, hok, ?_, hne⟩
      · exact (Ledger.push_committed hok.toRecord hk).symm
      · simp [Disk.write]
      · change s.persistence.ledgerLen + _ = _
        rw [hH.ledgerLen, Ledger.push_bytes, List.length_append]
      · rw [Ledger.push_committed]
        exact fun _ h => h
    · exact ⟨⟨⟨rfl, rfl, rfl, rfl, rfl, rfl⟩, .inl hf, _, [],
          .after (.recorded ha hok.toRecord hk), hC'⟩,
        ⟨rfl, rfl, rfl, rfl, rfl, rfl⟩, .inl hf, _, [],
          .after (.recorded ha hok.toRecord hk), hC'.writeMarker⟩
  · -- the append was cut
    refine ⟨⟨rfl, rfl, rfl, rfl, rfl, rfl⟩, .inl hf, ?_⟩
    rcases Nat.lt_or_ge k (nextLine S L.header L.states (s.store.withCheckpoint none)).length
      with hk' | hk'
    · rcases Nat.eq_zero_or_pos k with rfl | h0
      · refine ⟨L, [], .before, ?_⟩
        exact (hC.append hok.toRecord hk hm List.not_mem_nil).1
      · exact ⟨L, _, .torn ha k (by omega) hk',
          (hC.append hok.toRecord hk hm (newline_notMem_take hk')).1⟩
    · rw [List.take_of_length_le hk']
      exact ⟨_, [], .after (.recorded ha hok.toRecord hk),
        (hC.append hok.toRecord hk hm List.not_mem_nil).2⟩

lemma filesUnchanged_spec {d : Disk} {p : Persistence} {previous : Option Bytes}
    (hC : Consistent S L [] d) (hH : Held S L p d) :
    Meets faults d (filesUnchanged S previous p.checkpoint p)
      (fun b d' => d' = d ∧ (b = true ↔ previous.map S.digest = p.snapshotDigest))
      fun _ d' => d' = d ∧ faults := by
  unfold filesUnchanged
  have hold : d.files .ledger = some (L.bytes S) := by simpa using hC.ledger
  by_cases hd : previous.map S.digest = p.snapshotDigest
  · rw [if_neg (by simp [hd])]
    refine meets_bind (meets_metadataLen hold (meets_pure ⟨rfl, ?_⟩) fun hf => ⟨rfl, hf⟩)
    simp [hH.ledgerLen, hd]
  · rw [if_pos (by simp [hd])]
    exact meets_pure ⟨rfl, by simp [hd]⟩

/-- A call of `persist` that succeeded. -/
structure Persisted (S : Serde) (L L' : Ledger) (s s' : Session) : Prop where
  commits : Commits L s.store L'
  ready : Ready S L' s'
  store : s'.store = s.store.withCheckpoint (some (L'.last S))
  poisoned : s'.persistence.poisoned = false
  snapshotDigest : s'.persistence.snapshotDigest = (s'.disk.files .primary).map S.digest
  primary : s'.disk.files .primary = some (S.store.encode s'.store)
  snapshots : s'.disk.snapshots = s.disk.snapshots ++ [S.store.encode s'.store]
  persists : s'.disk.persists = s.disk.persists

/-- A call of `persist` that failed. -/
structure Broken (S : Serde) (L L' : Ledger) (torn : Bytes) (s s' : Session) : Prop where
  interrupted : Interrupted S L s.store L' torn
  consistent : Consistent S L' torn s'.disk
  poisoned : s'.persistence.poisoned = true
  store : ∃ c, s'.store = s.store.withCheckpoint c
  snapshots : s'.disk.snapshots = s.disk.snapshots ∨
    ∃ c, s'.disk.snapshots = s.disk.snapshots ++ [S.store.encode (s.store.withCheckpoint c)]
  persists : s'.disk.persists = s.disk.persists

/-- Between the commit of the accounting and the end of `persist`. -/
structure Committed (S : Serde) (L L' : Ledger) (s s' : Session) : Prop where
  commits : Commits L s.store L'
  ready : Ready S L' s'
  store : ∃ c, s'.store = s.store.withCheckpoint c
  poisoned : s'.persistence.poisoned = true
  snapshots : s'.disk.snapshots = s.disk.snapshots
  persists : s'.disk.persists = s.disk.persists

lemma Committed.broken {s' : Session} (h : Committed S L L' s s') : Broken S L L' [] s s' :=
  ⟨.after h.commits, h.ready.consistent, h.poisoned, h.store, .inl h.snapshots, h.persists⟩

lemma Committed.backup {s' : Session} {b : Bytes} (h : Committed S L L' s s')
    (hb : b ∈ s.disk.snapshots) :
    Committed S L L' s { s' with disk := s'.disk.write .backup b } := by
  obtain ⟨hC, hH, hok, hk, hid⟩ := h.ready
  refine ⟨h.commits, ⟨hC.writeBackup (h.snapshots ▸ hb), ⟨hH.checkpoint, hH.committed, ?_,
    hH.ledgerLen⟩, hok, hk, hid⟩, h.store, h.poisoned, h.snapshots, h.persists⟩
  simpa [Disk.write] using hH.marker

lemma replaceSnapshot_spec {s' : Session} (h : Committed S L L' s s')
    (hst : s'.store = s.store.withCheckpoint (some (L'.last S))) :
    Meets faults s' (replaceSnapshot S) (fun _ t => Persisted S L L' s t)
      fun _ t => faults ∧ Broken S L L' [] s t := by
  obtain ⟨hC, hH, hok, hk, id, hid⟩ := h.ready
  have hid' : id ∈ s.store.providers := by rwa [hst] at hid
  have hne : L'.states ≠ [] := h.commits.states_ne_nil hid'
  have hsnap : IsSnapshot S L' s'.store := by
    have hacc : accounting L'.committed = accounting s'.store := by
      rw [h.commits.accounting, hst, accounting_withCheckpoint]
    have := isSnapshot_last (S := S) hok hne hacc
    rwa [hst] at this ⊢
  refine meets_bind (meets_get (meets_bind (meets_onDisk (meets_atomicWrite
    (meets_modify ?_) fun hf => ⟨⟨hf, h.broken⟩, hf, ?_⟩))))
  · refine ⟨h.commits, ⟨hC.writeSnapshot hsnap, ⟨hH.checkpoint, hH.committed, ?_, hH.ledgerLen⟩,
      hok, hk, id, hid⟩, hst, rfl, ?_, ?_, ?_, h.persists⟩
    · simpa [Disk.write] using hH.marker
    · simp [Disk.write]
    · simp [Disk.write]
    · simp [Disk.write, h.snapshots]
  · exact ⟨.after h.commits, hC.writeSnapshot hsnap, h.poisoned, h.store,
      .inr ⟨some (L'.last S), by simp [Disk.write, h.snapshots, hst]⟩, h.persists⟩

lemma writeSnapshot_spec {s' : Session} (h : Committed S L L' s s') {previous : Option Bytes}
    (hprev : ∀ b ∈ previous, b ∈ s.disk.snapshots) :
    Meets faults s' (writeSnapshot S previous) (fun _ t => Persisted S L L' s t)
      fun _ t => faults ∧ Broken S L L' [] s t := by
  obtain ⟨c, hc⟩ := h.store
  have hst : s'.store.withCheckpoint (some s'.persistence.checkpoint) =
      s.store.withCheckpoint (some (L'.last S)) := by
    rw [hc, h.ready.held.checkpoint]
    rfl
  have hmid : Committed S L L' s { s' with
      store := s'.store.withCheckpoint (some s'.persistence.checkpoint) } :=
    ⟨h.commits, ⟨h.ready.consistent, h.ready.held, h.ready.storeOk.withCheckpoint _,
      h.ready.keys, h.ready.nonempty⟩, ⟨_, hst⟩, h.poisoned, h.snapshots, h.persists⟩
  refine meets_bind (meets_modify (meets_bind (meets_onDisk ?_)))
  rcases previous with _ | b
  · exact meets_pure (replaceSnapshot_spec hmid hst)
  · have hb := hprev b rfl
    exact meets_atomicWrite (replaceSnapshot_spec (hmid.backup hb) hst)
      fun hf => ⟨⟨hf, hmid.broken⟩, hf, (hmid.backup hb).broken⟩

/-- Why a call of `persist` may fail. -/
def Refused (S : Serde) (faults : Prop) (s : Session) : Prop :=
  faults ∨ (u64Max ≤ s.persistence.checkpoint.sequence ∧
    accounting s.store ≠ accounting s.persistence.committed) ∨
    s.persistence.snapshotDigest ≠ (s.disk.files .primary).map S.digest

variable (faults) in
/-- **One call of `persist`**: the accounting is committed and a snapshot of it written, or the
session is poisoned and its ledger holds the old accounting or the new. -/
theorem persist_spec (hs : Ready S L s) (hp : s.persistence.poisoned = false) :
    Meets faults s (persist S) (fun _ t => ∃ L', Persisted S L L' s t)
      fun _ t => Refused S faults s ∧ ∃ L' torn, Broken S L L' torn s t := by
  have hpoison : Ready S L { s with persistence := { s.persistence with poisoned := true } } :=
    ⟨hs.consistent, ⟨hs.held.checkpoint, hs.held.committed, hs.held.marker, hs.held.ledgerLen⟩,
      hs.storeOk, hs.keys, hs.nonempty⟩
  have hbefore : Broken S L L [] s
      { s with persistence := { s.persistence with poisoned := true } } :=
    ⟨.before, hs.consistent, rfl, ⟨_, rfl⟩, .inl rfl, rfl⟩
  refine meets_bind (meets_get (meets_bind (meets_ensure (fun _ => ?_) fun h => absurd hp h)))
  refine meets_bind (meets_modify (meets_bind (meets_ofExcept (fun _ _ => ?_) fun e he =>
    absurd hs.storeOk.valid (validateStore_error he))))
  refine meets_bind (meets_onDisk (meets_readOptional ?_ fun hf =>
    ⟨.inl hf, L, [], hbefore⟩))
  refine meets_bind (meets_onDisk (meets_readRequired hs.held.marker ?_ fun hf =>
    ⟨.inl hf, L, [], hbefore⟩))
  refine meets_bind (meets_ofExcept (fun c hc => ?_) fun e he => ?_)
  · have hc : c = s.persistence.checkpoint := by
      rw [hs.held.checkpoint]
      simpa [parse, S.checkpoint.decode_encode, Except.mapError] using hc.symm
    subst hc
    refine meets_bind (meets_onDisk (meets_mono
      (filesUnchanged_spec hs.consistent hs.held) ?_ ?_))
    · rintro unchanged _ ⟨rfl, hd⟩
      refine meets_bind (meets_ensure (fun _ => ?_) fun hne => ?_)
      · refine meets_bind (meets_mono (commitAccounting_spec hpoison) ?_ ?_)
        · rintro _ s' ⟨hsame, L', hcommit, hready⟩
          have hmid : Committed S L L' s s' := ⟨hcommit, hready, ⟨_, hsame.store⟩,
            hsame.poisoned, hsame.snapshots, hsame.persists⟩
          exact meets_mono (writeSnapshot_spec hmid fun b hb => hs.consistent.primary b hb)
            (fun _ t ht => ⟨L', ht⟩) fun _ t ht => ⟨.inl ht.1, L', [], ht.2⟩
        · rintro e s' ⟨hsame, hwhy, L', torn, hint, hcon⟩
          exact ⟨hwhy.imp_right .inl, L', torn, hint, hcon, hsame.poisoned, ⟨_, hsame.store⟩,
            .inl hsame.snapshots, hsame.persists⟩
      · exact ⟨.inr (.inr fun h => hne (hd.mpr h.symm)), L, [], hbefore⟩
    · rintro e _ ⟨rfl, hf⟩
      exact ⟨.inl hf, L, [], hbefore⟩
  · simp [parse, S.checkpoint.decode_encode, Except.mapError] at he

variable (faults) in
/-- A poisoned session writes nothing. -/
lemma persist_poisoned (hp : s.persistence.poisoned = true) :
    Meets faults s (persist S) (fun _ _ => False) fun _ t => t = s :=
  meets_bind (meets_get (meets_bind (meets_ensure (fun h => by simp [hp] at h) fun _ => rfl)))

end persist
end Netband.Recovery

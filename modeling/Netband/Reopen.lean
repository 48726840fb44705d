import Netband.Recovery

/-!
Opening a recovery set. On whatever a sequence of interrupted writes can leave, opening
gives every provider the accounting of the last record, or it fails: on a torn record, on a
snapshot that was never written, or on a failing call.
-/

namespace Netband.Recovery

open Netband.Time Netband.Model Netband.State Netband.Effects Netband.Lines Faulty

variable {S : Serde} {L : Ledger} {torn : Bytes} {d d' : Disk} {faults : Prop}
  {E : SchedulerError → Disk → Prop}

/-! ### What is validated -/

lemma validateCheckpoint_names {path : RecoveryFile} {c : Checkpoint} (h : L.Names S c) :
    validateCheckpoint path c (L.log S) = .ok () :=
  if_neg (not_not_intro h)

lemma validateMarker_names {c : Checkpoint} (h : L.Names S c) :
    validateMarker S (some (S.checkpoint.encode c)) (L.log S) = .ok () := by
  simp [validateMarker, parse, S.checkpoint.decode_encode, Except.mapError, bind, Except.bind,
    validateCheckpoint_names h]

lemma validateSnapshot_snapshot {s : SchedulerStore} (h : IsSnapshot S L s) :
    validateSnapshot s (L.log S) = .ok () := by
  obtain ⟨c, hc, hn, h0, r, hr, ha⟩ := h.recorded
  rw [Option.mem_def] at hc hr
  simp [validateSnapshot, require, hc, bind, Except.bind, validateCheckpoint_names hn, h0,
    Ledger.log_states, hr, ha]

/-- A snapshot is of a provider set that the last record has. -/
lemma IsSnapshot.keys {s : SchedulerStore} (h : IsSnapshot S L s) :
    KeysSubset s L.committed := by
  obtain ⟨c, -, -, -, r, hr, ha⟩ := h.recorded
  exact fun id hid => Ledger.keys_committed (List.mem_of_getElem? hr) id
    (keysSubset_of_accounting ha.symm id hid)

lemma IsSnapshot.states_ne_nil {s : SchedulerStore} (h : IsSnapshot S L s) : L.states ≠ [] := by
  obtain ⟨c, -, -, -, r, hr, -⟩ := h.recorded
  exact List.ne_nil_of_mem (List.mem_of_getElem? hr)

/-- A snapshot whose checkpoint is the last one has the accounting of the last record. -/
lemma IsSnapshot.accounting_last {s : SchedulerStore} (h : IsSnapshot S L s)
    (hc : s.checkpoint = some (L.last S)) : accounting s = accounting L.committed := by
  obtain ⟨c, hc', -, h0, r, hr, ha⟩ := h.recorded
  obtain rfl : L.last S = c := Option.some.inj (hc.symm.trans hc')
  rw [L.sequence_last] at hr
  rw [← ha, Ledger.committed, lastState, List.getLast?_eq_getElem?, hr]
  rfl

lemma Consistent.snapshots_nil (h : Consistent S L torn d) (hs : L.states = []) :
    d.snapshots = [] := by
  rw [List.eq_nil_iff_forall_not_mem]
  intro b hb
  obtain ⟨s, -, hsnap⟩ := h.snapshots b hb
  exact hsnap.states_ne_nil hs

lemma Consistent.no_files (h : Consistent S L torn d) (hs : d.snapshots = []) :
    d.files .primary = none ∧ d.files .backup = none := by
  constructor
  · refine Option.eq_none_iff_forall_not_mem.mpr fun b hb => ?_
    simpa [hs] using h.primary b hb
  · refine Option.eq_none_iff_forall_not_mem.mpr fun b hb => ?_
    simpa [hs] using h.backup b hb

/-! ### Reachable recovery sets -/

/-- What is on the disk: nothing, or a ledger that committed the given stores. -/
inductive Sound (S : Serde) (d : Disk) : List SchedulerStore → Bytes → Prop
  | untouched (h : Untouched d) : Sound S d [] []
  | consistent {L : Ledger} {torn : Bytes} (h : Consistent S L torn d) : Sound S d L.states torn

/-- What opening does not change. -/
structure SameSnapshots (d d' : Disk) : Prop where
  primary : d'.files .primary = d.files .primary
  snapshots : d'.snapshots = d.snapshots
  persists : d'.persists = d.persists

/-- A provider record of a snapshot or of the last committed store. -/
def Stored (S : Serde) (L : Ledger) (d : Disk) (id : String) (st : ProviderState) : Prop :=
  (∃ s, S.store.encode s ∈ d.snapshots ∧ s.providers[id]? = some st) ∨
    L.committed.providers[id]? = some st

/-- A recovery set that was opened. -/
structure Opened (S : Serde) (L : Ledger) (d d' : Disk) (p : Persistence)
    (store : SchedulerStore) (recovered : Bool) : Prop where
  consistent : Consistent S L [] d'
  held : Held S L p d'
  poisoned : p.poisoned = false
  snapshotDigest : p.snapshotDigest = (d'.files .primary).map S.digest
  same : SameSnapshots d d'
  storeOk : StoreOk store
  accounting : accounting store = accounting L.committed
  /-- Every provider record was stored, or stored and then replayed. -/
  origin : ∀ id st, store.providers[id]? = some st → Stored S L d id st ∨
    ∃ st' r, Stored S L d id st' ∧ L.committed.providers[id]? = some r ∧
      st = replayAccounting st' r
  /-- A snapshot of the last record is taken as it is. -/
  current : ∀ s, d.files .primary = some (S.store.encode s) →
    s.checkpoint = some (L.last S) → store = s ∧ recovered = false
  unrecovered : L.states = [] → recovered = false
  checkpoint : store.checkpoint = some (L.last S)
  /-- A store that is not recovered is the snapshot as it is. -/
  written : recovered = false → ∀ b ∈ d.files .primary, b = S.store.encode store

/-- The stores of an installation whose first snapshot may still be missing. -/
def Resumable (states : List SchedulerStore) : Prop :=
  states.length ≤ 1 ∧ states.all fun s => s.providers.toList.all fun p => unused p.2

/-- Why a recovery set may be refused. -/
def OpenRefused (d : Disk) (states : List SchedulerStore) (torn : Bytes) (random : Random) : Prop :=
  torn ≠ [] ∨ (d.files .ledger = none ∧ ∃ e, random = .error e) ∨
    d.files .primary = none ∧ ¬ Resumable states

/-- A recovery set that was not opened. -/
structure NotOpened (S : Serde) (faults : Prop) (states : List SchedulerStore) (torn : Bytes)
    (random : Random) (d : Disk) (e : SchedulerError) (d' : Disk) : Prop where
  sound : Sound S d' states torn
  same : SameSnapshots d d'
  why : faults ∨ (∃ path message, e = .corrupt path message) ∧ OpenRefused d states torn random
  /-- A torn ledger is left as it is. -/
  ledger : torn ≠ [] → d'.files .ledger = d.files .ledger

lemma SameSnapshots.refl (d : Disk) : SameSnapshots d d := ⟨rfl, rfl, rfl⟩

/-! ### The last part of opening -/

lemma writeMarker_spec {d₀ : Disk} (hC : Consistent S L [] d) (hsame : SameSnapshots d₀ d) :
    Meets faults d (writeMarker S (d.files .marker) (L.last S))
      (fun _ d' => Consistent S L [] d' ∧ SameSnapshots d₀ d' ∧
        d'.files .marker = some (S.checkpoint.encode (L.last S)))
      fun _ d' => faults ∧ Consistent S L [] d' ∧ SameSnapshots d₀ d' := by
  unfold writeMarker
  by_cases hm : d.files .marker = some (S.checkpoint.encode (L.last S))
  · rw [if_pos hm]
    exact meets_pure ⟨hC, hsame, hm⟩
  · rw [if_neg hm]
    have hsame' : SameSnapshots d₀ (d.write .marker (S.checkpoint.encode (L.last S))) :=
      ⟨by simpa [Disk.write] using hsame.primary, hsame.snapshots, hsame.persists⟩
    exact meets_atomicWrite ⟨hC.writeMarker, hsame', by simp [Disk.write]⟩
      fun hf => ⟨⟨hf, hC, hsame⟩, hf, hC.writeMarker, hsame'⟩

/-- A store that opening starts from, before it is replayed. -/
structure Start (S : Serde) (L : Ledger) (d : Disk) (fresh : Bool) (store : SchedulerStore) :
    Prop where
  started : d.files .primary ≠ none → fresh = false ∧ L.states ≠ []
  ok : StoreOk store
  keys : KeysSubset store L.committed
  fresh : fresh = true → L.states = []
  last : store.checkpoint = some (L.last S) → accounting store = accounting L.committed
  empty : L.states = [] → accounting store = accounting L.committed
  stored : ∀ id st, store.providers[id]? = some st → Stored S L d id st
  primary : ∀ b ∈ d.files .primary, b = S.store.encode store

/-- The store is replayed, as its snapshot is not the last one. -/
def recovers (S : Serde) (L : Ledger) (fresh : Bool) (store : SchedulerStore) : Bool :=
  !fresh && !(L.log S).states.isEmpty && store.checkpoint != some (L.last S)

lemma Start.current {fresh : Bool} {store s : SchedulerStore} (h : Start S L d fresh store)
    (hs : d.files .primary = some (S.store.encode s)) (hc : s.checkpoint = some (L.last S)) :
    store = s ∧ recovers S L fresh store = false := by
  obtain rfl := S.store.encode_injective (h.primary _ hs)
  exact ⟨rfl, by simp [recovers, hc]⟩

lemma Start.opened {fresh : Bool} {store : SchedulerStore} {p : Persistence}
    {d₀ : Disk} (h : Start S L d₀ fresh store) (hC : Consistent S L [] d) (hH : Held S L p d)
    (hp : p.poisoned = false) (hd : p.snapshotDigest = (d.files .primary).map S.digest)
    (hsame : SameSnapshots d₀ d) :
    Opened S L d₀ d p ((if recovers S L fresh store then replayStore store L.committed
      else store).withCheckpoint (some (L.last S))) (recovers S L fresh store) := by
  have hcommitted := L.storeOk_committed
  split
  · rename_i hrec
    refine ⟨hC, hH, hp, hd, hsame, (storeOk_replay h.ok hcommitted).withCheckpoint _, ?_, ?_,
      fun s hs hc => by simp [(h.current hs hc).2] at hrec,
      fun hs => by simp [recovers, Ledger.log_states, hs], rfl,
      fun hno => by rw [hrec] at hno; cases hno⟩
    · rw [accounting_withCheckpoint, accounting_replay h.keys]
    · intro id st hst
      simp only [SchedulerStore.withCheckpoint, replayStore, replay_get] at hst
      cases hs : store.providers[id]? <;> cases hr : L.committed.providers[id]? <;>
        rw [hs, hr] at hst <;> simp only [replayed, Option.some.injEq, reduceCtorEq] at hst
      · exact .inl (.inr (hst ▸ hr))
      · exact .inl (h.stored id st (hst ▸ hs))
      · exact .inr ⟨_, _, h.stored id _ hs, rfl, hst.symm⟩
  · rename_i hrec
    refine ⟨hC, hH, hp, hd, hsame, h.ok.withCheckpoint _, ?_, fun id st hst =>
      .inl (h.stored id st hst), fun s hs hc => ?_,
      fun hs => by simp [recovers, Ledger.log_states, hs], rfl, fun _ b hb => ?_⟩
    rotate_left
    · obtain ⟨rfl, hr⟩ := h.current hs hc
      exact ⟨by simp [SchedulerStore.withCheckpoint, ← hc], hr⟩
    · obtain ⟨hfresh, hstates⟩ := h.started (by simp [Option.mem_def.mp hb])
      have hc : store.checkpoint = some (L.last S) := by
        rw [recovers, Ledger.log_states] at hrec
        simpa [hfresh, hstates] using hrec
      rw [h.primary b hb]
      simp [SchedulerStore.withCheckpoint, ← hc]
    rw [accounting_withCheckpoint]
    rw [recovers, Ledger.log_states] at hrec
    by_cases hfresh : fresh = true
    · exact h.empty (h.fresh hfresh)
    · by_cases hs : L.states = []
      · exact h.empty hs
      · exact h.last (by simpa [hfresh, hs] using hrec)

variable (faults) in
lemma recoverStore_spec {fresh : Bool} {store : SchedulerStore} {d₀ : Disk}
    (h : Start S L d₀ fresh store) (hC : Consistent S L [] d) (hsame : SameSnapshots d₀ d) :
    Meets faults d (recoverStore S fresh (d.files .primary) (d.files .marker) store (L.log S))
      (fun r d' => Opened S L d₀ d' r.1 r.2.1 r.2.2)
      fun _ d' => faults ∧ Consistent S L [] d' ∧ SameSnapshots d₀ d' := by
  unfold recoverStore
  refine meets_bind (meets_mono (writeMarker_spec hC hsame) ?_ fun _ _ h => h)
  rintro _ d' ⟨hC', hsame', hm⟩
  have hledger : d'.files .ledger = some (L.bytes S) := by simpa using hC'.ledger
  refine meets_bind (meets_metadataLen hledger (meets_pure ?_) fun hf => ⟨hf, hC', hsame'⟩)
  rw [L.log_committed]
  refine h.opened hC' ⟨rfl, rfl, hm, rfl⟩ rfl ?_ hsame'
  rw [hsame'.primary, ← hsame.primary]

/-! ### Opening -/

lemma exists_newLedger (random : Vector UInt8 16) : ∃ L : Ledger, L.states = [] ∧
    L.bytes S = line (S.header.encode (newHeader random)) := by
  refine ⟨⟨_, [], headerOk_newHeader random, by simp, .nil⟩, rfl, ?_⟩
  simp [Ledger.bytes, ledgerBytes, recordLines]

lemma Untouched.newLedger (h : Untouched d) (hs : L.states = []) :
    Consistent S L [] (d.write .ledger (L.bytes S)) := by
  have hf := h.files
  refine ⟨by simp [Disk.write], by simp, ?_, fun _ => ⟨hs, rfl⟩, ?_, ?_, ?_, ?_⟩
  · simp [Disk.write, hf]
  · simp [Disk.write, h.snapshots]
  · simp [Disk.write, hf]
  · simp [Disk.write, h.snapshots]
  · simp [Disk.write, hf]

lemma start_fresh (hs : L.states = []) (hp : d.files .primary = none) :
    Start S L d true {} := by
  refine ⟨by simp [hp], storeOk_empty, fun id h => ?_, fun _ => hs, by simp, fun _ => ?_,
    fun id st h => ?_, by simp [hp]⟩
  · simp at h
  · rw [Ledger.committed_empty hs]
  · simp at h

lemma start_resumed (hp : d.files .primary = none) : Start S L d false L.committed :=
  ⟨by simp [hp], L.storeOk_committed, fun _ h => h, by simp, fun _ => rfl, fun _ => rfl,
    fun _ _ h => .inr h, by simp [hp]⟩

lemma start_snapshot {s : SchedulerStore} (h : IsSnapshot S L s)
    (hp : d.files .primary = some (S.store.encode s)) (hd : S.store.encode s ∈ d.snapshots) :
    Start S L d false s :=
  ⟨fun _ => ⟨rfl, h.states_ne_nil⟩, h.ok, h.keys, by simp, h.accounting_last,
    fun hs => absurd hs h.states_ne_nil, fun _ _ hst => .inl ⟨s, hd, hst⟩, by simp [hp]⟩

variable (faults) in
/-- Opening before anything was committed. -/
lemma open_untouched (h : Untouched d) (random : Random) :
    Meets faults d (openPersistence S random)
      (fun r d' => ∃ L, L.states = [] ∧ Opened S L d d' r.1 r.2.1 r.2.2)
      fun e d' => NotOpened S faults [] [] random d e d' := by
  have hf := h.files
  have hno : ∀ e, faults → NotOpened S faults [] [] random d e d :=
    fun e hfault => ⟨.untouched h, .refl d, .inl hfault, fun _ => rfl⟩
  refine meets_bind (meets_bind (meets_nextIo (meets_pure ?_) fun hfault _ =>
    meets_fail (hno _ hfault)))
  refine meets_bind (meets_readOptional ?_ (hno _))
  refine meets_bind (meets_readOptional ?_ (hno _))
  refine meets_bind (meets_readOptional ?_ (hno _))
  rw [hf, hf, hf]
  refine meets_bind (meets_bind (meets_bind (meets_readOptional (meets_pure ?_) (hno _))))
  rw [hf]
  refine meets_pure (meets_bind (meets_pure (meets_bind (meets_ensure (fun _ => ?_)
    fun hn => absurd (.inl rfl) hn))))
  refine meets_bind (meets_bind (meets_ensure (fun _ => ?_) fun hn => absurd rfl hn))
  refine meets_bind (meets_ofExcept (fun r hr => ?_) fun e he => ?_)
  · obtain ⟨L, hs, hL⟩ := exists_newLedger (S := S) r
    have hC := h.newLedger (S := S) hs
    have hsame : SameSnapshots d (d.write .ledger (L.bytes S)) :=
      ⟨by simp [Disk.write], rfl, rfl⟩
    have hnot : ∀ d', Consistent S L [] d' → SameSnapshots d d' → ∀ e, faults →
        NotOpened S faults [] [] random d e d' :=
      fun d' hC' hsame' e hfault =>
        ⟨hs ▸ .consistent hC', hsame', .inl hfault, fun htorn => absurd rfl htorn⟩
    simp only [← hL]
    refine meets_bind (meets_atomicWrite (meets_ofExcept (fun log hlog => ?_) fun e he => ?_)
      fun hfault => ⟨hno _ hfault, hnot _ hC hsame _ hfault⟩)
    · obtain rfl : L.log S = log := by
        rw [Ledger.readLog_bytes] at hlog
        exact Except.ok.inj hlog
      refine meets_bind (meets_ofExcept (fun _ _ => ?_) fun e he => ?_)
      · have hm : (d.write .ledger (L.bytes S)).files .marker = none := by simp [Disk.write, hf]
        have hp : (d.write .ledger (L.bytes S)).files .primary = none := by simp [Disk.write, hf]
        have := recoverStore_spec faults (start_fresh (d := d) hs (hf _)) hC hsame
        rw [hm, hp] at this
        exact meets_mono this (fun r d' h => ⟨L, hs, h⟩)
          fun e d' h => hnot d' h.2.1 h.2.2 e h.1
      · simp [validateLog, Ledger.log_states, hs] at he
    · rw [Ledger.readLog_bytes] at he
      cases he
  · refine ⟨.untouched h, .refl d, .inr ⟨?_, .inr (.inl ?_)⟩, fun _ => rfl⟩
    all_goals rcases random with e' | r <;> simp only [Except.mapError, reduceCtorEq,
      Except.error.injEq] at he
    · exact ⟨_, _, he.symm⟩
    · exact ⟨hf _, _, rfl⟩

lemma readLog_consistent (h : Consistent S L torn d) {b : Bytes} (hb : d.files .ledger = some b) :
    readLog S .ledger b = if torn = [] then .ok (L.log S)
      else .error (.corrupt .ledger "accounting log has an incomplete final record") := by
  obtain rfl : L.bytes S ++ torn = b := Option.some.inj (h.ledger.symm.trans hb)
  split
  · subst torn
    rw [List.append_nil, Ledger.readLog_bytes]
  · exact readLog_torn ‹_› h.noBreak _

lemma Consistent.notOpened (h : Consistent S L torn d) (random : Random) (e : SchedulerError)
    (hfault : faults) : NotOpened S faults L.states torn random d e d :=
  ⟨.consistent h, .refl d, .inl hfault, fun _ => rfl⟩

/-- The store of an installation whose first snapshot was not written. -/
lemma initialStore_spec (h : Consistent S L torn d) (hprimary : d.files .primary = none)
    {c : Checkpoint} (hm : d.files .marker = some (S.checkpoint.encode c)) (hc : L.Names S c)
    (random : Random) :
    Meets faults d (initialStore S (d.files .marker) (d.files .ledger))
      (fun store d' => d' = d ∧ torn = [] ∧ store = L.committed)
      fun e d' => NotOpened S faults L.states torn random d e d' := by
  have hbackup := (h.no_files (h.noPrimary hprimary)).2
  refine meets_bind (meets_ofExcept (fun b hb => ?_) fun e he => ?_)
  · have hb : d.files .ledger = some b := by
      rw [h.ledger] at hb ⊢
      exact congrArg some (Except.ok.inj hb)
    rw [readLog_consistent h hb]
    refine meets_bind (meets_ofExcept (fun log hlog => ?_) fun e he => ?_)
    · split at hlog
      · rename_i htorn
        cases hlog
        refine meets_bind (meets_ofExcept (fun b' hb' => ?_) fun e he => by
          simp [require, hm] at he)
        obtain rfl : S.checkpoint.encode c = b' := by simpa [require, hm] using hb'
        refine meets_bind (meets_ofExcept (fun c' hc' => ?_) fun e he => by
          simp [parse, S.checkpoint.decode_encode, Except.mapError] at he)
        obtain rfl : c = c' := by
          simpa [parse, S.checkpoint.decode_encode, Except.mapError] using hc'
        refine meets_bind (meets_ofExcept (fun _ _ => ?_) fun e he => by
          simp [validateCheckpoint_names hc] at he)
        refine meets_bind (meets_ensure (fun _ => ?_) fun hno => ?_)
        · refine meets_bind (meets_bind (meets_readOptional (meets_pure ?_)
            (h.notOpened random _)))
          rw [hbackup]
          exact meets_bind (meets_ensure (fun _ => meets_pure ⟨rfl, htorn, L.log_committed S⟩)
            fun hn => absurd rfl hn)
        · rw [L.log_states] at hno
          exact ⟨.consistent h, .refl d, .inr ⟨⟨_, _, rfl⟩, .inr (.inr ⟨hprimary, hno⟩)⟩,
            fun _ => rfl⟩
      · cases hlog
    · split at he
      · cases he
      · cases he
        exact ⟨.consistent h, .refl d, .inr ⟨⟨_, _, rfl⟩, .inl ‹_›⟩, fun _ => rfl⟩
  · rw [h.ledger] at he
    cases he

lemma openLedger_spec (h : Consistent S L torn d) (random : Random) (fresh : Bool) :
    Meets faults d (openLedger S random fresh (d.files .ledger))
      (fun log d' => d' = d ∧ torn = [] ∧ log = L.log S)
      fun e d' => NotOpened S faults L.states torn random d e d' := by
  rw [h.ledger]
  unfold openLedger
  refine meets_ofExcept (fun log hlog => ?_) fun e he => ?_
  · rw [readLog_consistent h h.ledger] at hlog
    split at hlog
    · exact ⟨rfl, ‹_›, (Except.ok.inj hlog).symm⟩
    · cases hlog
  · rw [readLog_consistent h h.ledger] at he
    split at he
    · cases he
    · cases he
      exact ⟨.consistent h, .refl d, .inr ⟨⟨_, _, rfl⟩, .inl ‹_›⟩, fun _ => rfl⟩

variable (faults) in
/-- Opening, from the point where a store was found. -/
lemma open_from_start {fresh : Bool} {store : SchedulerStore} (h : Consistent S L torn d)
    (hst : Start S L d fresh store) (random : Random)
    (hmarker : fresh = true ∨ ∃ c, d.files .marker = some (S.checkpoint.encode c) ∧ L.Names S c)
    (hsnap : fresh = true ∨ d.files .primary = none ∨ IsSnapshot S L store) :
    Meets faults d (do
        ensure (fresh = true ∨ (d.files .marker).getD [] ≠ [])
          (.corrupt .marker "accounting checkpoint is missing or empty")
        let log ← openLedger S random fresh (d.files .ledger)
        ofExcept (validateLog S fresh (d.files .primary).isNone (d.files .marker) store log)
        recoverStore S fresh (d.files .primary) (d.files .marker) store log)
      (fun r d' => torn = [] ∧ Opened S L d d' r.1 r.2.1 r.2.2)
      fun e d' => NotOpened S faults L.states torn random d e d' := by
  refine meets_bind (meets_ensure (fun _ => ?_) fun hn => absurd ?_ hn)
  · refine meets_bind (meets_mono (openLedger_spec h random fresh) ?_ fun _ _ hE => hE)
    rintro log d' ⟨rfl, rfl, rfl⟩
    refine meets_bind (meets_ofExcept (fun _ _ => ?_) fun e he => ?_)
    · exact meets_mono (recoverStore_spec faults hst h (.refl d')) (fun r d' hr => ⟨rfl, hr⟩)
        fun e d' hE =>
          ⟨.consistent hE.2.1, hE.2.2, .inl hE.1, fun htorn => absurd rfl htorn⟩
    · exfalso
      unfold validateLog at he
      rcases hmarker with rfl | ⟨c, hm, hc⟩
      · simp [Ledger.log_states, hst.fresh rfl] at he
      · cases fresh with
        | true => simp [Ledger.log_states, hst.fresh rfl] at he
        | false =>
          rw [hm] at he
          rcases hsnap with hf | hp | hs
          · cases hf
          · simp [hp, validateMarker_names hc] at he
          · simp [validateSnapshot_snapshot hs, validateMarker_names hc, bind, Except.bind] at he
  · rcases hmarker with hf | ⟨c, hm, -⟩
    · exact .inl hf
    · exact .inr (by simpa [hm] using S.checkpoint.encode_ne_nil c)

/-- Opening a ledger that was begun. -/
lemma open_consistent (h : Consistent S L torn d) (random : Random) :
    Meets faults d (openPersistence S random)
      (fun r d' => torn = [] ∧ Opened S L d d' r.1 r.2.1 r.2.2)
      fun e d' => NotOpened S faults L.states torn random d e d' := by
  have hno : ∀ e, faults → NotOpened S faults L.states torn random d e d :=
    fun e hf => h.notOpened random e hf
  refine meets_bind (meets_bind (meets_nextIo (meets_pure ?_) fun hfault _ =>
    meets_fail (hno _ hfault)))
  refine meets_bind (meets_readOptional ?_ (hno _))
  refine meets_bind (meets_readOptional ?_ (hno _))
  refine meets_bind (meets_readOptional (meets_bind ?_) (hno _))
  cases hm : d.files .marker with
  | none =>
    -- only the header was written
    obtain ⟨hs, rfl⟩ := h.noMarker hm
    obtain ⟨hp, hb⟩ := h.no_files (h.snapshots_nil hs)
    simp only [isFresh, hp]
    refine meets_bind (meets_bind (meets_readOptional (meets_pure (meets_pure ?_)) (hno _)))
    rw [hb]
    refine meets_bind (meets_pure ?_)
    have := open_from_start faults h (start_fresh hs hp) random (.inl rfl) (.inl rfl)
    rw [hm, hp] at this
    exact meets_mono this (fun _ _ hr => ⟨trivial, hr.2⟩) fun _ _ hE => hE
  | some m =>
    obtain ⟨c, rfl, hc⟩ := h.marker m hm
    simp only [isFresh, Option.isNone_some, Bool.and_false]
    refine meets_pure (meets_bind ?_)
    cases hp : d.files .primary with
    | none =>
      rw [← hm]
      refine meets_mono (initialStore_spec h hp hm hc random) ?_ fun _ _ hE => hE
      rintro store d' ⟨rfl, rfl, rfl⟩
      have := open_from_start faults h (start_resumed hp) random (.inr ⟨c, hm, hc⟩)
        (.inr (.inl hp))
      rwa [hp] at this
    | some b =>
      have hb := h.primary b hp
      obtain ⟨s, rfl, hs⟩ := h.snapshots b hb
      refine meets_ofExcept (fun store hstore => ?_) fun e he => ?_
      · obtain rfl : s = store := by
          rw [parseStore_encode S hs.ok] at hstore
          exact Except.ok.inj hstore
        have := open_from_start faults h (start_snapshot hs hp hb) random
          (.inr ⟨c, hm, hc⟩) (.inr (.inr hs))
        rwa [hp, hm] at this
      · rw [parseStore_encode S hs.ok] at he
        cases he

/-- **Opening a recovery set**: it succeeds with the accounting of the last record, or it fails
and leaves everything that was written. -/
theorem open_spec {states : List SchedulerStore} (h : Sound S d states torn) (random : Random) :
    Meets faults d (openPersistence S random)
      (fun r d' => torn = [] ∧ ∃ L, L.states = states ∧ Opened S L d d' r.1 r.2.1 r.2.2)
      fun e d' => NotOpened S faults states torn random d e d' := by
  cases h with
  | untouched h =>
    exact meets_mono (open_untouched faults h random) (fun _ _ hr => ⟨rfl, hr⟩) (fun _ _ hE => hE)
  | consistent h =>
    exact meets_mono (open_consistent h random) (fun _ _ hr => ⟨hr.1, _, rfl, hr.2⟩)
      (fun _ _ hE => hE)

end Netband.Recovery

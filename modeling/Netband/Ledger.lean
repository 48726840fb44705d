import Netband.Persistence

/-!
What the accounting ledger holds: a header and one record for each committed store, chained
by their digests. Reading such a ledger gives back the stores, and replaying its last record
gives every provider the accounting of that record.
-/

namespace Netband.Recovery

open Netband.Time Netband.Model Netband.State Netband.Effects Netband.Lines

/-! ### Stores -/

/-- A store that may be written and read back. -/
structure StoreOk (store : SchedulerStore) : Prop where
  schema : store.schemaVersion = stateSchemaVersion
  valid : ∀ id st, store.providers[id]? = some st → ValidState id st

/-- A store that may be recorded in the ledger. -/
structure RecordOk (store : SchedulerStore) : Prop extends StoreOk store where
  checkpoint : store.checkpoint = none

/-- Every provider of one store is in the other. -/
def KeysSubset (a b : SchedulerStore) : Prop := ∀ id, id ∈ a.providers → id ∈ b.providers

lemma storeOk_empty : StoreOk {} := ⟨rfl, fun id st h => by simp at h⟩

lemma StoreOk.withCheckpoint {store : SchedulerStore} (h : StoreOk store)
    (c : Option Checkpoint) : StoreOk (store.withCheckpoint c) :=
  ⟨h.schema, h.valid⟩

lemma StoreOk.toRecord {store : SchedulerStore} (h : StoreOk store) :
    RecordOk (store.withCheckpoint none) :=
  ⟨h.withCheckpoint none, rfl⟩

lemma mem_toList {store : SchedulerStore} {p : String × ProviderState} :
    p ∈ store.providers.toList ↔ store.providers[p.1]? = some p.2 :=
  Std.ExtTreeMap.mem_toList_iff_getElem?_eq_some

lemma validateStore_eq_ok {path : RecoveryFile} {store : SchedulerStore} :
    validateStore path store = .ok () ↔
      ∀ id st, store.providers[id]? = some st → ValidState id st := by
  have h : store.providers.toList.any (fun p => invalidState p.1 p.2) = false ↔
      ∀ id st, store.providers[id]? = some st → ValidState id st := by
    simp only [List.any_eq_false, Prod.forall, mem_toList, Bool.not_eq_true,
      invalidState_eq_false]
  rw [← h]
  unfold validateStore
  cases store.providers.toList.any fun p => invalidState p.1 p.2 <;> simp

lemma validateStore_error {path : RecoveryFile} {store : SchedulerStore} {e : SchedulerError}
    (h : validateStore path store = .error e) :
    ¬ ∀ id st, store.providers[id]? = some st → ValidState id st := by
  intro hv
  rw [validateStore_eq_ok.mpr hv] at h
  cases h

lemma parseStore_encode (S : Serde) {path : RecoveryFile} {store : SchedulerStore}
    (h : StoreOk store) : parseStore S path (S.store.encode store) = .ok store := by
  simp [parseStore, parse, S.store.decode_encode, Except.mapError, h.schema,
    validateStore_eq_ok.mpr h.valid, bind, Except.bind, pure, Except.pure]

/-! ### Accounting -/

lemma accounting_get (store : SchedulerStore) (id : String) :
    (accounting store)[id]? = store.providers[id]?.map accountingOf := by
  simp [accounting]

lemma accounting_eq_iff {a b : SchedulerStore} : accounting a = accounting b ↔
    ∀ id : String, a.providers[id]?.map accountingOf = b.providers[id]?.map accountingOf := by
  constructor
  · intro h id
    rw [← accounting_get, ← accounting_get, h]
  · intro h
    refine Std.ExtTreeMap.ext_getElem? fun id => ?_
    rw [accounting_get, accounting_get, h id]

@[simp] lemma accounting_withCheckpoint (store : SchedulerStore) (c : Option Checkpoint) :
    accounting (store.withCheckpoint c) = accounting store := rfl

lemma accounting_empty : accounting {} = ∅ := by
  refine Std.ExtTreeMap.ext_getElem? fun id => ?_
  rw [accounting_get]
  simp

lemma accounting_ne_empty {store : SchedulerStore} {id : String} (h : id ∈ store.providers) :
    accounting store ≠ ∅ := by
  intro he
  obtain ⟨st, hst⟩ := Std.ExtTreeMap.mem_iff_isSome_getElem?.mp h |> Option.isSome_iff_exists.mp
  have := accounting_get store id
  rw [he, hst] at this
  simp at this

lemma keysSubset_of_accounting {a b : SchedulerStore} (h : accounting a = accounting b) :
    KeysSubset a b := by
  intro id ha
  have := accounting_eq_iff.mp h id
  rw [Std.ExtTreeMap.mem_iff_isSome_getElem?] at ha ⊢
  cases hb : b.providers[id]? with
  | some st => rfl
  | none =>
    rw [hb] at this
    cases hx : a.providers[id]? <;> simp_all

@[simp] lemma accountingOf_replay (st recorded : ProviderState) :
    accountingOf (replayAccounting st recorded) = accountingOf recorded := rfl

/-- What replay makes of one provider. -/
def replayed (st : Option ProviderState) (recorded : Option ProviderState) :
    Option ProviderState :=
  match st, recorded with
  | st, none => st
  | none, some r => some r
  | some st, some r => some (replayAccounting st r)

lemma replayProvider_get (m : BTreeMap String ProviderState) (p : String × ProviderState)
    (id : String) :
    (replayProvider m p)[id]? = if p.1 = id then replayed m[id]? (some p.2) else m[id]? := by
  unfold replayProvider
  by_cases h : p.1 = id
  · subst h
    cases hm : m[p.1]? <;> simp [replayed]
  · cases hm : m[p.1]? <;> simp [h, Std.ExtTreeMap.getElem?_insert]

lemma foldl_replay_get (id : String) (l : List (String × ProviderState))
    (hl : l.Pairwise fun a b => a.1 ≠ b.1) (m : BTreeMap String ProviderState) :
    (l.foldl replayProvider m)[id]? =
      replayed m[id]? ((l.find? fun p => p.1 = id).map Prod.snd) := by
  induction l generalizing m with
  | nil =>
    rw [List.foldl_nil]
    cases m[id]? <;> rfl
  | cons p l ih =>
    rw [List.pairwise_cons] at hl
    rw [List.foldl_cons, ih hl.2, replayProvider_get]
    by_cases h : p.1 = id
    · -- no later entry has the key
      have hnone : l.find? (fun q => q.1 = id) = none := by
        rw [List.find?_eq_none]
        intro q hq
        simpa [← h] using (hl.1 q hq).symm
      rw [hnone]
      cases m[id]? <;> simp [h, replayed]
    · simp [h]

/-- **Replay**: a recorded provider gets its recorded accounting, any other is unchanged. -/
theorem replay_get (m : BTreeMap String ProviderState) (committed : SchedulerStore)
    (id : String) :
    (replay m committed)[id]? = replayed m[id]? committed.providers[id]? := by
  have hd : committed.providers.toList.Pairwise fun a b => a.1 ≠ b.1 := by
    have := Std.ExtTreeMap.distinct_keys_toList (t := committed.providers)
    simpa using this
  unfold replay
  rw [foldl_replay_get id _ hd]
  congr 1
  cases hc : committed.providers[id]? with
  | none =>
    rw [Option.map_eq_none_iff, List.find?_eq_none]
    rintro ⟨k, st⟩ hp
    have := mem_toList.mp hp
    rintro hk
    simp_all
  | some r =>
    have hmem : (id, r) ∈ committed.providers.toList := mem_toList.mpr hc
    cases hf : committed.providers.toList.find? (fun p => p.1 = id) with
    | none =>
      have := List.find?_eq_none.mp hf _ hmem
      simp at this
    | some p =>
      have hk : p.1 = id := by simpa using List.find?_some hf
      have hp := mem_toList.mp (List.mem_of_find?_eq_some hf)
      rw [hk, hc] at hp
      simpa using hp.symm

lemma accounting_replay {store committed : SchedulerStore} (h : KeysSubset store committed) :
    accounting (replayStore store committed) = accounting committed := by
  rw [accounting_eq_iff]
  intro id
  have hid := h id
  rw [Std.ExtTreeMap.mem_iff_isSome_getElem?, Std.ExtTreeMap.mem_iff_isSome_getElem?] at hid
  simp only [replayStore, replay_get]
  cases hs : store.providers[id]? <;> cases hc : committed.providers[id]? <;>
    simp_all [replayed]

lemma validState_replay {id : String} {st recorded : ProviderState} (h : ValidState id st)
    (hr : ValidState id recorded) : ValidState id (replayAccounting st recorded) :=
  ⟨h.id, h.rng, h.jitter, h.spacing, hr.backoff, hr.sorted, hr.last⟩

lemma storeOk_replay {store committed : SchedulerStore} (h : StoreOk store)
    (hc : StoreOk committed) :
    StoreOk (replayStore store committed) := by
  refine ⟨h.schema, fun id st hst => ?_⟩
  simp only [replayStore, replay_get] at hst
  cases hs : store.providers[id]? <;> cases hr : committed.providers[id]? <;>
    rw [hs, hr] at hst <;> simp only [replayed, Option.some.injEq, reduceCtorEq] at hst
  · exact hst ▸ hc.valid id _ hr
  · exact hst ▸ h.valid id _ hs
  · exact hst ▸ validState_replay (h.valid id _ hs) (hc.valid id _ hr)

/-! ### The text of a ledger -/

/-- A header that is read back. -/
structure HeaderOk (header : Header) : Prop where
  version : header.version = stateSchemaVersion
  length : header.installation.toList.length = 32
  hex : header.installation.toList.all isHexDigit = true

lemma isHexDigit_digitChar {n : ℕ} (h : n < 16) : isHexDigit n.digitChar = true := by
  interval_cases n <;> decide

lemma isHexDigit_hex {bytes : List UInt8} {c : Char} (hc : c ∈ (Recovery.hex bytes).toList) :
    isHexDigit c = true := by
  simp only [Recovery.hex, String.toList_ofList, List.mem_flatMap] at hc
  obtain ⟨b, -, hc⟩ := hc
  have hb := b.toNat_lt
  simp only [List.mem_cons, List.not_mem_nil, or_false] at hc
  rcases hc with rfl | rfl <;> exact isHexDigit_digitChar (by omega)

lemma headerOk_newHeader (random : Vector UInt8 16) : HeaderOk (newHeader random) := by
  refine ⟨rfl, ?_, List.all_eq_true.mpr fun c hc => isHexDigit_hex hc⟩
  simp [newHeader, Recovery.hex, List.length_flatMap]

variable (S : Serde)

/-- The record that commits a store after a log. -/
def Log.record (log : Log) (state : SchedulerStore) : Record :=
  Record.after S log.last state

def Log.push (log : Log) (state : SchedulerStore) : Log := { log with
  records := log.records ++ [((log.record S state).checkpoint log.last, state)] }

/-- The log of a header. -/
def Log.new (header : Header) : Log := { first := {
  version := header.version
  installation := header.installation
  sequence := 0
  digest := S.digest (S.header.encode header) } }

def logOf (header : Header) (states : List SchedulerStore) : Log :=
  states.foldl (Log.push S) (Log.new S header)

def recordLines : Log → List SchedulerStore → List Bytes
  | _, [] => []
  | log, state :: states =>
    S.record.encode (log.record S state) :: recordLines (log.push S state) states

/-- The ledger that commits the given stores in order. -/
def ledgerBytes (header : Header) (states : List SchedulerStore) : Bytes :=
  unlines (S.header.encode header :: recordLines S (Log.new S header) states)

/-- The line that commits one more store. -/
def nextLine (header : Header) (states : List SchedulerStore) (state : SchedulerStore) : Bytes :=
  line (S.record.encode ((logOf S header states).record S state))

section text
variable {S} {header : Header} {states : List SchedulerStore} {state : SchedulerStore}
  {log : Log} {path : RecoveryFile}

lemma logOf_append : logOf S header (states ++ [state]) = (logOf S header states).push S state := by
  simp [logOf]

lemma recordLines_append :
    recordLines S log (states ++ [state]) =
      recordLines S log states ++ [S.record.encode ((states.foldl (Log.push S) log).record S state)]
    := by
  induction states generalizing log with
  | nil => rfl
  | cons s states ih => simp [recordLines, ih]

lemma ledgerBytes_append :
    ledgerBytes S header (states ++ [state]) =
      ledgerBytes S header states ++ nextLine S header states state := by
  rw [ledgerBytes, recordLines_append, ← List.cons_append, unlines_append]
  simp [ledgerBytes, nextLine, logOf]

lemma newline_notMem_lines :
    ∀ l ∈ S.header.encode header :: recordLines S log states, newline ∉ l := by
  intro l hl
  rcases List.mem_cons.mp hl with rfl | hl
  · exact S.header.no_newline _
  · induction states generalizing log with
    | nil => simp [recordLines] at hl
    | cons s states ih =>
      rcases List.mem_cons.mp hl with rfl | hl
      · exact S.record.no_newline _
      · exact ih (List.mem_cons_of_mem _ hl) hl

lemma length_recordLines : (recordLines S log states).length = states.length := by
  induction states generalizing log with
  | nil => rfl
  | cons s states ih => simp [recordLines, ih]

/-- The number of line breaks is the number of records and the header. -/
lemma count_ledgerBytes : (ledgerBytes S header states).count newline = states.length + 1 := by
  rw [ledgerBytes, count_unlines newline_notMem_lines]
  simp [length_recordLines]

@[simp] lemma Log.new_states : (Log.new S header).states = [] := rfl

@[simp] lemma Log.push_states : (log.push S state).states = log.states ++ [state] := by
  simp [Log.push, Log.states]

lemma Log.push_last : (log.push S state).last = (log.record S state).checkpoint log.last := by
  simp [Log.push, Log.last]

@[simp] lemma Log.push_checkpoints :
    (log.push S state).checkpoints = log.checkpoints ++ [(log.push S state).last] := by
  simp [Log.push, Log.checkpoints, Log.last]

@[simp] lemma states_logOf : (logOf S header states).states = states := by
  induction states using List.reverseRecOn with
  | nil => rfl
  | append_singleton states s ih => rw [logOf_append, Log.push_states, ih]

@[simp] lemma committed_logOf :
    (logOf S header states).committed = states.getLast?.getD {} := by
  simp [Log.committed]

@[simp] lemma sequence_logOf : (logOf S header states).last.sequence = states.length := by
  induction states using List.reverseRecOn with
  | nil => rfl
  | append_singleton states s ih =>
    rw [logOf_append, Log.push_last]
    simp [Record.checkpoint, Log.record, Record.after, Record.new, ih]

lemma getElem?_checkpoints_append {k : ℕ} {c : Checkpoint}
    (h : (logOf S header states).checkpoints[k]? = some c) :
    (logOf S header (states ++ [state])).checkpoints[k]? = some c := by
  rw [logOf_append, Log.push_checkpoints]
  obtain ⟨hk, rfl⟩ := List.getElem?_eq_some_iff.mp h
  rw [List.getElem?_append_left hk, List.getElem?_eq_getElem hk]

lemma length_checkpoints :
    (logOf S header states).checkpoints.length = states.length + 1 := by
  have hstates : (logOf S header states).states = states := states_logOf
  have := congrArg List.length hstates
  simp only [Log.states, List.length_map] at this
  simp [Log.checkpoints, this]

lemma getElem?_checkpoints_last :
    (logOf S header states).checkpoints[states.length]? = some (logOf S header states).last := by
  induction states using List.reverseRecOn with
  | nil => rfl
  | append_singleton states s ih =>
    rw [logOf_append, Log.push_checkpoints,
      List.getElem?_append_right (by simp [length_checkpoints])]
    simp [length_checkpoints]

lemma readHeader_encode (h : HeaderOk header) :
    readHeader S path (S.header.encode header) = .ok (Log.new S header) := by
  simp [readHeader, parse, S.header.decode_encode, Except.mapError, h.version, h.length,
    h.hex, bind, Except.bind, pure, Except.pure, Log.new]

lemma readRecord_encode (h : RecordOk state) :
    readRecord S path log (S.record.encode (log.record S state)) = .ok (log.push S state) := by
  simp [readRecord, parse, S.record.decode_encode, Except.mapError, Log.record, Record.after,
    Record.new, Record.computedDigest, h.schema, h.checkpoint,
    validateStore_eq_ok.mpr h.valid, bind,
    Except.bind, pure, Except.pure, Log.push]

lemma foldlM_readRecord (h : ∀ s ∈ states, RecordOk s) :
    (recordLines S log states).foldlM (readRecord S path) log =
      .ok (states.foldl (Log.push S) log) := by
  induction states generalizing log with
  | nil => rfl
  | cons s states ih =>
    simp only [recordLines, List.foldlM_cons, readRecord_encode (h s (by simp)), bind,
      Except.bind, List.foldl_cons]
    exact ih fun t ht => h t (List.mem_cons_of_mem _ ht)

/-- **Reading a ledger**: the stores that were committed. -/
theorem readLog_ledgerBytes (hh : HeaderOk header) (hs : ∀ s ∈ states, RecordOk s) :
    readLog S path (ledgerBytes S header states) = .ok (logOf S header states) := by
  unfold readLog ledgerBytes
  rw [lines_unlines (by simp) newline_notMem_lines]
  simp only [readHeader_encode hh, bind, Except.bind]
  exact foldlM_readRecord hs

/-- A ledger whose last record was cut is rejected. -/
theorem readLog_torn {torn : Bytes} (hne : torn ≠ []) (h : newline ∉ torn) (file : Bytes) :
    readLog S path (file ++ torn) =
      .error (.corrupt path "accounting log has an incomplete final record") := by
  rw [readLog, lines_torn hne h]

end text
end Netband.Recovery

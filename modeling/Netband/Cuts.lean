import Netband.Validity

/-!
Calls of which one persist fails: within its record, which is then cut, or right after it.

The I/O calls of `persist` are followed one by one, up to the one that fails. What is read of the
disk afterwards is the ledger that was written, with its torn tail.
-/

namespace Netband.Steps

open Netband.Time Netband.Model Netband.State Netband.Plan Netband.Effects Netband.Lines
open Netband.Recovery Netband.Scheduling Netband.World Netband.Edits Netband.Runs
open Faulty

section persists
variable {S : Serde} {L : Ledger} {s : Session} {io : List Io}

lemma parse_encode {α : Type} (C : Codec α) (path : RecoveryFile) (a : α) :
    parse C path (C.encode a) = .ok a := by
  simp [parse, C.decode_encode, Except.mapError]

/-- The calls of `persist` until the accounting is committed. -/
lemma persist_reads (hs : Ready S L s) (hp : s.persistence.poisoned = false)
    (hd : s.persistence.snapshotDigest = (s.disk.files .primary).map S.digest) (io : List Io) :
    persist S (.done :: .done :: .done :: io, s) =
      (commitAccounting S >>= fun _ => writeSnapshot S (s.disk.files .primary))
        (io, { s with persistence := { s.persistence with poisoned := true } }) := by
  have hledger : s.disk.files .ledger = some (L.bytes S) := by simpa using hs.consistent.ledger
  have hmarker : s.disk.files .marker = some (S.checkpoint.encode s.persistence.checkpoint) := by
    rw [hs.held.marker, hs.held.checkpoint]
  have hvalid : ∀ x : List Io × Session,
      (Faulty.ofExcept (validateStore .primary s.store) : Faulty Session SchedulerError Unit) x =
        (.ok (), x) := fun x => congrArg (·, x) (validateStore_eq_ok.mpr hs.storeOk.valid)
  have hread : ∀ (io : List Io) (t : Session), t.disk = s.disk →
      onDisk (readOptional .primary) (.done :: io, t) = (.ok (s.disk.files .primary), io, t) := by
    rintro io t ht
    rw [← ht]
    rfl
  have hrequired : ∀ (io : List Io) (t : Session), t.disk = s.disk →
      onDisk (readRequired .marker) (.done :: io, t) =
        (.ok (S.checkpoint.encode s.persistence.checkpoint), io, t) := by
    rintro io t ht
    rw [← ht] at hmarker
    change ((require (t.disk.files .marker) _, _) : Except SchedulerError Bytes × _) = _
    rw [hmarker]
    rfl
  have hparse : ∀ x : List Io × Session,
      (Faulty.ofExcept (parse S.checkpoint .marker (S.checkpoint.encode s.persistence.checkpoint)) :
        Faulty Session SchedulerError Checkpoint) x = (.ok s.persistence.checkpoint, x) :=
    fun x => congrArg (·, x) (parse_encode _ _ _)
  have hunchanged : ∀ (io : List Io) (t : Session), t.disk = s.disk →
      onDisk (filesUnchanged S (s.disk.files .primary) s.persistence.checkpoint s.persistence)
        (.done :: io, t) = (.ok true, io, t) := by
    rintro io t ht
    have hlen : (metadataLen .ledger : Faulty Disk SchedulerError ℕ) (.done :: io, t.disk) =
        (.ok (L.bytes S).length, io, t.disk) := by
      rw [← ht] at hledger
      change ((require ((t.disk.files .ledger).map List.length) _, _) :
        Except SchedulerError ℕ × _) = _
      rw [hledger]
      rfl
    have hbind : (metadataLen .ledger >>= fun len => pure (decide (len = s.persistence.ledgerLen)) :
        Faulty Disk SchedulerError Bool) (.done :: io, t.disk) = (.ok true, io, t.disk) := by
      refine (bind_ok hlen).trans ?_
      rw [hs.held.ledgerLen, decide_eq_true rfl]
      rfl
    unfold filesUnchanged onDisk zoom
    rw [if_neg (by simp [hd])]
    dsimp only
    rw [hbind]
  obtain ⟨t, ht⟩ : ∃ t : Session, t =
    { s with persistence := { s.persistence with poisoned := true } } := ⟨_, rfl⟩
  have hdisk : t.disk = s.disk := by rw [ht]
  rw [← ht]
  refine (bind_ok rfl).trans ((bind_ok (ensure_ok hp)).trans ?_)
  refine (bind_ok (a := ()) (y := (.done :: .done :: .done :: io, t)) ?_).trans ?_
  · rw [ht]
    rfl
  refine (bind_ok (hvalid _)).trans ((bind_ok (hread (.done :: .done :: io) t hdisk)).trans ?_)
  refine (bind_ok (hrequired (.done :: io) t hdisk)).trans ((bind_ok (hparse _)).trans ?_)
  exact (bind_ok (hunchanged io t hdisk)).trans (bind_ok (ensure_ok rfl))

/-- The commit of a changed accounting appends a record. -/
lemma commitAccounting_appends (hs : Ready S L s) (ha : accounting s.store ≠ accounting L.committed)
    (hlen : L.states.length < u64Max) (io : List Io) : ∃ checkpoint,
    commitAccounting S (io, s) =
      appendRecord S (Record.after S (L.last S) (s.store.withCheckpoint none)) checkpoint
        (io, s) := by
  have hseq : s.persistence.checkpoint.sequence < u64Max := by
    rwa [hs.held.checkpoint, L.sequence_last]
  have ha' : accounting s.store ≠ accounting s.persistence.committed := by
    rwa [hs.held.committed]
  refine ⟨(Record.after S (L.last S) (s.store.withCheckpoint none)).checkpoint (L.last S), ?_⟩
  unfold commitAccounting
  refine (bind_ok (a := s) (y := (io, s)) ?_).trans ?_
  · rfl
  rw [if_neg ha', bind_ok (ensure_ok hseq), hs.held.checkpoint]

/-- An append that fails has written some of its bytes. -/
lemma appendRecord_cut {record : Record} {checkpoint : Checkpoint} {old : Bytes}
    (hold : s.disk.files .ledger = some old) (k : ℕ) :
    appendRecord S record checkpoint ([.failed k], s) = (.error (.io .ledger), [], { s with
      disk := s.disk.write .ledger (old ++ (line (S.record.encode record)).take k) }) := by
  have hwrite : (writeSynced .ledger (line (S.record.encode record)) :
      Faulty Disk SchedulerError Unit) ([.failed k], s.disk) = (.error (.io .ledger), [],
        s.disk.write .ledger (old ++ (line (S.record.encode record)).take k)) := by
    unfold writeSynced
    refine (bind_ok (a := s.disk) (y := ([.failed k], s.disk)) ?_).trans ?_
    · rfl
    refine (bind_ok (a := old) (y := ([.failed k], s.disk)) ?_).trans ?_
    · rw [hold]
      rfl
    · rfl
  have hcall : onDisk (writeSynced .ledger (line (S.record.encode record))) ([.failed k], s) =
      (.error (.io .ledger), [], { s with
        disk := s.disk.write .ledger (old ++ (line (S.record.encode record)).take k) }) := by
    unfold onDisk zoom
    rw [hwrite]
  unfold appendRecord
  exact bind_error hcall

/-- The outcomes of the I/O calls of `persist` up to the append of a record, which fails after so
many bytes. -/
def cutAt (k : ℕ) : List Io := [.done, .done, .done, .failed k]

/-- A call of `persist` that fails within its record, or right after it. -/
lemma persist_cut (hs : Ready S L s) (hp : s.persistence.poisoned = false)
    (hd : s.persistence.snapshotDigest = (s.disk.files .primary).map S.digest)
    (ha : accounting s.store ≠ accounting L.committed) (hlen : L.states.length < u64Max) (k : ℕ) :
    persist S (cutAt k, s) = (.error (.io .ledger), [], { s with
      persistence := { s.persistence with poisoned := true }
      disk := s.disk.write .ledger
        (L.bytes S ++ (nextLine S L.header L.states (s.store.withCheckpoint none)).take k) }) := by
  have hpoison : Ready S L { s with persistence := { s.persistence with poisoned := true } } :=
    ⟨hs.consistent, ⟨hs.held.checkpoint, hs.held.committed, hs.held.marker, hs.held.ledgerLen⟩,
      hs.storeOk, hs.keys, hs.nonempty⟩
  have hledger : s.disk.files .ledger = some (L.bytes S) := by simpa using hs.consistent.ledger
  obtain ⟨checkpoint, happends⟩ := commitAccounting_appends hpoison ha hlen [.failed k]
  have hcut := happends.trans (appendRecord_cut
    (s := { s with persistence := { s.persistence with poisoned := true } }) hledger k)
  rw [cutAt, persist_reads hs hp hd]
  exact bind_error hcut

end persists

/-! ### Calls of a scheduler -/

section calls
variable {S : Serde} {L L' : Ledger} {s s' : Scheduler} {d d' : Disk} {x st : ProviderState}
  {policy : SchedulerPolicy} {n : ℕ} {w : System} {torn : Bytes}

/-- The line of the record that saving a provider record appends. -/
def savedLine (S : Serde) (L : Ledger) (s : Scheduler) (x : ProviderState) : Bytes :=
  nextLine S L.header L.states ((s.setState x).store.withCheckpoint none)

/-- A save that fails within its record, or right after it. -/
lemma put_cut (hrun : Running S ValidState L s d) (hsync : Synced S s d)
    (hx : ValidState s.policy.providerId x)
    (ha : accounting (s.setState x).store ≠ accounting L.committed)
    (hlen : L.states.length < u64Max) (k : ℕ) :
    ((backend S).put x (cutAt k, s, d)).1 = .error (.io .ledger) ∧
      ((backend S).put x (cutAt k, s, d)).2.2.2 =
        { d.write .ledger (L.bytes S ++ (savedLine S L s x).take k) with
          persists := d.persists ++ [((s.setState x).store, false)] } := by
  have hready := (hrun.setState kept_validState hx).ready
  have hpersist := persist_cut hready hrun.unpoisoned hsync ha hlen k
  have hresult : ((backend S).put x (cutAt k, s, d)).1 =
      (Recovery.persist S (cutAt k, (s.setState x).session d)).1 := rfl
  have hdisk : ((backend S).put x (cutAt k, s, d)).2.2.2 =
      { (Recovery.persist S (cutAt k, (s.setState x).session d)).2.2.disk with
        persists := d.persists ++ [((s.setState x).store,
          (Recovery.persist S (cutAt k, (s.setState x).session d)).1.isOk)] } := rfl
  rw [hresult, hdisk, hpersist]
  exact ⟨rfl, rfl⟩

/-- A call whose only save fails like that. -/
lemma run_cut {α : Type} {c : Scheduling.Op α} (hx : (c s.state).1 = [x])
    (hrun : Running S ValidState L s d) (hsync : Synced S s d)
    (hxok : ValidState s.policy.providerId x)
    (ha : accounting (s.setState x).store ≠ accounting L.committed)
    (hlen : L.states.length < u64Max) (k : ℕ) :
    ((backend S).run c (cutAt k, s, d)).1 = .error (.io .ledger) ∧
      ((backend S).run c (cutAt k, s, d)).2.2.2 =
        { d.write .ledger (L.bytes S ++ (savedLine S L s x).take k) with
          persists := d.persists ++ [((s.setState x).store, false)] } := by
  obtain ⟨herr, hdisk⟩ := put_cut hrun hsync hxok ha hlen k
  have hview : (backend S).view (s, d) = s.state := rfl
  rw [Backend.run_apply, hview, hx, Backend.putAll_cons]
  rcases hput : (backend S).put x (cutAt k, s, d) with ⟨r, y⟩
  rw [hput] at herr hdisk
  obtain rfl : r = .error (.io .ledger) := herr
  exact ⟨rfl, hdisk⟩

lemma Saved.accounting (h : Saved S L s d) (hc : Consistent S L [] d) :
    accounting s.store = accounting L.committed := by
  obtain ⟨t, ht, hsnap⟩ := hc.snapshots _ (hc.primary _ h.primary)
  obtain rfl : s.store = t := S.store.encode_injective ht
  exact hsnap.accounting_last h.checkpoint

/-! ### What is in the ledger then -/

lemma length_savedLine_pos : 1 < (savedLine S L s x).length := by
  have hne := S.record.encode_ne_nil ((logOf S L.header L.states).record S
    ((s.setState x).store.withCheckpoint none))
  have hpos := List.length_pos_iff.mpr hne
  simp only [savedLine, nextLine, line, List.length_append, List.length_singleton]
  omega

lemma count_savedLine : (savedLine S L s x).count newline = 1 := by
  simp [savedLine, nextLine, line, List.count_append,
    List.count_eq_zero.mpr (S.record.no_newline _)]

/-- The whole record was appended, so it is committed and nothing is torn. -/
lemma committed_of_cut (hc : Consistent S L' torn d')
    (hb : d'.files .ledger = some (L.bytes S ++ savedLine S L s x)) :
    torn = [] ∧ L'.states.length = L.states.length + 1 := by
  have hbytes : L'.bytes S ++ torn = L.bytes S ++ savedLine S L s x :=
    Option.some.inj (hc.ledger.symm.trans hb)
  have htorn : torn = [] := by
    by_contra hne
    have hlast := congrArg List.getLast? hbytes
    rw [List.getLast?_append_of_ne_nil _ hne] at hlast
    simp only [savedLine, nextLine, line, ← List.append_assoc, List.getLast?_concat] at hlast
    exact hc.noBreak (List.mem_of_getLast? hlast)
  refine ⟨htorn, ?_⟩
  have hcount := congrArg (List.count newline) hbytes
  have hL : (L.bytes S).count newline = L.states.length + 1 := count_ledgerBytes
  have hL' : (L'.bytes S).count newline = L'.states.length + 1 := count_ledgerBytes
  rw [htorn, List.append_nil, List.count_append, hL, hL', count_savedLine] at hcount
  omega

/-- Some of the record was appended, so the ledger is torn. -/
lemma torn_of_cut {k : ℕ} (hc : Consistent S L' torn d') (h0 : k ≠ 0)
    (hk : k < (savedLine S L s x).length)
    (hb : d'.files .ledger = some (L.bytes S ++ (savedLine S L s x).take k)) : torn ≠ [] := by
  rintro rfl
  have hbytes : L'.bytes S ++ [] = L.bytes S ++ (savedLine S L s x).take k :=
    Option.some.inj (hc.ledger.symm.trans hb)
  have hno := newline_notMem_take hk
  have hne : (savedLine S L s x).take k ≠ [] := by
    simpa [h0] using List.ne_nil_of_length_pos (by omega : 0 < (savedLine S L s x).length)
  have hread := L'.readLog_bytes S .ledger
  rw [List.append_nil] at hbytes
  rw [hbytes, readLog_torn hne hno] at hread
  cases hread

/-! ### Runs with a cut -/

/-- A call that saves one record and fails within it, or right after it. -/
theorem Calm.cut (h : Calm S policy st n s L w) (hsaved : Saved S L s w.disk) {c : Call}
    {reply : Reply} (hx : c.run policy st = ([x], .ok reply, x))
    (hne : accountingOf x ≠ accountingOf st) (hn : n < u64Max) (k : ℕ) :
    ∃ s' e L' torn, (w.step S (.call c, cutAt k)).live = some s' ∧
      (w.step S (.call c, cutAt k)).trace = w.trace ++ [e] ∧
      told e = (policy, c, .error (.io .ledger)) ∧
      (e.recorded = true ↔ L.states.length < L'.states.length) ∧
      SaveFailed S ValidState [x] L L' torn s w.disk s' (w.step S (.call c, cutAt k)).disk ∧
      (w.step S (.call c, cutAt k)).disk.files = Function.update w.disk.files .ledger
        (some (L.bytes S ++ (savedLine S L s x).take k)) ∧
      (w.step S (.call c, cutAt k)).disk.persists =
        w.disk.persists ++ [((s.setState x).store, false)] := by
  obtain ⟨hlive, rfl, rfl, hrun, h0, hlen, hsync⟩ := h
  have hsaves := kept_validState.call hrun.state c
  have hxok : ValidState s.policy.providerId x := hsaves.1 x (by simp [hx])
  have hchanged : accounting (s.setState x).store ≠ accounting L.committed := by
    rw [← Saved.accounting hsaved hrun.ready.consistent]
    intro hsame
    have hid := congrArg (fun m => m[s.policy.providerId]?) hsame
    simp only [accounting_setState_get, if_true, accounting_state, Option.some.injEq] at hid
    exact hne hid
  obtain ⟨herr, hdisk⟩ := run_cut (c := c.run s.policy) (by rw [hx]) hrun hsync hxok hchanged
    (by omega) k
  have hspec := ends_iff.mp (run_spec True kept_validState (c.run s.policy) hsaves hrun h0
    (cutAt k) (.inr trivial))
  obtain ⟨he, -⟩ | ⟨-, L', torn, hfail⟩ := hspec.2 _ herr
  · rw [hx] at he
    cases he
  rw [hx] at hfail
  have hlines := ledgerLines_consistent hrun.ready.consistent
  have hlines' := ledgerLines_consistent hfail.consistent
  change ledgerLines w.disk = _ at hlines
  have hstep : w.step S (.call c, cutAt k) =
      { w.call S s c (cutAt k) with clock := laterOf w.clock c.now } := by
    simp only [System.step, System.act, hlive]
    rfl
  rw [hstep]
  refine ⟨_, _, L', torn, rfl, rfl, ?_, ?_, hfail, congrArg Disk.files hdisk,
    congrArg Disk.persists hdisk⟩
  · rw [told, herr]
  · simp only [decide_eq_true_eq, hlines, hlines']
    omega

/-- An opening of what is left of a run. -/
theorem calm_opened (hlive : w.live = none) (hc : Consistent S L [] w.disk)
    (harch : Archive S ValidState L.states w.disk) (h0 : L.states ≠ [])
    (hprimary : w.disk.files .primary ≠ none) (hlen : L.states.length < u64Max)
    (policy : SchedulerPolicy) (now : ℤ) (seed : UInt64) (random : Random) :
    ∃ s' L' st', Calm S policy st' (L.states.length + 1) s' L'
        (w.step S (.openSeeded policy now seed random, [])) ∧
      (w.step S (.openSeeded policy now seed random, [])).trace = w.trace ∧
      Opens now (accounting L.committed)[policy.providerId]? (some (accountingOf st')) := by
  have hopen : Meets False w.disk (openPersistence S random)
      (fun r d' => Opened S L w.disk d' r.1 r.2.1 r.2.2 ∧ True) fun _ _ => False :=
    meets_mono (openPersistence_calm hc hprimary random) (fun _ _ ho => ⟨ho, trivial⟩)
      fun _ _ h => h
  have hspec := ends_iff.mp (openSeeded_calm (Q := fun _ _ => True) policy now seed harch hopen
    (.inl h0) [] (.inl rfl))
  have hstep : w.step S (.openSeeded policy now seed random, []) =
      { w.openScheduler S policy now seed random [] with clock := laterOf w.clock (some now) } := by
    simp only [System.step, System.act, hlive]
    rfl
  rw [hstep]
  rcases hr : (openSeeded S policy now seed random ([], w.disk)).1 with e | s'
  · obtain ⟨hfull, -⟩ := hspec.2 e hr
    omega
  · obtain ⟨-, L', ho⟩ := hspec.1 s' hr
    refine ⟨s', L', s'.state, ⟨?_, ho.samePolicy, rfl, ho.running, ho.started, ho.settled.length,
      ho.synced⟩, rfl, ?_⟩
    · change (openSeeded S policy now seed random ([], w.disk)).1.toOption = some s'
      rw [hr]
      rfl
    · obtain ⟨store, recovered, -, hacc, hstate⟩ := ho.state
      have hopens := opens_admitState policy now seed store.providers[policy.providerId]?
      rw [← accounting_get, hacc] at hopens
      rcases hstate with hstate | ⟨-, hstate⟩
      · rw [hstate]
        exact hopens
      · rw [hstate, accountingOf_replanRemaining]
        exact hopens

end calls

end Netband.Steps

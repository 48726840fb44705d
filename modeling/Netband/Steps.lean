import Netband.Edits
import Netband.Reopen

/-!
What one call of an open scheduler, and one opening, do to the recovery set.

A running scheduler holds a recovery set that is consistent with a ledger. After a call it
either runs on, with what it saved last committed to the ledger, or it has stopped: it is
poisoned, and the ledger holds an old accounting or one that was being saved.
-/

namespace Netband.Steps

open Netband.Time Netband.Model Netband.State Netband.Plan Netband.Effects Netband.Lines
open Netband.Recovery Netband.Scheduling Netband.World Netband.Edits Faulty Saving

/-! ### Properties of stored records -/

/-- A property of provider records that every edit and every recovery keeps. -/
structure Sustained (K : String → ProviderState → Prop) : Prop where
  edited : ∀ policy now, Edited policy now (fun _ => True) (K policy.providerId)
  rollover : ∀ (policy : SchedulerPolicy) {now st}, K policy.providerId st →
    K policy.providerId (reconcileDay policy now st)
  started : ∀ (policy : SchedulerPolicy) {now st}, K policy.providerId st →
    dateNaive now ≤ st.dayUtc → K policy.providerId (startRun now st)
  finished : ∀ (policy : SchedulerPolicy) {now st opportunity report}, K policy.providerId st →
    K policy.providerId (finished policy now opportunity report st)
  created : ∀ (policy : SchedulerPolicy) {now seed},
    K policy.providerId (newState policy now seed)
  reconciled : ∀ (policy : SchedulerPolicy) {now st}, K policy.providerId st →
    K policy.providerId (reconcileState policy now st)
  replanned : ∀ (policy : SchedulerPolicy) {now st}, K policy.providerId st →
    K policy.providerId (replanRemaining policy now st)
  replayed : ∀ {id st recorded}, K id st → K id recorded → K id (replayAccounting st recorded)

/-- Such a property under which records are valid. -/
structure Kept (K : String → ProviderState → Prop) : Prop extends Sustained K where
  valid : ∀ {id st}, K id st → ValidState id st

theorem kept_validState : Kept ValidState where
  valid h := h
  edited policy _ := (closed_validState policy.providerId).edited
  rollover policy _ _ h := validState_reconcileDay policy _ h
  started _ _ _ h _ := validState_startRun h
  finished _ _ _ _ _ h := validState_finished h
  created _ {_ seed} := validState_newState seed
  reconciled _ _ _ h := validState_reconcileState h
  replanned _ _ _ h := validState_replanRemaining h
  replayed h hr := validState_replay h hr

lemma Kept.and {K K' : String → ProviderState → Prop} (hK : Kept K) (hK' : Sustained K') :
    Kept fun id st => K id st ∧ K' id st where
  valid h := hK.valid h.1
  edited policy now := (hK.edited policy now).and (hK'.edited policy now)
  rollover policy _ _ h := ⟨hK.rollover policy h.1, hK'.rollover policy h.2⟩
  started policy _ _ h hd := ⟨hK.started policy h.1 hd, hK'.started policy h.2 hd⟩
  finished policy _ _ _ _ h := ⟨hK.finished policy h.1, hK'.finished policy h.2⟩
  created policy := ⟨hK.created policy, hK'.created policy⟩
  reconciled policy _ _ h := ⟨hK.reconciled policy h.1, hK'.reconciled policy h.2⟩
  replanned policy _ _ h := ⟨hK.replanned policy h.1, hK'.replanned policy h.2⟩
  replayed h hr := ⟨hK.replayed h.1 hr.1, hK'.replayed h.2 hr.2⟩

section quiet
variable {policy : SchedulerPolicy} {now : ℤ} {R : ProviderState → Prop} {st : ProviderState}
  {E : SchedulerError → ProviderState → Prop}

/-- The calls that neither reserve a run nor finish one. -/
def Call.Quiet : Call → Prop
  | .reserveRun _ => False
  | .finishAttempt .. => False
  | _ => True

/-- A quiet call saves and leaves only records that quiet edits reach. -/
lemma quiet_call {c : Call} (recovers : Option String → Prop) (hc : Call.Quiet c)
    (hR : ∀ now ∈ c.now, Edited policy now recovers R)
    (hrec : ∀ runId now interface snapshot,
      c = .observeInterfaceHealth runId now interface (.recovered snapshot) → recovers interface)
    (h : R st) : Saves R st (c.run policy) (fun _ st' => R st') E := by
  cases c with
  | observeInterfaceHealth runId now interface decision =>
    refine saves_bind (saves_mono (observeInterfaceHealth_spec (hR now rfl).toObserved h runId
      interface decision fun snapshot hd => ?_) (fun _ _ hst => saves_pure hst) fun _ _ he => he)
    exact hrec runId now interface snapshot (by rw [hd])
  | pollInterfaces runId now latestSuccess =>
    exact saves_bind (saves_mono (pollInterfaces_spec (hR now rfl) h runId latestSuccess)
      (fun _ _ hst => saves_pure hst) fun _ _ he => he)
  | preflightManual runId now =>
    exact saves_bind (saves_mono (preflightManual_spec (hR now rfl).toObserved h runId)
      (fun _ _ hst => saves_pure hst) fun _ _ he => he)
  | reserveRun now => exact absurd hc id
  | finishAttempt runId now opportunity report => exact absurd hc id
  | flush => exact saves_bind (saves_save h (saves_pure h))

variable (policy now) in
lemma run_reserveRun (st : ProviderState) : (Call.reserveRun now).run policy st =
    match blockReason policy (reconcileDay policy now st) now with
    | some blocked => ([], .error (.admission ("reservation rejected after preflight: " ++
        blocked.message)), reconcileDay policy now st)
    | none =>
      let started := startRun now (reconcileDay policy now st)
      ([started], .ok (.reserved ⟨dateNaive now, runsOnDay started (dateNaive now)⟩), started) := by
  change Saving.bind _ _ st = _
  rw [Saving.bind, reserveRun_apply]
  cases blockReason policy (reconcileDay policy now st) now <;> rfl

variable (policy now) in
lemma run_finishAttempt (runId : RunId) (opportunity : BandwidthOpportunity)
    (report : BandwidthReport) (st : ProviderState) : ∃ events report',
    (Call.finishAttempt runId now opportunity report).run policy st =
      ([finished policy now opportunity report st], .ok (.finished events report'),
        finished policy now opportunity report st) := by
  obtain ⟨⟨events, report'⟩, h⟩ :=
    finishAttempt_apply policy now runId opportunity report st
  refine ⟨events, report', ?_⟩
  change Saving.bind _ _ st = _
  rw [Saving.bind, h]
  rfl

lemma run_preflightManual {runId : RunId}
    (h : ((Call.preflightManual runId now).run policy st).2.1 = .ok (.preflighted .allowed)) :
    ((Call.preflightManual runId now).run policy st).1 ≠ [] ∧
      blockReason policy (advanced policy now st) now = none := by
  have hrun : (Call.preflightManual runId now).run policy st =
    (preflightManual policy runId now >>= fun decision => pure (Reply.preflighted decision)) st :=
    rfl
  rw [hrun] at h ⊢
  rcases bind_cases (preflightManual policy runId now) (fun decision => pure
    (Reply.preflighted decision)) st with ⟨saves, decision, st', hc, hb⟩ | ⟨saves, e, st', hc, hb⟩
  · rw [hb] at h ⊢
    obtain rfl : decision = .allowed := Reply.preflighted.inj (Except.ok.inj h)
    have hallowed : (preflightManual policy runId now st).2.1 = .ok .allowed := by rw [hc]
    obtain ⟨hsaves, hblock⟩ := preflightManual_allowed hallowed
    rw [hc] at hsaves
    exact ⟨fun hnil => hsaves (List.append_eq_nil_iff.mp hnil).1, hblock⟩
  · rw [hb] at h
    cases h

/-- Every call saves and leaves only records with a property that edits keep. -/
lemma Kept.call {K : String → ProviderState → Prop} (hK : Kept K)
    (h : K policy.providerId st) (c : Call) :
    Saves (K policy.providerId) st (c.run policy) (fun _ st' => K policy.providerId st')
      fun _ st' => K policy.providerId st' := by
  by_cases hc : Call.Quiet c
  · exact quiet_call _ hc (fun now _ => hK.edited policy now) (fun _ _ _ _ _ => trivial) h
  cases c with
  | reserveRun now =>
    have hday := @hK.rollover policy now _ h
    have hle := day_reconcileDay policy now st
    rw [Saves, run_reserveRun]
    cases blockReason policy (reconcileDay policy now st) now with
    | some blocked => exact ⟨by simp, by simp, by simpa using hday⟩
    | none => exact ⟨by simpa using hK.started policy hday hle,
        by simpa using hK.started policy hday hle, by simp⟩
  | finishAttempt runId now opportunity report =>
    obtain ⟨events, report', hr⟩ :=
      run_finishAttempt policy now runId opportunity report st
    have hf : K policy.providerId (Edits.finished policy now opportunity report st) :=
      hK.finished policy h
    rw [Saves, hr]
    exact ⟨by simpa using hf, by simpa using hf, by simp⟩
  | _ => exact absurd trivial hc

end quiet

/-! ### Running schedulers -/

def AllRecords (K : String → ProviderState → Prop) (store : SchedulerStore) : Prop :=
  ∀ id st, store.providers[id]? = some st → K id st

/-- Every record that a recovery may start from has the property. -/
structure Archive (S : Serde) (K : String → ProviderState → Prop)
    (states : List SchedulerStore) (d : Disk) : Prop where
  states : ∀ s ∈ states, AllRecords K s
  snapshots : ∀ s, S.store.encode s ∈ d.snapshots → AllRecords K s

structure Running (S : Serde) (K : String → ProviderState → Prop) (L : Ledger) (s : Scheduler)
    (d : Disk) : Prop where
  unpoisoned : s.persistence.poisoned = false
  ready : Ready S L (s.session d)
  records : AllRecords K s.store
  archive : Archive S K L.states d

/-- The accounting that the calls of `persist` left last. -/
def lastAccounting (persists : List (SchedulerStore × Bool)) : BTreeMap String Accounting :=
  (persists.getLast?.map fun p => accounting p.1).getD ∅

def AllDone (persists : List (SchedulerStore × Bool)) : Prop := ∀ p ∈ persists, p.2 = true

/-- The ledger and the calls of `persist`, until one of them has failed. -/
structure Chronicle (states : List SchedulerStore) (d : Disk) : Prop where
  done : AllDone d.persists → accounting (lastState states) = lastAccounting d.persists
  interrupted : ∀ dones store, AllDone dones → d.persists = dones ++ [(store, false)] →
    accounting (lastState states) = lastAccounting dones ∨
      accounting (lastState states) = accounting store
  written : (∃ p ∈ d.persists, p.2 = true) → d.snapshots ≠ []
  none : d.persists = [] → states = []
  resumable : ∀ store, d.persists = [(store, false)] → Resumable states

/-- The first store that is committed has seen no bandwidth run. -/
def FirstUnused (L : Ledger) (store : SchedulerStore) : Prop :=
  L.states = [] → store.providers.toList.all fun p => unused p.2

section put
variable {S : Serde} {K : String → ProviderState → Prop} {L L' : Ledger} {s s' : Scheduler}
  {d d' : Disk} {st x : ProviderState} {faults : Prop}

lemma setState_get (s : Scheduler) (x : ProviderState) (id : String) :
    (s.setState x).store.providers[id]? =
      if s.policy.providerId = id then some x else s.store.providers[id]? := by
  simp [Scheduler.setState, Std.ExtTreeMap.getElem?_insert]

lemma state_get (s : Scheduler) : s.store.providers[s.policy.providerId]? = some s.state := by
  simp [Scheduler.state, Std.ExtTreeMap.get_eq_getElem]

lemma state_eq_of_get (h : s.store.providers[s.policy.providerId]? = some x) : s.state = x :=
  Option.some.inj ((state_get s).symm.trans h)

lemma accounting_setState (hp : s'.policy = s.policy)
    (hs : ∀ id, id ≠ s.policy.providerId → s'.store.providers[id]? = s.store.providers[id]?)
    (x : ProviderState) : accounting (s'.setState x).store = accounting (s.setState x).store := by
  refine accounting_eq_iff.mpr fun id => ?_
  rw [setState_get, setState_get, hp]
  by_cases h : s.policy.providerId = id
  · simp [h]
  · simp [h, hs id (Ne.symm h)]

lemma setState_self (s : Scheduler) : s.setState s.state = s := by
  have hproviders : (s.setState s.state).store.providers = s.store.providers := by
    refine Std.ExtTreeMap.ext_getElem? fun id => ?_
    rw [setState_get]
    split
    · rename_i hid
      rw [← hid, state_get]
    · rfl
  rcases s with ⟨p, ⟨schema, providers, checkpoint⟩, policy, active⟩
  simp only [Scheduler.setState, Scheduler.mk.injEq, SchedulerStore.mk.injEq, true_and, and_true]
  exact hproviders

lemma Running.state (h : Running S K L s d) : K s.policy.providerId s.state :=
  h.records _ _ (state_get s)

lemma Running.setState (hK : Kept K) (h : Running S K L s d) (hx : K s.policy.providerId x) :
    Running S K L (s.setState x) d := by
  have hrec : AllRecords K (s.setState x).store := by
    intro id y hy
    rw [setState_get] at hy
    split at hy
    · cases hy
      rename_i hid
      exact hid ▸ hx
    · exact h.records id y hy
  obtain ⟨hC, hH, hok, hk, hne⟩ := h.ready
  refine ⟨h.unpoisoned, ⟨hC, hH, ⟨hok.schema, fun id y hy => hK.valid (hrec id y hy)⟩, ?_, ?_⟩,
    hrec, h.archive⟩
  · intro id hid
    exact Std.ExtTreeMap.mem_insert.mpr (.inr (hk id hid))
  · exact ⟨_, Std.ExtTreeMap.mem_insert_self⟩

/-- How a call of `persist` on a session is a call on a scheduler. -/
structure Noted (s : Scheduler) (d : Disk) (ok : Bool) (t : Session) (s' : Scheduler)
    (d' : Disk) : Prop where
  persistence : s'.persistence = t.persistence
  store : s'.store = t.store
  policy : s'.policy = s.policy
  disk : d' = { t.disk with persists := d.persists ++ [(s.store, ok)] }

lemma meets_persist {Q : Session → Prop} {E : Session → Prop}
    (h : Meets faults (s.session d) (Recovery.persist S) (fun _ t => Q t) fun _ t => E t) :
    Meets faults (s, d) (Scheduler.persist S)
      (fun _ x => ∃ t, Q t ∧ Noted s d true t x.1 x.2)
      fun _ x => ∃ t, E t ∧ Noted s d false t x.1 x.2 := by
  intro io hio
  have hp := ends_iff.mp (h io hio)
  refine ends_iff.mpr ⟨fun u hu => ?_, fun e he => ?_⟩
  · have hu : (Recovery.persist S (io, s.session d)).1 = .ok u := hu
    exact ⟨(hp.1 u hu).1, _, (hp.1 u hu).2, rfl, rfl, rfl, by simp [Scheduler.persist, hu]; rfl⟩
  · have he : (Recovery.persist S (io, s.session d)).1 = .error e := he
    exact ⟨_, hp.2 e he, rfl, rfl, rfl, by simp [Scheduler.persist, he]; rfl⟩

lemma Noted.session {t : Session} {ok : Bool} (h : Noted s d ok t s' d') :
    s'.session d' =
      { t with disk := { t.disk with persists := d.persists ++ [(s.store, ok)] } } := by
  simp [Scheduler.session, h.persistence, h.store, h.disk]

lemma Ready.notePersists {t : Session} (h : Ready S L t)
    (persists : List (SchedulerStore × Bool)) :
    Ready S L { t with disk := { t.disk with persists } } :=
  ⟨h.consistent.of_files rfl rfl, ⟨h.held.checkpoint, h.held.committed, h.held.marker,
    h.held.ledgerLen⟩, h.storeOk, h.keys, h.nonempty⟩

/-! ### Saving a record -/

lemma Archive.mono {states : List SchedulerStore} (h : Archive S K states d)
    (hs : d'.snapshots = d.snapshots) : Archive S K states d' :=
  ⟨h.states, hs ▸ h.snapshots⟩

lemma Archive.commits {store : SchedulerStore} (h : Archive S K L.states d)
    (hc : Commits L store L') (hs : AllRecords K store) : Archive S K L'.states d := by
  cases hc with
  | unchanged => exact h
  | recorded _ hr hk =>
    refine ⟨fun t ht => ?_, h.snapshots⟩
    rcases List.mem_append.mp ht with ht | ht
    · exact h.states t ht
    · rw [List.mem_singleton.mp ht]
      exact hs

lemma Archive.snapshot {states : List SchedulerStore} {store : SchedulerStore}
    (h : Archive S K states d) (hs : AllRecords K store) {c : Option Checkpoint}
    (hd : d'.snapshots = d.snapshots ++ [S.store.encode (store.withCheckpoint c)]) :
    Archive S K states d' := by
  refine ⟨h.states, fun t ht => ?_⟩
  rw [hd] at ht
  rcases List.mem_append.mp ht with ht | ht
  · exact h.snapshots t ht
  · rw [S.store.encode_injective (List.mem_singleton.mp ht)]
    exact hs

lemma allDone_concat {persists : List (SchedulerStore × Bool)} {p : SchedulerStore × Bool} :
    AllDone (persists ++ [p]) ↔ AllDone persists ∧ p.2 = true := by
  simp [AllDone, or_imp, forall_and]

@[simp] lemma lastAccounting_concat (persists : List (SchedulerStore × Bool))
    (p : SchedulerStore × Bool) : lastAccounting (persists ++ [p]) = accounting p.1 := by
  simp [lastAccounting]

/-- After a call of `persist` that succeeded. -/
lemma chronicle_done {store : SchedulerStore} {persists : List (SchedulerStore × Bool)}
    (hp : d.persists = persists ++ [(store, true)]) (ha : accounting L.committed = accounting store)
    (hs : d.snapshots ≠ []) : Chronicle L.states d := by
  constructor
  · intro _
    rw [hp, lastAccounting_concat]
    exact ha
  · intro dones store' hdones he
    rw [hp] at he
    have := List.append_inj_right' he rfl
    simp at this
  · exact fun _ => hs
  · intro he
    simp [hp] at he
  · intro store' he
    rw [hp] at he
    have hlast := congrArg List.getLast? he
    simp at hlast

/-- After a call of `persist` that failed. -/
lemma chronicle_failed {store : SchedulerStore} {torn : Bytes} (h : Chronicle L.states d)
    (hfirst : FirstUnused L store) (hi : Interrupted S L store L' torn)
    (hp : d'.persists = d.persists ++ [(store, false)])
    (hs : d.snapshots <+: d'.snapshots) : Chronicle L'.states d' := by
  have hold : L' = L ∨ Commits L store L' := by
    cases hi with
    | before => exact .inl rfl
    | torn => exact .inl rfl
    | after h => exact .inr h
  constructor
  · intro hd
    rw [hp, allDone_concat] at hd
    exact absurd hd.2 (by simp)
  · intro dones store' hdones he
    rw [hp] at he
    obtain ⟨rfl, he⟩ := List.append_inj' he rfl
    obtain rfl : store = store' := by simpa using he
    rcases hold with rfl | hc
    · exact .inl (h.done hdones)
    · exact .inr hc.accounting
  · rintro ⟨p, hmem, hp2⟩ hnil
    rw [hp] at hmem
    rcases List.mem_append.mp hmem with hmem | hmem
    · exact h.written ⟨p, hmem, hp2⟩ (List.prefix_nil.mp (hnil ▸ hs))
    · simp [List.mem_singleton.mp hmem] at hp2
  · intro he
    simp [hp] at he
  · intro store' he
    rw [hp] at he
    have hnil : d.persists = [] := by simpa using congrArg List.length he
    have hL := h.none hnil
    rcases hold with rfl | hc
    · rw [hL]
      exact ⟨Nat.zero_le _, rfl⟩
    · cases hc with
      | unchanged =>
        rw [hL]
        exact ⟨Nat.zero_le _, rfl⟩
      | recorded =>
        simp only [Ledger.push, hL, Resumable, List.nil_append, List.length_singleton,
          le_refl, List.all_cons, List.all_nil, Bool.and_true, true_and]
        exact hfirst hL

/-- The process knows the snapshot that is on the disk. -/
def Synced (S : Serde) (s : Scheduler) (d : Disk) : Prop :=
  s.persistence.snapshotDigest = (d.files .primary).map S.digest

/-- The snapshot on the disk is the scheduler's own store, with the last checkpoint. -/
structure Saved (S : Serde) (L : Ledger) (s : Scheduler) (d : Disk) : Prop where
  primary : d.files .primary = some (S.store.encode s.store)
  checkpoint : s.store.checkpoint = some (L.last S)

/-- A scheduler was persisted. -/
structure PersistDone (S : Serde) (K : String → ProviderState → Prop) (L L' : Ledger)
    (s s' : Scheduler) (d' : Disk) : Prop where
  running : Running S K L' s' d'
  policy : s'.policy = s.policy
  providers : s'.store.providers = s.store.providers
  commits : Commits L s.store L'
  chronicle : Chronicle L'.states d'
  synced : Synced S s' d'
  saved : Saved S L' s' d'

/-- A scheduler was not persisted. -/
structure PersistFailed (S : Serde) (K : String → ProviderState → Prop) (L L' : Ledger)
    (torn : Bytes) (s : Scheduler) (d : Disk) (s' : Scheduler) (d' : Disk) : Prop where
  interrupted : Interrupted S L s.store L' torn
  consistent : Consistent S L' torn d'
  archive : Archive S K L'.states d'
  poisoned : s'.persistence.poisoned = true
  persists : d'.persists = d.persists ++ [(s.store, false)]
  chronicle : Chronicle L.states d → FirstUnused L s.store → Chronicle L'.states d'

lemma PersistDone.state (h : PersistDone S K L L' (s.setState x) s' d') : s'.state = x := by
  have hpol : s'.policy = s.policy := h.policy
  refine state_eq_of_get ?_
  rw [h.providers, setState_get, hpol, if_pos rfl]

/-- **Persisting**: the accounting is committed, or the scheduler is poisoned and the ledger
holds the old accounting or the new. -/
theorem schedulerPersist_spec (hrun : Running S K L s d) :
    Meets faults (s, d) (Scheduler.persist S) (fun _ y => ∃ L', PersistDone S K L L' s y.1 y.2)
      fun _ y => Refused S faults (s.session d) ∧
        ∃ L' torn, PersistFailed S K L L' torn s d y.1 y.2 := by
  have hp := meets_persist (persist_spec faults hrun.ready hrun.unpoisoned)
  refine meets_mono hp ?_ ?_
  · rintro u ⟨s', d'⟩ ⟨t, ⟨L', ht⟩, hn⟩
    have hn : Noted s d true t s' d' := hn
    have hsess := hn.session
    have hst : s'.store = s.store.withCheckpoint (some (L'.last S)) := by
      rw [hn.store, ht.store]
      rfl
    have hsnap : d'.snapshots = d.snapshots ++
        [S.store.encode (s.store.withCheckpoint (some (L'.last S)))] := by
      rw [hn.disk]
      change t.disk.snapshots = _
      rw [ht.snapshots, ht.store]
      rfl
    refine ⟨L', ⟨⟨?_, ?_, ?_, ?_⟩, hn.policy, ?_, ht.commits, ?_, ?_, ?_, ?_⟩⟩
    · rw [hn.persistence, ht.poisoned]
    · rw [hsess]
      exact Ready.notePersists ht.ready _
    · rw [hst]
      exact hrun.records
    · exact (hrun.archive.commits ht.commits hrun.records).snapshot hrun.records hsnap
    · rw [hst]
      rfl
    · have hpersists : d'.persists = d.persists ++ [(s.store, true)] := by rw [hn.disk]
      exact chronicle_done hpersists ht.commits.accounting (by simp [hsnap])
    · rw [Synced, hn.persistence, ht.snapshotDigest, hn.disk]
    · rw [hn.disk, hn.store]
      exact ht.primary
    · rw [hst]
      rfl
  · rintro e ⟨s', d'⟩ ⟨t, ⟨hwhy, L', torn, ht⟩, hn⟩
    have hn : Noted s d false t s' d' := hn
    refine ⟨hwhy, L', torn, ht.interrupted, ?_, ?_, ?_, ?_, fun hc hf => ?_⟩
    · rw [hn.disk]
      exact ht.consistent.of_files rfl rfl
    · have harch : Archive S K L'.states d := by
        cases ht.interrupted with
        | before => exact hrun.archive
        | torn => exact hrun.archive
        | after hc => exact hrun.archive.commits hc hrun.records
      rw [hn.disk]
      rcases ht.snapshots with hs | ⟨c, hs⟩
      · exact harch.mono hs
      · exact harch.snapshot hrun.records hs
    · rw [hn.persistence, ht.poisoned]
    · rw [hn.disk]
    · refine chronicle_failed hc hf ht.interrupted (by rw [hn.disk]) ?_
      rw [hn.disk]
      change d.snapshots <+: t.disk.snapshots
      rcases ht.snapshots with hs | ⟨c, hs⟩
      · rw [hs]
        exact List.prefix_rfl
      · rw [hs]
        exact List.prefix_append _ _

/-- Saving a record is persisting the scheduler that holds it. -/
lemma put_spec (hK : Kept K) (h : Running S K L s d) (hx : K s.policy.providerId x) :
    Meets faults (s, d) ((backend S).put x)
      (fun _ y => ∃ L', PersistDone S K L L' (s.setState x) y.1 y.2)
      fun _ y => Refused S faults ((s.setState x).session d) ∧
        ∃ L' torn, PersistFailed S K L L' torn (s.setState x) d y.1 y.2 :=
  schedulerPersist_spec (h.setState hK hx)

/-- A record that is saved is the working copy, also when the save fails. -/
lemma put_view (x : ProviderState) (y : List Io × Scheduler × Disk) :
    (backend S).view ((backend S).put x y).2.2 = x := by
  refine state_eq_of_get ?_
  change (Recovery.persist S (y.1, (y.2.1.setState x).session y.2.2)).2.2.store.providers[_]? = _
  rw [persist_providers]
  exact (setState_get y.2.1 x y.2.1.policy.providerId).trans (if_pos rfl)

/-- A call keeps what all records have that it saves or leaves, however its saves end. -/
lemma call_keeps {R : ProviderState → Prop} {w : System} {c : Call} (h : R s.state)
    (hc : Saves R s.state (c.run s.policy) (fun _ => R) fun _ => R) (io : List Io) :
    ∃ s', (w.call S s c io).live = some s' ∧ R s'.state :=
  ⟨_, rfl, (backend S).run_view (x := (io, s, w.disk)) put_view h hc⟩

/-! ### Running a computation -/

/-- The torn tail is the beginning of the record of a store, which was being appended. -/
def Cut (S : Serde) (L : Ledger) (store : SchedulerStore) (torn : Bytes) : Prop :=
  ∃ k, k ≠ 0 ∧ k < (nextLine S L.header L.states (store.withCheckpoint none)).length ∧
    torn = (nextLine S L.header L.states (store.withCheckpoint none)).take k

/-- All records were saved, the last one of them is committed. -/
structure SavedAll (S : Serde) (K : String → ProviderState → Prop) (xs : List ProviderState)
    (L L' : Ledger) (s : Scheduler) (d : Disk) (s' : Scheduler) (d' : Disk) : Prop where
  running : Running S K L' s' d'
  policy : s'.policy = s.policy
  others : ∀ id, id ≠ s.policy.providerId → s'.store.providers[id]? = s.store.providers[id]?
  top : (xs = [] ∧ L' = L ∧ s' = s ∧ d' = d) ∨
    ∃ x ∈ xs.getLast?, accounting L'.committed = accounting (s.setState x).store
  grew : L' = L ∨ L.states.length < L'.states.length
  length : L'.states.length ≤ L.states.length + xs.length
  chronicle : Chronicle L.states d → Chronicle L'.states d'
  synced : Synced S s d → Synced S s' d'
  saved : xs ≠ [] → Saved S L' s' d' ∧ ∃ x ∈ xs.getLast?, s'.state = x

/-- Why a record may not be saved. -/
def Unsaved (S : Serde) (faults : Prop) (L : Ledger) (count : ℕ) (s : Scheduler) (d : Disk) :
    Prop :=
  faults ∨ u64Max < L.states.length + count ∨ ¬ Synced S s d

/-- A record was not saved; the ledger holds the old accounting or that of some record. -/
structure SaveFailed (S : Serde) (K : String → ProviderState → Prop) (xs : List ProviderState)
    (L L' : Ledger) (torn : Bytes) (s : Scheduler) (d : Disk) (s' : Scheduler) (d' : Disk) :
    Prop where
  consistent : Consistent S L' torn d'
  archive : Archive S K L'.states d'
  poisoned : s'.persistence.poisoned = true
  /-- A torn tail is of the record of the store that was persisted last. -/
  failed : ∃ store, d'.persists.getLast? = some (store, false) ∧ (torn = [] ∨ Cut S L' store torn)
  top : L' = L ∨ L.states.length < L'.states.length ∧
    ∃ x ∈ xs, accounting L'.committed = accounting (s.setState x).store
  chronicle : Chronicle L.states d → Chronicle L'.states d'

lemma Commits.grew {store : SchedulerStore} (h : Commits L store L') :
    L' = L ∨ L.states.length < L'.states.length := by
  cases h with
  | unchanged => exact .inl rfl
  | recorded => exact .inr (by simp [Ledger.push])

lemma Commits.length_le {store : SchedulerStore} (h : Commits L store L') :
    L'.states.length ≤ L.states.length + 1 := by
  cases h with
  | unchanged => exact Nat.le_succ _
  | recorded => simp [Ledger.push]

lemma Commits.states_ne_nil' {store : SchedulerStore} (h : Commits L store L')
    (hL : L.states ≠ []) : L'.states ≠ [] := by
  cases h with
  | unchanged => exact hL
  | recorded => simp [Ledger.push]

lemma PersistFailed.cut {torn : Bytes} (h : PersistFailed S K L L' torn s d s' d') :
    torn = [] ∨ Cut S L' s.store torn := by
  cases h.interrupted with
  | before => exact .inl rfl
  | torn _ k h0 hk => exact .inr ⟨k, h0, hk, rfl⟩
  | after => exact .inl rfl

lemma PersistFailed.saveFailed {torn : Bytes} {xs : List ProviderState}
    (h : PersistFailed S K L L' torn (s.setState x) d s' d') (hL : L.states ≠ []) (hx : x ∈ xs) :
    SaveFailed S K xs L L' torn s d s' d' := by
  refine ⟨h.consistent, h.archive, h.poisoned, ⟨_, by simp [h.persists], h.cut⟩, ?_,
    fun hc => h.chronicle hc fun hnil => absurd hnil hL⟩
  · cases h.interrupted with
    | before => exact .inl rfl
    | torn => exact .inl rfl
    | after hc => exact (Commits.grew hc).imp_right fun hlt => ⟨hlt, x, hx, hc.accounting⟩

lemma putAll_spec (hK : Kept K) (xs : List ProviderState)
    (hxs : ∀ x ∈ xs, K s.policy.providerId x) (h : Running S K L s d) (hL : L.states ≠ []) :
    Meets faults (s, d) ((backend S).putAll xs)
      (fun _ y => ∃ L', SavedAll S K xs L L' s d y.1 y.2)
      fun _ y => Unsaved S faults L xs.length s d ∧
        ∃ L' torn, SaveFailed S K xs L L' torn s d y.1 y.2 := by
  induction xs generalizing L s d with
  | nil =>
    exact meets_pure ⟨L, h, rfl, fun _ _ => rfl, .inl ⟨rfl, rfl, rfl, rfl⟩, .inl rfl,
      Nat.le_refl _, id, id, fun hne => absurd rfl hne⟩
  | cons x xs ih =>
    refine meets_bind (meets_mono (put_spec hK h (hxs x (by simp))) ?_ ?_)
    · rintro u ⟨s₁, d₁⟩ ⟨L₁, h₁⟩
      have h₁ : PersistDone S K L L₁ (s.setState x) s₁ d₁ := h₁
      have hL₁ := Commits.states_ne_nil' h₁.commits hL
      have hothers : ∀ id, id ≠ s.policy.providerId →
          s₁.store.providers[id]? = s.store.providers[id]? := by
        intro id hid
        rw [h₁.providers, setState_get, if_neg hid.symm]
      have hpol : s₁.policy = s.policy := h₁.policy
      have hacc := accounting_setState hpol hothers
      refine meets_mono (ih (fun y hy => by
        rw [hpol]
        exact hxs y (by simp [hy])) h₁.running hL₁) ?_ ?_
      · rintro _ ⟨s₂, d₂⟩ ⟨L₂, h₂⟩
        have h₂ : SavedAll S K xs L₁ L₂ s₁ d₁ s₂ d₂ := h₂
        refine ⟨L₂, h₂.running, h₂.policy.trans hpol, fun id hid => ?_, ?_, ?_, ?_,
          fun _ => h₂.chronicle h₁.chronicle, fun _ => h₂.synced h₁.synced, fun _ => ?_⟩
        · rw [h₂.others id (by rwa [hpol]), hothers id hid]
        · rcases h₂.top with ⟨rfl, rfl, -, -⟩ | ⟨y, hy, hay⟩
          · exact .inr ⟨x, rfl, h₁.commits.accounting⟩
          · refine .inr ⟨y, ?_, by rw [hay, hacc]⟩
            rw [Option.mem_def] at hy ⊢
            rw [List.getLast?_cons, hy]
            rfl
        · rcases Commits.grew h₁.commits with rfl | h1 <;> rcases h₂.grew with rfl | h2
          · exact .inl rfl
          · exact .inr h2
          · exact .inr h1
          · exact .inr (h1.trans h2)
        · have h1 := Commits.length_le h₁.commits
          have h2 := h₂.length
          rw [List.length_cons]
          omega
        · rcases xs with _ | ⟨y, ys⟩
          · obtain ⟨-, rfl, rfl, rfl⟩ | ⟨y, hy, -⟩ := h₂.top
            · exact ⟨h₁.saved, x, rfl, h₁.state⟩
            · simp at hy
          · obtain ⟨hsaved, z, hz, hstate⟩ := h₂.saved (by simp)
            exact ⟨hsaved, z, by simpa using hz, hstate⟩
      · rintro e ⟨s₂, d₂⟩ ⟨hwhy, L₂, torn, h₂⟩
        have hwhy : Unsaved S faults L₁ xs.length s₁ d₁ := hwhy
        have h₂ : SaveFailed S K xs L₁ L₂ torn s₁ d₁ s₂ d₂ := h₂
        refine ⟨?_, L₂, torn, h₂.consistent, h₂.archive, h₂.poisoned, h₂.failed, ?_,
          fun _ => h₂.chronicle h₁.chronicle⟩
        · have h1 := Commits.length_le h₁.commits
          rcases hwhy with hf | hlen | hsync
          · exact .inl hf
          · refine .inr (.inl ?_)
            rw [List.length_cons]
            omega
          · exact absurd h₁.synced hsync
        · rcases Commits.grew h₁.commits with rfl | h1 <;>
            rcases h₂.top with rfl | ⟨h2, y, hy, hay⟩
          · exact .inl rfl
          · exact .inr ⟨h2, y, by simp [hy], by rw [hay, hacc]⟩
          · exact .inr ⟨h1, x, by simp, h₁.commits.accounting⟩
          · exact .inr ⟨h1.trans h2, y, by simp [hy], by rw [hay, hacc]⟩
    · rintro e ⟨s₁, d₁⟩ ⟨hwhy, L₁, torn, h₁⟩
      have h₁ : PersistFailed S K L L₁ torn (s.setState x) d s₁ d₁ := h₁
      refine ⟨?_, L₁, torn, h₁.saveFailed hL (by simp)⟩
      rcases hwhy with hf | ⟨hseq, -⟩ | hdigest
      · exact .inl hf
      · refine .inr (.inl ?_)
        change u64Max ≤ s.persistence.checkpoint.sequence at hseq
        rw [show s.persistence.checkpoint = L.last S from h.ready.held.checkpoint,
          L.sequence_last] at hseq
        rw [List.length_cons]
        omega
      · exact .inr (.inr hdigest)

/-- A computation of which every state was saved. -/
structure Ran (S : Serde) (K : String → ProviderState → Prop) {α : Type} (c : Scheduling.Op α)
    (L L' : Ledger) (s : Scheduler) (d : Disk) (s' : Scheduler) (d' : Disk) : Prop where
  running : Running S K L' s' d'
  policy : s'.policy = s.policy
  providers : s'.store.providers = (s.setState (c s.state).2.2).store.providers
  top : ((c s.state).1 = [] ∧ L' = L ∧ d' = d) ∨ ∃ x ∈ (c s.state).1.getLast?,
    accounting L'.committed = accounting (s.setState x).store
  grew : L' = L ∨ L.states.length < L'.states.length
  length : L'.states.length ≤ L.states.length + (c s.state).1.length
  chronicle : Chronicle L.states d → Chronicle L'.states d'
  synced : Synced S s d → Synced S s' d'
  saved : (c s.state).1.getLast? = some (c s.state).2.2 → Saved S L' s' d'

variable (faults) in
/-- **Running a computation**: it returns its result and everything was saved, or a save has
failed and the scheduler has stopped. -/
theorem run_spec {α : Type} (hK : Kept K) (c : Scheduling.Op α)
    (hc : Saves (K s.policy.providerId) s.state c (fun _ x => K s.policy.providerId x)
      fun _ x => K s.policy.providerId x)
    (h : Running S K L s d) (hL : L.states ≠ []) :
    Meets faults (s, d) ((backend S).run c)
      (fun a y => (c s.state).2.1 = .ok a ∧ ∃ L', Ran S K c L L' s d y.1 y.2)
      fun e y => ((c s.state).2.1 = .error e ∧ ∃ L', Ran S K c L L' s d y.1 y.2) ∨
        Unsaved S faults L (c s.state).1.length s d ∧
          ∃ L' torn, SaveFailed S K (c s.state).1 L L' torn s d y.1 y.2 := by
  have hleft : K s.policy.providerId (c s.state).2.2 := by
    rcases hr : (c s.state).2.1 with e | a
    · exact hc.2.2 e hr
    · exact hc.2.1 a hr
  refine meets_bind (meets_get (meets_bind (meets_mono (putAll_spec hK _ hc.1 h hL) ?_ ?_)))
  · rintro u ⟨s', d'⟩ ⟨L', hs⟩
    have hs : SavedAll S K (c s.state).1 L L' s d s' d' := hs
    have hran : Ran S K c L L' s d (s'.setState (c s.state).2.2) d' := by
      have hid := hs.policy
      refine ⟨hs.running.setState hK (by rwa [hid]), hid, ?_, ?_, hs.grew, hs.length,
        hs.chronicle, hs.synced, fun hlast => ?_⟩
      · refine Std.ExtTreeMap.ext_getElem? fun id => ?_
        rw [setState_get, setState_get, hid]
        split
        · rfl
        · exact hs.others id (Ne.symm ‹_›)
      · exact hs.top.imp (fun h => ⟨h.1, h.2.1, h.2.2.2⟩) id
      · obtain ⟨⟨hprimary, hcheckpoint⟩, x, hx, hstate⟩ :=
          hs.saved (by rintro he; simp [he] at hlast)
        obtain rfl : x = (c s.state).2.2 := Option.some.inj (hx.symm.trans hlast)
        rw [← hstate, setState_self]
        exact ⟨hprimary, hcheckpoint⟩
    refine meets_bind (meets_modify (meets_ofExcept ?_ ?_))
    · exact fun a ha => ⟨ha, L', hran⟩
    · exact fun e he => .inl ⟨he, L', hran⟩
  · exact fun e y hs => .inr hs

/-! ### Poisoned schedulers -/

/-- A scheduler that has stopped, before and after a computation: nothing was written. -/
structure Halted (d : Disk) (s' : Scheduler) (d' : Disk) : Prop where
  poisoned : s'.persistence.poisoned = true
  files : d'.files = d.files
  snapshots : d'.snapshots = d.snapshots
  persists : ∃ stores : List SchedulerStore,
    d'.persists = d.persists ++ stores.map fun store => (store, false)

lemma put_poisoned (hp : s.persistence.poisoned = true) :
    Meets faults (s, d) ((backend S).put x) (fun _ _ => False) fun _ y => Halted d y.1 y.2 := by
  intro io hio
  have hp' : ((s.setState x).session d).persistence.poisoned = true := hp
  have h := meets_persist (persist_poisoned (S := S) faults hp')
  refine meets_mono h ?_ ?_ io hio
  · rintro u y ⟨t, hf, -⟩
    exact hf
  · rintro e ⟨s', d'⟩ ⟨t, rfl, hn⟩
    have hn : Noted (s.setState x) d false ((s.setState x).session d) s' d' := hn
    refine ⟨?_, ?_, ?_, [(s.setState x).store], ?_⟩
    · rw [hn.persistence]
      exact hp
    · rw [hn.disk]
      rfl
    · rw [hn.disk]
      rfl
    · rw [hn.disk]
      rfl

variable (faults) in
/-- **Poisoned schedulers** write nothing, and no save is accepted. -/
theorem run_poisoned {α : Type} (c : Scheduling.Op α) (hp : s.persistence.poisoned = true) :
    Meets faults (s, d) ((backend S).run c)
      (fun a y => ((c s.state).1 = [] ∧ (c s.state).2.1 = .ok a) ∧ Halted d y.1 y.2)
      fun _ y => Halted d y.1 y.2 := by
  have hrefl : Halted d s d := ⟨hp, rfl, rfl, [], by simp⟩
  have hset : Halted d (s.setState (c s.state).2.2) d := ⟨hp, rfl, rfl, [], by simp⟩
  refine meets_bind (meets_get (meets_bind ?_))
  change Meets faults (s, d) ((backend S).putAll (c s.state).1) _ _
  rcases hs : (c s.state).1 with _ | ⟨x, xs⟩
  · refine meets_pure (meets_bind (meets_modify (meets_ofExcept (fun a ha => ⟨⟨rfl, ha⟩, hset⟩)
      fun e he => hset)))
  · exact meets_bind (meets_mono (put_poisoned hp) (fun _ _ h => h.elim) fun _ _ h => h)

end put
end Netband.Steps

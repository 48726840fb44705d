import Netband.Steps

/-!
Opening a scheduler: what it makes of the stored records, and what is on the disk when it was
interrupted.
-/

namespace Netband.Steps

open Netband.Time Netband.Model Netband.State Netband.Plan Netband.Effects Netband.Lines
open Netband.Recovery Netband.Scheduling Netband.World Netband.Edits Faulty

variable {S : Serde} {K : String → ProviderState → Prop} {L L' : Ledger} {s s' : Scheduler}
  {d d' : Disk} {faults : Prop} {policy : SchedulerPolicy} {now : ℤ} {seed : UInt64}
  {random : Random} {states : List SchedulerStore} {torn : Bytes}

/-- The accounting of the active provider before and after an opening. -/
inductive Opens (now : ℤ) : Option Accounting → Option Accounting → Prop
  | created : Opens now none (some (freshAccounting now))
  | kept {a b : Accounting} (h : Rolls now a b) : Opens now (some a) (some b)

lemma opens_none {b : Option Accounting} (h : Opens now none b) :
    b = some (freshAccounting now) := by
  cases h
  rfl

/-! ### The store of a new scheduler -/

/-- The record of the active provider, before it may be planned again. -/
def admitState (policy : SchedulerPolicy) (now : ℤ) (seed : UInt64) :
    Option ProviderState → ProviderState
  | none => newState policy now seed
  | some st => reconcileState policy now st

lemma admitStore_get (p : Persistence) (store : SchedulerStore) (id : String) :
    (admitStore policy now seed p store).store.providers[id]? =
      if policy.providerId = id then some (admitState policy now seed store.providers[id]?)
      else store.providers[id]? := by
  change (reconcile policy now seed store).1.providers[id]? = _
  unfold reconcile
  cases h : store.providers[policy.providerId]? <;>
    · simp only [Std.ExtTreeMap.getElem?_insert, compare_eq_iff_eq]
      split
      · rename_i hid
        rw [← hid, h]
        rfl
      · rfl

lemma admitStore_state (p : Persistence) (store : SchedulerStore) :
    (admitStore policy now seed p store).state =
      admitState policy now seed store.providers[policy.providerId]? := by
  have h := state_get (admitStore policy now seed p store)
  change (admitStore policy now seed p store).store.providers[policy.providerId]? = _ at h
  rw [admitStore_get, if_pos rfl] at h
  exact (Option.some.inj h).symm

variable (policy now seed) in
/-- The providers of a new scheduler: the active one is brought up to date. -/
lemma admitRecovered_get (p : Persistence) (store : SchedulerStore) (recovered : Bool)
    (id : String) : ∃ st,
    (admitRecovered policy now seed p store recovered).store.providers[id]? =
      (if policy.providerId = id then some st else store.providers[id]?) ∧
    (st = admitState policy now seed store.providers[policy.providerId]? ∨
      st = replanRemaining policy now
        (admitState policy now seed store.providers[policy.providerId]?)) := by
  unfold admitRecovered
  cases recovered with
  | false =>
    refine ⟨_, ?_, .inl rfl⟩
    simp only [Bool.false_eq_true, if_false]
    rw [admitStore_get]
    by_cases h : policy.providerId = id
    · subst h
      rfl
    · rw [if_neg h, if_neg h]
  | true =>
    refine ⟨_, ?_, .inr rfl⟩
    simp only [if_true]
    rw [setState_get, admitStore_state, admitStore_get]
    change (if policy.providerId = id then _ else _) = _
    by_cases h : policy.providerId = id
    · rw [if_pos h, if_pos h]
    · rw [if_neg h, if_neg h, if_neg h]

lemma accounting_admitRecovered (p : Persistence) (store : SchedulerStore) (recovered : Bool)
    (id : String) : (accounting (admitRecovered policy now seed p store recovered).store)[id]? =
      if policy.providerId = id then
        some (accountingOf (admitState policy now seed store.providers[id]?))
      else (accounting store)[id]? := by
  obtain ⟨st, hst, h⟩ := admitRecovered_get policy now seed p store
    recovered id
  rw [accounting_get, hst, accounting_get]
  by_cases hid : policy.providerId = id
  · rw [if_pos hid, if_pos hid]
    subst hid
    rcases h with rfl | rfl
    · rfl
    · rw [Option.map_some, accountingOf_replanRemaining]
  · rw [if_neg hid, if_neg hid]

variable (policy now seed) in
lemma opens_admitState (st : Option ProviderState) :
    Opens now (st.map accountingOf) (some (accountingOf (admitState policy now seed st))) := by
  cases st with
  | none =>
    simp only [admitState, accountingOf_newState]
    exact .created
  | some st => exact .kept rolls_reconcileState

/-- A scheduler that was made of an opened recovery set. -/
structure Admitted (S : Serde) (K : String → ProviderState → Prop) (policy : SchedulerPolicy)
    (now : ℤ) (L : Ledger) (s : Scheduler) (d : Disk) : Prop where
  running : Running S K L s d
  samePolicy : s.policy = policy
  active : Opens now (accounting L.committed)[policy.providerId]?
    (accounting s.store)[policy.providerId]?
  others : ∀ id, id ≠ policy.providerId →
    (accounting s.store)[id]? = (accounting L.committed)[id]?
  synced : Synced S s d

lemma admitRecovered_persistence (p : Persistence) (store : SchedulerStore) (recovered : Bool) :
    (admitRecovered policy now seed p store recovered).persistence = p := by
  unfold admitRecovered
  cases recovered <;> rfl

lemma AllRecords.admitRecovered {store : SchedulerStore} (hK : Kept K) (h : AllRecords K store)
    (policy : SchedulerPolicy) (now : ℤ) (seed : UInt64) (p : Persistence) (recovered : Bool) :
    AllRecords K (admitRecovered policy now seed p store recovered).store := by
  have hactive : K policy.providerId
      (admitState policy now seed store.providers[policy.providerId]?) := by
    cases hst : store.providers[policy.providerId]? with
    | none => exact hK.created policy
    | some st => exact hK.reconciled policy (h _ _ hst)
  intro id st hst
  obtain ⟨st', he, hst'⟩ := admitRecovered_get policy now seed p store recovered id
  rw [he] at hst
  split at hst
  · rename_i hid
    cases hst
    subst hid
    rcases hst' with rfl | rfl
    · exact hactive
    · exact hK.replanned policy hactive
  · exact h id st hst

lemma admitRecovered_policy (p : Persistence) (store : SchedulerStore) (recovered : Bool) :
    (admitRecovered policy now seed p store recovered).policy = policy := by
  unfold admitRecovered
  cases recovered <;> rfl

variable (policy now seed) in
lemma admitted_of_opened (hK : Kept K) {p : Persistence} {store : SchedulerStore}
    {recovered : Bool} (ho : Opened S L d d' p store recovered) (ha : Archive S K L.states d) :
    Admitted S K policy now L (admitRecovered policy now seed p store recovered) d' := by
  -- every record of the opened store was stored, or stored and replayed
  have hcommitted : AllRecords K L.committed := by
    by_cases hs : L.states = []
    · rw [Ledger.committed_empty hs]
      intro id st h
      simp at h
    · exact ha.states _ (Ledger.committed_mem hs)
  have hstored : ∀ id st, Stored S L d id st → K id st := by
    rintro id st (⟨t, ht, hst⟩ | hst)
    · exact ha.snapshots t ht id st hst
    · exact hcommitted id st hst
  have hrecords : AllRecords K store := by
    intro id st hst
    rcases ho.origin id st hst with h | ⟨st', r, h, hr, rfl⟩
    · exact hstored id st h
    · exact hK.replayed (hstored id st' h) (hcommitted id r hr)
  have hnew : AllRecords K (admitRecovered policy now seed p store recovered).store :=
    hrecords.admitRecovered hK policy now seed p recovered
  have hpersistence : (admitRecovered policy now seed p store recovered).persistence = p :=
    admitRecovered_persistence p store recovered
  have hpolicy : (admitRecovered policy now seed p store recovered).policy = policy :=
    admitRecovered_policy p store recovered
  have hschema : (admitRecovered policy now seed p store recovered).store.schemaVersion =
      store.schemaVersion := by
    have hadmit : (reconcile policy now seed store).1.schemaVersion = store.schemaVersion := by
      unfold reconcile
      cases store.providers[policy.providerId]? <;> rfl
    unfold admitRecovered
    cases recovered <;> exact hadmit
  have hothers : ∀ id, id ≠ policy.providerId →
      (accounting (admitRecovered policy now seed p store recovered).store)[id]? =
        (accounting L.committed)[id]? := by
    intro id hid
    rw [accounting_admitRecovered, if_neg hid.symm, ho.accounting]
  refine ⟨⟨?_, ⟨ho.consistent, ?_, ⟨?_, fun id st hst => hK.valid (hnew id st hst)⟩, ?_, ?_⟩,
    hnew, ha.mono ho.same.snapshots⟩, hpolicy, ?_, hothers, ?_⟩
  · rw [hpersistence, ho.poisoned]
  · change Held S L (admitRecovered policy now seed p store recovered).persistence d'
    rw [hpersistence]
    exact ho.held
  · exact hschema.trans ho.storeOk.schema
  · intro id hid
    change id ∈ (admitRecovered policy now seed p store recovered).store.providers
    by_cases h : policy.providerId = id
    · have hactive := (admitRecovered policy now seed p store recovered).active
      rwa [hpolicy, h] at hactive
    · have := hothers id (Ne.symm h)
      rw [accounting_get, accounting_get] at this
      rw [Std.ExtTreeMap.mem_iff_isSome_getElem?] at hid ⊢
      rw [← Option.isSome_map (f := accountingOf), this, Option.isSome_map]
      exact hid
  · exact ⟨_, Scheduler.active _⟩
  · have := opens_admitState policy now seed
      store.providers[policy.providerId]?
    rw [accounting_admitRecovered, if_pos rfl, ← ho.accounting, accounting_get]
    exact this
  · rw [Synced, hpersistence, ho.snapshotDigest]

/-! ### Opening a scheduler -/

lemma Chronicle.of_disk (h : Chronicle states d) (hp : d'.persists = d.persists)
    (hs : d'.snapshots = d.snapshots) : Chronicle states d' := by
  obtain ⟨h1, h2, h3, h4, h5⟩ := h
  rw [← hp] at h1 h2 h3 h4 h5
  rw [← hs] at h3
  exact ⟨h1, h2, h3, h4, h5⟩

/-- A torn ledger was cut within the record of the store that was persisted last, and in vain. -/
def CutLast (S : Serde) (states : List SchedulerStore) (torn : Bytes) (d : Disk) : Prop :=
  torn ≠ [] → ¬ AllDone d.persists ∧ ∀ dones store, AllDone dones →
    d.persists = dones ++ [(store, false)] → ∃ L : Ledger, L.states = states ∧
      d.files .ledger = some (L.bytes S ++ torn) ∧ Cut S L store torn

lemma cutLast_of_getLast {store : SchedulerStore} (hC : Consistent S L torn d)
    (hlast : d.persists.getLast? = some (store, false)) (hcut : torn = [] ∨ Cut S L store torn) :
    CutLast S L.states torn d := by
  intro htorn
  refine ⟨fun hall => ?_, fun dones store' _ he => ⟨L, rfl, hC.ledger, ?_⟩⟩
  · have := hall _ (List.mem_of_getLast? hlast)
    cases this
  · rw [he, List.getLast?_concat] at hlast
    obtain rfl : store' = store := congrArg Prod.fst (Option.some.inj hlast)
    exact hcut.resolve_left htorn

lemma CutLast.of_disk (h : CutLast S states torn d) (hp : d'.persists = d.persists)
    (hl : torn ≠ [] → d'.files .ledger = d.files .ledger) : CutLast S states torn d' := by
  intro htorn
  rw [hp, hl htorn]
  exact h htorn

/-- What is on the disk when no scheduler runs. -/
structure Resting (S : Serde) (K : String → ProviderState → Prop)
    (states : List SchedulerStore) (torn : Bytes) (d : Disk) : Prop where
  sound : Sound S d states torn
  archive : Archive S K states d
  chronicle : Chronicle states d
  cut : CutLast S states torn d

/-- A scheduler was opened: it runs, with the stored accounting brought up to date. -/
structure OpenDone (S : Serde) (K : String → ProviderState → Prop) (policy : SchedulerPolicy)
    (now : ℤ) (states : List SchedulerStore) (L : Ledger) (s : Scheduler) (d : Disk) : Prop where
  running : Running S K L s d
  samePolicy : s.policy = policy
  started : L.states ≠ []
  active : Opens now (accounting (lastState states))[policy.providerId]?
    (accounting s.store)[policy.providerId]?
  others : ∀ id, id ≠ policy.providerId →
    (accounting s.store)[id]? = (accounting (lastState states))[id]?
  top : L.states = states ∨ accounting L.committed = accounting s.store
  chronicle : Chronicle L.states d
  synced : Synced S s d

/-- A scheduler was not opened: the ledger is as it was, or it holds the stored accounting
brought up to date. -/
structure OpenFailed (S : Serde) (K : String → ProviderState → Prop) (policy : SchedulerPolicy)
    (now : ℤ) (states states' : List SchedulerStore) (torn' : Bytes) (d : Disk) : Prop where
  resting : Resting S K states' torn' d
  top : states' = states ∨
    Opens now (accounting (lastState states))[policy.providerId]?
      (accounting (lastState states'))[policy.providerId]? ∧
    ∀ id, id ≠ policy.providerId →
      (accounting (lastState states'))[id]? = (accounting (lastState states))[id]?

lemma Admitted.firstUnused (h : Admitted S K policy now L s d) : FirstUnused L s.store := by
  intro hnil
  rw [List.all_eq_true]
  rintro ⟨id, st⟩ hmem
  have hst : s.store.providers[id]? = some st := mem_toList.mp hmem
  have hempty : ∀ i : String, (accounting L.committed)[i]? = none := by
    intro i
    rw [Ledger.committed_empty hnil, accounting_empty]
    simp
  have hacc := accounting_get s.store id
  rw [hst] at hacc
  by_cases hid : id = policy.providerId
  · have hopens := h.active
    rw [hempty, ← hid, hacc] at hopens
    have hb : accountingOf st = freshAccounting now := Option.some.inj (opens_none hopens)
    have hruns : st.runs = [] := congrArg Accounting.runs hb
    have hlast : st.lastStartedAtUtc = none := congrArg Accounting.lastStart hb
    have hcool : st.cooldownUntilUtc = none := congrArg Accounting.cooldown hb
    have hback : st.backoffStep = 0 := congrArg Accounting.backoff hb
    simp [unused, hruns, hlast, hcool, hback]
  · have := h.others id hid
    rw [hempty, hacc] at this
    cases this

lemma meets_persistOpening {Q : Scheduler → Disk → Prop} {E : SchedulerError → Disk → Prop}
    (h : Meets faults (s, d) (Scheduler.persist S) (fun _ y => Q y.1 y.2) fun e y => E e y.2) :
    Meets faults d (persistOpening S s) Q E := by
  intro io hio
  have hp := h io hio
  change Ends faults Q E (((Scheduler.persist S (io, s, d)).1.map fun _ =>
    (Scheduler.persist S (io, s, d)).2.2.1), (Scheduler.persist S (io, s, d)).2.1,
    (Scheduler.persist S (io, s, d)).2.2.2)
  generalize Scheduler.persist S (io, s, d) = r at hp ⊢
  rcases r with ⟨e | u, y⟩ <;> exact hp

lemma persistOpening_spec (h : Admitted S K policy now L s d)
    (hc : Chronicle L.states d) :
    Meets faults d (persistOpening S s)
      (fun s' d' => ∃ L', OpenDone S K policy now L.states L' s' d')
      fun _ d' => (faults ∨ u64Max ≤ L.states.length) ∧
        ∃ states' torn', OpenFailed S K policy now L.states states' torn' d' := by
  refine meets_persistOpening (meets_mono (schedulerPersist_spec h.running) ?_ ?_)
  · rintro u ⟨s', d'⟩ ⟨L', hdone⟩
    have hdone : PersistDone S K L L' s s' d' := hdone
    have hstore : accounting s'.store = accounting s.store := by
      unfold accounting
      rw [hdone.providers]
    refine ⟨L', hdone.running, hdone.policy.trans h.samePolicy,
      Commits.states_ne_nil hdone.commits s.active, ?_, ?_, .inr ?_,
      hdone.chronicle, hdone.synced⟩
    · rw [hstore]
      exact h.active
    · rw [hstore]
      exact h.others
    · rw [hdone.commits.accounting, hstore]
  · rintro e ⟨s', d'⟩ ⟨hwhy, L', torn', hfail⟩
    have hfail : PersistFailed S K L L' torn' s d s' d' := hfail
    refine ⟨?_, L'.states, torn', ⟨⟨.consistent hfail.consistent, hfail.archive,
      hfail.chronicle hc h.firstUnused, cutLast_of_getLast hfail.consistent
        (by simp [hfail.persists]) hfail.cut⟩, ?_⟩⟩
    · rcases hwhy with hf | ⟨hseq, -⟩ | hdigest
      · exact .inl hf
      · right
        change u64Max ≤ s.persistence.checkpoint.sequence at hseq
        have hcp : s.persistence.checkpoint = L.last S := h.running.ready.held.checkpoint
        rwa [hcp, L.sequence_last] at hseq
      · exact absurd h.synced hdigest
    · cases hfail.interrupted with
      | before => exact .inl rfl
      | torn => exact .inl rfl
      | after hcommits =>
        right
        have hacc := hcommits.accounting
        change Opens now (accounting L.committed)[policy.providerId]?
            (accounting L'.committed)[policy.providerId]? ∧ _
        rw [hacc]
        refine ⟨h.active, fun id hid => ?_⟩
        change (accounting L'.committed)[id]? = (accounting L.committed)[id]?
        rw [hacc]
        exact h.others id hid

/-- Why a scheduler may not be opened. -/
def NotOpenable (faults : Prop) (d : Disk) (states : List SchedulerStore) (torn : Bytes)
    (random : Random) : Prop :=
  faults ∨ OpenRefused d states torn random ∨ u64Max ≤ states.length

variable (now seed) in
lemma reconcile_unchanged {store : SchedulerStore}
    (h : (reconcile policy now seed store).2 = false) :
    policy.providerId ∈ store.providers := by
  unfold reconcile at h
  cases hst : store.providers[policy.providerId]? with
  | none => simp [hst] at h
  | some st =>
    rw [Std.ExtTreeMap.mem_iff_isSome_getElem?, hst]
    rfl

/-- A store that is up to date is left as it is. -/
lemma admitRecovered_unchanged {store : SchedulerStore}
    (h : (reconcile policy now seed store).2 = false) (p : Persistence) :
    (admitRecovered policy now seed p store false).store = store := by
  change (reconcile policy now seed store).1 = store
  unfold reconcile at h ⊢
  cases hst : store.providers[policy.providerId]? with
  | none => simp [hst] at h
  | some st =>
    simp only [hst, decide_eq_false_iff_not, ne_eq, not_not] at h ⊢
    rw [← h]
    have hproviders : store.providers.insert policy.providerId st = store.providers := by
      refine Std.ExtTreeMap.ext_getElem? fun id => ?_
      simp only [Std.ExtTreeMap.getElem?_insert, compare_eq_iff_eq]
      split
      · rename_i hid
        rw [← hid, hst]
      · rfl
    rw [hproviders]

variable (faults policy now seed random) in
/-- **Opening a scheduler**: it runs with the last committed accounting brought up to date, or
it fails and at most that accounting was committed. -/
theorem openSeeded_spec (hK : Kept K) (h : Resting S K states torn d) :
    Meets faults d (openSeeded S policy now seed random)
      (fun s d' => torn = [] ∧ ∃ L, OpenDone S K policy now states L s d')
      fun _ d' => NotOpenable faults d states torn random ∧ ∃ states' torn',
        OpenFailed S K policy now states states' torn' d' := by
  refine meets_bind (meets_mono (open_spec h.sound random) ?_ ?_)
  · rintro ⟨p, store, recovered⟩ d₁ ⟨htorn, L, rfl, ho⟩
    have ho : Opened S L d d₁ p store recovered := ho
    have hadm := admitted_of_opened policy now seed hK ho h.archive
    have hchron : Chronicle L.states d₁ := h.chronicle.of_disk ho.same.persists ho.same.snapshots
    dsimp only
    split_ifs with hpersist
    · exact meets_mono (persistOpening_spec hadm hchron) (fun _ _ hs => ⟨htorn, hs⟩)
        fun _ _ hf => ⟨hf.1.imp_right .inr, hf.2⟩
    · refine meets_pure ⟨htorn, L, hadm.running, hadm.samePolicy, ?_, hadm.active, hadm.others,
        .inl rfl, hchron, hadm.synced⟩
      -- nothing has changed, so the provider was there
      have hmem : policy.providerId ∈ store.providers := by
        refine reconcile_unchanged now seed (Bool.eq_false_iff.mpr fun hch => ?_)
        exact hpersist (by simp [hch])
      intro hnil
      have hacc := ho.accounting
      rw [Ledger.committed_empty hnil, accounting_empty] at hacc
      exact accounting_ne_empty hmem hacc
  · rintro e d₁ hno
    refine ⟨hno.why.imp_right fun hw => .inl hw.2, states, torn,
      ⟨⟨hno.sound, h.archive.mono hno.same.snapshots,
        h.chronicle.of_disk hno.same.persists hno.same.snapshots,
        h.cut.of_disk hno.same.persists hno.ledger⟩, .inl rfl⟩⟩

end Netband.Steps

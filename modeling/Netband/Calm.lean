import Netband.History

/-!
Runs in which no I/O call fails.

A scheduler that knows its snapshot persists whatever it is asked to, until the sequence
numbers are used up. Its calls are then the computations on its record and nothing else.
-/

namespace Netband.Steps

open Netband.Time Netband.Model Netband.State Netband.Plan Netband.Effects Netband.Lines
open Netband.Recovery Netband.Scheduling Netband.World Netband.Edits Netband.Runs
open Faulty

/-- A system with a running scheduler, its record, and at most so many committed records. -/
structure Calm (S : Serde) (policy : SchedulerPolicy) (st : ProviderState) (count : ℕ)
    (s : Scheduler) (L : Ledger) (w : System) : Prop where
  live : w.live = some s
  samePolicy : s.policy = policy
  state : s.state = st
  running : Running S ValidState L s w.disk
  started : L.states ≠ []
  length : L.states.length ≤ count
  synced : Synced S s w.disk

section calm
variable {S : Serde} {policy : SchedulerPolicy} {st : ProviderState} {n : ℕ} {s : Scheduler}
  {L L' : Ledger} {w : System}

/-- The call and its result. -/
def told (e : Entry) : SchedulerPolicy × Call × Except SchedulerError Reply :=
  (e.policy, e.call, e.result)

lemma result_of_told {e : Entry} {policy : SchedulerPolicy} {c : Call}
    {result : Except SchedulerError Reply} (h : told e = (policy, c, result)) :
    e.result = result :=
  congrArg (·.2.2) h

/-- **Calls without faults**: the result and the record are those of the computation. -/
theorem Calm.call (h : Calm S policy st n s L w) (c : Call)
    (hn : n + (c.run policy st).1.length ≤ u64Max) :
    ∃ s' L' e, Calm S policy (c.run policy st).2.2 (n + (c.run policy st).1.length) s' L'
        (w.step S (.call c, [])) ∧
      (w.step S (.call c, [])).trace = w.trace ++ [e] ∧
      told e = (policy, c, (c.run policy st).2.1) ∧
      ((c.run policy st).1.getLast? = some (c.run policy st).2.2 →
        Saved S L' s' (w.step S (.call c, [])).disk) := by
  obtain ⟨hlive, rfl, rfl, hrun, h0, hlen, hsync⟩ := h
  have hspec := ends_iff.mp (run_spec False kept_validState (c.run s.policy)
    (kept_validState.call hrun.state c) hrun h0 [] (.inl rfl))
  generalize hr : (backend S).run (c.run s.policy) ([], s, w.disk) = r at hspec
  -- the result is the computation's, and everything was saved
  obtain ⟨L', hres, hran⟩ : ∃ L', r.1 = (c.run s.policy s.state).2.1 ∧
      Ran S ValidState (c.run s.policy) L L' s w.disk r.2.2.1 r.2.2.2 := by
    rcases hres : r.1 with e | a
    · rcases hspec.2 e hres with ⟨he, L', hran⟩ | ⟨hwhy, -⟩
      · exact ⟨L', he.symm, hran⟩
      · rcases hwhy with hf | hlt | hns
        · exact hf.elim
        · omega
        · exact absurd hsync hns
    · obtain ⟨-, ha, L', hran⟩ := hspec.1 a hres
      exact ⟨L', ha.symm, hran⟩
  have hstate : r.2.2.1.state = (c.run s.policy s.state).2.2 := by
    refine state_eq_of_get ?_
    rw [hran.providers, hran.policy]
    exact Std.ExtTreeMap.getElem?_insert_self
  have hstep : w.step S (.call c, []) =
      { w.call S s c [] with clock := laterOf w.clock c.now } := by
    simp only [System.step, System.act, hlive]
    rfl
  have hcall : w.call S s c [] = { w with
      disk := r.2.2.2
      live := some r.2.2.1
      trace := w.trace ++ [⟨s.policy, c, r.1, ledgerLines w.disk < ledgerLines r.2.2.2⟩] } := by
    rw [← hr]
    rfl
  have hL' : L'.states ≠ [] := by
    rcases hran.grew with rfl | hlt
    · exact h0
    · exact List.ne_nil_of_length_pos (by omega)
  rw [hstep, hcall]
  exact ⟨r.2.2.1, L', _, ⟨rfl, hran.policy, hstate, hran.running, hL',
    hran.length.trans (Nat.add_le_add_right hlen _), hran.synced hsync⟩, rfl,
    by rw [told, hres], hran.saved⟩

/-! ### Opening without faults -/

/-- The ledger once the accounting of a store is committed: it has one more record at most, and
only if the accounting has changed. -/
structure Settled (L L' : Ledger) (store : SchedulerStore) : Prop where
  committed : accounting L'.committed = accounting store
  same : accounting store = accounting L.committed → L' = L
  length : L'.states.length ≤ L.states.length + 1

lemma Commits.settled {store store' : SchedulerStore} (h : Commits L store L')
    (hp : store'.providers = store.providers) : Settled L L' store' := by
  have hacc : accounting store' = accounting store := by
    unfold accounting
    rw [hp]
  refine ⟨by rw [h.accounting, hacc], fun hsame => ?_, Commits.length_le h⟩
  cases h with
  | unchanged => rfl
  | recorded hne => exact absurd (hacc ▸ hsame) hne

/-- Opening a recovery set that holds a snapshot succeeds. -/
lemma openPersistence_calm {d : Disk} (h : Consistent S L [] d) (hp : d.files .primary ≠ none)
    (random : Random) : Meets False d (openPersistence S random)
      (fun r d' => Opened S L d d' r.1 r.2.1 r.2.2) fun _ _ => False := by
  refine meets_mono (open_consistent h random) (fun _ _ ho => ho.2) ?_
  rintro e d' ⟨-, -, hf | ⟨-, ht | ⟨hledger, -⟩ | ⟨hno, -⟩⟩⟩
  · exact hf
  · exact absurd rfl ht
  · rw [h.ledger] at hledger
    cases hledger
  · exact hp hno

/-- A scheduler was opened from a store with the accounting of the last record. -/
structure OpenedFrom (S : Serde) (policy : SchedulerPolicy) (now : ℤ) (seed : UInt64)
    (Q : SchedulerStore → Bool → Prop) (L L' : Ledger) (s : Scheduler) (d' : Disk) : Prop where
  samePolicy : s.policy = policy
  synced : Synced S s d'
  source : ∃ p store recovered, Q store recovered ∧ accounting store = accounting L.committed ∧
    s.store.providers = (admitRecovered policy now seed p store recovered).store.providers
  started : L'.states ≠ []
  settled : Settled L L' s.store
  running : Running S ValidState L' s d'
  saved : Saved S L' s d'

/-- The sequence numbers are used up, and one is needed. -/
def Exhausted (policy : SchedulerPolicy) (now : ℤ) (seed : UInt64)
    (Q : SchedulerStore → Bool → Prop) (L : Ledger) : Prop :=
  u64Max ≤ L.states.length ∧ ∃ p store recovered, Q store recovered ∧
    accounting store = accounting L.committed ∧
    accounting (admitRecovered policy now seed p store recovered).store ≠ accounting L.committed

/-- **Opening a scheduler without faults**, with what is known of the store. -/
theorem openSeeded_calm {d : Disk} {random : Random} (policy : SchedulerPolicy) (now : ℤ)
    (seed : UInt64) {Q : SchedulerStore → Bool → Prop} (harch : Archive S ValidState L.states d)
    (hopen : Meets False d (openPersistence S random)
      (fun r d' => Opened S L d d' r.1 r.2.1 r.2.2 ∧ Q r.2.1 r.2.2) fun _ _ => False)
    (hpolicy : L.states ≠ [] ∨ ∀ store recovered, Q store recovered →
      policy.providerId ∉ store.providers) :
    Meets False d (openSeeded S policy now seed random)
      (fun s d' => ∃ L', OpenedFrom S policy now seed Q L L' s d')
      fun _ _ => Exhausted policy now seed Q L := by
  refine meets_bind (meets_mono hopen ?_ fun _ _ h => h.elim)
  rintro ⟨p, store, recovered⟩ d' ⟨ho, hQ⟩
  have ho : Opened S L d d' p store recovered := ho
  have hQ : Q store recovered := hQ
  have hadm := admitted_of_opened policy now seed
    kept_validState ho harch
  dsimp only
  split_ifs with hpersist
  · refine meets_persistOpening (meets_mono (schedulerPersist_spec hadm.running) ?_ ?_)
    · rintro u ⟨s', d₁⟩ ⟨L', hdone⟩
      have hdone : PersistDone S ValidState L L' (admitRecovered policy now seed p store recovered)
        s' d₁ := hdone
      exact ⟨L', hdone.policy.trans hadm.samePolicy, hdone.synced,
        ⟨p, store, recovered, hQ, ho.accounting, hdone.providers⟩,
        Commits.states_ne_nil hdone.commits (Scheduler.active _),
        Commits.settled hdone.commits hdone.providers, hdone.running, hdone.saved⟩
    · rintro e ⟨s', d₁⟩ ⟨hf | ⟨hseq, hchanged⟩ | hdigest, -⟩
      · exact hf.elim
      · have hheld := hadm.running.ready.held
        change Held S L (admitRecovered policy now seed p store recovered).persistence d' at hheld
        change u64Max ≤
            (admitRecovered policy now seed p store recovered).persistence.checkpoint.sequence
          at hseq
        change _ ≠ accounting
            (admitRecovered policy now seed p store recovered).persistence.committed at hchanged
        rw [hheld.checkpoint, L.sequence_last] at hseq
        rw [hheld.committed] at hchanged
        exact ⟨hseq, p, store, recovered, hQ, ho.accounting, hchanged⟩
      · exact absurd hadm.synced hdigest
  · obtain ⟨⟨hunchanged, rfl⟩, hsnapshot⟩ : ((reconcile policy now seed store).2 = false ∧
        recovered = false) ∧ needsSnapshot S p
          (admitRecovered policy now seed p store recovered).store = false := by
      simpa using hpersist
    have hstore := admitRecovered_unchanged hunchanged p
    refine meets_pure ⟨L, hadm.samePolicy, hadm.synced, ⟨p, store, false, hQ, ho.accounting, rfl⟩,
      ?_, ⟨?_, fun _ => rfl, Nat.le_succ _⟩, hadm.running, ?_, ?_⟩
    · rcases hpolicy with h0 | hno
      · exact h0
      · exact absurd (reconcile_unchanged now seed hunchanged) (hno store false hQ)
    · rw [hstore, ho.accounting]
    · -- the snapshot was not written, as it is the store
      have hdigest : p.snapshotDigest ≠ none := by
        intro hnone
        simp [needsSnapshot, hnone] at hsnapshot
      rw [ho.snapshotDigest] at hdigest
      obtain ⟨b, hb⟩ : ∃ b, d'.files .primary = some b := by
        cases hb : d'.files .primary with
        | none => simp [hb] at hdigest
        | some b => exact ⟨b, rfl⟩
      rw [hstore, hb, ho.written rfl b (by rw [← ho.same.primary]; exact hb)]
    · rw [hstore]
      exact ho.checkpoint

/-- The record of a scheduler that was opened. -/
lemma OpenedFrom.state {now : ℤ} {seed : UInt64} {Q : SchedulerStore → Bool → Prop} {d' : Disk}
    (h : OpenedFrom S policy now seed Q L L' s d') : ∃ store recovered, Q store recovered ∧
      accounting store = accounting L.committed ∧
      (s.state = admitState policy now seed store.providers[policy.providerId]? ∨
        recovered = true ∧ s.state = replanRemaining policy now
          (admitState policy now seed store.providers[policy.providerId]?)) := by
  obtain ⟨p, store, recovered, hQ, hacc, hproviders⟩ := h.source
  refine ⟨store, recovered, hQ, hacc, ?_⟩
  have hstate : s.state = (admitRecovered policy now seed p store recovered).state := by
    have hget := state_get (admitRecovered policy now seed p store recovered)
    rw [admitRecovered_policy] at hget
    refine state_eq_of_get ?_
    rw [hproviders, h.samePolicy]
    exact hget
  rw [hstate, ← admitStore_state p store]
  cases recovered with
  | false => exact .inl rfl
  | true =>
    refine .inr ⟨rfl, ?_⟩
    exact state_eq_of_get (by
      change ((admitStore policy now seed p store).setState _).store.providers[policy.providerId]? =
        _
      rw [setState_get]
      exact if_pos rfl)

/-- The first opening plans a new record. -/
theorem calm_first (policy : SchedulerPolicy) (now : ℤ) (seed : UInt64)
    (random : Vector UInt8 16) :
    ∃ s L, Calm S policy (newState policy now seed) 1 s L
        (System.step S {} (.openSeeded policy now seed (.ok random), [])) ∧
      (System.step S {} (.openSeeded policy now seed (.ok random), [])).trace = [] ∧
      Saved S L s (System.step S {} (.openSeeded policy now seed (.ok random), [])).disk := by
  have hU : Untouched {} := ⟨fun _ => rfl, rfl⟩
  -- which ledger is opened is only known once it was written
  obtain ⟨L, hL, hopen⟩ : ∃ L : Ledger, L.states = [] ∧
      Meets False {} (openPersistence S (.ok random))
        (fun r d' => Opened S L {} d' r.1 r.2.1 r.2.2 ∧ r.2.1.providers = ∅ ∧ r.2.2 = false)
        fun _ _ => False := by
    have hspec := open_untouched (S := S) False hU (.ok random)
    have hends := ends_iff.mp (hspec [] (.inl rfl))
    rcases hr : (openPersistence S (.ok random) ([], {})).1 with e | r
    · obtain ⟨-, -, hf | ⟨-, ht | ⟨-, e', he⟩ | ⟨-, hres⟩⟩⟩ := hends.2 e hr
      · exact hf.elim
      · exact absurd rfl ht
      · cases he
      · exact absurd ⟨Nat.zero_le _, rfl⟩ hres
    · obtain ⟨-, L, hL, ho⟩ := hends.1 r hr
      have hrec := ho.unrecovered hL
      refine ⟨L, hL, fun io hio => ?_⟩
      obtain rfl := hio.resolve_right id
      refine ends_iff.mpr ⟨fun a ha => ?_, fun e he => by simp [hr] at he⟩
      obtain rfl : r = a := Except.ok.inj (hr.symm.trans ha)
      refine ⟨(hends.1 r hr).1, ho, ?_, hrec⟩
      have hacc := ho.accounting
      rw [Ledger.committed_empty hL, accounting_empty] at hacc
      refine Std.ExtTreeMap.eq_empty_iff_forall_not_mem.mpr fun id hid => ?_
      exact accounting_ne_empty hid hacc
  have harch : Archive S ValidState L.states {} := by
    rw [hL]
    exact ⟨by simp, by simp⟩
  have hspec := ends_iff.mp (openSeeded_calm (Q := fun store recovered =>
      store.providers = ∅ ∧ recovered = false) policy now seed harch
    hopen (.inr (fun store _ hQ => by simp [hQ.1])) [] (.inl rfl))
  rcases hr : (openSeeded S policy now seed (.ok random) ([], {})).1 with e | s
  · obtain ⟨hfull, -⟩ := hspec.2 e hr
    rw [hL] at hfull
    exact absurd hfull (by decide)
  · obtain ⟨-, L', ho⟩ := hspec.1 s hr
    refine ⟨s, L', ⟨?_, ho.samePolicy, ?_, ho.running, ho.started, by
      simpa [hL] using ho.settled.length, ho.synced⟩, rfl, ho.saved⟩
    · change (openSeeded S policy now seed (.ok random) ([], {})).1.toOption = some s
      rw [hr]
      rfl
    · obtain ⟨store, recovered, ⟨hempty, rfl⟩, -, hstate | ⟨⟨⟩, -⟩⟩ := ho.state
      rw [hstate, hempty]
      simp [admitState]

/-- Closing and opening again brings the saved record up to date. -/
theorem Calm.reopen (h : Calm S policy st n s L w) (hsaved : Saved S L s w.disk)
    (hn : n < u64Max) (policy' : SchedulerPolicy) (now : ℤ) (seed : UInt64) (random : Random)
    (hid : policy'.providerId = policy.providerId) :
    ∃ s' L', Calm S policy' (reconcileState policy' now st) (n + 1) s' L'
        ((w.step S (.close, [])).step S (.openSeeded policy' now seed random, [])) ∧
      ((w.step S (.close, [])).step S (.openSeeded policy' now seed random, [])).trace =
        w.trace := by
  obtain ⟨hlive, rfl, rfl, hrun, h0, hlen, hsync⟩ := h
  have hopen : Meets False w.disk (openPersistence S random)
      (fun r d' => Opened S L w.disk d' r.1 r.2.1 r.2.2 ∧
        r.2.1.providers = s.store.providers ∧ r.2.2 = false) fun _ _ => False := by
    refine meets_mono (openPersistence_calm hrun.ready.consistent
      (by simp [Scheduler.session, hsaved.primary]) random) ?_ fun _ _ h => h
    rintro ⟨p, store, recovered⟩ d' ho
    have ho : Opened S L w.disk d' p store recovered := ho
    obtain ⟨rfl, rfl⟩ := ho.current _ hsaved.primary hsaved.checkpoint
    exact ⟨ho, rfl, rfl⟩
  have hspec := ends_iff.mp (openSeeded_calm (Q := fun store recovered =>
      store.providers = s.store.providers ∧ recovered = false) policy' now seed
    hrun.archive hopen (.inl h0) [] (.inl rfl))
  rcases hr : (openSeeded S policy' now seed random ([], w.disk)).1 with e | s'
  · obtain ⟨hfull, -⟩ := hspec.2 e hr
    omega
  · obtain ⟨-, L', ho⟩ := hspec.1 s' hr
    have hlen' := ho.settled.length
    refine ⟨s', L', ⟨?_, ho.samePolicy, ?_, ho.running, ho.started, by omega, ho.synced⟩, rfl⟩
    · change (openSeeded S policy' now seed random ([], w.disk)).1.toOption = some s'
      rw [hr]
      rfl
    · obtain ⟨store, recovered, ⟨hproviders, rfl⟩, -, hstate | ⟨⟨⟩, -⟩⟩ := ho.state
      rw [hstate, hproviders, hid, state_get]
      rfl

/-! ### Several calls -/

/-- The record after some calls, each with its result. -/
def tell (policy : SchedulerPolicy) : ProviderState → List Call →
    ProviderState × List (SchedulerPolicy × Call × Except SchedulerError Reply)
  | st, [] => (st, [])
  | st, c :: rest =>
    let r := tell policy (c.run policy st).2.2 rest
    (r.1, (policy, c, (c.run policy st).2.1) :: r.2)

/-- The number of records that some calls save. -/
def savedBy (policy : SchedulerPolicy) : ProviderState → List Call → ℕ
  | _, [] => 0
  | st, c :: rest => (c.run policy st).1.length + savedBy policy (c.run policy st).2.2 rest

theorem Calm.calls (h : Calm S policy st n s L w) (calls : List Call)
    (hn : n + savedBy policy st calls ≤ u64Max) :
    ∃ s' L' entries, Calm S policy (tell policy st calls).1 (n + savedBy policy st calls) s' L'
        ((calls.map fun c => (Action.call c, ([] : List Io))).foldl (System.step S) w) ∧
      ((calls.map fun c => (Action.call c, ([] : List Io))).foldl (System.step S) w).trace =
        w.trace ++ entries ∧
      entries.map told = (tell policy st calls).2 := by
  induction calls generalizing st n s L w with
  | nil => exact ⟨s, L, [], h, by simp, rfl⟩
  | cons c rest ih =>
    rw [savedBy] at hn
    obtain ⟨s₁, L₁, e, h₁, htrace, he, -⟩ := h.call c (by omega)
    obtain ⟨s', L', entries, h', htrace', hentries⟩ := ih h₁ (by omega)
    refine ⟨s', L', e :: entries, ?_, ?_, ?_⟩
    · rw [savedBy, ← Nat.add_assoc]
      exact h'
    · rw [List.map_cons, List.foldl_cons, htrace', htrace, List.append_assoc]
      rfl
    · rw [List.map_cons, hentries, he]
      rfl

/-! ### Runs without faults -/

/-- The first opening and some calls. -/
def calmRun (S : Serde) (policy : SchedulerPolicy) (now : ℤ) (seed : UInt64)
    (random : Vector UInt8 16) (calls : List Call) : System :=
  (calls.map fun c => (Action.call c, ([] : List Io))).foldl (System.step S)
    (System.step S {} (.openSeeded policy now seed (.ok random), []))

theorem calmRun_spec (now : ℤ) (seed : UInt64) (random : Vector UInt8 16) (calls : List Call)
    (hn : 1 + savedBy policy (newState policy now seed) calls ≤ u64Max) :
    ∃ s L, Calm S policy (tell policy (newState policy now seed) calls).1
        (1 + savedBy policy (newState policy now seed) calls) s L
        (calmRun S policy now seed random calls) ∧
      (calmRun S policy now seed random calls).trace.map told =
        (tell policy (newState policy now seed) calls).2 := by
  obtain ⟨s, L, hfirst, htrace, -⟩ := calm_first (S := S) policy now seed random
  obtain ⟨s', L', entries, hcalm, htrace', hentries⟩ := hfirst.calls calls hn
  refine ⟨s', L', hcalm, ?_⟩
  have hall : (calmRun S policy now seed random calls).trace = entries := by
    rw [calmRun, htrace', htrace, List.nil_append]
  rw [hall, hentries]

lemma reaches_calmRun {ok : Action → Prop} (now : ℤ) (seed : UInt64) (random : Vector UInt8 16)
    (calls : List Call) (hopen : ok (.openSeeded policy now seed (.ok random)))
    (hcall : ∀ c, ok (.call c)) :
    Reaches S (fun _ a => ok a) (calmRun S policy now seed random calls) := by
  have hfirst : Reaches S (fun _ a => ok a)
      (System.step S {} (.openSeeded policy now seed (.ok random), [])) := .step .first hopen
  refine hfirst.foldl (allowed_of_forall (fun _ x hx => ?_) _)
  obtain ⟨c, -, rfl⟩ := List.mem_map.mp hx
  exact hcall c

/-- Calls at times that do not decrease. -/
def Ascending : ℤ → List Call → Prop
  | _, [] => True
  | t, c :: rest => (∀ now ∈ c.now, t ≤ now) ∧ Ascending (c.now.getD t) rest

lemma allowed_inOrder {t : ℤ} {calls : List Call} (hclock : w.clock = some t)
    (h : Ascending t calls) : Allowed (System.step S) (fun w x => InOrder w x.1) w
      (calls.map fun c => (Action.call c, ([] : List Io))) := by
  induction calls generalizing t w with
  | nil => trivial
  | cons c rest ih =>
    refine ⟨fun clock hc now hnow => ?_, ih (t := c.now.getD t) ?_ h.2⟩
    · rw [hclock, Option.mem_some_iff] at hc
      exact hc ▸ h.1 now hnow
    · change laterOf w.clock c.now = _
      rw [hclock]
      rcases hnow : c.now with _ | now
      · rfl
      · have hle := h.1 now hnow
        simp [laterOf, hle]

lemma reaches_calmRun_inOrder {now : ℤ} {seed : UInt64} {random : Vector UInt8 16}
    {calls : List Call} (h : Ascending now calls) :
    Reaches S InOrder (calmRun S policy now seed random calls) := by
  have hopen : Reaches S InOrder
      (System.step S {} (.openSeeded policy now seed (.ok random), [])) :=
    .step .first fun clock hc => by cases hc
  exact hopen.foldl (allowed_inOrder rfl h)

end calm

/-! ### Two policies -/

/-- The default settings, with the M-Lab provider. -/
def mlabPolicy : SchedulerPolicy where
  providerId := "mlab"
  providerKind := .mlab
  forceLimits := false
  dailyMax := 4
  minSpacing := 2160000000000
  slotJitterPct := 50
  pendingTtl := 1800000000000
  cooldownInitial := 60000000000
  cooldownMax := 960000000000
  providerId_ne := by decide
  dailyMax_le := by decide
  minSpacing_ge := by decide
  slotJitterPct_le := by decide

/-- The default settings, with a direct provider. -/
def directPolicy : SchedulerPolicy :=
  { mlabPolicy with providerId := "direct", providerKind := .direct, providerId_ne := by decide }

end Netband.Steps

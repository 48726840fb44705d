import Netband.Cuts

/-!
Recovery from an earlier snapshot: a recovery set whose snapshot file is any that was ever written
opens with the accounting of the last record, and opening it again changes nothing.
-/

namespace Netband.Steps

open Netband.Time Netband.Model Netband.State Netband.Plan Netband.Effects Netband.Lines
open Netband.Recovery Netband.Scheduling Netband.World Netband.Edits Netband.Runs
open Faulty

/-- The recovery set opens with the accounting. -/
def OpensWith (S : Serde) (random : Random) (d : Disk) (a : BTreeMap String Accounting)
    (d' : Disk) : Prop :=
  ∃ p store recovered, openPersistence S random ([], d) = (.ok (p, store, recovered), [], d') ∧
    accounting store = a

/-- What opening a disk gives: the accounting, and nothing new when it is opened again. A scheduler
that is opened again on its last recorded day, or before, finds what it left. -/
structure Recoverable (S : Serde) (d : Disk) (a : BTreeMap String Accounting) : Prop where
  opens : ∀ random, ∃ d', OpensWith S random d a d' ∧ d'.files .ledger = d.files .ledger ∧
    ∀ random', ∃ d'', OpensWith S random' d' a d'' ∧ d''.files .ledger = d'.files .ledger
  reopens : ∀ policy now seed random s d',
    openSeeded S policy now seed random ([], d) = (.ok s, [], d') →
    ∀ now' seed' random', dateNaive now' ≤ s.state.dayUtc →
    ∃ s' d'', openSeeded S policy now' seed' random' ([], d') = (.ok s', [], d'') ∧
      accounting s'.store = accounting s.store ∧ d''.files .ledger = d'.files .ledger

section stale
variable {S : Serde} {L L' : Ledger} {s : Scheduler} {d d' : Disk} {policy : SchedulerPolicy}
  {now now' : ℤ} {seed seed' : UInt64} {st : ProviderState} {w : System}

/-- A computation that cannot fail returns, and asks for no more outcomes. -/
lemma eq_ok_of_meets {σ ε α : Type} {c : Faulty σ ε α} {x : σ} {Q : α → σ → Prop}
    (h : Meets False x c Q fun _ _ => False) : ∃ a y, c ([], x) = (.ok a, [], y) ∧ Q a y := by
  have hends := ends_iff.mp (h [] (.inl rfl))
  rcases hr : c ([], x) with ⟨e | a, io, y⟩
  · rw [hr] at hends
    exact (hends.2 e rfl).elim
  · rw [hr] at hends
    obtain ⟨hio, hQ⟩ := hends.1 a rfl
    obtain rfl : io = [] := hio.resolve_right id
    exact ⟨a, y, rfl, hQ⟩

lemma Consistent.opens (h : Consistent S L [] d) (hp : d.files .primary ≠ none) (random : Random) :
    ∃ d', OpensWith S random d (accounting L.committed) d' ∧ Consistent S L [] d' ∧
      d'.files .primary ≠ none ∧ d'.files .ledger = d.files .ledger := by
  obtain ⟨⟨p, store, recovered⟩, d', hopen, ho⟩ :=
    eq_ok_of_meets (openPersistence_calm h hp random)
  have ho : Opened S L d d' p store recovered := ho
  refine ⟨d', ⟨p, store, recovered, hopen, ho.accounting⟩, ho.consistent, ?_, ?_⟩
  · rwa [ho.same.primary]
  · rw [ho.consistent.ledger, h.ledger]

/-- A record that is up to date keeps its accounting. -/
lemma accountingOf_reconcileState (hday : dateNaive now' ≤ st.dayUtc)
    (hsame : policyChanged policy st = false) :
    accountingOf (reconcileState policy now' st) = accountingOf st := by
  unfold reconcileState
  rw [reconcileDay_of_le hday]
  dsimp only
  rw [hsame]
  rfl

variable (policy now seed) in
/-- The record of an opened provider has the policy of the opening. -/
lemma policyChanged_admitState (o : Option ProviderState) :
    policyChanged policy (admitState policy now seed o) = false := by
  cases o with
  | none =>
    obtain ⟨rng, slots, hnew, -⟩ := newState_eq policy now seed
    rw [admitState, hnew]
    simp [policyChanged, blankState]
  | some st =>
    obtain ⟨rng, slots, deferred, triggers, hst, -, -⟩ := reconcileState_eq policy now st
    rw [admitState, hst]
    simp [policyChanged]

lemma OpenedFrom.policyChanged {Q : SchedulerStore → Bool → Prop}
    (h : OpenedFrom S policy now seed Q L L' s d') : policyChanged policy s.state = false := by
  obtain ⟨store, recovered, -, -, hstate⟩ := h.state
  rcases hstate with hstate | ⟨-, hstate⟩
  · rw [hstate, policyChanged_admitState]
  · obtain ⟨rng, slots, hr, -⟩ := replanRemaining_eq policy now
      (admitState policy now seed store.providers[policy.providerId]?)
    rw [hstate, hr]
    exact policyChanged_admitState policy now seed store.providers[policy.providerId]?

/-- A store that was left on its last recorded day, or after, keeps its accounting. -/
lemma accounting_reopened {p : Persistence} {store : SchedulerStore}
    (hproviders : store.providers = s.store.providers) (hpolicy : s.policy = policy)
    (hday : dateNaive now' ≤ s.state.dayUtc) (hsame : policyChanged policy s.state = false) :
    accounting (admitRecovered policy now' seed' p store false).store = accounting store := by
  refine Std.ExtTreeMap.ext_getElem? fun id => ?_
  rw [accounting_admitRecovered]
  split
  · rename_i hid
    have hst : store.providers[policy.providerId]? = some s.state := by
      rw [hproviders, ← hpolicy]
      exact state_get s
    rw [← hid, accounting_get, hst, admitState, accountingOf_reconcileState hday hsame]
    rfl
  · rfl

/-- **Reopening**: a scheduler that is opened again on its last recorded day, or before, finds what
it left and commits nothing. -/
lemma OpenedFrom.reopens {Q : SchedulerStore → Bool → Prop}
    (h : OpenedFrom S policy now seed Q L L' s d') (hday : dateNaive now' ≤ s.state.dayUtc)
    (random' : Random) : ∃ s' d'', openSeeded S policy now' seed' random' ([], d') =
        (.ok s', [], d'') ∧ accounting s'.store = accounting s.store ∧
      d''.files .ledger = d'.files .ledger := by
  have hc : Consistent S L' [] d' := h.running.ready.consistent
  have hprimary : d'.files .primary = some (S.store.encode s.store) := h.saved.primary
  have hopen : Meets False d' (openPersistence S random')
      (fun r d'' => Opened S L' d' d'' r.1 r.2.1 r.2.2 ∧
        r.2.1.providers = s.store.providers ∧ r.2.2 = false) fun _ _ => False := by
    refine meets_mono (openPersistence_calm hc (by simp [hprimary]) random') ?_ fun _ _ h => h
    rintro ⟨p, store, recovered⟩ d'' ho
    have ho : Opened S L' d' d'' p store recovered := ho
    obtain ⟨rfl, rfl⟩ := ho.current _ hprimary h.saved.checkpoint
    exact ⟨ho, rfl, rfl⟩
  -- the store is not changed, so no sequence number is needed
  have hsame : ∀ p store recovered, store.providers = s.store.providers ∧ recovered = false →
      accounting store = accounting L'.committed →
      accounting (admitRecovered policy now' seed' p store recovered).store =
        accounting L'.committed := by
    rintro p store recovered ⟨hproviders, rfl⟩ hacc
    rw [accounting_reopened hproviders h.samePolicy hday h.policyChanged, hacc]
  obtain ⟨s', d'', hs', L'', ho⟩ := eq_ok_of_meets (meets_mono (openSeeded_calm
    (Q := fun store recovered => store.providers = s.store.providers ∧ recovered = false)
    policy now' seed' h.running.archive hopen (.inl h.started)) (fun _ _ ho => ho) (by
      rintro e y ⟨-, p, store, recovered, hQ, hacc, hne⟩
      exact hne (hsame p store recovered hQ hacc)))
  have hacc : accounting s'.store = accounting L'.committed := by
    obtain ⟨p, store, recovered, hQ, hacc, hproviders⟩ := ho.source
    rw [← hsame p store recovered hQ hacc]
    unfold accounting
    rw [hproviders]
  obtain rfl := ho.settled.same hacc
  have hc' : Consistent S L'' [] d'' := ho.running.ready.consistent
  refine ⟨s', d'', hs', hacc.trans h.settled.committed, ?_⟩
  rw [hc'.ledger, hc.ledger]

/-- A recovery set with a snapshot that was written. -/
lemma Consistent.recoverable (h : Consistent S L [] d) (ha : Archive S ValidState L.states d)
    (hp : d.files .primary ≠ none) (h0 : L.states ≠ []) :
    Recoverable S d (accounting L.committed) := by
  constructor
  · intro random
    obtain ⟨d', hopens, hc', hp', hledger⟩ := Consistent.opens h hp random
    refine ⟨d', hopens, hledger, fun random' => ?_⟩
    obtain ⟨d'', hopens', -, -, hledger'⟩ := Consistent.opens hc' hp' random'
    exact ⟨d'', hopens', hledger'⟩
  · intro policy now seed random s d' hopened now' seed' random' hday
    have hspec := ends_iff.mp (openSeeded_calm (Q := fun _ _ => True) policy now seed ha
      (meets_mono (openPersistence_calm h hp random) (fun _ _ ho => ⟨ho, trivial⟩) fun _ _ h => h)
      (.inl h0) [] (.inl rfl))
    rw [hopened] at hspec
    obtain ⟨-, L', ho⟩ := hspec.1 s rfl
    exact OpenedFrom.reopens ho hday random'

end stale

/-- **Earlier snapshots**: whatever is reached, if the ledger has no cut record, then with any
snapshot that was ever written, as the backup was, the recovery set opens with the accounting of
the last record, and when it is opened again nothing changes. -/
theorem stale_recovers {S : Serde} {w : System} {file : Bytes} {log : Log}
    (h : Reaches S (fun _ _ => True) w) (hfile : w.disk.files .ledger = some file)
    (hlog : readLog S .ledger file = .ok log) :
    (∀ bytes ∈ w.disk.files .backup, bytes ∈ w.disk.snapshots) ∧
      ∀ index < w.disk.snapshots.length,
        Recoverable S (restoreSnapshot w.disk index) (accounting log.committed) := by
  obtain ⟨states, torn, hrest⟩ := resting_of_reaches kept_validState h
  cases hrest.sound with
  | untouched hu =>
    rw [hu.files] at hfile
    cases hfile
  | @consistent L _ hc =>
    have hread := readLog_consistent hc hfile
    rw [hlog] at hread
    obtain ⟨rfl, hL⟩ : torn = [] ∧ log = L.log S := by
      split_ifs at hread with htorn
      exact ⟨htorn, Except.ok.inj hread⟩
    refine ⟨hc.backup, fun index hindex => ?_⟩
    rw [hL, L.log_committed]
    have hrestored := Consistent.restore hc index
    refine Consistent.recoverable hrestored (hrest.restore index).archive ?_ ?_
    · unfold restoreSnapshot
      rw [List.getElem?_eq_getElem hindex]
      simp
    · obtain ⟨t, -, hsnap⟩ := hc.snapshots _ (List.getElem_mem hindex)
      exact hsnap.states_ne_nil

/-- Two runs are recovered from the snapshot that was taken before the first. -/
theorem stale_recovers_runs : ∃ w file log, Reaches Encoding.formats (fun _ _ => True) w ∧
    w.disk.files .ledger = some file ∧ readLog Encoding.formats .ledger file = .ok log ∧
    (accounting log.committed)["mlab"]? =
      some ⟨0, [0, 2160000000000], some 2160000000000, none, 0, none⟩ ∧
    0 < w.disk.snapshots.length ∧ (∀ bytes ∈ w.disk.files .backup, bytes ∈ w.disk.snapshots) ∧
    ∀ index < w.disk.snapshots.length, Recoverable Encoding.formats
      (restoreSnapshot w.disk index) (accounting log.committed) := by
  have hreach : Reaches Encoding.formats (fun _ _ => True) _ :=
    @reaches_calmRun _ mlabPolicy _ 0 1 (.replicate 16 0) [.reserveRun 0] trivial fun _ => trivial
  obtain ⟨s, L, hcalm, -⟩ := @calmRun_spec Encoding.formats mlabPolicy 0 1
    (.replicate 16 0) [.reserveRun 0] (by decide +kernel)
  have hrun : (Call.reserveRun 2160000000000).run mlabPolicy
      (tell mlabPolicy (newState mlabPolicy 0 1) [.reserveRun 0]).1 = _ :=
    run_reserveRun mlabPolicy 2160000000000 _
  have hblock : blockReason mlabPolicy (reconcileDay mlabPolicy 2160000000000
      (tell mlabPolicy (newState mlabPolicy 0 1) [.reserveRun 0]).1) 2160000000000 = none := by
    decide +kernel
  simp only [hblock] at hrun
  obtain ⟨s', L', e, hcalm', -, -, hsaved⟩ := hcalm.call (.reserveRun 2160000000000) (by
    rw [hrun]
    decide +kernel)
  rw [hrun] at hcalm' hsaved
  have hsaved := hsaved rfl
  have hstate := hcalm'.state
  have hc : Consistent Encoding.formats L' [] _ := hcalm'.running.ready.consistent
  have hreach' : Reaches Encoding.formats (fun _ _ => True) _ :=
    hreach.step (i := (.call (.reserveRun 2160000000000), [])) trivial
  have hledger := hc.ledger
  have hread := L'.readLog_bytes Encoding.formats .ledger
  rw [List.append_nil] at hledger
  refine ⟨_, _, _, hreach', hledger, hread, ?_, ?_, stale_recovers hreach' hledger hread⟩
  · rw [L'.log_committed, ← Saved.accounting hsaved hc]
    have hpolicy : "mlab" = s'.policy.providerId := by
      rw [hcalm'.samePolicy]
      rfl
    rw [hpolicy, accounting_state, hstate]
    decide +kernel
  · exact List.length_pos_of_mem (hc.primary _ hsaved.primary)

/-- **A cut record**: the append of the first run is cut after a byte, and no snapshot opens. -/
theorem cut_ledger_refused : ¬ ∀ (w : System) (index : ℕ) (random : Random),
    Reaches Encoding.formats (fun _ _ => True) w → index < w.disk.snapshots.length →
    ∃ a d', OpensWith Encoding.formats random (restoreSnapshot w.disk index) a d' := by
  intro h
  obtain ⟨s₁, L₁, hcalm₁, -, hsaved₁⟩ :=
    @calm_first Encoding.formats mlabPolicy 0 1 (.replicate 16 0)
  have hreach₁ : Reaches Encoding.formats (fun _ _ => True) (System.step Encoding.formats {}
      (.openSeeded mlabPolicy 0 1 (.ok (.replicate 16 0)), [])) := .step .first trivial
  have hrun := run_reserveRun mlabPolicy 0 (newState mlabPolicy 0 1)
  have hblock : blockReason mlabPolicy (reconcileDay mlabPolicy 0 (newState mlabPolicy 0 1)) 0 =
      none := by decide +kernel
  simp only [hblock] at hrun
  obtain ⟨s₂, e₂, L₂, torn, -, -, -, -, hfail, hfiles, -⟩ := hcalm₁.cut hsaved₁ hrun
    (by decide +kernel) (by decide) 1
  have hreach₂ : Reaches Encoding.formats (fun _ _ => True) _ :=
    hreach₁.step (i := (.call (.reserveRun 0), cutAt 1)) trivial
  have htorn : torn ≠ [] := by
    refine torn_of_cut (k := 1) (s := s₁) (L := L₁)
      (x := startRun 0 (reconcileDay mlabPolicy 0 (newState mlabPolicy 0 1))) hfail.consistent
      one_ne_zero length_savedLine_pos ?_
    rw [hfiles, Function.update_self]
  obtain ⟨a, d', p, store, recovered, hopen, -⟩ := h _ 0 (.ok (.replicate 16 0)) hreach₂ (by
    refine List.length_pos_of_mem
      (hfail.consistent.primary (Encoding.formats.store.encode s₁.store) ?_)
    rw [hfiles, Function.update_of_ne (by decide), hsaved₁.primary]
    rfl)
  have hspec := ends_iff.mp (@open_consistent _ _ _ _ False
    (Consistent.restore hfail.consistent 0) (.ok (.replicate 16 0)) [] (.inl rfl))
  rw [hopen] at hspec
  exact htorn (hspec.1 _ rfl).2.1

end Netband.Steps

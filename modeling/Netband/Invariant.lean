import Netband.Opening

/-!
What holds of every system that is reached.

At any time the accounting of a provider is kept in two places, the last record of the ledger
and the store of a running scheduler. A claim about the past that every operation upholds, for
whichever place it starts from, holds of both places always.
-/

namespace Netband.Steps

open Netband.Time Netband.Model Netband.State Netband.Plan Netband.Effects Netband.Lines
open Netband.Recovery Netband.Scheduling Netband.World Netband.Edits Netband.Runs
open Faulty

/-! ### Claims about the past -/

/-- The entry did nothing to the accounting of the provider but quiet edits; a manual run was
allowed only when its cooldown was over. -/
structure Silent (P : String) (J : Option Accounting → Prop) (e : Entry) : Prop where
  unsaved : e.policy.providerId = P → ¬ Call.Quiet e.call →
    (∃ err, e.result = .error err) ∧ e.recorded = false
  preflight : ∀ runId now, e.policy.providerId = P → e.call = .preflightManual runId now →
    e.result = .ok (.preflighted .allowed) →
    ∃ a, J (some a) ∧ (e.policy.forceLimits = false → ∀ c ∈ a.cooldown, c ≤ now)

/-- The result of a call that saved a record with the accounting `b`: it was returned or, when
persisting failed, the ledger holds it all the same. -/
def Landed (e : Entry) (reply : Reply) (top : Prop) : Prop :=
  (e.result = .ok reply ∧ (e.recorded = true ∨ top)) ∨
    (∃ err, e.result = .error err) ∧ e.recorded = true

/-- A claim about the entries and the time so far, and the accounting of a provider, that every
allowed action upholds. -/
structure Upholds (P : String) (allowed : System → Action → Prop)
    (J : List Entry → Option ℤ → Option Accounting → Prop) : Prop where
  first : J [] none none
  time : ∀ w a x, allowed w a → J w.trace w.clock x → J w.trace (laterOf w.clock a.now) x
  opens : ∀ w policy now seed random x y, allowed w (.openSeeded policy now seed random) →
    policy.providerId = P → J w.trace w.clock x → Opens now x y →
    J w.trace (laterOf w.clock (some now)) y
  silent : ∀ w c e x, allowed w (.call c) → e.call = c →
    Silent P (J w.trace (laterOf w.clock c.now)) e → J w.trace (laterOf w.clock c.now) x →
    J (w.trace ++ [e]) (laterOf w.clock c.now) x
  rolls : ∀ w c now a b, allowed w (.call c) → c.now = some now → J w.trace w.clock (some a) →
    Rolls now a b → J w.trace (laterOf w.clock (some now)) (some b)
  reserves : ∀ w s now e, allowed w (.call (.reserveRun now)) → w.live = some s →
    s.policy.providerId = P → J w.trace w.clock (some (accountingOf s.state)) →
    blockReason s.policy (reconcileDay s.policy now s.state) now = none →
    e.policy = s.policy → e.call = .reserveRun now →
    Landed e (.reserved ⟨dateNaive now,
        runsOnDay (startRun now (reconcileDay s.policy now s.state)) (dateNaive now)⟩)
      (J w.trace w.clock (some (accountingOf (startRun now (reconcileDay s.policy now s.state))))) →
    J (w.trace ++ [e]) (laterOf w.clock (some now))
      (some (accountingOf (startRun now (reconcileDay s.policy now s.state))))
  finishes : ∀ w s runId now opportunity report e events report',
    allowed w (.call (.finishAttempt runId now opportunity report)) → w.live = some s →
    s.policy.providerId = P → J w.trace w.clock (some (accountingOf s.state)) →
    e.policy = s.policy → e.call = .finishAttempt runId now opportunity report →
    (e.call.run s.policy s.state).2.1 = .ok (.finished events report') →
    Landed e (.finished events report')
      (J w.trace w.clock (some (accountingOf (finished s.policy now opportunity report s.state)))) →
    J (w.trace ++ [e]) (laterOf w.clock (some now))
      (some (accountingOf (finished s.policy now opportunity report s.state)))

/-- The system with what it holds for both places of a provider's accounting. -/
inductive Keeping (S : Serde) (K : String → ProviderState → Prop) (P : String)
    (J : Option Accounting → Prop) (w : System) : Prop
  | idle {states : List SchedulerStore} {torn : Bytes} (resting : Resting S K states torn w.disk)
      (stopped : ∀ s ∈ w.live, s.persistence.poisoned = true ∧ ¬ AllDone w.disk.persists)
      (top : J (accounting (lastState states))[P]?)
  | running {L : Ledger} {s : Scheduler} (live : w.live = some s)
      (running : Running S K L s w.disk) (started : L.states ≠ [])
      (chronicle : Chronicle L.states w.disk)
      (top : J (accounting L.committed)[P]?) (current : J (accounting s.store)[P]?)

section rule
variable {S : Serde} {K : String → ProviderState → Prop} {P : String}
  {allowed : System → Action → Prop} {J : List Entry → Option ℤ → Option Accounting → Prop}
  {w : System} {L L' : Ledger} {s s' : Scheduler} {d d' : Disk} {states : List SchedulerStore}
  {torn : Bytes}

lemma ledgerLines_consistent (h : Consistent S L torn d) :
    ledgerLines d = L.states.length + 1 := by
  have hb : (L.bytes S).count newline = L.states.length + 1 := count_ledgerBytes
  rw [ledgerLines, h.ledger, Option.getD_some, List.count_append, hb,
    List.count_eq_zero.mpr h.noBreak]

lemma accounting_setState_get (s : Scheduler) (x : ProviderState) :
    (accounting (s.setState x).store)[P]? =
      if s.policy.providerId = P then some (accountingOf x) else (accounting s.store)[P]? := by
  rw [accounting_get, setState_get, accounting_get]
  split <;> rfl

lemma accounting_state (s : Scheduler) :
    (accounting s.store)[s.policy.providerId]? = some (accountingOf s.state) := by
  rw [accounting_get, state_get]
  rfl

lemma Running.resting (h : Running S K L s d) (hc : Chronicle L.states d) :
    Resting S K L.states [] d :=
  ⟨.consistent h.ready.consistent, h.archive, hc, fun htorn => absurd rfl htorn⟩

/-! ### Restored snapshots -/

lemma Consistent.restore (h : Consistent S L torn d) (index : ℕ) :
    Consistent S L torn (restoreSnapshot d index) := by
  unfold restoreSnapshot
  cases hb : d.snapshots[index]? with
  | none => exact h
  | some bytes =>
    have hmem := List.mem_of_getElem? hb
    refine ⟨h.ledger, h.noBreak, h.marker, h.noMarker, h.snapshots, ?_, ?_, h.backup⟩
    · intro b hb'
      simp only [Function.update_self, Option.mem_def, Option.some.injEq] at hb'
      exact hb' ▸ hmem
    · intro hn
      simp at hn

lemma restore_same (d : Disk) (index : ℕ) :
    (restoreSnapshot d index).snapshots = d.snapshots ∧
      (restoreSnapshot d index).persists = d.persists := by
  unfold restoreSnapshot
  cases d.snapshots[index]? <;> exact ⟨rfl, rfl⟩

lemma Resting.restore (h : Resting S K states torn d) (index : ℕ) :
    Resting S K states torn (restoreSnapshot d index) := by
  obtain ⟨hs, hp⟩ := restore_same d index
  refine ⟨?_, h.archive.mono hs, h.chronicle.of_disk hp hs, h.cut.of_disk hp fun _ => ?_⟩
  swap
  · unfold restoreSnapshot
    cases d.snapshots[index]? <;> rfl
  cases h.sound with
  | untouched hu =>
    refine .untouched ⟨?_, hs.trans hu.snapshots⟩
    unfold restoreSnapshot
    rw [hu.snapshots]
    exact hu.files
  | consistent hc => exact .consistent (Consistent.restore hc index)

lemma Running.restore (h : Running S K L s d) (index : ℕ) :
    Running S K L s (restoreSnapshot d index) := by
  obtain ⟨hs, -⟩ := restore_same d index
  obtain ⟨hC, hH, hok, hk, hne⟩ := h.ready
  refine ⟨h.unpoisoned, ⟨Consistent.restore hC index, ⟨hH.checkpoint, hH.committed, ?_,
    hH.ledgerLen⟩, hok, hk, hne⟩, h.records, h.archive.mono hs⟩
  have hm : d.files .marker = _ := hH.marker
  change (restoreSnapshot d index).files .marker = _
  unfold restoreSnapshot
  cases d.snapshots[index]? with
  | none => exact hm
  | some bytes => simpa using hm

/-! ### Calls of a stopped scheduler -/

/-- Only one call of `persist` has failed if no other was refused since. -/
lemma Halted.persists_eq (h : Halted d s' d') (hfail : ¬ AllDone d.persists)
    {dones : List (SchedulerStore × Bool)} {store : SchedulerStore} (hdones : AllDone dones)
    (he : d'.persists = dones ++ [(store, false)]) : d'.persists = d.persists := by
  obtain ⟨stores, hp⟩ := h.persists
  rcases List.eq_nil_or_concat stores with rfl | ⟨stores', last, rfl⟩
  · simpa using hp
  · rw [List.concat_eq_append, List.map_append, List.map_singleton, ← List.append_assoc, he] at hp
    obtain ⟨rfl, -⟩ := List.append_inj' hp rfl
    exact absurd (fun p hmem => hdones p (List.mem_append_left _ hmem)) hfail

lemma Halted.resting (h : Halted d s' d') (hr : Resting S K states torn d)
    (hfail : ¬ AllDone d.persists) :
    Resting S K states torn d' ∧ ¬ AllDone d'.persists ∧ ledgerLines d' = ledgerLines d := by
  obtain ⟨stores, hp⟩ := h.persists
  have hnot : ¬ AllDone d'.persists := by
    rw [hp]
    exact fun hall => hfail fun p hmem => hall p (List.mem_append_left _ hmem)
  have hlast : ∀ dones store, AllDone dones → d'.persists = dones ++ [(store, false)] →
      d.persists = dones ++ [(store, false)] :=
    fun dones store hdones he => (h.persists_eq hfail hdones he).symm.trans he
  refine ⟨⟨?_, hr.archive.mono h.snapshots, ⟨fun hall => absurd hall hnot, fun dones st hdones he =>
    hr.chronicle.interrupted dones st hdones (hlast dones st hdones he), ?_, fun hnil =>
    absurd (by simp [hnil, AllDone]) hnot, fun st he => hr.chronicle.resumable st
    (hlast [] st (by simp [AllDone]) he)⟩, fun htorn => ⟨hnot, fun dones st hdones he => ?_⟩⟩,
    hnot, ?_⟩
  · cases hr.sound with
    | untouched hu =>
      exact .untouched ⟨fun f => by rw [h.files]; exact hu.files f, h.snapshots.trans hu.snapshots⟩
    | consistent hc => exact .consistent (hc.of_files h.snapshots h.files)
  · rintro ⟨p, hmem, hp2⟩
    rw [h.snapshots]
    refine hr.chronicle.written ⟨p, ?_, hp2⟩
    rw [hp] at hmem
    refine (List.mem_append.mp hmem).resolve_right fun hm => ?_
    obtain ⟨t, -, rfl⟩ := List.mem_map.mp hm
    cases hp2
  · rw [h.files]
    exact (hr.cut htorn).2 dones st hdones (hlast dones st hdones he)
  · simp [ledgerLines, h.files]

lemma Halted.keeping (h : Halted d s' d') {J : Option Accounting → Prop}
    (hr : Resting S K states torn d) (hfail : ¬ AllDone d.persists)
    (htop : J (accounting (lastState states))[P]?) {w' : System} (hlive : w'.live = some s')
    (hdisk : w'.disk = d') : Keeping S K P J w' := by
  obtain ⟨hr', hfail', -⟩ := h.resting hr hfail
  rw [← hdisk] at hr' hfail'
  refine .idle hr' (fun t ht => ?_) htop
  rw [hlive] at ht
  exact Option.some.inj ht ▸ ⟨h.poisoned, hfail'⟩

/-! ### Calls of a running scheduler -/

section call
variable {α : Type} {c : Scheduling.Op α} {J : Option Accounting → Prop} {w' : System}

/-- After a call whose saves were all accepted. -/
lemma Ran.keeping (h : Ran S K c L L' s d s' d') (hL : L.states ≠ [])
    (hC : Chronicle L.states d) (hlive : w'.live = some s') (hdisk : w'.disk = d')
    (hnone : (c s.state).1 = [] → J (accounting L.committed)[P]?)
    (hsaved : ∀ x ∈ (c s.state).1, J (accounting (s.setState x).store)[P]?)
    (hleft : J (accounting (s.setState (c s.state).2.2).store)[P]?) : Keeping S K P J w' := by
  have hL' : L'.states ≠ [] := by
    rcases h.grew with rfl | hlt
    · exact hL
    · exact List.ne_nil_of_length_pos (by omega)
  subst hdisk
  refine .running hlive h.running hL' (h.chronicle hC) ?_ ?_
  · rcases h.top with ⟨hs, rfl, -⟩ | ⟨x, hx, ha⟩
    · exact hnone hs
    · rw [ha]
      exact hsaved x (List.mem_of_getLast? hx)
  · unfold accounting
    rw [h.providers]
    exact hleft

/-- After a call of which a save was refused. -/
lemma SaveFailed.keeping {xs : List ProviderState} (h : SaveFailed S K xs L L' torn s d s' d')
    (hC : Chronicle L.states d) (hlive : w'.live = some s') (hdisk : w'.disk = d')
    (hold : L' = L → J (accounting L.committed)[P]?)
    (hsaved : L.states.length < L'.states.length →
      ∀ x ∈ xs, J (accounting (s.setState x).store)[P]?) : Keeping S K P J w' := by
  subst hdisk
  obtain ⟨store, hlast, hcut⟩ := h.failed
  refine .idle ⟨.consistent h.consistent, h.archive, h.chronicle hC,
    cutLast_of_getLast h.consistent hlast hcut⟩ (fun t ht => ?_) ?_
  · rw [hlive] at ht
    refine Option.some.inj ht ▸ ⟨h.poisoned, fun hall => ?_⟩
    have := hall _ (List.mem_of_getLast? hlast)
    cases this
  · change J (accounting L'.committed)[P]?
    rcases h.top with rfl | ⟨hlt, x, hx, ha⟩
    · exact hold rfl
    · rw [ha]
      exact hsaved hlt x hx

end call

end rule

/-! ### Steps -/

section step
variable {S : Serde} {K : String → ProviderState → Prop} {P : String}
  {allowed : System → Action → Prop} {J : List Entry → Option ℤ → Option Accounting → Prop}
  {w : System} {L : Ledger} {s : Scheduler}

@[simp] lemma laterOf_none (clock : Option ℤ) : laterOf clock none = clock := by
  cases clock <;> rfl

/-- What is held of a system after an action, with the time it was given. -/
abbrev KeepsAfter (S : Serde) (K : String → ProviderState → Prop) (P : String)
    (J : List Entry → Option ℤ → Option Accounting → Prop) (w : System) (a : Action)
    (io : List Io) : Prop :=
  Keeping S K P (J (w.act S a io).trace (laterOf w.clock a.now)) (w.act S a io)

lemma keeping_same {J J' : Option Accounting → Prop} (h : Keeping S K P J w)
    (himp : ∀ x, J x → J' x) : Keeping S K P J' w := by
  cases h with
  | idle hr hs ht => exact .idle hr hs (himp _ ht)
  | running hl hr h0 hC ht hc => exact .running hl hr h0 hC (himp _ ht) (himp _ hc)

lemma Keeping.holds {J : Option Accounting → Prop} (h : Keeping S K P J w) : ∃ x, J x := by
  cases h with
  | idle _ _ top => exact ⟨_, top⟩
  | running _ _ _ _ top _ => exact ⟨_, top⟩

lemma keeping_close (h : Keeping S K P (J w.trace w.clock) w) (io : List Io) :
    KeepsAfter S K P J w .close io := by
  have hclock : laterOf w.clock Action.close.now = w.clock := laterOf_none _
  rw [KeepsAfter, hclock]
  change Keeping S K P (J w.trace w.clock) { w with live := none }
  cases h with
  | idle hr hs ht => exact .idle hr (fun t ht => by simp at ht) ht
  | running hl hr h0 hC ht hc => exact .idle (hr.resting hC) (fun t ht => by simp at ht) ht

lemma keeping_restore (h : Keeping S K P (J w.trace w.clock) w) (index : ℕ) (io : List Io) :
    KeepsAfter S K P J w (.restore index) io := by
  obtain ⟨hsnap, hp⟩ := restore_same w.disk index
  have hclock : laterOf w.clock (Action.restore index).now = w.clock := laterOf_none _
  rw [KeepsAfter, hclock]
  change Keeping S K P (J w.trace w.clock) { w with disk := restoreSnapshot w.disk index }
  cases h with
  | idle hr hs ht =>
    refine .idle (hr.restore index) (fun t ht => ?_) ht
    change _ ∧ ¬ AllDone (restoreSnapshot w.disk index).persists
    rw [hp]
    exact hs t ht
  | running hl hr h0 hC ht hc =>
    exact .running hl (hr.restore index) h0 (hC.of_disk hp hsnap) ht hc

section upholds
variable (hK : Kept K) (hJ : Upholds P allowed J)

section timed
include hJ

lemma keeping_time {a : Action} {J' : Option Accounting → Prop} (ha : allowed w a)
    (h : Keeping S K P (J w.trace w.clock) w) (hJ' : J' = J w.trace (laterOf w.clock a.now)) :
    Keeping S K P J' w :=
  keeping_same h fun x hx => hJ' ▸ hJ.time w a x ha hx

end timed

include hK

section opened
include hJ

lemma keeping_open {policy : SchedulerPolicy} {now : ℤ} {seed : UInt64} {random : Random}
    (ha : allowed w (.openSeeded policy now seed random))
    (h : Keeping S K P (J w.trace w.clock) w) (io : List Io) :
    KeepsAfter S K P J w (.openSeeded policy now seed random) io := by
  unfold KeepsAfter
  rcases hlive : w.live with _ | s
  swap
  · simp only [System.act, hlive]
    exact keeping_time hJ ha h rfl
  cases h with
  | running hl => simp [hlive] at hl
  | @idle states torn hr hs ht =>
    have htime := hJ.time w _ _ ha ht
    simp only [System.act, hlive]
    have hspec := ends_iff.mp
      (openSeeded_spec True policy now seed random hK hr io (.inr trivial))
    -- the accounting of the provider, brought up to date if it is the active one
    have hactive : ∀ x y : Option Accounting, x = (accounting (lastState states))[P]? →
        (policy.providerId = P → Opens now x y) → (policy.providerId ≠ P → y = x) →
        J w.trace (laterOf w.clock (some now)) y := by
      rintro x y rfl hsame hother
      by_cases hP : policy.providerId = P
      · exact hJ.opens w policy now seed random _ y ha hP ht (hsame hP)
      · rw [hother hP]
        exact htime
    unfold System.openScheduler
    rcases hres : (openSeeded S policy now seed random (io, w.disk)).1 with e | s
    · obtain ⟨-, states', torn', hfail⟩ := hspec.2 e hres
      refine .idle hfail.resting (fun t ht => by simp [hres, Except.toOption] at ht) ?_
      rcases hfail.top with rfl | ⟨hop, hother⟩
      · exact htime
      · exact hactive _ _ rfl (fun hP => hP ▸ hop) fun hP => hother P (Ne.symm hP)
    · obtain ⟨-, -, L, hdone⟩ := hspec.1 s hres
      have hcurrent : J w.trace (laterOf w.clock (some now)) (accounting s.store)[P]? :=
        hactive _ _ rfl (fun hP => hP ▸ hdone.active) fun hP => hdone.others P (Ne.symm hP)
      refine .running (by simp [hres, Except.toOption]) hdone.running hdone.started hdone.chronicle
        ?_ hcurrent
      rcases hdone.top with hL | hacc
      · change J _ _ (accounting (lastState L.states))[P]?
        rw [hL]
        exact htime
      · rw [hacc]
        exact hcurrent

end opened

/-- A call that saves and leaves only records for which the claim holds. -/
lemma keeping_unchanged {c : Call} {io : List Io} (hlive : w.live = some s)
    (hrun : Running S K L s w.disk) (h0 : L.states ≠ []) (hC : Chronicle L.states w.disk)
    {J' : Option Accounting → Prop} (htop : J' (accounting L.committed)[P]?)
    (hsaved : ∀ x ∈ (c.run s.policy s.state).1, J' (accounting (s.setState x).store)[P]?)
    (hleft : J' (accounting (s.setState (c.run s.policy s.state).2.2).store)[P]?) :
    Keeping S K P J' (w.act S (.call c) io) := by
  have hspec := ends_iff.mp (run_spec True hK (c.run s.policy)
    (hK.call hrun.state c) hrun h0 io (.inr trivial))
  simp only [System.act, hlive]
  unfold System.call
  rcases hres : ((backend S).run (c.run s.policy) (io, s, w.disk)).1 with e | a
  · rcases hspec.2 e hres with ⟨-, L', hran⟩ | ⟨-, L', torn, hfail⟩
    · exact hran.keeping h0 hC rfl rfl (fun _ => htop) hsaved hleft
    · exact hfail.keeping hC rfl rfl (fun _ => htop) fun _ => hsaved
  · obtain ⟨-, -, L', hran⟩ := hspec.1 a hres
    exact hran.keeping h0 hC rfl rfl (fun _ => htop) hsaved hleft

include hJ

/-- A call that saves one record of the provider and returns. -/
lemma keeping_saved {c : Call} {io : List Io} {x : ProviderState} {reply : Reply}
    {now : Option ℤ} (hlive : w.live = some s) (hP : s.policy.providerId = P)
    (ha : allowed w (.call c)) (hrun : Running S K L s w.disk) (h0 : L.states ≠ [])
    (hC : Chronicle L.states w.disk) (htop : J w.trace w.clock (accounting L.committed)[P]?)
    (hx : c.run s.policy s.state = ([x], .ok reply, x)) (hnow : c.now = now)
    (hsaved : ∀ e : Entry, e.policy = s.policy → e.call = c →
      Landed e reply (J w.trace w.clock (some (accountingOf x))) →
      J (w.trace ++ [e]) (laterOf w.clock now) (some (accountingOf x))) :
    KeepsAfter S K P J w (.call c) io := by
  have hspec := ends_iff.mp (run_spec True hK (c.run s.policy)
    (hK.call hrun.state c) hrun h0 io (.inr trivial))
  have hlines := ledgerLines_consistent hrun.ready.consistent
  change ledgerLines w.disk = _ at hlines
  have hacc : (accounting (s.setState x).store)[P]? = some (accountingOf x) := by
    rw [accounting_setState_get, if_pos hP]
  have htime := hJ.time w _ _ ha htop
  rw [KeepsAfter]
  change Keeping S K P (J _ (laterOf w.clock c.now)) _
  rw [hnow]
  simp only [Action.now, hnow] at htime
  simp only [System.act, hlive]
  unfold System.call
  rw [hx] at hspec
  rcases hres : ((backend S).run (c.run s.policy) (io, s, w.disk)).1 with e | a
  · obtain ⟨he, -⟩ | ⟨-, L', torn, hfail⟩ := hspec.2 e hres
    · cases he
    have hlines' := ledgerLines_consistent hfail.consistent
    refine hfail.keeping hC rfl rfl (fun hL => ?_) fun hgrew y hy => ?_
    · rw [← hnow] at htime ⊢
      refine hJ.silent _ c _ _ ha rfl ⟨fun _ _ => ⟨⟨e, hres⟩, ?_⟩, fun runId t _ _ hok => ?_⟩ htime
      · simp only [decide_eq_false_iff_not, hlines, hlines', hL]
        omega
      · rw [hres] at hok
        cases hok
    · obtain rfl := List.mem_singleton.mp hy
      rw [hacc]
      refine hsaved _ rfl rfl (.inr ⟨⟨e, hres⟩, ?_⟩)
      simp only [decide_eq_true_eq, hlines, hlines']
      omega
  · obtain ⟨-, ha', L', hran⟩ := hspec.1 a hres
    obtain rfl : reply = a := Except.ok.inj ha'
    have hlines' := ledgerLines_consistent hran.running.ready.consistent
    change ledgerLines ((backend S).run (c.run s.policy) (io, s, w.disk)).2.2.2 = _ at hlines'
    have hnew : J (w.call S s c io).trace (laterOf w.clock now) (some (accountingOf x)) := by
      refine hsaved _ rfl rfl (.inl ⟨hres, ?_⟩)
      rcases hran.grew with hL | hlt
      · right
        obtain ⟨hnil, -⟩ | ⟨y, hy, hay⟩ := hran.top
        · simp [hx] at hnil
        · obtain rfl : x = y := by simpa [hx] using hy
          rw [← hacc, ← hay, hL]
          exact htop
      · left
        simp only [decide_eq_true_eq, hlines, hlines']
        omega
    refine hran.keeping h0 hC rfl rfl (fun hnil => by simp [hx] at hnil) (fun y hy => ?_) ?_
    · obtain rfl : y = x := by simpa [hx] using hy
      rw [hacc]
      exact hnew
    · rw [hx, hacc]
      exact hnew

omit hK in
/-- An entry that is silent about the provider only makes the trace longer. -/
lemma silent_call {c : Call} (io : List Io) {x : Option Accounting} (hlive : w.live = some s)
    (ha : allowed w (.call c))
    (hunsaved : s.policy.providerId = P → ¬ Call.Quiet c →
      (∃ err, ((backend S).run (c.run s.policy) (io, s, w.disk)).1 = .error err) ∧
      ledgerLines ((backend S).run (c.run s.policy) (io, s, w.disk)).2.2.2 = ledgerLines w.disk)
    (hpreflight : ∀ runId now, s.policy.providerId = P → c = .preflightManual runId now →
      ((backend S).run (c.run s.policy) (io, s, w.disk)).1 = .ok (.preflighted .allowed) →
      J w.trace w.clock (some (accountingOf s.state)))
    (hx : J w.trace (laterOf w.clock c.now) x) :
    J (w.act S (.call c) io).trace (laterOf w.clock c.now) x := by
  simp only [System.act, hlive]
  refine hJ.silent _ c _ _ ha rfl ⟨fun hP hc => ?_, fun runId now hP hcall hok => ?_⟩ hx
  · obtain ⟨herr, hlines⟩ := hunsaved hP hc
    exact ⟨herr, by simp [hlines]⟩
  · obtain rfl : c = .preflightManual runId now := hcall
    have hblock := (run_preflightManual ((backend S).run_ok hok).1).2
    have hrolls : Rolls now (accountingOf s.state) (accountingOf (advanced s.policy now s.state)) :=
      (rolls_reconcileDay s.policy (.refl now _)).of_eq rfl rfl rfl rfl rfl (carries_refl _)
    refine ⟨_, hJ.rolls w _ now _ _ ha rfl (hpreflight runId now hP rfl hok) hrolls,
      fun hforce => ?_⟩
    exact ((blockReason_eq_none.mp hblock).2.resolve_left
      (by rw [show s.policy.forceLimits = false from hforce]; simp)).1

omit hK in
/-- What a quiet call saves and leaves of the provider's accounting. -/
lemma rolls_call {c : Call} (hc : Call.Quiet c) (ha : allowed w (.call c))
    (hcurrent : J w.trace w.clock (some (accountingOf s.state))) :
    (∀ x ∈ (c.run s.policy s.state).1,
      J w.trace (laterOf w.clock c.now) (some (accountingOf x))) ∧
    J w.trace (laterOf w.clock c.now) (some (accountingOf (c.run s.policy s.state).2.2)) := by
  obtain ⟨R, hR, hsaves⟩ : ∃ R : ProviderState → Prop,
      (∀ x, R x → J w.trace (laterOf w.clock c.now) (some (accountingOf x))) ∧
      Saving.Saves R s.state (c.run s.policy) (fun _ x => R x) fun _ x => R x := by
    rcases hnow : c.now with _ | now
    · refine ⟨fun x => accountingOf x = accountingOf s.state, fun x hx => ?_,
        quiet_call (fun _ => True) hc (fun now h => by simp [hnow] at h)
          (fun _ _ _ _ _ => trivial) rfl⟩
      rw [hx, laterOf_none]
      exact hcurrent
    · refine ⟨fun x => Rolls now (accountingOf s.state) (accountingOf x),
        fun x hx => hJ.rolls w c now _ _ ha hnow hcurrent hx,
        quiet_call _ hc (fun t ht => ?_) (fun _ _ _ _ _ => trivial)
          (Rolls.refl now (accountingOf s.state))⟩
      obtain rfl : now = t := by simpa [hnow] using ht
      exact closed_rolls.edited
  refine ⟨fun x hx => hR x (hsaves.1 x hx), hR _ ?_⟩
  rcases hr : (c.run s.policy s.state).2.1 with e | a
  · exact hsaves.2.2 e hr
  · exact hsaves.2.1 a hr

lemma keeping_reserve {now : ℤ} {io : List Io} (hlive : w.live = some s)
    (hP : s.policy.providerId = P) (ha : allowed w (.call (.reserveRun now)))
    (hrun : Running S K L s w.disk) (h0 : L.states ≠ []) (hC : Chronicle L.states w.disk)
    (htop : J w.trace w.clock (accounting L.committed)[P]?)
    (hcurrent : J w.trace w.clock (some (accountingOf s.state))) :
    KeepsAfter S K P J w (.call (.reserveRun now)) io := by
  have hr := run_reserveRun s.policy now s.state
  cases hb : blockReason s.policy (reconcileDay s.policy now s.state) now with
  | none =>
    simp only [hb] at hr
    exact keeping_saved hK hJ hlive hP ha hrun h0 hC htop hr rfl fun e he hc hl =>
      hJ.reserves w s now e ha hlive hP hcurrent hb he hc hl
  | some blocked =>
    simp only [hb] at hr
    -- nothing was saved
    have hun : (backend S).run ((Call.reserveRun now).run s.policy) (io, s, w.disk) = _ :=
      (backend S).run_unsaved (d := (s, w.disk)) (congrArg Prod.fst hr) io
    have hsilent := fun x => silent_call (P := P) (S := S) (c := .reserveRun now)
      (x := x) hJ io hlive ha (fun _ _ => by
        rw [hun]
        exact ⟨⟨_, congrArg (·.2.1) hr⟩, rfl⟩) fun _ _ _ hcall => by cases hcall
    have hrolls := hJ.rolls w _ now _ _ ha rfl hcurrent
      (rolls_reconcileDay s.policy (.refl now _))
    refine keeping_unchanged hK hlive hrun h0 hC (hsilent _ (hJ.time w _ _ ha htop))
      (fun x hx => ?_) ?_
    · rw [hr] at hx
      cases hx
    · rw [hr, accounting_setState_get, if_pos hP]
      exact hsilent _ hrolls

/-- **Calls** keep what is held of the provider. -/
theorem keeping_call {c : Call} (ha : allowed w (.call c))
    (h : Keeping S K P (J w.trace w.clock) w) (io : List Io) :
    KeepsAfter S K P J w (.call c) io := by
  rcases hlive : w.live with _ | s
  · unfold KeepsAfter
    simp only [System.act, hlive]
    exact keeping_time hJ ha h rfl
  cases h with
  | @idle states torn hr hs ht =>
    obtain ⟨hp, hfail⟩ := hs s hlive
    have hspec := ends_iff.mp (run_poisoned (S := S) (d := w.disk) True
      (c.run s.policy) hp io (.inr trivial))
    have hhalted : Halted w.disk ((backend S).run (c.run s.policy) (io, s, w.disk)).2.2.1
        ((backend S).run (c.run s.policy) (io, s, w.disk)).2.2.2 := by
      rcases hres : ((backend S).run (c.run s.policy) (io, s, w.disk)).1 with e | a
      · exact hspec.2 e hres
      · exact (hspec.1 a hres).2.2
    refine hhalted.keeping hr hfail ?_ (by simp [System.act, hlive, System.call])
      (by simp [System.act, hlive, System.call])
    refine silent_call hJ io hlive ha (fun _ hc => ⟨?_, (hhalted.resting hr hfail).2.2⟩)
      (fun runId now _ hcall hok => ?_) (hJ.time w _ _ ha ht)
    swap
    · obtain ⟨-, ⟨hnil, hok'⟩, -⟩ := hspec.1 _ hok
      subst hcall
      exact absurd hnil (run_preflightManual hok').1
    -- a call that is not quiet saves something, unless it returns an error
    rcases hres : ((backend S).run (c.run s.policy) (io, s, w.disk)).1 with e | a
    · exact ⟨e, rfl⟩
    obtain ⟨-, ⟨hnil, hok⟩, -⟩ := hspec.1 a hres
    cases c with
    | reserveRun now =>
      change ((Call.reserveRun now).run s.policy s.state).1 = [] at hnil
      change ((Call.reserveRun now).run s.policy s.state).2.1 = _ at hok
      rw [run_reserveRun] at hnil hok
      cases hb : blockReason s.policy (reconcileDay s.policy now s.state) now with
      | none => simp [hb] at hnil
      | some blocked => simp [hb] at hok
    | finishAttempt runId now opportunity report =>
      obtain ⟨events, report', hf⟩ := run_finishAttempt s.policy now runId
        opportunity report s.state
      change ((Call.finishAttempt runId now opportunity report).run s.policy s.state).1 = [] at hnil
      simp [hf] at hnil
    | _ => exact absurd trivial hc
  | @running L s' hl hrun h0 hC htop hcurrent =>
    obtain rfl : s = s' := Option.some.inj (hlive.symm.trans hl)
    have htime := hJ.time w _ _ ha htop
    by_cases hP : s.policy.providerId = P
    swap
    · -- the records of other providers stay as they are
      have hsilent := fun x => silent_call (S := S) (c := c) (x := x) hJ io hlive ha
        (fun h => absurd h hP) fun _ _ h => absurd h hP
      have hsame : ∀ x, (accounting (s.setState x).store)[P]? = (accounting s.store)[P]? :=
        fun x => by rw [accounting_setState_get, if_neg hP]
      have hcur := hsilent _ (hJ.time w _ _ ha hcurrent)
      exact keeping_unchanged hK hlive hrun h0 hC (hsilent _ htime)
        (fun x _ => by rw [hsame]; exact hcur) (by rw [hsame]; exact hcur)
    have hacc := accounting_state s
    rw [hP] at hacc
    rw [hacc] at hcurrent
    by_cases hc : Call.Quiet c
    · have hsilent := fun x => silent_call (P := P) (S := S) (c := c) (x := x) hJ io hlive
        ha (fun _ h => absurd hc h) fun _ _ _ _ _ => hcurrent
      obtain ⟨hsaved, hleft⟩ := rolls_call hJ hc ha hcurrent
      have hget : ∀ x, (accounting (s.setState x).store)[P]? = some (accountingOf x) :=
        fun x => by rw [accounting_setState_get, if_pos hP]
      exact keeping_unchanged hK hlive hrun h0 hC (hsilent _ htime)
        (fun x hx => by rw [hget]; exact hsilent _ (hsaved x hx))
        (by rw [hget]; exact hsilent _ hleft)
    cases c with
    | reserveRun now => exact keeping_reserve hK hJ hlive hP ha hrun h0 hC htop hcurrent
    | finishAttempt runId now opportunity report =>
      obtain ⟨events, report', hf⟩ := run_finishAttempt s.policy now runId
        opportunity report s.state
      exact keeping_saved hK hJ hlive hP ha hrun h0 hC htop hf rfl fun e he hc hl =>
        hJ.finishes w s runId now opportunity report e events report' ha hlive hP hcurrent he hc
          (by rw [hc, hf]) hl
    | _ => exact absurd trivial hc

end upholds

/-- **Invariants of accounting**: what every allowed action upholds holds of the ledger and of
the running scheduler, whatever is reached. -/
theorem keeping_of_reaches (hK : Kept K) (hJ : Upholds P allowed J)
    (h : Reaches S allowed w) : Keeping S K P (J w.trace w.clock) w := by
  refine h.invariant (I := fun w => Keeping S K P (J w.trace w.clock) w) ?_ ?_
  · have hempty : Sound S {} [] [] := .untouched ⟨fun _ => rfl, rfl⟩
    refine .idle ⟨hempty, ?_, ?_, fun htorn => absurd rfl htorn⟩ (fun t ht => by simp at ht) ?_
    · exact ⟨by simp, by simp⟩
    · constructor
      · exact fun _ => rfl
      · intro dones store _ he
        simp at he
      · rintro ⟨p, hp, -⟩
        simp at hp
      · exact fun _ => rfl
      · intro store he
        simp at he
    · have hnone : (accounting (lastState []))[P]? = none := by
        change (accounting {})[P]? = none
        rw [accounting_empty]
        simp
      rw [hnone]
      exact hJ.first
  · rintro w ⟨a, io⟩ - hw ha
    have hstep : KeepsAfter S K P J w a io := by
      cases a with
      | openSeeded policy now seed random => exact keeping_open hK hJ ha hw io
      | close => exact keeping_close hw io
      | restore index => exact keeping_restore hw index io
      | call c => exact keeping_call hK hJ ha hw io
    generalize hact : w.act S a io = w' at hstep
    have hstep : Keeping S K P (J w'.trace (laterOf w.clock a.now)) w' := by
      rw [KeepsAfter, hact] at hstep
      exact hstep
    change Keeping S K P (J (w.act S a io).trace (laterOf w.clock a.now))
      { w.act S a io with clock := laterOf w.clock a.now }
    rw [hact]
    cases hstep with
    | idle hr hs ht => exact .idle hr hs ht
    | running hl hr h0 hC ht hc => exact .running hl hr h0 hC ht hc

end step
end Netband.Steps

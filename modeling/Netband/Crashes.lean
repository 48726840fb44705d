import Netband.Stale

/-!
Crashes: a recovery set that is reopened after a write was interrupted has the accounting of the
last store that was persisted or that of the one which was interrupted, and never less than the
former. It is refused only when the append of a record was cut. A scheduler of which a write has
failed writes nothing more.
-/

namespace Netband.Steps

open Netband.Time Netband.Model Netband.State Netband.Plan Netband.Effects Netband.Lines
open Netband.Recovery Netband.Scheduling Netband.World Netband.Edits Netband.Runs
open Faulty Saving

/-! ### Accounting that is not taken back -/

/-- No run of the day or later is taken back, and neither is the last start. -/
structure NotLess (a b : Accounting) : Prop where
  day : a.day ≤ b.day
  runs : ∀ run, b.day ≤ dateNaive run → a.runs.count run ≤ b.runs.count run
  lastStart : ∀ t ∈ a.lastStart, ∃ t' ∈ b.lastStart, t ≤ t'

/-- No provider has less. -/
def AtLeast (x y : BTreeMap String Accounting) : Prop :=
  ∀ id : String, ∀ a ∈ x[id]?, ∃ b ∈ y[id]?, NotLess a b

/-- Nothing is taken back either way. -/
def Even (a b : Accounting) : Prop := NotLess a b ∧ NotLess b a

section notLess
variable {a b c : Accounting} {x y z : BTreeMap String Accounting} {policy : SchedulerPolicy}
  {now : ℤ} {st : ProviderState} {s : Scheduler}

lemma NotLess.of_eq (day : b.day = a.day) (runs : b.runs = a.runs)
    (lastStart : b.lastStart = a.lastStart) : NotLess a b :=
  ⟨day.ge, fun run _ => by rw [runs], fun t ht => ⟨t, by rwa [lastStart], le_rfl⟩⟩

lemma NotLess.refl (a : Accounting) : NotLess a a := .of_eq rfl rfl rfl

lemma NotLess.trans (h : NotLess a b) (h' : NotLess b c) : NotLess a c := by
  refine ⟨h.day.trans h'.day, fun run hrun => ?_, fun t ht => ?_⟩
  · exact (h.runs run (h'.day.trans hrun)).trans (h'.runs run hrun)
  · obtain ⟨t', ht', hle⟩ := h.lastStart t ht
    obtain ⟨t'', ht'', hle'⟩ := h'.lastStart t' ht'
    exact ⟨t'', ht'', hle.trans hle'⟩

lemma notLess_of_rolls (h : Rolls now a b) : NotLess a b := by
  cases h with
  | same day runs lastStart => exact .of_eq day runs lastStart
  | newDay later day runs lastStart =>
    refine ⟨by omega, fun run hrun => ?_, fun t ht => ⟨t, by rwa [lastStart], le_rfl⟩⟩
    rw [runs, List.count_filter (by simpa [← day] using hrun)]

variable (now st) in
lemma notLess_startRun : NotLess (accountingOf st) (accountingOf (startRun now st)) := by
  refine ⟨le_rfl, fun run _ => ?_, fun t ht => ⟨max now t, ?_, le_max_right _ _⟩⟩
  · change st.runs.count run ≤ ((st.runs ++ [now]).insertionSort (· ≤ ·)).count run
    rw [(List.perm_insertionSort _ _).count_eq, List.count_append]
    exact Nat.le_add_right _ _
  · change max now t ∈ maxStart st.lastStartedAtUtc now
    rw [show st.lastStartedAtUtc = some t from ht]
    rfl

lemma AtLeast.refl (x : BTreeMap String Accounting) : AtLeast x x :=
  fun _ a ha => ⟨a, ha, .refl a⟩

lemma AtLeast.trans (h : AtLeast x y) (h' : AtLeast y z) : AtLeast x z := by
  intro id a ha
  obtain ⟨b, hb, hab⟩ := h id a ha
  obtain ⟨c, hc, hbc⟩ := h' id b hb
  exact ⟨c, hc, hab.trans hbc⟩

lemma atLeast_setState {st : ProviderState} (h : NotLess (accountingOf s.state) (accountingOf st)) :
    AtLeast (accounting s.store) (accounting (s.setState st).store) := by
  intro id a ha
  rw [accounting_setState_get]
  split
  · rename_i hid
    subst hid
    rw [accounting_state] at ha
    cases ha
    exact ⟨_, rfl, h⟩
  · exact ⟨a, ha, .refl a⟩

/-- What is admitted has what was committed. -/
lemma Admitted.atLeast {S : Serde} {K : String → ProviderState → Prop} {L : Ledger} {d : Disk}
    (h : Admitted S K policy now L s d) :
    AtLeast (accounting L.committed) (accounting s.store) := by
  intro id a ha
  by_cases hid : id = policy.providerId
  · subst hid
    have hopens := h.active
    rw [show (accounting L.committed)[policy.providerId]? = some a from ha] at hopens
    generalize (accounting s.store)[policy.providerId]? = y at hopens
    cases hopens with
    | kept hrolls => exact ⟨_, rfl, notLess_of_rolls hrolls⟩
  · exact ⟨a, by rwa [h.others id hid], .refl a⟩

end notLess

/-! ### What a call saves -/

section calls
variable {policy : SchedulerPolicy} {now : ℤ} {st : ProviderState}

lemma timeless_even (a : Accounting) {R : ProviderState → Prop} (hR : Timeless R) :
    Timeless fun st => Even a (accountingOf st) ∧ R st where
  slots st slots h := ⟨⟨⟨h.1.1.day, h.1.1.runs, h.1.1.lastStart⟩,
    ⟨h.1.2.day, h.1.2.runs, h.1.2.lastStart⟩⟩, hR.slots st slots h.2⟩
  triggers st triggers h := ⟨⟨⟨h.1.1.day, h.1.1.runs, h.1.1.lastStart⟩,
    ⟨h.1.2.day, h.1.2.runs, h.1.2.lastStart⟩⟩, hR.triggers st triggers h.2⟩
  dropped st h := ⟨⟨⟨h.1.1.day, h.1.1.runs, h.1.1.lastStart⟩,
    ⟨h.1.2.day, h.1.2.runs, h.1.2.lastStart⟩⟩, hR.dropped st h.2⟩
  merged st reason interface h := ⟨⟨⟨h.1.1.day, h.1.1.runs, h.1.1.lastStart⟩,
    ⟨h.1.2.day, h.1.2.runs, h.1.2.lastStart⟩⟩, hR.merged st reason interface h.2⟩

variable (policy now st) in
lemma advanced_advanced :
    advanced policy now (advanced policy now st) = advanced policy now st := by
  have hday : dateNaive now ≤ (advanced policy now st).dayUtc := day_reconcileDay policy now st
  rw [advanced, reconcileDay_of_le hday]
  rfl

/-- A call that is not before the record's clock does as if the clock was advanced already. -/
lemma run_advanced {c : Call} (hc : Call.Quiet c) (hnow : c.now = some now)
    (h : st.lastObservedUtc ≤ now) :
    c.run policy st = c.run policy (advanced policy now st) := by
  have hclock : ∀ runId, advanceClock policy runId now st =
      advanceClock policy runId now (advanced policy now st) := by
    intro runId
    obtain ⟨hlt, -⟩ | ⟨-, hadv⟩ := advanceClock_apply policy now runId st
    · exact absurd h (not_le.mpr hlt)
    obtain ⟨hlt, -⟩ | ⟨-, hadv'⟩ :=
      advanceClock_apply policy now runId (advanced policy now st)
    · exact absurd hlt (lt_irrefl _)
    rw [hadv, hadv', advanced_advanced]
  have hbind : ∀ {α β : Type} {x : Scheduling.Op α} (f : α → Scheduling.Op β) {t : ProviderState},
      x st = x t → (x >>= f) st = (x >>= f) t := by
    intro α β x f t hx
    change Saving.bind x f st = Saving.bind x f t
    unfold Saving.bind
    rw [hx]
  cases c with
  | observeInterfaceHealth runId t interface decision =>
    obtain rfl : t = now := Option.some.inj hnow
    exact hbind _ (hbind _ (hclock runId))
  | pollInterfaces runId t latestSuccess =>
    obtain rfl : t = now := Option.some.inj hnow
    exact hbind _ (hbind _ (hclock runId))
  | preflightManual runId t =>
    obtain rfl : t = now := Option.some.inj hnow
    exact hbind _ (hbind _ (hclock runId))
  | flush => cases hnow
  | _ => exact absurd hc id

/-- A quiet call that never rolls the day over. -/
lemma even_quiet {c : Call} (hc : Call.Quiet c) {a : Accounting} {R : ProviderState → Prop}
    (hR : Timeless R) (hadv : ∀ now ∈ c.now, ∀ st, Even a (accountingOf st) ∧ R st →
      st.lastObservedUtc ≤ now → Even a (accountingOf (advanced policy now st)) ∧
        R (advanced policy now st)) (ha : Even a (accountingOf st)) (hst : R st) :
    (∀ x ∈ (c.run policy st).1, Even a (accountingOf x)) ∧
      Even a (accountingOf (c.run policy st).2.2) := by
  have hsaves : Saves (fun x => Even a (accountingOf x) ∧ R x) st (c.run policy)
      (fun _ x => Even a (accountingOf x) ∧ R x) fun _ x => Even a (accountingOf x) ∧ R x :=
    quiet_call _ hc (fun now hnow => (timeless_even a hR).edited (hadv now hnow))
      (fun _ _ _ _ _ => trivial) ⟨ha, hst⟩
  refine ⟨fun x hx => (hsaves.1 x hx).1, ?_⟩
  rcases hr : (c.run policy st).2.1 with e | r
  · exact (hsaves.2.2 e hr).1
  · exact (hsaves.2.1 r hr).1

variable (policy st) in
/-- All records that a call saves and leaves have the same runs, and at least those before. -/
theorem even_call (c : Call) : ∃ a, NotLess (accountingOf st) a ∧
    (∀ x ∈ (c.run policy st).1, Even a (accountingOf x)) ∧
      Even a (accountingOf (c.run policy st).2.2) := by
  by_cases hc : Call.Quiet c
  · rcases hnow : c.now with _ | now
    · exact ⟨_, .refl _, even_quiet (R := fun _ => True) hc ⟨⟨by simp, by simp⟩, by simp, by simp⟩
        (by simp [hnow]) ⟨.refl _, .refl _⟩ trivial⟩
    rcases lt_or_ge now st.lastObservedUtc with hlt | hle
    · -- the clock was set back, so the record is not advanced
      refine ⟨_, .refl _, even_quiet (R := fun x => now < x.lastObservedUtc) hc
        ⟨⟨by simp, by simp⟩, by simp, by simp⟩ (fun t ht x hx hle => ?_) ⟨.refl _, .refl _⟩ hlt⟩
      obtain rfl : now = t := by simpa [hnow] using ht
      exact absurd hle (not_le.mpr hx.2)
    · -- the day is rolled over at once, and not again
      rw [run_advanced hc hnow hle]
      have hrolls : Rolls now (accountingOf st) (accountingOf (advanced policy now st)) :=
        (rolls_reconcileDay policy (.refl now _)).of_eq rfl rfl rfl rfl rfl (carries_refl _)
      refine ⟨_, notLess_of_rolls hrolls, even_quiet (R := fun x => dateNaive now ≤ x.dayUtc) hc
        ⟨⟨by simp, by simp⟩, by simp, by simp⟩ (fun t ht x hx _ => ?_) ⟨.refl _, .refl _⟩
        (day_reconcileDay policy now st)⟩
      obtain rfl : now = t := by simpa [hnow] using ht
      have hsame : advanced policy now x = { x with lastObservedUtc := now } := by
        rw [advanced, reconcileDay_of_le hx.2]
      rw [hsame]
      exact hx
  cases c with
  | reserveRun now =>
    rw [run_reserveRun]
    have hday : NotLess (accountingOf st) (accountingOf (reconcileDay policy now st)) :=
      notLess_of_rolls (rolls_reconcileDay policy (.refl now _))
    cases blockReason policy (reconcileDay policy now st) now with
    | some blocked => exact ⟨_, hday, by simp, .refl _, .refl _⟩
    | none =>
      refine ⟨_, hday.trans (notLess_startRun now _), fun x hx => ?_, .refl _, .refl _⟩
      rw [List.mem_singleton.mp hx]
      exact ⟨.refl _, .refl _⟩
  | finishAttempt runId now opportunity report =>
    obtain ⟨events, report', hr⟩ := run_finishAttempt policy now runId opportunity report st
    rw [hr]
    obtain ⟨cooldown, backoff, deferred, hacc⟩ :=
      accountingOf_finished policy now opportunity report st
    refine ⟨accountingOf (finished policy now opportunity report st), ?_, fun x hx => ?_, .refl _,
      .refl _⟩
    · rw [hacc]
      exact .of_eq rfl rfl rfl
    · rw [List.mem_singleton.mp hx]
      exact ⟨.refl _, .refl _⟩
  | _ => exact absurd trivial hc

end calls

/-! ### Never less than the last store that was persisted -/

/-- The store that was interrupted has what was persisted before. -/
def NeverLess (persists : List (SchedulerStore × Bool)) : Prop :=
  ∀ dones store, AllDone dones → persists = dones ++ [(store, false)] →
    AtLeast (lastAccounting dones) (accounting store)

/-- The scheduler has what was persisted last. -/
def Grown (s : Scheduler) (persists : List (SchedulerStore × Bool)) : Prop :=
  (AllDone persists → AtLeast (lastAccounting persists) (accounting s.store)) ∧
    NeverLess persists

section grown
variable {S : Serde} {policy : SchedulerPolicy} {a : Accounting} {x : ProviderState}
  {w : System}

lemma noting_grown : Noting Grown := by
  rintro s s' persists ok - hproviders ⟨hcurrent, -⟩
  have hsame : accounting s'.store = accounting s.store := by
    unfold accounting
    rw [hproviders]
  refine ⟨fun _ => ?_, fun dones store hdones he => ?_⟩
  · rw [lastAccounting_concat, hsame]
    exact .refl _
  · obtain ⟨rfl, hlast⟩ := List.append_inj' he rfl
    obtain ⟨rfl, -⟩ : s.store = store ∧ ok = false := by simpa using hlast
    exact hcurrent hdones

/-- The same within a call, with what its records have. -/
def GrownTo (a : Accounting) (s : Scheduler) (persists : List (SchedulerStore × Bool)) : Prop :=
  Grown s persists ∧ NotLess (accountingOf s.state) a

lemma noting_grownTo : Noting (GrownTo a) := by
  rintro s s' persists ok hpolicy hproviders ⟨hgrown, hle⟩
  have hstate : s'.state = s.state := by
    refine state_eq_of_get ?_
    rw [hproviders, hpolicy, state_get]
  exact ⟨noting_grown ok hpolicy hproviders hgrown, by rwa [hstate]⟩

lemma joins_grownTo (hx : Even a (accountingOf x)) : Joins (GrownTo a) policy x := by
  rintro s persists - ⟨⟨hcurrent, hpast⟩, hle⟩
  have hstate : (s.setState x).state = x :=
    state_eq_of_get ((setState_get s x _).trans (if_pos rfl))
  refine ⟨⟨fun hall => (hcurrent hall).trans (atLeast_setState (hle.trans hx.1)), hpast⟩, ?_⟩
  rw [hstate]
  exact hx.2

/-- **Never less**: what is persisted has the runs and the last start that were persisted before. -/
theorem neverLess_of_reaches (h : Reaches S (fun _ _ => True) w) : NeverLess w.disk.persists := by
  refine (noting_grown.of_reaches (J := NeverLess) kept_validState (fun _ _ hs => hs.2)
    (fun dones store _ he => by simp at he) ?_ ?_ h).2
  · rintro d policy now states torn L s d' hrest hd rfl hadm
    refine ⟨fun hall => ?_, hd⟩
    rw [← hrest.chronicle.done hall]
    exact hadm.atLeast
  · intro s d c io hs
    obtain ⟨a, hle, hsaved, hleft⟩ := even_call s.policy s.state c
    exact (noting_grownTo.run (c.run s.policy) (fun x hx => joins_grownTo (hsaved x hx))
      (joins_grownTo hleft) ⟨hs, hle⟩ io).1

end grown

/-! ### Schedulers of which a write has failed -/

/-- A call of `persist` has failed within the call. -/
def Fails (S : Serde) (w : System) (c : Call) (io : List Io) : Prop :=
  ∃ p ∈ (w.step S (.call c, io)).disk.persists.drop w.disk.persists.length, p.2 = false

/-- The system after further calls. -/
def calls (S : Serde) (w : System) (later : List (Call × List Io)) : System :=
  later.foldl (fun w x => w.step S (.call x.1, x.2)) w

/-- The files are as they were, and no run was reserved. -/
structure Stopped (w w' : System) : Prop where
  files : w'.disk.files = w.disk.files
  refused : ∃ entries, w'.trace = w.trace ++ entries ∧
    ∀ e ∈ entries, ∀ now, e.call = .reserveRun now → ∃ err, e.result = .error err

section stops
variable {S : Serde} {w : System} {s : Scheduler} {c : Call} {io : List Io}

/-- What saving notes: every store was persisted, or a save has failed and the scheduler is
poisoned. -/
lemma putAll_notes (xs : List ProviderState) (x : List Io × Scheduler × Disk) : ∃ noted,
    ((backend S).putAll xs x).2.2.2.persists = x.2.2.persists ++ noted ∧
      ((∃ u, ((backend S).putAll xs x).1 = .ok u) ∧ AllDone noted ∨
        (∃ e, ((backend S).putAll xs x).1 = .error e) ∧
          ((backend S).putAll xs x).2.2.1.persistence.poisoned = true) := by
  induction xs generalizing x with
  | nil => exact ⟨[], (List.append_nil _).symm, .inl ⟨⟨(), rfl⟩, by simp [AllDone]⟩⟩
  | cons st xs ih =>
    have hnoted : ((backend S).put st x).2.2.2.persists =
        x.2.2.persists ++ [((x.2.1.setState st).store, ((backend S).put st x).1.isOk)] := rfl
    have hpoisons : ∀ e, ((backend S).put st x).1 = .error e →
        ((backend S).put st x).2.2.1.persistence.poisoned = true := fun e he =>
      persist_poisons (x := (x.1, (x.2.1.setState st).session x.2.2)) he
    rw [Backend.putAll_cons]
    rcases hr : (backend S).put st x with ⟨e | u, y⟩
    · rw [hr] at hnoted hpoisons
      exact ⟨_, hnoted, .inr ⟨⟨e, rfl⟩, hpoisons e rfl⟩⟩
    · rw [hr] at hnoted
      obtain ⟨noted, hpersists, hends⟩ := ih y
      change y.2.2.persists = _ at hnoted
      refine ⟨((x.2.1.setState st).store, true) :: noted, ?_, hends.imp_left fun h => ⟨h.1, ?_⟩⟩
      · dsimp only
        rw [hpersists, hnoted, List.append_assoc]
        rfl
      · simpa [AllDone] using h.2

lemma step_of_live (hlive : w.live = some s) : w.step S (.call c, io) =
    { w.call S s c io with clock := laterOf w.clock c.now } := by
  simp only [System.step, System.act, hlive]
  rfl

/-- A call of which a save has failed returns an error and leaves a poisoned scheduler. -/
lemma poisoned_of_fails (hlive : w.live = some s) (h : Fails S w c io) :
    ∃ s' e err, (w.step S (.call c, io)).live = some s' ∧ s'.persistence.poisoned = true ∧
      (w.step S (.call c, io)).trace = w.trace ++ [e] ∧ e.result = .error err := by
  obtain ⟨p, hp, hfalse⟩ := h
  rw [step_of_live hlive] at hp ⊢
  have hp : p ∈ ((backend S).run (c.run s.policy) (io, s, w.disk)).2.2.2.persists.drop
      w.disk.persists.length := hp
  have hview : (backend S).view (s, w.disk) = s.state := rfl
  have hrun := (backend S).run_apply (c.run s.policy) io (s, w.disk)
  rw [hview] at hrun
  obtain ⟨noted, hpersists, ⟨⟨u, hok⟩, hall⟩ | ⟨⟨e, he⟩, hpoisoned⟩⟩ :=
    putAll_notes (S := S) (c.run s.policy s.state).1 (io, s, w.disk)
  · exfalso
    rcases hput : (backend S).putAll (c.run s.policy s.state).1 (io, s, w.disk) with ⟨r, y⟩
    rw [hput] at hok hpersists hrun
    obtain rfl : r = .ok u := hok
    rw [hrun] at hp
    change p ∈ y.2.2.persists.drop w.disk.persists.length at hp
    rw [show y.2.2.persists = w.disk.persists ++ noted from hpersists, List.drop_left] at hp
    rw [hall p hp] at hfalse
    cases hfalse
  · rcases hput : (backend S).putAll (c.run s.policy s.state).1 (io, s, w.disk) with ⟨r, y⟩
    rw [hput] at he hpoisoned hrun
    obtain rfl : r = .error e := he
    refine ⟨_, _, e, rfl, ?_, rfl, ?_⟩
    · rw [hrun]
      exact hpoisoned
    · rw [hrun]

/-- A call of a poisoned scheduler. -/
lemma stopped_call (hlive : w.live = some s) (hp : s.persistence.poisoned = true) :
    Stopped w (w.step S (.call c, io)) ∧
      ∃ s', (w.step S (.call c, io)).live = some s' ∧ s'.persistence.poisoned = true := by
  have hspec := ends_iff.mp (run_poisoned (S := S) (d := w.disk) True (c.run s.policy) hp io
    (.inr trivial))
  have hhalted : Halted w.disk ((backend S).run (c.run s.policy) (io, s, w.disk)).2.2.1
      ((backend S).run (c.run s.policy) (io, s, w.disk)).2.2.2 := by
    rcases hres : ((backend S).run (c.run s.policy) (io, s, w.disk)).1 with e | a
    · exact hspec.2 e hres
    · exact (hspec.1 a hres).2.2
  rw [step_of_live hlive]
  refine ⟨⟨hhalted.files, _, rfl, fun e he now hcall => ?_⟩, _, rfl, hhalted.poisoned⟩
  rw [List.mem_singleton] at he
  subst he
  obtain rfl : c = .reserveRun now := hcall
  -- a run that is let in has to be saved
  rcases hres : ((backend S).run ((Call.reserveRun now).run s.policy) (io, s, w.disk)).1 with e | a
  · exact ⟨e, rfl⟩
  obtain ⟨-, ⟨hnil, hok⟩, -⟩ := hspec.1 a hres
  rw [run_reserveRun] at hnil hok
  cases hb : blockReason s.policy (reconcileDay s.policy now s.state) now with
  | none => simp [hb] at hnil
  | some blocked => simp [hb] at hok

lemma stopped_calls (hlive : w.live = some s) (hp : s.persistence.poisoned = true)
    (later : List (Call × List Io)) : Stopped w (calls S w later) := by
  induction later generalizing w s with
  | nil => exact ⟨rfl, [], (List.append_nil _).symm, by simp⟩
  | cons x later ih =>
    obtain ⟨⟨hfiles, entries, htrace, hrefused⟩, s', hlive', hp'⟩ :=
      @stopped_call S w s x.1 x.2 hlive hp
    obtain ⟨hfiles', entries', htrace', hrefused'⟩ := ih hlive' hp'
    refine ⟨hfiles'.trans hfiles, entries ++ entries', ?_, fun e he => ?_⟩
    · change (calls S (w.step S (.call x.1, x.2)) later).trace = _
      rw [htrace', htrace, List.append_assoc]
    · exact (List.mem_append.mp he).elim (hrefused e) (hrefused' e)

end stops

/-! ### Reopening -/

/-- How a recovery set opens after these calls of `persist`, and one that was interrupted: as of
the last one or of the interrupted one, unless the append of the latter was cut. -/
inductive Reopens (S : Serde) (d : Disk) (dones : List (SchedulerStore × Bool))
    (interrupted : Option SchedulerStore) :
    Except SchedulerError (Persistence × SchedulerStore × Bool) → Prop
  | opened {p : Persistence} {store : SchedulerStore} {recovered : Bool}
      (top : accounting store = lastAccounting dones ∨
        ∃ t ∈ interrupted, accounting store = accounting t)
      (least : AtLeast (lastAccounting dones) (accounting store)) :
      Reopens S d dones interrupted (.ok (p, store, recovered))
  | refused {path : RecoveryFile} {message : String} {t : SchedulerStore} {L : Ledger}
      {torn : Bytes} (append : t ∈ interrupted)
      (ledger : d.files .ledger = some (L.bytes S ++ torn)) (cut : Cut S L t torn) :
      Reopens S d dones interrupted (.error (.corrupt path message))

/-- What holds after a crash: how the recovery set opens if no call of `persist` has failed but
for the last one, and that a scheduler of which a call has failed writes nothing more. -/
structure CrashConsistent (S : Serde) (w : System) : Prop where
  reopens : ∀ dones (interrupted : Option SchedulerStore) random, AllDone dones →
    w.disk.persists = dones ++ interrupted.toList.map (·, false) →
    Reopens S w.disk dones interrupted (openPersistence S (.ok random) ([], w.disk)).1
  stops : ∀ c io, Fails S w c io →
    (∃ e err, (w.step S (.call c, io)).trace = w.trace ++ [e] ∧ e.result = .error err) ∧
    ∀ later, Stopped (w.step S (.call c, io)) (calls S (w.step S (.call c, io)) later)

section reopens
variable {S : Serde} {K : String → ProviderState → Prop} {states : List SchedulerStore}
  {torn : Bytes} {d : Disk} {w : System}

/-- If only the last call of `persist` may have failed, a recovery set is not refused for a
missing snapshot. -/
lemma Resting.resumable (h : Resting S K states torn d) {dones : List (SchedulerStore × Bool)}
    {interrupted : Option SchedulerStore} (hdones : AllDone dones)
    (hp : d.persists = dones ++ interrupted.toList.map (·, false))
    (hprimary : d.files .primary = none) : Resumable states := by
  have hsnapshots : d.snapshots = [] := by
    cases h.sound with
    | untouched hu => exact hu.snapshots
    | consistent hc => exact hc.noPrimary hprimary
  have hnone : dones = [] := by
    refine List.eq_nil_iff_forall_not_mem.mpr fun p hmem => ?_
    exact h.chronicle.written ⟨p, by simp [hp, hmem], hdones p hmem⟩ hsnapshots
  subst hnone
  cases interrupted with
  | none =>
    rw [h.chronicle.none (by simpa using hp)]
    exact ⟨Nat.zero_le _, rfl⟩
  | some t => exact h.chronicle.resumable t (by simpa using hp)

lemma Resting.reopens (h : Resting S K states torn d) (hnever : NeverLess d.persists)
    {dones : List (SchedulerStore × Bool)} {interrupted : Option SchedulerStore}
    (random : Vector UInt8 16) (hdones : AllDone dones)
    (hp : d.persists = dones ++ interrupted.toList.map (·, false)) :
    Reopens S d dones interrupted (openPersistence S (.ok random) ([], d)).1 := by
  have hspec := ends_iff.mp ((open_spec h.sound (.ok random) : Meets False d _ _ _) [] (.inl rfl))
  rcases hr : (openPersistence S (.ok random) ([], d)).1 with e | ⟨p, store, recovered⟩
  · obtain ⟨⟨path, message, rfl⟩, hwhy⟩ := (hspec.2 e hr).why.resolve_left id
    rcases hwhy with htorn | ⟨-, e, he⟩ | ⟨hprimary, hno⟩
    · obtain ⟨hnot, hlast⟩ := h.cut htorn
      cases interrupted with
      | none => exact absurd (by simpa [hp] using hdones) hnot
      | some t =>
        obtain ⟨L, -, hledger, hcut⟩ := hlast dones t hdones (by simpa using hp)
        exact .refused rfl hledger hcut
    · cases he
    · exact absurd (h.resumable hdones hp hprimary) hno
  · obtain ⟨-, -, L, rfl, ho⟩ := hspec.1 _ hr
    have hacc : accounting store = accounting (lastState L.states) := ho.accounting
    cases interrupted with
    | none =>
      have hlast := hacc.trans (h.chronicle.done (by simpa [hp] using hdones))
      have hpersists : d.persists = dones := by simpa using hp
      rw [hpersists] at hlast
      exact .opened (.inl hlast) (hlast ▸ .refl _)
    | some t =>
      have hpersists : d.persists = dones ++ [(t, false)] := by simpa using hp
      rcases h.chronicle.interrupted dones t hdones hpersists with hlast | hlast
      · exact .opened (.inl (hacc.trans hlast)) (hacc.trans hlast ▸ .refl _)
      · refine .opened (.inr ⟨t, rfl, hacc.trans hlast⟩) ?_
        rw [hacc.trans hlast]
        exact hnever dones t hdones hpersists

variable (policy : SchedulerPolicy) (now : ℤ) (seed : UInt64) (random : Random) in
lemma openSeeded_allDone (h : Sound S d states torn) (hall : AllDone d.persists) :
    Meets True d (openSeeded S policy now seed random) (fun _ d' => AllDone d'.persists)
      fun _ _ => True := by
  refine meets_bind (meets_mono (open_spec h random) ?_ fun _ _ _ => trivial)
  rintro ⟨p, store, recovered⟩ d₁ ⟨-, L, rfl, ho⟩
  have hall₁ : AllDone d₁.persists := by
    rw [ho.same.persists]
    exact hall
  dsimp only
  split_ifs
  · exact meets_persistOpening fun io _ => ends_iff.mpr
      ⟨fun u hu => ⟨.inr trivial, allDone_concat.mpr ⟨hall₁, congrArg Except.isOk hu⟩⟩,
        fun _ _ => trivial⟩
  · exact meets_pure hall₁

/-- If the first opening succeeds, then so has every call of `persist`. -/
lemma allDone_first {policy : SchedulerPolicy} {now : ℤ} {seed : UInt64} {random : Random}
    {s : Scheduler}
    (hlive : (System.step S {} (.openSeeded policy now seed random, [])).live = some s) :
    AllDone (System.step S {} (.openSeeded policy now seed random, [])).disk.persists := by
  have hspec := ends_iff.mp (openSeeded_allDone (S := S) (d := {}) policy now seed random
    (.untouched ⟨fun _ => rfl, rfl⟩) (by simp [AllDone]) [] (.inr trivial))
  change (openSeeded S policy now seed random ([], {})).1.toOption = some s at hlive
  rcases hr : (openSeeded S policy now seed random ([], {})).1 with e | s'
  · rw [hr] at hlive
    cases hlive
  · exact (hspec.1 s' hr).2

end reopens

/-- **Crash consistency**: wherever a write stops, the accounting that is recovered is that of the
last store that was persisted or of the one that was being persisted, and no run is given back. -/
theorem crash_consistent {S : Serde} {w : System} (h : Reaches S (fun _ _ => True) w) :
    CrashConsistent S w := by
  obtain ⟨states, torn, hrest⟩ := resting_of_reaches kept_validState h
  refine ⟨fun dones interrupted random hdones hp =>
    hrest.reopens (neverLess_of_reaches h) random hdones hp, fun c io hfails => ?_⟩
  cases hlive : w.live with
  | none =>
    obtain ⟨p, hp, -⟩ := hfails
    simp [System.step, System.act, hlive] at hp
  | some s =>
    obtain ⟨s', e, err, hlive', hpoisoned, htrace, herr⟩ := poisoned_of_fails hlive hfails
    exact ⟨⟨e, err, htrace, herr⟩, stopped_calls hlive' hpoisoned⟩

/-- The append of the first run is cut after a byte. -/
theorem crash_consistent_cut : ∃ w dones store, Reaches Encoding.formats (fun _ _ => True) w ∧
    AllDone dones ∧ w.disk.persists = dones ++ [(store, false)] ∧
    (accounting store)["mlab"]? = some ⟨0, [0], some 0, none, 0, none⟩ ∧
    CrashConsistent Encoding.formats w := by
  obtain ⟨s, L, hcalm, -, hsaved⟩ :=
    @calm_first Encoding.formats mlabPolicy 0 1 (.replicate 16 0)
  have hreach : Reaches Encoding.formats (fun _ _ => True) (System.step Encoding.formats {}
      (.openSeeded mlabPolicy 0 1 (.ok (.replicate 16 0)), [])) := .step .first trivial
  have hrun := run_reserveRun mlabPolicy 0 (newState mlabPolicy 0 1)
  have hblock : blockReason mlabPolicy (reconcileDay mlabPolicy 0 (newState mlabPolicy 0 1)) 0 =
      none := by decide +kernel
  simp only [hblock] at hrun
  obtain ⟨-, -, -, -, -, -, -, -, -, -, hpersists⟩ := hcalm.cut hsaved hrun (by decide +kernel)
    (by decide) 1
  have hreach' : Reaches Encoding.formats (fun _ _ => True) _ :=
    hreach.step (i := (.call (.reserveRun 0), cutAt 1)) trivial
  refine ⟨_, _, _, hreach', allDone_first hcalm.live, hpersists, ?_, crash_consistent hreach'⟩
  have hpolicy : "mlab" = s.policy.providerId := by
    rw [hcalm.samePolicy]
    rfl
  rw [hpolicy, accounting_setState_get, if_pos rfl]
  decide +kernel

end Netband.Steps

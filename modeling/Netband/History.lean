import Netband.Invariant

/-!
The past of a system: which calls were granted a run, which runs were committed, and under
which policy a scheduler runs.
-/

namespace Netband.Steps

open Netband.Time Netband.Model Netband.State Netband.Plan Netband.Effects Netband.Lines
open Netband.Recovery Netband.Scheduling Netband.World Netband.Edits Netband.Runs
open Faulty

/-! ### Granted and committed runs -/

/-- The time and the reservation, when the call was granted a run of the provider. -/
def grant (P : String) (e : Entry) : Option (ℤ × Reservation) :=
  match e.call, e.result with
  | .reserveRun now, .ok (.reserved reservation) =>
    if e.policy.providerId = P then some (now, reservation) else none
  | _, _ => none

/-- The number of runs of the provider that were granted with an accounting date. -/
def grantsOn (P : String) (date : ℤ) (trace : List Entry) : ℕ :=
  trace.countP fun e => (grant P e).any fun g => g.2.accountingDate = date

/-- The time of the call, when it committed a run of the provider to the ledger. -/
def commit (P : String) (e : Entry) : Option ℤ :=
  match e.call, e.recorded with
  | .reserveRun now, true => if e.policy.providerId = P then some now else none
  | _, _ => none

/-- The number of runs of the provider on a day that were committed to the ledger. -/
def commitsOn (P : String) (date : ℤ) (trace : List Entry) : ℕ :=
  trace.countP fun e => (commit P e).any fun now => dateNaive now = date

section entries
variable {P : String} {e : Entry} {now : ℤ} {reservation : Reservation} {top : Prop}
  {J : Option Accounting → Prop}

lemma Silent.grant (h : Silent P J e) : grant P e = none := by
  unfold Steps.grant
  split
  · rename_i hcall hok
    split_ifs with hP
    · obtain ⟨⟨err, he⟩, -⟩ := h.unsaved hP (by simp [hcall, Call.Quiet])
      simp [hok] at he
    · rfl
  · rfl

lemma Silent.commit (h : Silent P J e) : commit P e = none := by
  unfold Steps.commit
  split
  · rename_i hcall hrec
    split_ifs with hP
    · have hfalse := (h.unsaved hP (by simp [hcall, Call.Quiet])).2
      simp [hrec] at hfalse
    · rfl
  · rfl

lemma Landed.grant (hP : e.policy.providerId = P) (hcall : e.call = .reserveRun now)
    (h : Landed e (.reserved reservation) top) :
    grant P e = some (now, reservation) ∨ grant P e = none ∧ e.recorded = true := by
  rcases h with ⟨hok, -⟩ | ⟨⟨err, herr⟩, hrec⟩
  · left
    simp [Steps.grant, hcall, hok, hP]
  · right
    exact ⟨by simp [Steps.grant, hcall, herr], hrec⟩

lemma grant_finishAttempt {runId : RunId} {opportunity : BandwidthOpportunity}
    {report : BandwidthReport} (h : e.call = .finishAttempt runId now opportunity report) :
    grant P e = none ∧ commit P e = none := by
  simp [grant, commit, h]

lemma grantsOn_concat {date : ℤ} (trace : List Entry) :
    grantsOn P date (trace ++ [e]) = grantsOn P date trace +
      if (grant P e).any fun g => g.2.accountingDate = date then 1 else 0 := by
  simp [grantsOn, List.countP_append, List.countP_singleton]

lemma commitsOn_concat {date : ℤ} (trace : List Entry) :
    commitsOn P date (trace ++ [e]) = commitsOn P date trace +
      if (commit P e).any fun now => dateNaive now = date then 1 else 0 := by
  simp [commitsOn, List.countP_append, List.countP_singleton]

end entries

/-! ### The policy of a running scheduler -/

section policy
variable {S : Serde} {K : String → ProviderState → Prop} {allowed : System → Action → Prop}
  {w : System} {s : Scheduler} {d : Disk} {faults : Prop} {policy : SchedulerPolicy}

lemma putAll_policy (xs : List ProviderState) (x : List Io × Scheduler × Disk) :
    ((backend S).putAll xs x).2.2.1.policy = x.2.1.policy := by
  induction xs generalizing x with
  | nil => rfl
  | cons st xs ih =>
    rw [Backend.putAll_cons]
    rcases h : (backend S).put st x with ⟨e | u, x'⟩
    · exact (congrArg (fun r => r.2.2.1.policy) h).symm
    · exact (ih x').trans (congrArg (fun r => r.2.2.1.policy) h).symm

lemma run_policy {α : Type} (c : Scheduling.Op α) (x : List Io × Scheduler × Disk) :
    ((backend S).run c x).2.2.1.policy = x.2.1.policy := by
  rcases x with ⟨io, s, d⟩
  have hp := putAll_policy (S := S) (c s.state).1 (io, s, d)
  have hview : (backend S).view (s, d) = s.state := rfl
  rw [Backend.run_apply, hview]
  rcases h : (backend S).putAll (c s.state).1 (io, s, d) with ⟨e | u, y⟩
  · rw [h] at hp
    exact hp
  · rw [h] at hp
    exact hp

/-- What a call of an open scheduler returns and leaves. -/
lemma step_call {c : Call} {io : List Io} (hlive : w.live = some s) :
    ∃ s' e, (w.step S (.call c, io)).live = some s' ∧
      (w.step S (.call c, io)).trace = w.trace ++ [e] ∧ s'.policy = s.policy ∧
      ∀ reply, e.result = .ok reply → (c.run s.policy s.state).2.1 = .ok reply ∧
        s'.state = (c.run s.policy s.state).2.2 := by
  have hact : w.act S (.call c) io = w.call S s c io := by
    simp only [System.act, hlive]
  have hstep : w.step S (.call c, io) =
      { w.call S s c io with clock := laterOf w.clock c.now } := by
    rw [← hact]
    rfl
  rw [hstep]
  refine ⟨_, _, rfl, rfl, run_policy _ _, fun reply hreply => ⟨((backend S).run_ok hreply).1, ?_⟩⟩
  exact (backend S).run_ok_view hreply

/-- What a call of an open scheduler returns. -/
lemma result_of_call {c : Call} (hlive : w.live = some s)
    (htrace : (w.step S (.call c, io)).trace = w.trace ++ [e]) :
    e.result = ((backend S).run (c.run s.policy) (io, s, w.disk)).1 := by
  have hact : w.act S (.call c) io = w.call S s c io := by
    simp only [System.act, hlive]
  have hstep : (w.step S (.call c, io)).trace = (w.call S s c io).trace := by
    rw [← hact]
    rfl
  rw [hstep] at htrace
  have hlast := congrArg (fun l => l.getLast?.map Entry.result) htrace
  simpa [System.call] using hlast.symm

/-- What a call of an open scheduler notes. -/
lemma entry_of_call {c : Call} (hlive : w.live = some s)
    (htrace : (w.step S (.call c, io)).trace = w.trace ++ [e]) :
    e.policy = s.policy ∧ e.call = c := by
  have hact : w.act S (.call c) io = w.call S s c io := by
    simp only [System.act, hlive]
  have hstep : (w.step S (.call c, io)).trace = (w.call S s c io).trace := by
    rw [← hact]
    rfl
  rw [hstep] at htrace
  have hlast := congrArg (fun l => l.getLast?.map fun e => (e.policy, e.call)) htrace
  simpa [System.call, eq_comm] using hlast

/-- A call that saves returns only if its scheduler has not stopped. -/
lemma unpoisoned_of_ok {c : Call} {io : List Io} {e : Entry} {reply : Reply}
    (hlive : w.live = some s) (htrace : (w.step S (.call c, io)).trace = w.trace ++ [e])
    (hok : e.result = .ok reply) (hsaves : (c.run s.policy s.state).1 ≠ []) :
    s.persistence.poisoned = false := by
  rcases hp : s.persistence.poisoned with _ | _
  · rfl
  · have hspec := ends_iff.mp (run_poisoned (S := S) (d := w.disk) True (c.run s.policy) hp io
      (.inr trivial))
    have hrun := (result_of_call hlive htrace).symm.trans hok
    exact absurd (hspec.1 _ hrun).2.1.1 hsaves

/-- What every allowed action upholds holds of the record of a scheduler that has not stopped. -/
lemma upheld_of_live {P : String} {J : List Entry → Option ℤ → Option Accounting → Prop}
    (hK : Kept K) (hJ : Upholds P allowed J) (h : Reaches S allowed w) (hlive : w.live = some s)
    (hun : s.persistence.poisoned = false) (hP : s.policy.providerId = P) :
    J w.trace w.clock (some (accountingOf s.state)) := by
  cases keeping_of_reaches hK hJ h with
  | idle _ hs _ =>
    have hp := (hs s hlive).1
    rw [hun] at hp
    cases hp
  | @running _ s₁ hl _ _ _ _ hcurrent =>
    obtain rfl : s₁ = s := Option.some.inj (hl.symm.trans hlive)
    rwa [← hP, accounting_state] at hcurrent

lemma openSeeded_policy {now : ℤ} {seed : UInt64} {random : Random} {io : List Io}
    (h : (openSeeded S policy now seed random (io, d)).1 = .ok s) : s.policy = policy := by
  have hany : Meets True d (openPersistence S random) (fun _ _ => True) fun _ _ => True :=
    fun io _ => ends_iff.mpr ⟨fun _ _ => ⟨.inr trivial, trivial⟩, fun _ _ => trivial⟩
  have hspec : Meets True d (openSeeded S policy now seed random)
      (fun s _ => s.policy = policy) fun _ _ => True := by
    refine meets_bind (meets_mono hany ?_ fun _ _ _ => trivial)
    rintro ⟨p, store, recovered⟩ d' -
    dsimp only
    split_ifs
    · refine meets_persistOpening fun io _ => ends_iff.mpr ⟨fun _ _ => ⟨.inr trivial, ?_⟩,
        fun _ _ => trivial⟩
      exact admitRecovered_policy p store recovered
    · exact meets_pure (admitRecovered_policy p store recovered)
  exact ((ends_iff.mp (hspec io (.inr trivial))).1 s h).2

/-- What every opening asks of its policy holds of the running scheduler's. -/
theorem live_policy {ok : SchedulerPolicy → Prop} (h : Reaches S allowed w)
    (hopen : ∀ w policy now seed random,
      allowed w (.openSeeded policy now seed random) → ok policy) :
    ∀ s ∈ w.live, ok s.policy := by
  refine h.invariant (I := fun w => ∀ s ∈ w.live, ok s.policy) (by simp) ?_
  rintro w ⟨a, io⟩ - hw ha s hs
  change s ∈ (w.act S a io).live at hs
  cases a with
  | close => simp [System.act] at hs
  | restore index => exact hw s (by simpa [System.act] using hs)
  | openSeeded policy now seed random =>
    rcases hlive : w.live with _ | s'
    · simp only [System.act, hlive, System.openScheduler] at hs
      rcases hr : (openSeeded S policy now seed random (io, w.disk)).1 with e | s'
      · simp [hr, Except.toOption] at hs
      · obtain rfl : s' = s := by simpa [hr, Except.toOption] using hs
        rw [openSeeded_policy hr]
        exact hopen _ _ _ _ _ ha
    · exact hw s (by simpa [System.act, hlive] using hs)
  | call c =>
    rcases hlive : w.live with _ | s'
    · simp [System.act, hlive] at hs
    · simp only [System.act, hlive, System.call, Option.mem_def, Option.some.injEq] at hs
      subst hs
      rw [run_policy]
      exact hw s' hlive

end policy
end Netband.Steps

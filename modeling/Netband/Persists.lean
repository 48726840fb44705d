import Netband.History

/-!
Claims about the stores that were persisted. A claim that persisting keeps, however it ends, and
that every record which a call saves or leaves may join, holds of every system that is reached.
-/

namespace Netband.Steps

open Netband.Time Netband.Model Netband.State Netband.Plan Netband.Effects Netband.Lines
open Netband.Recovery Netband.Scheduling Netband.World Netband.Edits Netband.Runs
open Faulty

/-- Nothing is asked of the past. -/
lemma upholds_true (P : String) : Upholds P (fun _ _ => True) fun _ _ _ => True := by
  constructor <;> intros <;> trivial

/-- What a closed system has on its disk. -/
lemma resting_of_reaches {S : Serde} {K : String → ProviderState → Prop} {w : System}
    (hK : Kept K) (h : Reaches S (fun _ _ => True) w) :
    ∃ states torn, Resting S K states torn w.disk := by
  cases keeping_of_reaches hK (upholds_true "") h with
  | idle hr _ _ => exact ⟨_, _, hr⟩
  | running _ hr _ hC _ _ => exact ⟨_, _, hr.resting hC⟩

/-- Persisting leaves the providers and notes the store; the claim is kept, however it ends. -/
def Noting (I : Scheduler → List (SchedulerStore × Bool) → Prop) : Prop :=
  ∀ {s s' : Scheduler} {persists : List (SchedulerStore × Bool)} (ok : Bool),
    s'.policy = s.policy → s'.store.providers = s.store.providers → I s persists →
    I s' (persists ++ [(s.store, ok)])

/-- A record may take the place of the one that the scheduler has. -/
def Joins (I : Scheduler → List (SchedulerStore × Bool) → Prop) (policy : SchedulerPolicy)
    (x : ProviderState) : Prop :=
  ∀ s persists, s.policy = policy → I s persists → I (s.setState x) persists

section noting
variable {S : Serde} {I : Scheduler → List (SchedulerStore × Bool) → Prop}
  {J : List (SchedulerStore × Bool) → Prop} {K : String → ProviderState → Prop}
  {s : Scheduler} {d : Disk}

lemma Noting.persist (hI : Noting I) (h : I s d.persists) (io : List Io) :
    I (Scheduler.persist S (io, s, d)).2.2.1 (Scheduler.persist S (io, s, d)).2.2.2.persists :=
  hI _ rfl (persist_providers (S := S) (io, s.session d)) h

lemma Noting.putAll (hI : Noting I) {policy : SchedulerPolicy} {xs : List ProviderState}
    (hpolicy : s.policy = policy) (hxs : ∀ x ∈ xs, Joins I policy x) (h : I s d.persists)
    (io : List Io) : I ((backend S).putAll xs (io, s, d)).2.2.1
      ((backend S).putAll xs (io, s, d)).2.2.2.persists := by
  induction xs generalizing s d io with
  | nil => exact h
  | cons x xs ih =>
    have hput : I ((backend S).put x (io, s, d)).2.2.1
        ((backend S).put x (io, s, d)).2.2.2.persists :=
      hI.persist (d := d) (hxs x (by simp) s _ hpolicy h) io
    rw [Backend.putAll_cons]
    rcases hr : (backend S).put x (io, s, d) with ⟨e | u, io', s', d'⟩
    · rw [hr] at hput
      exact hput
    · rw [hr] at hput
      have hpolicy' : s'.policy = s.policy := congrArg (fun r => r.2.2.1.policy) hr.symm
      exact ih (hpolicy'.trans hpolicy) (fun y hy => hxs y (by simp [hy])) hput io'

/-- **Calls** keep a claim that the records they save and leave may join. -/
theorem Noting.run {α : Type} (hI : Noting I) (c : Scheduling.Op α)
    (hsaved : ∀ x ∈ (c s.state).1, Joins I s.policy x) (hleft : Joins I s.policy (c s.state).2.2)
    (h : I s d.persists) (io : List Io) : I ((backend S).run c (io, s, d)).2.2.1
      ((backend S).run c (io, s, d)).2.2.2.persists := by
  have hput := hI.putAll (S := S) rfl hsaved h io
  have hpolicy := putAll_policy (S := S) (c s.state).1 (io, s, d)
  have hview : (backend S).view (s, d) = s.state := rfl
  rw [Backend.run_apply, hview]
  rcases hr : (backend S).putAll (c s.state).1 (io, s, d) with ⟨e | u, io', s', d'⟩
  · rw [hr] at hput
    exact hput
  · rw [hr] at hput hpolicy
    exact hleft s' _ hpolicy hput

/-- **Opening** keeps a claim that holds of the scheduler it makes. -/
theorem Noting.opens (hK : Kept K) (hI : Noting I) (hJ : ∀ s persists, I s persists → J persists)
    {states : List SchedulerStore} {torn : Bytes} {policy : SchedulerPolicy} {now : ℤ}
    (hadmits : ∀ L s d', L.states = states → Admitted S K policy now L s d' → I s d.persists)
    (h : Resting S K states torn d) (hd : J d.persists) (seed : UInt64) (random : Random) :
    Meets True d (openSeeded S policy now seed random) (fun s d' => I s d'.persists)
      fun _ d' => J d'.persists := by
  refine meets_bind (meets_mono (open_spec h.sound random) ?_ ?_)
  · rintro ⟨p, store, recovered⟩ d₁ ⟨-, L, rfl, ho⟩
    have ho : Opened S L d d₁ p store recovered := ho
    have hnew : I (admitRecovered policy now seed p store recovered) d₁.persists := by
      rw [ho.same.persists]
      exact hadmits L _ _ rfl (admitted_of_opened policy now seed hK ho h.archive)
    dsimp only
    split_ifs
    · refine meets_persistOpening fun io _ => ends_iff.mpr
        ⟨fun _ _ => ⟨.inr trivial, ?_⟩, fun _ _ => ?_⟩
      · exact hI.persist hnew io
      · exact hJ _ _ (hI.persist hnew io)
    · exact meets_pure hnew
  · intro e d₁ hno
    rw [hno.same.persists]
    exact hd

/-- **Persisted stores**: what openings and calls keep holds of every system that is reached. -/
theorem Noting.of_reaches {w : System} (hK : Kept K) (hI : Noting I)
    (hJ : ∀ s persists, I s persists → J persists) (first : J [])
    (hadmits : ∀ d policy now states torn L s d', Resting S K states torn d → J d.persists →
      L.states = states → Admitted S K policy now L s d' → I s d.persists)
    (hcalls : ∀ s d c io, I s d.persists →
      I ((backend S).run (Call.run s.policy c) (io, s, d)).2.2.1
        ((backend S).run (Call.run s.policy c) (io, s, d)).2.2.2.persists)
    (h : Reaches S (fun _ _ => True) w) :
    (∀ s ∈ w.live, I s w.disk.persists) ∧ J w.disk.persists := by
  refine h.invariant (I := fun w => (∀ s ∈ w.live, I s w.disk.persists) ∧ J w.disk.persists)
    ⟨by simp, first⟩ ?_
  rintro w ⟨a, io⟩ hw ⟨hlive, hd⟩ -
  change (∀ s ∈ (w.act S a io).live, I s (w.act S a io).disk.persists) ∧
    J (w.act S a io).disk.persists
  cases a with
  | close => exact ⟨by simp [System.act], hd⟩
  | restore index =>
    have hp := (restore_same w.disk index).2
    simp only [System.act]
    rw [hp]
    exact ⟨hlive, hd⟩
  | openSeeded policy now seed random =>
    rcases hl : w.live with _ | s
    · obtain ⟨states, torn, hrest⟩ := resting_of_reaches hK hw
      have hspec := ends_iff.mp (hI.opens hK hJ (fun L s d' => hadmits w.disk policy now states
        torn L s d' hrest hd) hrest hd seed random io (.inr trivial))
      simp only [System.act, hl, System.openScheduler]
      rcases hr : (openSeeded S policy now seed random (io, w.disk)).1 with e | s
      · exact ⟨by simp [Except.toOption], hspec.2 e hr⟩
      · obtain ⟨-, hnew⟩ := hspec.1 s hr
        exact ⟨by simpa [Except.toOption] using hnew, hJ _ _ hnew⟩
    · rw [hl] at hlive
      simpa only [System.act, hl] using ⟨hlive, hd⟩
  | call c =>
    rcases hl : w.live with _ | s
    · rw [hl] at hlive
      simpa only [System.act, hl] using ⟨hlive, hd⟩
    · have hnew := hcalls s w.disk c io (hlive s hl)
      simp only [System.act, hl, System.call]
      exact ⟨by simpa using hnew, hJ _ _ hnew⟩

end noting
end Netband.Steps

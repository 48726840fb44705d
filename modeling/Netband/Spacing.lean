import Netband.Count

/-!
The minimum spacing: an unforced run is granted only when the spacing after every earlier
grant is over, whatever the clock has done.
-/

namespace Netband.Spacing

open Netband.Time Netband.Model Netband.State Netband.Plan Netband.Effects Netband.Lines
open Netband.Recovery Netband.Scheduling Netband.World Netband.Edits Netband.Steps Netband.Runs

/-- An unforced grant is as far from every earlier grant as its policy asks. -/
def Spaced (P : String) (before : List Entry) (e : Entry) : Prop :=
  ∀ g ∈ grant P e, e.policy.forceLimits = false →
    ∀ e' ∈ before, ∀ g' ∈ grant P e', addDuration g'.1 e.policy.minSpacing ≤ g.1

/-- Every grant was spaced, and the record's last start is not before any of them. -/
def Dominated (P : String) (trace : List Entry) (x : Option Accounting) : Prop :=
  Throughout (Spaced P) trace ∧
    ∀ e ∈ trace, ∀ g ∈ grant P e, ∃ a ∈ x, ∃ last ∈ a.lastStart, g.1 ≤ last

section dominated
variable {P : String} {trace : List Entry} {x y : Option Accounting} {a b : Accounting} {now : ℤ}
  {e : Entry}

lemma dominated_some : Dominated P trace (some a) ↔ Throughout (Spaced P) trace ∧
    ∀ e ∈ trace, ∀ g ∈ grant P e, ∃ last ∈ a.lastStart, g.1 ≤ last := by
  simp [Dominated]

lemma Dominated.of_last (h : Dominated P trace (some a)) (hl : b.lastStart = a.lastStart) :
    Dominated P trace (some b) := by
  rw [dominated_some] at h ⊢
  rwa [hl]

lemma Rolls.lastStart (h : Rolls now a b) : b.lastStart = a.lastStart := by
  cases h with
  | same _ _ hl => exact hl
  | newDay _ _ _ hl => exact hl

lemma Dominated.silent (h : Dominated P trace x) (he : grant P e = none) :
    Dominated P (trace ++ [e]) x := by
  refine ⟨throughout_concat.mpr ⟨h.1, fun g hg => by simp [he] at hg⟩, fun e' he' g hg => ?_⟩
  rcases List.mem_append.mp he' with hmem | hmem
  · exact h.2 e' hmem g hg
  · rw [List.mem_singleton.mp hmem, he] at hg
    cases hg

lemma lastStart_startRun (st : ProviderState) (now : ℤ) :
    ∃ last ∈ (startRun now st).lastStartedAtUtc, now ≤ last ∧
      ∀ t ∈ st.lastStartedAtUtc, t ≤ last := by
  refine ⟨_, rfl, ?_⟩
  rcases st.lastStartedAtUtc with _ | t <;> simp

/-- A run starts: if it is granted without force, the last start is far enough away. -/
lemma Dominated.start {st : ProviderState} (h : Dominated P trace (some (accountingOf st)))
    (hspaced : e.policy.forceLimits = false → ∀ t ∈ st.lastStartedAtUtc,
      addDuration t e.policy.minSpacing ≤ now) (he : ∀ g ∈ grant P e, g.1 = now) :
    Dominated P (trace ++ [e]) (some (accountingOf (startRun now st))) := by
  obtain ⟨last, hlast, hnow, hold⟩ := lastStart_startRun st now
  rw [dominated_some] at h ⊢
  refine ⟨throughout_concat.mpr ⟨h.1, fun g hg hforce e' he' g' hg' => ?_⟩, fun e' he' g hg => ?_⟩
  · obtain ⟨t, ht, hle⟩ := h.2 e' he' g' hg'
    calc addDuration g'.1 e.policy.minSpacing
        ≤ addDuration t e.policy.minSpacing := addDuration_mono _ hle
      _ ≤ now := hspaced hforce t ht
      _ = g.1 := (he g hg).symm
  · refine ⟨last, hlast, ?_⟩
    rcases List.mem_append.mp he' with hmem | hmem
    · obtain ⟨t, ht, hle⟩ := h.2 e' hmem g hg
      exact hle.trans (hold t ht)
    · rw [List.mem_singleton.mp hmem] at hg
      exact (he g hg).trans_le hnow

/-- Every step keeps the last start past all grants. -/
theorem upholds_dominated (P : String) :
    Upholds P (fun _ _ => True) fun trace _ x => Dominated P trace x where
  first := ⟨throughout_nil, by simp⟩
  time _ _ _ _ h := h
  opens w policy now seed random x y _ _ h ho := by
    cases ho with
    | created =>
      refine ⟨h.1, fun e he g hg => ?_⟩
      obtain ⟨a, ha, -⟩ := h.2 e he g hg
      cases ha
    | kept hr => exact h.of_last (Rolls.lastStart hr)
  silent _ _ _ _ _ _ he h := h.silent he.grant
  rolls _ _ _ _ _ _ _ h hr := h.of_last (Rolls.lastStart hr)
  reserves w s now e _ hlive hP h hb hpolicy hcall hl := by
    have hrolled := h.of_last (Rolls.lastStart
      (rolls_reconcileDay s.policy (Rolls.refl now (accountingOf s.state))))
    refine hrolled.start (fun hforce => ?_) fun g hg => ?_
    · rw [hpolicy] at hforce ⊢
      exact ((blockReason_eq_none.mp hb).2.resolve_left (by simp [hforce])).2
    · rcases hl.grant (by rw [hpolicy, hP]) hcall with hsome | ⟨hnone, -⟩
      · rw [hsome] at hg
        rw [← Option.some.inj hg]
      · rw [hnone] at hg
        cases hg
  finishes w s runId now opportunity report e events report' _ _ _ h _ hcall _ _ := by
    obtain ⟨cooldown, backoff, deferred, hf⟩ :=
      accountingOf_finished s.policy now opportunity report s.state
    rw [hf]
    exact Dominated.silent (h.of_last rfl) (grant_finishAttempt hcall).1

/-- **Minimum spacing**: in every run, an unforced grant is as far from every earlier grant of
its provider as its policy asks. -/
theorem grants_spaced {S : Serde} {w : System} (h : Reaches S (fun _ _ => True) w) (P : String) :
    Throughout (Spaced P) w.trace := by
  obtain ⟨x, hx⟩ := (keeping_of_reaches kept_validState (upholds_dominated P) h).holds
  exact hx.1

/-- Two unforced runs, the second as soon as the spacing allows it. -/
theorem grants_spaced_twice : ∃ w, Reaches Encoding.formats (fun _ _ => True) w ∧
    w.trace.map told = [
      (mlabPolicy, .reserveRun 0, .ok (.reserved ⟨0, 1⟩)),
      (mlabPolicy, .reserveRun 2160000000000, .ok (.reserved ⟨0, 2⟩))] ∧
    Throughout (Spaced "mlab") w.trace := by
  have hreach : Reaches Encoding.formats (fun _ _ => True) _ :=
    @reaches_calmRun _ mlabPolicy _ 0 1
    (.replicate 16 0) [.reserveRun 0, .reserveRun 2160000000000] trivial
    fun _ => trivial
  obtain ⟨s, L, -, htold⟩ := @calmRun_spec Encoding.formats mlabPolicy 0 1
    (.replicate 16 0) [.reserveRun 0, .reserveRun 2160000000000] (by decide +kernel)
  exact ⟨_, hreach, htold.trans (by rfl), grants_spaced hreach "mlab"⟩

end dominated
end Netband.Spacing

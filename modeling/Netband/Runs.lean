import Mathlib.Tactic

/-!
Runs of a system: the states that steps reach from a first state.
-/

namespace Netband.Runs

variable {σ ι : Type}

/-- The states reached by steps whose label is allowed in the state before. -/
inductive Reachable (step : σ → ι → σ) (allowed : σ → ι → Prop) (first : σ) : σ → Prop
  | first : Reachable step allowed first first
  | step {s : σ} {i : ι} (h : Reachable step allowed first s) (hi : allowed s i) :
      Reachable step allowed first (step s i)

section reachable
variable {step : σ → ι → σ} {allowed allowed' : σ → ι → Prop} {first s : σ}

/-- **Invariants**: what holds first and is kept by every allowed step holds always. -/
theorem Reachable.invariant {I : σ → Prop} (h : Reachable step allowed first s)
    (hfirst : I first)
    (hstep : ∀ s i, Reachable step allowed first s → I s → allowed s i → I (step s i)) : I s := by
  induction h with
  | first => exact hfirst
  | step h hi ih => exact hstep _ _ h ih hi

lemma Reachable.mono (h : Reachable step allowed first s)
    (himp : ∀ s i, allowed s i → allowed' s i) : Reachable step allowed' first s :=
  h.invariant .first fun _ _ _ hs hi => .step hs (himp _ _ hi)

/-- A step may be asked to start from a state with an invariant. -/
lemma Reachable.strengthen {I : σ → Prop} (h : Reachable step allowed first s)
    (hI : ∀ s, Reachable step allowed first s → I s) :
    Reachable step (fun s i => allowed s i ∧ I s) first s := by
  induction h with
  | first => exact .first
  | step h hi ih => exact .step ih ⟨hi, hI _ h⟩

lemma Reachable.trans {s' : σ} (h : Reachable step allowed first s)
    (h' : Reachable step allowed s s') : Reachable step allowed first s' :=
  h'.invariant h fun _ _ _ hs hi => hs.step hi

/-- Every step of a list is allowed where it is taken. -/
def Allowed (step : σ → ι → σ) (allowed : σ → ι → Prop) : σ → List ι → Prop
  | _, [] => True
  | s, i :: rest => allowed s i ∧ Allowed step allowed (step s i) rest

lemma Reachable.foldl (h : Reachable step allowed first s) {l : List ι}
    (hl : Allowed step allowed s l) : Reachable step allowed first (l.foldl step s) := by
  induction l generalizing s with
  | nil => exact h
  | cons i l ih => exact ih (.step h hl.1) hl.2

lemma Allowed.and {l : List ι} (h : Allowed step allowed s l) (h' : Allowed step allowed' s l) :
    Allowed step (fun s i => allowed s i ∧ allowed' s i) s l := by
  induction l generalizing s with
  | nil => trivial
  | cons i l ih => exact ⟨⟨h.1, h'.1⟩, ih h.2 h'.2⟩

lemma allowed_of_forall {l : List ι} (h : ∀ s, ∀ i ∈ l, allowed s i) (s : σ) :
    Allowed step allowed s l := by
  induction l generalizing s with
  | nil => trivial
  | cons i l ih => exact ⟨h s i (by simp), ih (fun s j hj => h s j (by simp [hj])) _⟩

end reachable

/-! ### Histories -/

/-- Every event of a history has the property, given the events before it. -/
def Throughout {α : Type} (p : List α → α → Prop) (history : List α) : Prop :=
  ∀ before e after, history = before ++ e :: after → p before e

section throughout
variable {α : Type} {p : List α → α → Prop}

@[simp] lemma throughout_nil : Throughout p [] := by
  intro before e after h
  simp at h

@[simp] lemma throughout_concat {history : List α} {e : α} :
    Throughout p (history ++ [e]) ↔ Throughout p history ∧ p history e := by
  constructor
  · intro h
    refine ⟨fun before e' after he => h before e' (after ++ [e]) (by simp [he]), ?_⟩
    exact h history e [] rfl
  · rintro ⟨h, he⟩ before e' after heq
    rcases List.eq_nil_or_concat after with rfl | ⟨after', x, rfl⟩
    · obtain ⟨rfl, hx⟩ := List.append_inj' heq rfl
      obtain rfl : e = e' := by simpa using hx
      exact he
    · rw [List.concat_eq_append, ← List.cons_append, ← List.append_assoc] at heq
      obtain ⟨rfl, -⟩ := List.append_inj' heq rfl
      exact h before e' after' rfl

end throughout
end Netband.Runs

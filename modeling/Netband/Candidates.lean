import Netband.Failover

/-!
What a test over candidates has called and retained, and its outcome, in terms of its state.
-/

namespace Netband.Bandwidth

open Netband.Model Netband.Effects Saving

/-- The measurement that is retained in a direction. -/
def State.retains (s : State) : RequestDirection → Option DirectionMeasurement
  | .download => s.progress.download
  | .upload => s.progress.upload

/-- All calls and failures since a state are those of trials, which take the candidates in their
order: a later one only after the download of the one before had no measurement and its last
failure asked for the next. At most one upload is tried, with the candidate before. What is
retained was measured by one of the trials, at the address that it has called last, and against the
server that is named. -/
structure Consistent (a : State) (candidates : List EndpointCandidate) (trials : List Trial)
    (s : State) : Prop where
  contacts : s.contacts = a.contacts ++ trials.flatMap Trial.contacts
  failures : s.progress.failures = a.progress.failures ++ trials.flatMap Trial.failures
  sound : ∀ t ∈ trials, t.Sound
  order : (trials.filter (·.direction = .download)).map Trial.candidate <+: candidates
  later : trials.IsChain fun t u => (u.direction = .download → t.Skipped) ∧
    (u.direction = .upload → u.candidate = t.candidate)
  uploads : (trials.filter (·.direction = .upload)).length ≤ 1
  measured : ∀ d, ∀ m ∈ s.retains d, ∃ t ∈ trials, t.direction = d ∧ t.measurement = some m ∧
    t.Reached m.requestId m.remoteIp ∧ s.progress.serverName = some t.candidate.logicalServer

section course
variable {candidates : List EndpointCandidate} {trials : List Trial}

lemma Course.order (h : Course candidates trials) :
    (trials.filter (·.direction = .download)).map Trial.candidate <+: candidates := by
  induction h with
  | begun => simp
  | download candidates t ht => simp [ht]
  | upload candidates t u ht _ _ _ _ hu => simp [ht, hu]
  | skip candidates t trials _ hskipped _ ih => simpa [hskipped.1] using ih

lemma Course.later (h : Course candidates trials) :
    trials.IsChain fun t u => (u.direction = .download → t.Skipped) ∧
      (u.direction = .upload → u.candidate = t.candidate) := by
  induction h with
  | begun => simp
  | download => simp
  | upload candidates t u ht _ _ _ hcandidate hu => simp [hu, hcandidate]
  | skip candidates t trials _ hskipped h ih =>
    refine List.isChain_cons.mpr ⟨fun u hu => ⟨fun _ => hskipped, fun hupload => ?_⟩, ih⟩
    -- the first trial with a candidate is a download
    have hdownload : u.direction = .download := by
      cases h with
      | begun => simp at hu
      | download _ v hv =>
        obtain rfl : v = u := by simpa using hu
        exact hv
      | upload _ v w hv =>
        obtain rfl : v = u := by simpa using hu
        exact hv
      | skip _ v _ _ hv =>
        obtain rfl : v = u := by simpa using hu
        exact hv.1
    rw [hdownload] at hupload
    cases hupload

lemma Course.uploads (h : Course candidates trials) :
    (trials.filter (·.direction = .upload)).length ≤ 1 := by
  induction h with
  | begun => simp
  | download candidates t ht => simp [ht]
  | upload candidates t u ht _ _ _ _ hu => simp [ht, hu]
  | skip candidates t trials _ hskipped _ ih => simpa [hskipped.1] using ih

/-- A trial with a measurement was with the last candidate. -/
lemma Course.measured (h : Course candidates trials) {t u : Trial} (ht : t ∈ trials)
    (hmeasured : t.measurement ≠ none) (hu : u ∈ trials.getLast?) :
    u.candidate = t.candidate := by
  induction h with
  | begun => simp at ht
  | download candidates v =>
    obtain rfl : t = v := by simpa using ht
    obtain rfl : t = u := by simpa using hu
    rfl
  | upload candidates v w _ _ _ _ hcandidate _ =>
    obtain rfl : w = u := by simpa using hu
    rcases List.mem_cons.mp ht with rfl | ht
    · exact hcandidate
    · rw [List.mem_singleton.mp ht]
  | skip candidates v trials _ hskipped _ ih =>
    rcases List.mem_cons.mp ht with rfl | ht
    · exact absurd hskipped.2.1 hmeasured
    · rw [List.getLast?_cons_of_ne_nil (List.ne_nil_of_mem ht)] at hu
      exact ih ht hu

/-- Only the last trial may have a failure about the whole provider. -/
lemma Course.calm (h : Course candidates trials) {earlier : List Trial} {t : Trial}
    (hsplit : trials = earlier ++ [t]) : ∀ u ∈ earlier, Calm u.failures := by
  induction h generalizing earlier with
  | begun => simp at hsplit
  | download candidates v =>
    have hlen := congrArg List.length hsplit
    obtain rfl : earlier = [] := List.eq_nil_of_length_eq_zero (by simpa using hlen.symm)
    simp
  | upload candidates v w _ hcalm =>
    have hsplit : [v] ++ [w] = earlier ++ [t] := hsplit
    obtain ⟨rfl, -⟩ := List.append_inj' hsplit rfl
    simpa using hcalm
  | skip candidates v trials hcalm _ _ ih =>
    rcases earlier with _ | ⟨w, earlier⟩
    · simp
    · rw [List.cons_append, List.cons.injEq] at hsplit
      obtain ⟨rfl, hrest⟩ := hsplit
      exact List.forall_mem_cons.mpr ⟨hcalm, ih hrest⟩

end course

section candidates
variable {a s : State} {candidates : List EndpointCandidate} {trials : List Trial}

end candidates

end Netband.Bandwidth

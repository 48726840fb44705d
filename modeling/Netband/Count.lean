import Netband.Cap

/-!
The count that a reservation reports: one more than the runs of its day that were committed
before it, up to the largest number that the 32-bit counter can show.
-/

namespace Netband.Count

open Netband.Time Netband.Model Netband.State Netband.Plan Netband.Effects Netband.Lines
open Netband.Recovery Netband.Scheduling Netband.World Netband.Edits Netband.Steps Netband.Runs
open Netband.Cap

/-- The grant reports the number of runs committed on its day, itself included. -/
def Reports (P : String) (before : List Entry) (e : Entry) : Prop :=
  ∀ now r, grant P e = some (now, r) → r.accountingDate = dateNaive now ∧
    r.dailyBandwidthStarts = min (1 + commitsOn P r.accountingDate before) u32Max

/-- Every grant was reported as it should, and the record counts the committed runs of its day
and of later ones. -/
def Counted (P : String) (trace : List Entry) (clock : Option ℤ) : Option Accounting → Prop
  | none => Throughout (Reports P) trace ∧ ∀ date, commitsOn P date trace = 0
  | some a => Throughout (Reports P) trace ∧ (∃ time ∈ clock, a.day ≤ dateNaive time) ∧
      ∀ date, a.day ≤ date →
        (a.runs.countP fun run => dateNaive run = date) = commitsOn P date trace

section counted
variable {P : String} {trace : List Entry} {clock : Option ℤ} {x : Option Accounting}
  {a b : Accounting} {now : ℤ} {e : Entry}

lemma now_le_laterOf (clock : Option ℤ) (now : ℤ) :
    ∃ time ∈ laterOf clock (some now), now ≤ time := by
  cases clock <;> simp [laterOf]

lemma laterOf_le {now : Option ℤ} {day : ℤ} (h : ∃ time ∈ clock, day ≤ dateNaive time) :
    ∃ time ∈ laterOf clock now, day ≤ dateNaive time := by
  obtain ⟨time, rfl, hle⟩ := h
  cases now with
  | none => exact ⟨time, rfl, hle⟩
  | some now => exact ⟨_, rfl, hle.trans (dateNaive_mono (le_max_left _ _))⟩

lemma Counted.time (h : Counted P trace clock x) (now : Option ℤ) :
    Counted P trace (laterOf clock now) x := by
  cases x with
  | none => exact h
  | some a => exact ⟨h.1, laterOf_le h.2.1, h.2.2⟩

lemma Counted.rolls (h : Counted P trace clock (some a)) (hr : Rolls now a b) :
    Counted P trace (laterOf clock (some now)) (some b) := by
  refine ⟨h.1, ?_, fun date hd => ?_⟩
  · cases hr with
    | same hday => exact hday ▸ laterOf_le h.2.1
    | newDay _ hday =>
      obtain ⟨time, ht, hle⟩ := now_le_laterOf clock now
      exact ⟨time, ht, hday ▸ dateNaive_mono hle⟩
  · obtain ⟨hday, hcount⟩ := Rolls.countP hr hd
    exact hcount.trans (h.2.2 date hday)

lemma Counted.silent (h : Counted P trace clock x) (hg : grant P e = none)
    (hc : commit P e = none) : Counted P (trace ++ [e]) clock x := by
  have hreports : Throughout (Reports P) trace → Throughout (Reports P) (trace ++ [e]) :=
    fun h => throughout_concat.mpr ⟨h, fun now r he => by simp [hg] at he⟩
  have hsame : ∀ date, commitsOn P date (trace ++ [e]) = commitsOn P date trace := by
    intro date
    simp [commitsOn_concat, hc]
  cases x with
  | none => exact ⟨hreports h.1, fun date => by rw [hsame, h.2]⟩
  | some a => exact ⟨hreports h.1, h.2.1, fun date hd => by rw [hsame, h.2.2 date hd]⟩

/-- The record on the day of a time that is not before the clock. -/
lemma Counted.day_le (h : Counted P trace clock (some a)) (hnow : ∀ time ∈ clock, time ≤ now) :
    a.day ≤ dateNaive now := by
  obtain ⟨time, ht, hle⟩ := h.2.1
  exact hle.trans (dateNaive_mono (hnow time ht))

/-- One more run is committed. -/
lemma Counted.start {st : ProviderState}
    (h : Counted P trace clock (some (accountingOf st))) (hday : st.dayUtc ≤ dateNaive now)
    (hc : commit P e = some now)
    (hg : ∀ g ∈ grant P e,
      g = (now, ⟨dateNaive now, runsOnDay (startRun now st) (dateNaive now)⟩)) :
    Counted P (trace ++ [e]) clock (some (accountingOf (startRun now st))) := by
  have hcount : ∀ date, st.dayUtc ≤ date →
      (st.runs.countP fun run => dateNaive run = date) = commitsOn P date trace := h.2.2
  refine ⟨throughout_concat.mpr ⟨h.1, fun t r hr => ?_⟩, h.2.1, fun date hd => ?_⟩
  · obtain ⟨rfl, rfl⟩ := Prod.mk.injEq .. ▸ hg _ hr
    refine ⟨rfl, ?_⟩
    simp only [runsOnDay, countP_startRun, if_true]
    rw [hcount _ hday, Nat.add_comm]
  · change (startRun now st).runs.countP _ = _
    rw [countP_startRun, commitsOn_concat, hcount date hd, hc]
    simp

/-- Every step in order keeps the count. -/
theorem upholds_counted (P : String) : Upholds P InOrder (Counted P) where
  first := ⟨throughout_nil, by simp [commitsOn]⟩
  time _ _ _ _ h := h.time _
  opens w policy now seed random x y _ _ h ho := by
    cases ho with
    | created =>
      obtain ⟨time, ht, hle⟩ := now_le_laterOf w.clock now
      exact ⟨h.1, ⟨time, ht, dateNaive_mono hle⟩, fun date _ => by simp [freshAccounting, h.2]⟩
    | kept hr => exact h.rolls hr
  silent _ _ _ _ _ _ he h := h.silent he.grant he.commit
  rolls _ _ _ _ _ _ _ h hr := h.rolls hr
  reserves w s now e ha hlive hP h hb hpolicy hcall hl := by
    have hnow : ∀ time ∈ w.clock, time ≤ now := fun time ht => ha time ht now rfl
    have hrolls := rolls_reconcileDay s.policy (Rolls.refl now (accountingOf s.state))
    have hrolled := h.rolls hrolls
    have hday : (reconcileDay s.policy now s.state).dayUtc ≤ dateNaive now := by
      cases hrolls with
      | same hsame => exact hsame.trans_le (h.day_le hnow)
      | newDay _ hsame => exact hsame.le
    have hid : e.policy.providerId = P := by rw [hpolicy, hP]
    -- a run that was granted was also committed, as no committed record had as many runs
    have hrec : e.recorded = true := by
      rcases hl with ⟨-, hrec | htop⟩ | ⟨-, hrec⟩
      · exact hrec
      · have h1 : (startRun now (reconcileDay s.policy now s.state)).runs.countP _ = _ :=
          htop.2.2 (dateNaive now) hday
        have h2 : (reconcileDay s.policy now s.state).runs.countP _ = _ :=
          hrolled.2.2 (dateNaive now) hday
        rw [countP_startRun, h2] at h1
        simp at h1
      · exact hrec
    refine hrolled.start hday (by simp [commit, hcall, hrec, hid]) fun g hg => ?_
    rcases hl.grant hid hcall with hsome | ⟨hnone, -⟩
    · rw [hsome] at hg
      exact (Option.some.inj hg).symm
    · rw [hnone] at hg
      cases hg
  finishes w s runId now opportunity report e events report' _ _ _ h _ hcall _ _ := by
    obtain ⟨hg, hc⟩ := grant_finishAttempt (P := P) hcall
    obtain ⟨cooldown, backoff, deferred, hf⟩ :=
      accountingOf_finished s.policy now opportunity report s.state
    rw [hf]
    exact Counted.silent ⟨h.1, laterOf_le h.2.1, h.2.2⟩ hg hc

/-- The runs of another provider do not change the number that a grant reports. -/
lemma commitsOn_other {date : ℤ} (trace : List Entry) :
    commitsOn P date (trace.filter fun e => e.policy.providerId = P) = commitsOn P date trace := by
  rw [commitsOn, commitsOn, List.countP_filter]
  refine List.countP_congr fun e _ => ?_
  simp only [Bool.and_eq_true, decide_eq_true_eq, and_iff_left_iff_imp, commit]
  split
  · split_ifs with hP
    · exact fun _ => hP
    · simp
  · simp

lemma reports_of_reaches {S : Serde} {w : System} (h : Reaches S InOrder w) (P : String) :
    Throughout (Reports P) w.trace := by
  obtain ⟨x, hx⟩ := (keeping_of_reaches kept_validState (upholds_counted P) h).holds
  cases x with
  | none => exact hx.1
  | some a => exact hx.1

/-- **Reported counts**: in every run in order, a grant reports one more than the runs of its
provider that were committed before on its day, up to the largest number of the counter, and
only the runs of its provider matter for that. -/
theorem grant_reports {S : Serde} {w : System} (h : Reaches S InOrder w) (P : String) :
    Throughout (fun before e => Reports P before e ∧
      Reports P (before.filter fun e => e.policy.providerId = P) e) w.trace := by
  have hall := reports_of_reaches h P
  intro before e after hw
  have hreports := hall before e after hw
  refine ⟨hreports, fun now r hg => ?_⟩
  obtain ⟨hdate, hcount⟩ := hreports now r hg
  exact ⟨hdate, by rw [hcount, commitsOn_other]⟩

/-! ### Exact counts -/

/-- The grant is dated by its day and reports the exact number. -/
def Exact (P : String) (before : List Entry) (e : Entry) : Prop :=
  ∀ now r, grant P e = some (now, r) → r.accountingDate = dateNaive now ∧
    r.dailyBandwidthStarts = 1 + commitsOn P r.accountingDate before

/-- No day has as many runs as the 32-bit counter can show. Every save adds all runs of the day
to the ledger, so that the ledger of more runs would not fit a file. -/
def Countable (P : String) (trace : List Entry) : Prop :=
  ∀ date, commitsOn P date trace < u32Max

lemma exact_of_reports {before : List Entry} (hreports : Reports P before e)
    (hfew : ∀ date, commitsOn P date before < u32Max) : Exact P before e := by
  intro now r hg
  obtain ⟨hdate, hcount⟩ := hreports now r hg
  have hlt := hfew r.accountingDate
  exact ⟨hdate, by omega⟩

/-- **Exact counts**: in every run in order, a grant reports one more than the runs of its
provider that were committed before on its day; the runs of other providers do not change it. -/
theorem grants_exact {S : Serde} {w : System} (h : Reaches S InOrder w) (P : String)
    (hfew : Countable P w.trace) :
    Throughout (fun before e => Exact P before e ∧
      Exact P (before.filter fun e => e.policy.providerId = P) e) w.trace := by
  intro before e after hw
  obtain ⟨hall, hown⟩ := grant_reports h P before e after hw
  have hbefore : ∀ date, commitsOn P date before < u32Max := by
    intro date
    refine lt_of_le_of_lt ?_ (hfew date)
    rw [hw]
    exact (List.sublist_append_left before (e :: after)).countP_le
  exact ⟨exact_of_reports hall hbefore,
    exact_of_reports hown fun date => commitsOn_other before ▸ hbefore date⟩

/-- Two runs on a day and one on the next. -/
theorem grants_exact_thrice : ∃ w, Reaches Encoding.formats InOrder w ∧
    w.trace.map told = [
      (mlabPolicy, .reserveRun 0, .ok (.reserved ⟨0, 1⟩)),
      (mlabPolicy, .reserveRun 2160000000000, .ok (.reserved ⟨0, 2⟩)),
      (mlabPolicy, .reserveRun 86400000000000, .ok (.reserved ⟨1, 1⟩))] ∧
    Throughout (fun before e => Exact "mlab" before e ∧
      Exact "mlab" (before.filter fun e => e.policy.providerId = "mlab") e) w.trace := by
  have hreach := @reaches_calmRun_inOrder Encoding.formats mlabPolicy 0 1 (.replicate 16 0)
    [.reserveRun 0, .reserveRun 2160000000000, .reserveRun 86400000000000]
    (by simp [Ascending, Call.now])
  obtain ⟨s, L, -, htold⟩ := @calmRun_spec Encoding.formats mlabPolicy 0 1
    (.replicate 16 0) [.reserveRun 0, .reserveRun 2160000000000, .reserveRun 86400000000000]
    (by decide +kernel)
  refine ⟨_, hreach, htold.trans (by rfl), grants_exact hreach "mlab" fun date => ?_⟩
  refine lt_of_le_of_lt List.countP_le_length ?_
  rw [← List.length_map told, htold]
  exact (by decide +kernel)

end counted

end Netband.Count

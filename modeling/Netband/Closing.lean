import Netband.Stream

/-!
Closing a session that failed.

The active runs form a forest, whatever was started and finished before. The runs of the session's
tree are finished one after the other, each when it has no active child, and the session last.
-/

namespace Netband.Closing

open Netband.Time Netband.Model Netband.State Netband.Effects Netband.Runs
open Netband.Coordinator Netband.Stream Faulty

/-! ### The forest -/

section forest
variable {runs runs' : BTreeMap RunId ActiveRun} {id x y root : RunId} {run : ActiveRun}

/-- The parents of every active run lead to its root. -/
def Forest (runs : BTreeMap RunId ActiveRun) : Prop :=
  ∀ (id : RunId) (run : ActiveRun), runs[id]? = some run → Chained runs id run.root

/-- An active run under a parent. -/
def ChildOf (runs : BTreeMap RunId ActiveRun) (x y : RunId) : Prop :=
  ∃ run : ActiveRun, runs[x]? = some run ∧ run.parent = some y

lemma forest_empty : Forest ∅ := by
  intro id run h
  simp at h

lemma Forest.insert {parent : Option RunId} {kind : RunKind} {startedAt : ℤ} {started : ℕ}
    (h : Forest runs) (hid : id ∉ runs) (hparent : ∀ p ∈ parent, p ∈ runs) :
    Forest (runs.insert id ⟨rootOf runs id parent, parent, kind, startedAt, started⟩) := by
  intro x run hrun
  have hself := @get_insert runs id ⟨rootOf runs id parent, parent, kind, startedAt, started⟩ id
  rw [if_pos rfl] at hself
  rw [get_insert] at hrun
  split_ifs at hrun with hx
  · subst hx
    cases hrun
    rcases hp : parent with _ | p
    · exact .top (hp ▸ hself) rfl
    · obtain ⟨r, hr⟩ := mem_iff_get.mp (hparent p hp)
      have hroot : rootOf runs id (some p) = r.root := by simp [rootOf, hr]
      rw [hp] at hself
      refine .link hself rfl ?_
      change Chained _ p (rootOf runs id (some p))
      rw [hroot]
      exact (h p r hr).insert hid
  · exact (h x run hrun).insert hid

lemma Forest.erase (h : Forest runs) (hno : hasChildren runs id = false) :
    Forest (runs.erase id) := by
  intro x run hrun
  rw [get_erase] at hrun
  split_ifs at hrun with hx
  exact (h x run hrun).erase hno (Ne.symm hx)

lemma chained_unique {root' : RunId} (h : Chained runs x root) (h' : Chained runs x root') :
    root = root' := by
  induction h with
  | top h hparent =>
    cases h' with
    | top => rfl
    | link h' hparent' =>
      rw [h] at h'
      cases h'
      rw [hparent] at hparent'
      cases hparent'
  | link h hparent _ ih =>
    cases h' with
    | top h' hparent' =>
      rw [h] at h'
      cases h'
      rw [hparent] at hparent'
      cases hparent'
    | link h' hparent' hchain =>
      rw [h] at h'
      cases h'
      rw [hparent] at hparent'
      cases hparent'
      exact ih hchain

/-- A run is so many parents below its root. -/
inductive Deep (runs : BTreeMap RunId ActiveRun) : RunId → ℕ → Prop
  | top {id : RunId} {run : ActiveRun} (h : runs[id]? = some run) (hparent : run.parent = none) :
    Deep runs id 0
  | link {id parent : RunId} {run : ActiveRun} {n : ℕ} (h : runs[id]? = some run)
    (hparent : run.parent = some parent) (hdeep : Deep runs parent n) : Deep runs id (n + 1)

lemma Deep.unique {m n : ℕ} (h : Deep runs x m) (h' : Deep runs x n) : m = n := by
  induction h generalizing n with
  | top h hparent =>
    cases h' with
    | top => rfl
    | link h' hparent' =>
      rw [h] at h'
      cases h'
      rw [hparent] at hparent'
      cases hparent'
  | link h hparent _ ih =>
    cases h' with
    | top h' hparent' =>
      rw [h] at h'
      cases h'
      rw [hparent] at hparent'
      cases hparent'
    | link h' hparent' hdeep =>
      rw [h] at h'
      cases h'
      rw [hparent] at hparent'
      cases hparent'
      rw [ih hdeep]

lemma exists_deep (h : Chained runs x root) : ∃ n, Deep runs x n := by
  induction h with
  | top h hparent => exact ⟨0, .top h hparent⟩
  | link h hparent _ ih =>
    obtain ⟨n, hn⟩ := ih
    exact ⟨n + 1, .link h hparent hn⟩

/-- **Forests** have no cycles: parents are less deep than their children. -/
lemma Forest.exists_depth (h : Forest runs) :
    ∃ depth : RunId → ℕ, ∀ x y, ChildOf runs x y → depth y < depth x := by
  classical
  refine ⟨fun x => if hx : ∃ n, Deep runs x n then hx.choose else 0, ?_⟩
  rintro x y ⟨run, hrun, hparent⟩
  obtain ⟨n, hn⟩ := exists_deep (h x run hrun)
  cases hn with
  | top h' hparent' =>
    rw [hrun] at h'
    cases h'
    rw [hparent] at hparent'
    cases hparent'
  | @link _ p r n h' hparent' hdeep =>
    have hx : ∃ n, Deep runs x n := ⟨n + 1, .link h' hparent' hdeep⟩
    rw [hrun] at h'
    cases h'
    rw [hparent] at hparent'
    cases hparent'
    have hy : ∃ n, Deep runs y n := ⟨n, hdeep⟩
    dsimp only
    rw [dif_pos hx, dif_pos hy, hy.choose_spec.unique hdeep,
      hx.choose_spec.unique (.link hrun hparent hdeep)]
    exact Nat.lt_succ_self n

/-- A child has the root of its parent. -/
lemma Forest.root_eq {r : ActiveRun} (h : Forest runs) (hx : runs[x]? = some run)
    (hparent : run.parent = some y) (hy : runs[y]? = some r) : run.root = r.root :=
  chained_unique (h x run hx) (.link hx hparent (h y r hy))

/-- A root has no parent. -/
lemma parent_root (h : Chained runs x root) :
    ∃ run : ActiveRun, runs[root]? = some run ∧ run.parent = none := by
  induction h with
  | @top id run h hparent => exact ⟨run, h, hparent⟩
  | link _ _ _ ih => exact ih

/-- **Progress**: while other runs of the tree are active, one of them has no active child. -/
lemma Forest.childless (h : Forest runs) (hx : runs[x]? = some run) (hroot : run.root = id)
    (hne : x ≠ id) : childlessRun runs id ≠ none := by
  obtain ⟨depth, hdepth⟩ := h.exists_depth
  let tree := ((runs.toList.filter fun p => p.1 ≠ id ∧ p.2.root = id).map Prod.fst).toFinset
  have hmem : ∀ y, y ∈ tree ↔ ∃ r : ActiveRun, runs[y]? = some r ∧ y ≠ id ∧ r.root = id := by
    intro y
    simp only [tree, List.mem_toFinset, List.mem_map, List.mem_filter, decide_eq_true_eq,
      Std.ExtTreeMap.mem_toList_iff_getElem?_eq_some, Prod.exists, exists_and_right,
      exists_eq_right]
  obtain ⟨y, hy, hdeepest⟩ := tree.exists_max_image depth ⟨x, (hmem x).mpr ⟨run, hx, hne, hroot⟩⟩
  obtain ⟨r, hr, hyne, hyroot⟩ := (hmem y).mp hy
  intro hnone
  rw [childlessRun, Option.map_eq_none_iff, List.find?_eq_none] at hnone
  have hchildren := hnone (y, r) (Std.ExtTreeMap.mem_toList_iff_getElem?_eq_some.mpr hr)
  have hsome : hasChildren runs y ≠ false := by
    simpa [hyne, hyroot] using hchildren
  rw [Ne, hasChildren_eq_false] at hsome
  push Not at hsome
  obtain ⟨child, s, hs, hparent⟩ := hsome
  -- the child is in the tree too, and deeper
  have hchild : child ∈ tree := by
    refine (hmem child).mpr ⟨s, hs, ?_, (h.root_eq hs hparent hr).trans hyroot⟩
    rintro rfl
    obtain ⟨top, htop, hnoparent⟩ := parent_root (h y r hr)
    rw [hyroot, hs] at htop
    cases htop
    rw [hparent] at hnoparent
    cases hnoparent
  exact absurd (hdepth child y ⟨s, hs, hparent⟩) (not_lt.mpr (hdeepest child hchild))

end forest

/-! ### Finishing runs -/

/-- These runs are finished one after the other, each without an active child. -/
inductive Closed : BTreeMap RunId ActiveRun → List RunId → BTreeMap RunId ActiveRun → Prop
  | nil {runs : BTreeMap RunId ActiveRun} : Closed runs [] runs
  | cons {runs runs' : BTreeMap RunId ActiveRun} {id : RunId} {ids : List RunId} (hmem : id ∈ runs)
      (hno : hasChildren runs id = false) (rest : Closed (runs.erase id) ids runs') :
      Closed runs (id :: ids) runs'

section closed
variable {runs runs' : BTreeMap RunId ActiveRun} {ids before after : List RunId} {id x y : RunId}

lemma Closed.get (h : Closed runs ids runs') :
    runs'[x]? = if x ∈ ids then none else runs[x]? := by
  induction h with
  | nil => simp
  | cons _ _ _ ih =>
    rw [ih, get_erase]
    grind

lemma Closed.mem (h : Closed runs ids runs') (hx : x ∈ ids) : x ∈ runs := by
  induction h with
  | nil => cases hx
  | cons hmem _ _ ih =>
    rcases List.mem_cons.mp hx with rfl | hx
    · exact hmem
    · exact Std.ExtTreeMap.mem_of_mem_erase (ih hx)

lemma Closed.nodup (h : Closed runs ids runs') : ids.Nodup := by
  induction h with
  | nil => exact List.nodup_nil
  | cons _ _ rest ih =>
    refine List.nodup_cons.mpr ⟨fun hmem => ?_, ih⟩
    have := rest.mem hmem
    simp at this

lemma Closed.append {runs'' : BTreeMap RunId ActiveRun} {more : List RunId}
    (h : Closed runs ids runs') (h' : Closed runs' more runs'') :
    Closed runs (ids ++ more) runs'' := by
  induction h with
  | nil => exact h'
  | cons hmem hno _ ih => exact .cons hmem hno (ih h')

lemma Closed.forest (h : Closed runs ids runs') (hforest : Forest runs) : Forest runs' := by
  induction h with
  | nil => exact hforest
  | cons _ hno _ ih => exact ih (hforest.erase hno)

/-- A child is finished before its parent. -/
lemma Closed.child_before (h : Closed runs (before ++ y :: after) runs')
    (hchild : ChildOf runs x y) :
    x ∈ before := by
  induction before generalizing runs with
  | nil =>
    cases h with
    | cons _ hno _ =>
      obtain ⟨run, hrun, hparent⟩ := hchild
      exact absurd hparent (hasChildren_eq_false.mp hno x run hrun)
  | cons id before ih =>
    cases h with
    | cons _ _ rest =>
      by_cases hx : id = x
      · simp [hx]
      · obtain ⟨run, hrun, hparent⟩ := hchild
        refine List.mem_cons_of_mem _ (ih rest ⟨run, ?_, hparent⟩)
        rw [get_erase, if_neg hx]
        exact hrun

/-- **Order**: every descendant is finished before its ancestor. -/
lemma Closed.descendant_before (h : Closed runs (before ++ y :: after) runs')
    (hdescends : Relation.TransGen (ChildOf runs) x y) : x ∈ before := by
  induction hdescends using Relation.TransGen.head_induction_on with
  | single hchild => exact h.child_before hchild
  | head hchild _ ih =>
    obtain ⟨front, back, rfl⟩ := List.mem_iff_append.mp ih
    have hfront := @Closed.child_before runs runs' front (back ++ y :: after) _ _ (by simpa using h)
      hchild
    exact List.mem_append_left _ hfront

end closed

/-! ### The coordinator -/

section coordinator
variable {c c' c'' : OutputCoordinator} {ids more : List RunId} {id : RunId}

/-- These runs were finished: they left the registry, and each got one event, in this order. -/
structure Finished (c : OutputCoordinator) (ids : List RunId) (c' : OutputCoordinator) : Prop where
  closed : Closed c.runs ids c'.runs
  journaled : ∃ events : List JournalEvent, c'.journaled = c.journaled ++ events ∧
    events.map (·.runId) = ids ∧ ∀ e ∈ events, e.eventKind = .runFinished

lemma finished_nil (hruns : c'.runs = c.runs) (hjournaled : c'.journaled = c.journaled) :
    Finished c [] c' :=
  ⟨hruns ▸ .nil, [], by simp [hjournaled], rfl, by simp⟩

lemma Finished.append (h : Finished c ids c') (h' : Finished c' more c'') :
    Finished c (ids ++ more) c'' := by
  obtain ⟨hclosed, events, hevents, hids, hkind⟩ := h
  obtain ⟨hclosed', events', hevents', hids', hkind'⟩ := h'
  refine ⟨hclosed.append hclosed', events ++ events', ?_, ?_, fun e he => ?_⟩
  · rw [hevents', hevents, List.append_assoc]
  · rw [List.map_append, hids, hids']
  · exact (List.mem_append.mp he).elim (hkind e) (hkind' e)

lemma Refused.runs (h : Refused c c') : c'.runs = c.runs := by
  cases h <;> rfl

lemma Refused.journaled (h : Refused c c') : c'.journaled = c.journaled := by
  cases h with
  | stopped => rfl
  | exhausted => rfl
  | broken => simp [OutputCoordinator.journaled, accepted]

lemma journaled_published (events : List JournalEvent) : (published c events).journaled =
    c.journaled ++ stamps c.runs c.sequence events := by
  simp [OutputCoordinator.journaled, published, accepted]

lemma size_erase_lt (hmem : id ∈ c.runs) (hruns : c'.runs = c.runs.erase id) :
    c'.runs.size < c.runs.size := by
  have hpos : c.runs.size ≠ 0 := by
    intro hzero
    rw [Std.ExtTreeMap.eq_empty_iff_size_eq_zero.mpr hzero] at hmem
    exact Std.ExtTreeMap.not_mem_empty hmem
  rw [hruns, Std.ExtTreeMap.size_erase, if_pos (Std.ExtTreeMap.contains_iff_mem.mpr hmem)]
  omega

variable (process : Process)

/-- A run that is finished leaves the registry with its event, or nothing happens. -/
lemma finishRun_finished (id : RunId) (outcome : Outcome) (error : Option String) :
    Meets True c (finishRun process id outcome error)
      (fun _ c' => c'.runs = c.runs.erase id ∧ Finished c [id] c')
      fun _ c' => Finished c [] c' := by
  refine meets_bind (meets_get (meets_bind (meets_ensure (fun hno => ?_)
    fun _ => finished_nil rfl rfl)))
  rcases hrun : c.runs[id]? with _ | run
  · exact meets_fail (finished_nil rfl rfl)
  · refine meets_bind (meets_bind (meets_get (meets_bind (meets_modify (meets_pure ?_)))))
    generalize process.clock c.readings = reading
    obtain ⟨now, instant⟩ := reading
    refine meets_bind (meets_mono (publishBatch_spec _) ?_ fun e c' hr => ?_)
    swap
    · have hruns := Refused.runs hr
      have hjournaled := Refused.journaled hr
      exact finished_nil hruns hjournaled
    rintro u c' ⟨-, rfl, -⟩
    refine meets_modify ⟨rfl, .cons (mem_iff_get.mpr ⟨run, hrun⟩) hno .nil, _,
      journaled_published _, ?_, ?_⟩
    · simp [stamps, finishedEvent, JournalEvent.new, MeasurementEvent.new]
    · simp [stamps, finishedEvent, JournalEvent.new, MeasurementEvent.new]

/-- Another run of the session's tree. -/
def Below (runs : BTreeMap RunId ActiveRun) (id x : RunId) : Prop :=
  x ≠ id ∧ ∃ run : ActiveRun, runs[x]? = some run ∧ run.root = id

lemma below_of_childlessRun {child : RunId} (h : childlessRun c.runs id = some child) :
    Below c.runs id child := by
  obtain ⟨⟨x, run⟩, hfind, rfl⟩ := Option.map_eq_some_iff.mp h
  have hprop := List.find?_some hfind
  simp only [decide_eq_true_eq] at hprop
  exact ⟨hprop.1, run,
    Std.ExtTreeMap.mem_toList_iff_getElem?_eq_some.mp (List.mem_of_find?_eq_some hfind),
    hprop.2.1⟩

/-- **The loop** finishes other runs of the session's tree, all of them if nothing fails. -/
lemma finishChildren_finished (hforest : Forest c.runs) (id : RunId) (error : Option String)
    (rounds : ℕ) :
    Meets True c (finishChildren process id error rounds)
      (fun _ c' => ∃ ids, Finished c ids c' ∧ (∀ x ∈ ids, Below c.runs id x) ∧
        (c.runs.size ≤ rounds → ∀ x, ¬ Below c'.runs id x))
      fun _ c' => ∃ ids, Finished c ids c' ∧ ∀ x ∈ ids, Below c.runs id x := by
  induction rounds generalizing c with
  | zero =>
    refine meets_pure ⟨[], finished_nil rfl rfl, by simp, ?_⟩
    rintro hsize x ⟨-, run, hrun, -⟩
    rw [Std.ExtTreeMap.eq_empty_iff_size_eq_zero.mpr (Nat.le_zero.mp hsize)] at hrun
    simp at hrun
  | succ rounds ih =>
    refine meets_bind (meets_get ?_)
    rcases hchild : childlessRun c.runs id with _ | child
    · refine meets_pure ⟨[], finished_nil rfl rfl, by simp, ?_⟩
      rintro - x ⟨hne, run, hrun, hroot⟩
      exact hforest.childless hrun hroot hne hchild
    · have hbelow := below_of_childlessRun hchild
      refine meets_bind (meets_mono (finishRun_finished process child .error error) ?_
        fun e c' h => ⟨[], h, by simp⟩)
      rintro u c₁ ⟨hruns, hfinished⟩
      have hforest₁ := hfinished.closed.forest hforest
      have hkeep : ∀ x, Below c₁.runs id x → Below c.runs id x := by
        rintro x ⟨hne, run, hrun, hroot⟩
        refine ⟨hne, run, ?_, hroot⟩
        rw [hruns, get_erase] at hrun
        split_ifs at hrun
        exact hrun
      have hmore : ∀ {ids : List RunId} {c' : OutputCoordinator}, Finished c₁ ids c' →
          (∀ x ∈ ids, Below c₁.runs id x) →
          Finished c (child :: ids) c' ∧ ∀ x ∈ child :: ids, Below c.runs id x := by
        intro ids c' h hids
        refine ⟨hfinished.append h, fun x hx => ?_⟩
        rcases List.mem_cons.mp hx with rfl | hx
        · exact hbelow
        · exact hkeep x (hids x hx)
      refine meets_mono (ih hforest₁) ?_ ?_
      · rintro u c' ⟨ids, h, hids, hall⟩
        refine ⟨child :: ids, (hmore h hids).1, (hmore h hids).2, fun hsize => hall ?_⟩
        have := size_erase_lt (hfinished.closed.mem (by simp)) hruns
        omega
      · rintro e c' ⟨ids, h, hids⟩
        exact ⟨child :: ids, hmore h hids⟩

lemma finishChildren_succ (id : RunId) (error : Option String) (rounds : ℕ) (io : List Io) :
    finishChildren process id error (rounds + 1) (io, c) =
      match childlessRun c.runs id with
      | none => (.ok (), io, c)
      | some child => (finishRun process child .error error >>= fun _ =>
          finishChildren process id error rounds) (io, c) := by
  change (match childlessRun c.runs id with
    | none => pure ()
    | some child => finishRun process child .error error >>= fun _ =>
        finishChildren process id error rounds : Op Unit) (io, c) = _
  cases childlessRun c.runs id <;> rfl

/-- **Termination**: the loop ends by itself; as many rounds as there are runs are enough. -/
lemma finishChildren_rounds (id : RunId) (error : Option String) {m n : ℕ} (io : List Io)
    (hm : c.runs.size ≤ m) (hn : c.runs.size ≤ n) :
    finishChildren process id error m (io, c) = finishChildren process id error n (io, c) := by
  have hempty : ∀ {c : OutputCoordinator} (io : List Io) (k : ℕ), c.runs.size ≤ 0 →
      finishChildren process id error k (io, c) = (.ok (), io, c) := by
    intro c io k hsize
    have hnone : childlessRun c.runs id = none := by
      rw [Std.ExtTreeMap.eq_empty_iff_size_eq_zero.mpr (Nat.le_zero.mp hsize)]
      rfl
    cases k with
    | zero => rfl
    | succ k => rw [finishChildren_succ, hnone]
  induction m generalizing n c io with
  | zero => rw [hempty io n hm, hempty io 0 hm]
  | succ m ih =>
    cases n with
    | zero => rw [hempty io (m + 1) hn, hempty io 0 hn]
    | succ n =>
      rw [finishChildren_succ, finishChildren_succ]
      rcases childlessRun c.runs id with _ | child
      · rfl
      · have hspec := ends_iff.mp
          (@finishRun_finished c process child .error error io (.inr trivial))
        change Faulty.bind _ _ _ = Faulty.bind _ _ _
        unfold Faulty.bind
        rcases hrun : finishRun process child .error error (io, c) with ⟨e | u, io', c'⟩
        · rfl
        · rw [hrun] at hspec
          obtain ⟨-, hruns, hfinished⟩ := hspec.1 u rfl
          have hless : c'.runs.size < c.runs.size :=
            size_erase_lt (hfinished.closed.mem (by simp)) hruns
          exact ih io' (by omega) (by omega)

/-- Closing a session: the runs of its tree, and the session itself unless something fails. -/
lemma finishSession_finished (hforest : Forest c.runs) (id : RunId) (outcome : Outcome)
    (error : String) :
    Meets True c (finishSession process id outcome (some error))
      (fun _ c' => ∃ ids, Finished c (ids ++ [id]) c' ∧ (∀ x ∈ ids, Below c.runs id x) ∧
        ∀ x, Below c.runs id x → x ∈ ids)
      fun _ c' => ∃ ids, Finished c ids c' ∧ ∀ x ∈ ids, Below c.runs id x := by
  refine meets_bind (meets_get ?_)
  dsimp only
  rw [if_pos (by rfl)]
  refine meets_bind (meets_mono (finishChildren_finished process hforest id (some error) _) ?_
    fun _ _ h => h)
  rintro u c₁ ⟨ids, hfinished, hids, hall⟩
  refine meets_mono (finishRun_finished process id outcome (some error)) ?_ ?_
  · rintro u c' ⟨-, hlast⟩
    refine ⟨ids, hfinished.append hlast, hids, fun x hx => ?_⟩
    by_contra hnot
    obtain ⟨hne, run, hrun, hroot⟩ := hx
    refine hall le_rfl x ⟨hne, run, ?_, hroot⟩
    rw [hfinished.closed.get, if_neg hnot]
    exact hrun
  · rintro e c' hlast
    refine ⟨ids, ?_, hids⟩
    have h := hfinished.append hlast
    rwa [List.append_nil] at h

/-! ### Reachable registries -/

/-- The coordinators that calls reach, however their I/O calls end. -/
abbrev Reaches : OutputCoordinator → Prop :=
  Reachable (fun c (x : Call × List Io) => (x.1.run process (x.2, c)).2.2) (fun _ _ => True) {}

lemma publishBatch_forest (h : Forest c.runs) (events : List JournalEvent) :
    Meets True c (publishBatch events) (fun _ c' => Forest c'.runs) fun _ c' => Forest c'.runs := by
  refine meets_mono (publishBatch_spec events) ?_ fun e c' hr => ?_
  · rintro u c' ⟨-, rfl, -⟩
    exact h
  · rw [Refused.runs hr]
    exact h

lemma beginRun_forest (h : Forest c.runs) (id : RunId) {parent : Option RunId} (kind : RunKind)
    (command : Option String) (context : RunContext) (hparent : ∀ p ∈ parent, p ∈ c.runs) :
    Meets True c (beginRun process id parent kind command context) (fun _ c' => Forest c'.runs)
      fun _ c' => Forest c'.runs := by
  refine meets_bind (meets_get (meets_bind (meets_ensure (fun hid => ?_) fun _ => h)))
  refine meets_bind (meets_bind (meets_get (meets_bind (meets_modify (meets_pure ?_)))))
  generalize process.clock c.readings = reading
  obtain ⟨now, started⟩ := reading
  refine meets_bind (meets_mono (publishBatch_spec _) ?_ fun e c' hr => ?_)
  · rintro u c' ⟨-, rfl, -⟩
    exact meets_modify (h.insert hid hparent)
  · have hruns := Refused.runs hr
    rw [hruns]
    exact h

/-- **Every call** leaves a forest. -/
lemma call_forest (h : Forest c.runs) (call : Call) :
    Meets True c (call.run process) (fun _ c' => Forest c'.runs) fun _ c' => Forest c'.runs := by
  have hfinish : ∀ {c : OutputCoordinator}, Forest c.runs → ∀ id outcome error,
      Meets True c (finishRun process id outcome error) (fun _ c' => Forest c'.runs)
        fun _ c' => Forest c'.runs := fun h id outcome error =>
    meets_mono (finishRun_finished process id outcome error)
      (fun _ _ hf => hf.2.closed.forest h) fun _ _ hf => hf.closed.forest h
  cases call with
  | publishBatch events => exact publishBatch_forest h events
  | startSession id command =>
    refine meets_bind (meets_get (meets_bind (meets_ensure (fun _ => ?_) fun _ => h)))
    exact meets_bind (meets_modify
      (@beginRun_forest { c with sequence := 0 } process h id none _ _ _ (by simp)))
  | startRunWithContext id parent kind context =>
    refine meets_bind (meets_get (meets_bind (meets_ensure (fun hparent => ?_) fun _ => h)))
    exact beginRun_forest process h id _ _ _ (by rintro p ⟨⟩; exact hparent)
  | finishRun id outcome error => exact hfinish h id outcome error
  | finishSession id outcome error =>
    rcases error with _ | error
    · refine meets_bind (meets_get ?_)
      exact hfinish h id outcome none
    · refine meets_mono (finishSession_finished process h id outcome error) ?_ ?_
      · rintro u c' ⟨ids, hf, -⟩
        exact hf.closed.forest h
      · rintro e c' ⟨ids, hf, -⟩
        exact hf.closed.forest h
  | flush =>
    refine meets_bind (meets_nextIo (meets_pure h) fun _ k => ?_)
    exact meets_fail h

variable {process} in
lemma forest_of_reaches (h : Reaches process c) : Forest c.runs := by
  refine h.invariant (I := fun c => Forest c.runs) forest_empty ?_
  rintro c ⟨call, io⟩ - hforest -
  have hspec := ends_iff.mp (call_forest process hforest call io (.inr trivial))
  rcases hr : (call.run process (io, c)).1 with e | u
  · exact hspec.2 e hr
  · exact (hspec.1 u hr).2

end coordinator

/-! ### Closing a session -/

/-- **Closing a session** that failed ends, and what it finishes is closed under descendants, in an
order in which they come first: if nothing fails, all of the session's tree and the session last.
Exactly the finished runs leave the registry, each with one event. -/
theorem finishSession_closes {process : Process} {c : OutputCoordinator} (h : Reaches process c)
    (id : RunId) (outcome : Outcome) (error : String) (io : List Io) :
    let r := finishSession process id outcome (some error) (io, c)
    (∀ rounds, c.runs.size ≤ rounds → finishChildren process id (some error) rounds (io, c) =
        finishChildren process id (some error) c.runs.size (io, c)) ∧
      ∃ (ids : List RunId) (events : List JournalEvent),
        r.2.2.journaled = c.journaled ++ events ∧ events.map (·.runId) = ids ∧
        (∀ e ∈ events, e.eventKind = .runFinished) ∧ ids.Nodup ∧ (∀ x ∈ ids, x ∈ c.runs) ∧
        (∀ x : RunId, r.2.2.runs[x]? = if x ∈ ids then none else c.runs[x]?) ∧
        (∀ before y after x, ids = before ++ y :: after →
          Relation.TransGen (ChildOf c.runs) x y → x ∈ before) ∧
        (r.1 = .ok () → ids.getLast? = some id ∧
          (∀ (x : RunId) (run : ActiveRun), c.runs[x]? = some run → run.root = id → x ∈ ids) ∧
          ∀ (x : RunId) (run : ActiveRun), r.2.2.runs[x]? = some run → run.root ≠ id) := by
  intro r
  have hspec :=
    ends_iff.mp (finishSession_finished process (forest_of_reaches h) id outcome error io
    (.inr trivial))
  refine ⟨fun rounds hrounds => finishChildren_rounds process id (some error) io hrounds le_rfl, ?_⟩
  have hids : ∃ ids, Finished c ids r.2.2 ∧ (r.1 = .ok () → ids.getLast? = some id ∧
      ∀ (x : RunId) (run : ActiveRun), c.runs[x]? = some run → run.root = id → x ∈ ids) := by
    rcases hr : r.1 with e | u
    · obtain ⟨ids, hfinished, -⟩ := hspec.2 e hr
      exact ⟨ids, hfinished, fun hok => by cases hok⟩
    · obtain ⟨-, ids, hfinished, -, hall⟩ := hspec.1 u hr
      refine ⟨ids ++ [id], hfinished, fun _ => ⟨by simp, fun x run hrun hroot => ?_⟩⟩
      by_cases hx : x = id
      · simp [hx]
      · exact List.mem_append_left _ (hall x ⟨hx, run, hrun, hroot⟩)
  obtain ⟨ids, ⟨hclosed, events, hjournaled, hruns, hkind⟩, hok⟩ := hids
  refine ⟨ids, events, hjournaled, hruns, hkind, hclosed.nodup, fun x hx => hclosed.mem hx,
    fun x => hclosed.get, fun before y after x hsplit hdescends =>
      (hsplit ▸ hclosed).descendant_before hdescends, fun hr => ⟨(hok hr).1, (hok hr).2, ?_⟩⟩
  intro x run hrun hroot
  rw [hclosed.get] at hrun
  split_ifs at hrun with hx
  exact hx ((hok hr).2 x run hrun hroot)

def nestedCalls : List (Call × List Io) := [
  (.startSession 1 "run", []),
  (.startRunWithContext 2 1 .bandwidth {}, []),
  (.startRunWithContext 3 2 .pingRound {}, [])]

/-- A session with a run, and a run under it. -/
def nested : OutputCoordinator :=
  nestedCalls.foldl (fun c x => (x.1.run pingProcess (x.2, c)).2.2) {}

theorem nested_session_closed : ∃ ids : List RunId,
    (finishSession pingProcess 1 .error (some "fixture failure") ([], nested)).2.2.journaled.map
      (·.runId) = [1, 2, 3] ++ ids ∧ 3 ∈ ids ∧ 2 ∈ ids ∧ ids.getLast? = some 1 := by
  have hreaches : Reaches pingProcess nested :=
    Reachable.first.foldl (allowed_of_forall (fun _ _ _ => trivial) _)
  obtain ⟨-, ids, events, hjournaled, hids, -, -, -, -, -, hok⟩ :=
    finishSession_closes hreaches 1 .error "fixture failure" []
  obtain ⟨hlast, hrooted, -⟩ := hok (by decide +kernel)
  have hmem : ∀ x : RunId, nested.runs[x]?.map ActiveRun.root = some 1 → x ∈ ids := by
    intro x hx
    obtain ⟨run, hrun, hroot⟩ := Option.map_eq_some_iff.mp hx
    exact hrooted x run hrun hroot
  have hbefore : nested.journaled.map (·.runId) = [1, 2, 3] := by decide +kernel
  refine ⟨ids, ?_, hmem 3 (by decide +kernel), hmem 2 (by decide +kernel), hlast⟩
  rw [hjournaled, List.map_append, hbefore, hids]

end Netband.Closing

import Netband.Coordinator
import Netband.Runs

/-!
The stream of events that a coordinator journals: within a session they are numbered from one
on, runs start after their parents and finish before them, and the events of an active run carry
what the call that started it has declared.

The registry of active runs is what the stream says: a run is there from the line that starts it
until the line that finishes it.
-/

namespace Netband.Stream

open Netband.Time Netband.Model Netband.State Netband.Effects Netband.Runs
open Netband.Coordinator Faulty

/-! ### Lines -/

/-- A journaled event, and the call that published it. -/
structure Line where
  call : Call
  event : JournalEvent

/-- The run that a call starts, with its parent and its kind. -/
def startOf : Call → Option (RunId × Option RunId × RunKind)
  | .startSession id _ => some (id, none, .session)
  | .startRunWithContext id parent kind _ => some (id, some parent, kind)
  | _ => none

def finishing : Call → Bool
  | .finishRun .. => true
  | .finishSession .. => true
  | _ => false

def sessionId : Call → Option RunId
  | .startSession id _ => some id
  | _ => none

namespace Line

def Starts (l : Line) (id : RunId) : Prop := ∃ parent kind, startOf l.call = some (id, parent, kind)
def Finishes (l : Line) (id : RunId) : Prop := finishing l.call = true ∧ l.event.runId = id
def Opens (l : Line) : Prop := (sessionId l.call).isSome = true

end Line

/-- The session that was opened last. -/
def sessionOf (lines : List Line) : Option RunId :=
  (lines.filterMap fun l => sessionId l.call).getLast?

/-- The number of lines since the session was opened. -/
def position (lines : List Line) : ℕ :=
  lines.foldl (fun n l => if (sessionId l.call).isSome then 1 else n + 1) 0

/-- The run was started and has not finished. -/
def Active (lines : List Line) (id : RunId) : Prop :=
  (∃ s ∈ lines, s.Starts id) ∧ ∀ f ∈ lines, ¬ f.Finishes id

/-- How a line fits the lines before it. -/
structure Fits (before : List Line) (l : Line) : Prop where
  sequence : l.event.eventSequence = some (position (before ++ [l]))
  started : ∀ id parent kind, startOf l.call = some (id, parent, kind) →
    l.event.eventKind = .runStarted ∧ l.event.runId = id ∧ l.event.parentRunId = parent ∧
    l.event.runKind = kind ∧ some l.event.rootRunId = sessionOf (before ++ [l]) ∧
    ∀ p ∈ parent, Active before p
  finished : ∀ id, l.Finishes id → l.event.eventKind = .runFinished ∧ Active before id ∧
    ∀ s ∈ before, ∀ child kind, startOf s.call = some (child, some id, kind) →
      ∃ f ∈ before, f.Finishes child
  known : ∀ s ∈ before, ∀ parent kind, startOf s.call = some (l.event.runId, parent, kind) →
    (∀ f ∈ before, ¬ f.Finishes l.event.runId) → l.event.parentRunId = parent ∧
    l.event.runKind = kind ∧ some l.event.rootRunId = sessionOf before

section lines
variable {lines : List Line} {l : Line} {id : RunId}

lemma sessionOf_concat : sessionOf (lines ++ [l]) = (sessionId l.call).or (sessionOf lines) := by
  unfold sessionOf
  rw [List.filterMap_append, List.getLast?_append]
  cases h : sessionId l.call <;> simp [h]

lemma position_concat : position (lines ++ [l]) =
    if (sessionId l.call).isSome then 1 else position lines + 1 := by
  simp [position]

lemma Active.concat_of_not (h : Active lines id) (hl : ¬ l.Finishes id) :
    Active (lines ++ [l]) id := by
  refine ⟨?_, fun f hf => ?_⟩
  · obtain ⟨s, hs, hstarts⟩ := h.1
    exact ⟨s, List.mem_append_left _ hs, hstarts⟩
  · rcases List.mem_append.mp hf with hf | hf
    · exact h.2 f hf
    · rw [List.mem_singleton.mp hf]
      exact hl

end lines

/-! ### The registry -/

/-- The run's parents lead to its root. -/
inductive Chained (runs : BTreeMap RunId ActiveRun) : RunId → RunId → Prop
  | top {id : RunId} {run : ActiveRun} (h : runs[id]? = some run) (hparent : run.parent = none) :
    Chained runs id id
  | link {id parent root : RunId} {run : ActiveRun} (h : runs[id]? = some run)
    (hparent : run.parent = some parent) (hchain : Chained runs parent root) :
    Chained runs id root

/-- The registry holds the runs that are active according to the lines. -/
structure Registered (runs : BTreeMap RunId ActiveRun) (lines : List Line) : Prop where
  active : ∀ (id : RunId) (run : ActiveRun), runs[id]? = some run → Active lines id
  declared : ∀ (id : RunId) (run : ActiveRun), runs[id]? = some run → ∀ s ∈ lines,
    ∀ parent kind, startOf s.call = some (id, parent, kind) → run.parent = parent ∧ run.kind = kind
  held : ∀ (id : RunId), Active lines id → id ∈ runs
  chained : ∀ (id : RunId) (run : ActiveRun), runs[id]? = some run → Chained runs id run.root
  session : ∀ (id : RunId) (run : ActiveRun), runs[id]? = some run →
    sessionOf lines = some run.root
  finishes : ∀ f ∈ lines, ∀ id, f.Finishes id → ∃ s ∈ lines, s.Starts id

section registry
variable {runs : BTreeMap RunId ActiveRun} {lines : List Line} {l : Line} {id root : RunId}
  {run : ActiveRun}

lemma mem_iff_get : id ∈ runs ↔ ∃ run : ActiveRun, runs[id]? = some run := by
  rw [Std.ExtTreeMap.mem_iff_isSome_getElem?, Option.isSome_iff_exists]

lemma hasChildren_eq_false : hasChildren runs id = false ↔
    ∀ (child : RunId) (run : ActiveRun), runs[child]? = some run → run.parent ≠ some id := by
  unfold hasChildren
  rw [List.any_eq_false]
  constructor
  · intro h child run hrun
    have hnot := h (child, run) (Std.ExtTreeMap.mem_toList_iff_getElem?_eq_some.mpr hrun)
    simpa using hnot
  · rintro h ⟨child, run⟩ hmem
    simpa using h child run (Std.ExtTreeMap.mem_toList_iff_getElem?_eq_some.mp hmem)

lemma get_insert {id' : RunId} : (runs.insert id run)[id']? =
    if id = id' then some run else runs[id']? := by
  simp [Std.ExtTreeMap.getElem?_insert]

lemma get_erase {id' : RunId} : (runs.erase id)[id']? = if id = id' then none else runs[id']? := by
  simp [Std.ExtTreeMap.getElem?_erase]

/-- A new run changes no chain. -/
lemma Chained.insert {x : RunId} (h : Chained runs x root) (hid : id ∉ runs) :
    Chained (runs.insert id run) x root := by
  have hkeep : ∀ {y : RunId} {r : ActiveRun}, runs[y]? = some r →
      (runs.insert id run)[y]? = some r := by
    intro y r hy
    rw [get_insert, if_neg]
    · exact hy
    · rintro rfl
      exact hid (mem_iff_get.mpr ⟨r, hy⟩)
  induction h with
  | top h hparent => exact .top (hkeep h) hparent
  | link h hparent _ ih => exact .link (hkeep h) hparent ih

/-- A run without active children is on no chain but its own. -/
lemma Chained.erase {x : RunId} (h : Chained runs x root) (hno : hasChildren runs id = false)
    (hx : x ≠ id) : Chained (runs.erase id) x root := by
  have hkeep : ∀ {y : RunId} {r : ActiveRun}, y ≠ id → runs[y]? = some r →
      (runs.erase id)[y]? = some r := by
    intro y r hne hy
    rw [get_erase, if_neg (Ne.symm hne)]
    exact hy
  induction h with
  | top h hparent => exact .top (hkeep hx h) hparent
  | @link x parent root r h hparent _ ih =>
    refine .link (hkeep hx h) hparent (ih ?_)
    rintro rfl
    exact hasChildren_eq_false.mp hno x r h hparent

lemma registered_nil : Registered ∅ [] := by
  constructor <;> simp [Active]

lemma not_finishes_of_startOf (h : startOf l.call ≠ none) (x : RunId) : ¬ l.Finishes x := by
  rintro ⟨hf, -⟩
  cases hc : l.call <;> simp [hc, startOf, finishing] at h hf

lemma startOf_of_finishing (h : finishing l.call = true) : startOf l.call = none := by
  cases hc : l.call <;> simp [hc, startOf, finishing] at h ⊢

lemma sessionId_of_startOf {parent : Option RunId} {kind : RunKind}
    (h : startOf l.call = some (id, parent, kind)) :
    sessionId l.call = if parent = none then some id else none := by
  cases hc : l.call <;> simp [hc, startOf, sessionId] at h ⊢
  · rw [← h.2.1]
    simp [h.1]
  · rw [← h.2.1]
    simp

lemma sessionId_of_startOf_none (h : startOf l.call = none) : sessionId l.call = none := by
  cases hc : l.call <;> simp [hc, startOf, sessionId] at h ⊢

/-- An event that neither starts nor finishes a run. -/
lemma Registered.plain (h : Registered runs lines) (hstart : startOf l.call = none)
    (hfinish : finishing l.call = false) : Registered runs (lines ++ [l]) := by
  have hnot : ∀ id, ¬ l.Finishes id := by
    rintro id ⟨hf, -⟩
    rw [hfinish] at hf
    cases hf
  have hsession := sessionId_of_startOf_none hstart
  constructor
  · exact fun id run hrun => (h.active id run hrun).concat_of_not (hnot id)
  · intro id run hrun s hs parent kind hdeclared
    rcases List.mem_append.mp hs with hs | hs
    · exact h.declared id run hrun s hs parent kind hdeclared
    · rw [List.mem_singleton.mp hs, hstart] at hdeclared
      cases hdeclared
  · rintro id ⟨⟨s, hs, hstarts⟩, hunfinished⟩
    refine h.held id ⟨?_, fun f hf => hunfinished f (List.mem_append_left _ hf)⟩
    rcases List.mem_append.mp hs with hs | hs
    · exact ⟨s, hs, hstarts⟩
    · obtain ⟨parent, kind, hdeclared⟩ := hstarts
      rw [List.mem_singleton.mp hs, hstart] at hdeclared
      cases hdeclared
  · exact h.chained
  · intro id run hrun
    rw [sessionOf_concat, hsession, Option.none_or]
    exact h.session id run hrun
  · intro f hf id hfinishes
    rcases List.mem_append.mp hf with hf | hf
    · obtain ⟨s, hs, hstarts⟩ := h.finishes f hf id hfinishes
      exact ⟨s, List.mem_append_left _ hs, hstarts⟩
    · rw [List.mem_singleton.mp hf] at hfinishes
      exact absurd hfinishes (hnot id)

/-- A run that was never started before, under an active parent or as a session of its own. -/
lemma Registered.start {parent : Option RunId} {kind : RunKind} {startedAt : ℤ} {started : ℕ}
    (h : Registered runs lines) (hcall : startOf l.call = some (id, parent, kind))
    (hfresh : ∀ s ∈ lines, ¬ s.Starts id) (hparent : ∀ p ∈ parent, p ∈ runs)
    (hempty : parent = none → runs = ∅) :
    Registered (runs.insert id ⟨rootOf runs id parent, parent, kind, startedAt, started⟩)
      (lines ++ [l]) := by
  have hid : id ∉ runs := by
    intro hmem
    obtain ⟨run, hrun⟩ := mem_iff_get.mp hmem
    obtain ⟨s, hs, hstarts⟩ := (h.active id run hrun).1
    exact hfresh s hs hstarts
  have hnot := not_finishes_of_startOf (l := l) (by rw [hcall]; simp)
  have hother : ∀ {x : RunId} {p : Option RunId} {k : RunKind}, id ≠ x →
      startOf l.call ≠ some (x, p, k) := by
    intro x p k hne he
    rw [hcall] at he
    cases he
    exact hne rfl
  have hlink : ∀ p ∈ parent, ∃ r : ActiveRun, runs[p]? = some r ∧
      rootOf runs id parent = r.root := by
    intro p hp
    obtain ⟨r, hr⟩ := mem_iff_get.mp (hparent p hp)
    refine ⟨r, hr, ?_⟩
    rw [Option.mem_def.mp hp]
    simp [rootOf, hr]
  constructor
  · intro x run hrun
    rw [get_insert] at hrun
    split_ifs at hrun with hx
    · subst hx
      refine ⟨⟨l, by simp, parent, kind, hcall⟩, fun f hf => ?_⟩
      rcases List.mem_append.mp hf with hf | hf
      · intro hfinishes
        obtain ⟨s, hs, hstarts⟩ := h.finishes f hf _ hfinishes
        exact hfresh s hs hstarts
      · rw [List.mem_singleton.mp hf]
        exact hnot _
    · exact (h.active x run hrun).concat_of_not (hnot x)
  · intro x run hrun s hs p k hdeclared
    rw [get_insert] at hrun
    split_ifs at hrun with hx
    · subst hx
      cases hrun
      rcases List.mem_append.mp hs with hs | hs
      · exact absurd ⟨p, k, hdeclared⟩ (hfresh s hs)
      · rw [List.mem_singleton.mp hs, hcall] at hdeclared
        cases hdeclared
        exact ⟨rfl, rfl⟩
    · rcases List.mem_append.mp hs with hs | hs
      · exact h.declared x run hrun s hs p k hdeclared
      · rw [List.mem_singleton.mp hs] at hdeclared
        exact absurd hdeclared (hother hx)
  · rintro x ⟨⟨s, hs, p, k, hdeclared⟩, hunfinished⟩
    rw [Std.ExtTreeMap.mem_insert, compare_eq_iff_eq]
    by_cases hx : id = x
    · exact .inl hx
    · refine .inr (h.held x ⟨?_, fun f hf => hunfinished f (List.mem_append_left _ hf)⟩)
      rcases List.mem_append.mp hs with hs | hs
      · exact ⟨s, hs, p, k, hdeclared⟩
      · rw [List.mem_singleton.mp hs] at hdeclared
        exact absurd hdeclared (hother hx)
  · intro x run hrun
    have hself := @get_insert runs id
      ⟨rootOf runs id parent, parent, kind, startedAt, started⟩ id
    rw [if_pos rfl] at hself
    rw [get_insert] at hrun
    split_ifs at hrun with hx
    · subst hx
      cases hrun
      rcases hp : parent with _ | p
      · exact .top (hp ▸ hself) rfl
      · obtain ⟨r, hr, hrroot⟩ := hlink p hp
        rw [hp] at hself hrroot
        refine .link hself rfl ?_
        change Chained _ p (rootOf runs id (some p))
        rw [hrroot]
        exact (h.chained p r hr).insert hid
    · exact (h.chained x run hrun).insert hid
  · intro x run hrun
    rw [sessionOf_concat, sessionId_of_startOf hcall]
    rw [get_insert] at hrun
    rcases hp : parent with _ | p
    · rw [hempty hp] at hrun
      split_ifs at hrun with hx
      · cases hrun
        simp [hp, rootOf, hx]
      · simp at hrun
    · obtain ⟨r, hr, hrroot⟩ := hlink p hp
      simp only [reduceCtorEq, if_false, Option.none_or]
      split_ifs at hrun with hx
      · cases hrun
        rw [hrroot]
        exact h.session p r hr
      · exact h.session x run hrun
  · intro f hf x hfinishes
    rcases List.mem_append.mp hf with hf | hf
    · obtain ⟨s, hs, hstarts⟩ := h.finishes f hf x hfinishes
      exact ⟨s, List.mem_append_left _ hs, hstarts⟩
    · rw [List.mem_singleton.mp hf] at hfinishes
      exact absurd hfinishes (hnot x)

/-- A run that has no active children. -/
lemma Registered.finish (h : Registered runs lines) (hno : hasChildren runs id = false)
    (hmem : id ∈ runs) (hf : l.Finishes id) : Registered (runs.erase id) (lines ++ [l]) := by
  have hstart := startOf_of_finishing hf.1
  have hother : ∀ {x : RunId}, id ≠ x → ¬ l.Finishes x := fun hne hx => hne (hf.2.symm.trans hx.2)
  constructor
  · intro x run hrun
    rw [get_erase] at hrun
    split_ifs at hrun with hx
    exact (h.active x run hrun).concat_of_not (hother hx)
  · intro x run hrun s hs p k hdeclared
    rw [get_erase] at hrun
    split_ifs at hrun with hx
    rcases List.mem_append.mp hs with hs | hs
    · exact h.declared x run hrun s hs p k hdeclared
    · rw [List.mem_singleton.mp hs, hstart] at hdeclared
      cases hdeclared
  · rintro x ⟨⟨s, hs, p, k, hdeclared⟩, hunfinished⟩
    have hx : id ≠ x := by
      rintro rfl
      exact hunfinished l (by simp) hf
    rw [Std.ExtTreeMap.mem_erase, ne_eq, compare_eq_iff_eq]
    refine ⟨hx, h.held x ⟨?_, fun f hf => hunfinished f (List.mem_append_left _ hf)⟩⟩
    rcases List.mem_append.mp hs with hs | hs
    · exact ⟨s, hs, p, k, hdeclared⟩
    · rw [List.mem_singleton.mp hs, hstart] at hdeclared
      cases hdeclared
  · intro x run hrun
    rw [get_erase] at hrun
    split_ifs at hrun with hx
    exact (h.chained x run hrun).erase hno (Ne.symm hx)
  · intro x run hrun
    rw [get_erase] at hrun
    split_ifs at hrun with hx
    rw [sessionOf_concat, sessionId_of_startOf_none hstart, Option.none_or]
    exact h.session x run hrun
  · intro f hf' x hfinishes
    rcases List.mem_append.mp hf' with hf' | hf'
    · obtain ⟨s, hs, hstarts⟩ := h.finishes f hf' x hfinishes
      exact ⟨s, List.mem_append_left _ hs, hstarts⟩
    · rw [List.mem_singleton.mp hf'] at hfinishes
      obtain ⟨run, hrun⟩ := mem_iff_get.mp hmem
      obtain ⟨s, hs, hstarts⟩ := (h.active id run hrun).1
      exact ⟨s, List.mem_append_left _ hs, hf.2.symm.trans hfinishes.2 ▸ hstarts⟩

end registry

/-! ### Fitting lines -/

section fits
variable {runs : BTreeMap RunId ActiveRun} {lines : List Line} {l : Line} {id : RunId} {n : ℕ}
  {event : JournalEvent}

/-- The events of a batch, numbered after `n`. -/
def stamps (runs : BTreeMap RunId ActiveRun) : ℕ → List JournalEvent → List JournalEvent
  | _, [] => []
  | n, event :: rest => stamp runs (n + 1) event :: stamps runs (n + 1) rest

@[simp] lemma stamp_runId : (stamp runs n event).runId = event.runId := by
  unfold stamp
  dsimp only
  split <;> rfl

@[simp] lemma stamp_eventKind : (stamp runs n event).eventKind = event.eventKind := by
  unfold stamp
  dsimp only
  split <;> rfl

@[simp] lemma stamp_sequence : (stamp runs n event).eventSequence = some n := by
  unfold stamp
  dsimp only
  split <;> rfl

lemma stamp_of_mem {run : ActiveRun} (h : runs[event.runId]? = some run) :
    (stamp runs n event).parentRunId = run.parent ∧ (stamp runs n event).runKind = run.kind ∧
      (stamp runs n event).rootRunId = run.root := by
  simp [stamp, h]

lemma stamp_of_not_mem (h : event.runId ∉ runs) :
    stamp runs n event = { event with eventSequence := some n } := by
  have hnone : runs[event.runId]? = none := by
    simpa using h
  simp [stamp, hnone]

/-- An event of an active run carries what is known of the run. -/
lemma Registered.known (h : Registered runs lines) (hl : l.event = stamp runs n event) :
    ∀ s ∈ lines, ∀ parent kind, startOf s.call = some (l.event.runId, parent, kind) →
    (∀ f ∈ lines, ¬ f.Finishes l.event.runId) → l.event.parentRunId = parent ∧
    l.event.runKind = kind ∧ some l.event.rootRunId = sessionOf lines := by
  intro s hs parent kind hdeclared hunfinished
  obtain ⟨run, hrun⟩ := mem_iff_get.mp (h.held _ ⟨⟨s, hs, parent, kind, hdeclared⟩, hunfinished⟩)
  obtain ⟨hparent, hkind⟩ := h.declared _ run hrun s hs parent kind hdeclared
  rw [hl, stamp_runId] at hrun
  obtain ⟨hp, hk, hr⟩ := stamp_of_mem (n := n) hrun
  rw [hl, hp, hk, hr, hparent, hkind]
  exact ⟨rfl, rfl, (h.session _ run hrun).symm⟩

lemma Registered.fits_plain (h : Registered runs lines) (hstart : startOf l.call = none)
    (hfinish : finishing l.call = false) (hn : n = position lines)
    (hl : l.event = stamp runs (n + 1) event) : Fits lines l := by
  refine ⟨?_, fun id parent kind he => ?_, fun id he => ?_, h.known hl⟩
  · rw [hl, stamp_sequence, position_concat, sessionId_of_startOf_none hstart, hn]
    rfl
  · rw [hstart] at he
    cases he
  · rw [Line.Finishes, hfinish] at he
    cases he.1

/-- A batch that neither starts nor finishes a run. -/
lemma Registered.batch (h : Registered runs lines) (hfits : Throughout Fits lines)
    (hn : n = position lines) (call : Call) (hstart : startOf call = none)
    (hfinish : finishing call = false) (events : List JournalEvent) :
    Registered runs (lines ++ (stamps runs n events).map (Line.mk call)) ∧
      Throughout Fits (lines ++ (stamps runs n events).map (Line.mk call)) ∧
      n + events.length = position (lines ++ (stamps runs n events).map (Line.mk call)) := by
  induction events generalizing n lines with
  | nil => simpa [stamps] using ⟨h, hfits, hn⟩
  | cons event rest ih =>
    have hnext := ih (n := n + 1)
      (h.plain (l := ⟨call, stamp runs (n + 1) event⟩) hstart hfinish)
      (throughout_concat.mpr ⟨hfits, h.fits_plain hstart hfinish hn rfl⟩) (by
        rw [position_concat, sessionId_of_startOf_none hstart, hn]
        rfl)
    rw [List.append_assoc, Nat.add_right_comm] at hnext
    simpa [stamps, Nat.add_assoc] using hnext

lemma Registered.fits_start {parent : Option RunId} {kind : RunKind}
    (h : Registered runs lines) (hcall : startOf l.call = some (id, parent, kind))
    (hid : id ∉ runs) (hfresh : ∀ s ∈ lines, ¬ s.Starts id) (hparent : ∀ p ∈ parent, p ∈ runs)
    (hn : parent ≠ none → n = position lines) (hnone : parent = none → n = 0)
    (hl : l.event = stamp runs (n + 1) event) (hkind : event.eventKind = .runStarted)
    (hrun : event.runId = id) (hp : event.parentRunId = parent) (hk : event.runKind = kind)
    (hroot : event.rootRunId = rootOf runs id parent) : Fits lines l := by
  rw [stamp_of_not_mem (hrun ▸ hid)] at hl
  have hsession : some (rootOf runs id parent) = sessionOf (lines ++ [l]) := by
    rw [sessionOf_concat, sessionId_of_startOf hcall]
    rcases hpar : parent with _ | p
    · rfl
    · obtain ⟨r, hr⟩ := mem_iff_get.mp (hparent p hpar)
      simpa [rootOf, hr] using (h.session p r hr).symm
  refine ⟨?_, fun x p k he => ?_, fun x he => ?_, fun s hs p k he _ => ?_⟩
  · rw [hl, position_concat, sessionId_of_startOf hcall]
    by_cases hpar : parent = none
    · simp [hpar, hnone hpar]
    · simp [hpar, hn hpar]
  · rw [hcall] at he
    cases he
    rw [hl]
    refine ⟨hkind, hrun, hp, hk, hroot ▸ hsession, fun p hpar => ?_⟩
    obtain ⟨r, hr⟩ := mem_iff_get.mp (hparent p hpar)
    exact h.active p r hr
  · exact absurd he (not_finishes_of_startOf (by rw [hcall]; simp) x)
  · have hlid : l.event.runId = id := by rw [hl]; exact hrun
    exact absurd ⟨p, k, hlid ▸ he⟩ (hfresh s hs)

lemma Registered.fits_finish (h : Registered runs lines) (hno : hasChildren runs id = false)
    (hmem : id ∈ runs) (hf : l.Finishes id) (hn : n = position lines)
    (hl : l.event = stamp runs (n + 1) event) (hkind : event.eventKind = .runFinished) :
    Fits lines l := by
  have hstart := startOf_of_finishing hf.1
  refine ⟨?_, fun x p k he => ?_, fun x he => ?_, h.known hl⟩
  · rw [hl, stamp_sequence, position_concat, sessionId_of_startOf_none hstart, hn]
    rfl
  · rw [hstart] at he
    cases he
  · obtain rfl : id = x := hf.2.symm.trans he.2
    obtain ⟨run, hrun⟩ := mem_iff_get.mp hmem
    refine ⟨by rw [hl, stamp_eventKind, hkind], h.active id run hrun, ?_⟩
    intro s hs child kind hdeclared
    by_contra hunfinished
    push Not at hunfinished
    -- a child that has not finished is still in the registry
    obtain ⟨r, hr⟩ := mem_iff_get.mp (h.held child ⟨⟨s, hs, _, _, hdeclared⟩, hunfinished⟩)
    exact hasChildren_eq_false.mp hno child r hr (h.declared child r hr s hs _ _ hdeclared).1

end fits

/-! ### Publishing -/

section publish
variable {c c' : OutputCoordinator} {lines : List Line} {l : Line} {id : RunId} {n : ℕ}
  {events : List JournalEvent}

/-- The coordinator after a batch was accepted. -/
def published (c : OutputCoordinator) (events : List JournalEvent) : OutputCoordinator := { c with
  appends := c.appends ++ [(stamps c.runs c.sequence events, true)]
  offered := c.offered ++ stamps c.runs c.sequence events
  sequence := c.sequence + events.length }

/-- The coordinator after a batch was not accepted: the journal has failed before, the sequence
numbers are used up, or the journal fails now. -/
inductive Refused (c : OutputCoordinator) : OutputCoordinator → Prop
  | stopped (h : c.failed = true) : Refused c c
  | exhausted (h : c.failed = false) {n : ℕ} (hn : u64Max ≤ n) : Refused c { c with sequence := n }
  | broken (h : c.failed = false) (n : ℕ) (events : List JournalEvent) : Refused c { c with
      appends := c.appends ++ [(events, false)], sequence := n, failed := true }

lemma stampAll_spec (events : List JournalEvent) :
    Meets True c (stampAll events)
      (fun es c' => es = stamps c.runs c.sequence events ∧
        c' = { c with sequence := c.sequence + events.length } ∧
        (events ≠ [] → c.sequence < u64Max))
      fun _ c' => ∃ n, u64Max ≤ n ∧ c' = { c with sequence := n } := by
  induction events generalizing c with
  | nil => exact meets_pure ⟨rfl, rfl, fun h => absurd rfl h⟩
  | cons event rest ih =>
    refine meets_bind (meets_get (meets_bind (meets_ensure (fun hroom => ?_) fun hfull => ?_)))
    · refine meets_bind (meets_modify (meets_bind (meets_mono ih ?_ ?_)))
      · rintro es c' ⟨rfl, rfl, -⟩
        refine meets_pure ⟨rfl, ?_, fun _ => hroom⟩
        rw [List.length_cons, Nat.add_right_comm]
        rfl
      · rintro e c' ⟨n, hn, rfl⟩
        exact ⟨n, hn, rfl⟩
    · exact ⟨c.sequence, not_lt.mp hfull, rfl⟩

/-- **Publishing**: a batch is journaled and offered as a whole, or not at all. -/
theorem publishBatch_spec (events : List JournalEvent) :
    Meets True c (publishBatch events)
      (fun _ c' => c.failed = false ∧ c' = published c events ∧
        (events ≠ [] → c.sequence < u64Max))
      fun _ c' => Refused c c' := by
  refine meets_bind (meets_get (meets_bind (meets_ensure (fun hok => ?_) fun hfailed => ?_)))
  · refine meets_bind (meets_mono (stampAll_spec events) ?_ ?_)
    · rintro es c₁ ⟨rfl, rfl, hroom⟩
      refine meets_bind (meets_bind (meets_nextIo (meets_modify (meets_modify ?_)) fun _ k => ?_))
      · exact ⟨hok, rfl, hroom⟩
      · exact meets_bind (meets_modify (meets_fail (.broken hok _ _)))
    · rintro e c₁ ⟨n, hn, rfl⟩
      exact .exhausted hok hn
  · exact .stopped (by simpa using hfailed)

/-- The coordinator and the lines of its journal. -/
structure Tracked (c : OutputCoordinator) (lines : List Line) : Prop where
  journaled : c.journaled = lines.map Line.event
  offered : c.offered = c.journaled
  healthy : c.failed = false → ∀ p ∈ c.appends, p.2 = true
  stopped : ∀ before events after, c.appends = before ++ (events, false) :: after → after = []
  registered : Registered c.runs lines
  fits : Throughout Fits lines

/-- While the coordinator works and has numbers left, the last number is `n`. -/
def Numbered (c : OutputCoordinator) (n : ℕ) : Prop :=
  c.failed = true ∨ u64Max ≤ c.sequence ∨ c.sequence = n

lemma Refused.tracked (h : Refused c c') (ht : Tracked c lines) : Tracked c' lines := by
  cases h with
  | stopped => exact ht
  | exhausted => exact ⟨ht.journaled, ht.offered, ht.healthy, ht.stopped, ht.registered, ht.fits⟩
  | broken hok n events =>
    have hsame : accepted (c.appends ++ [(events, false)]) = accepted c.appends := by
      simp [accepted]
    refine ⟨hsame.trans ht.journaled, ht.offered.trans hsame.symm, fun h => (by cases h), ?_,
      ht.registered, ht.fits⟩
    intro before es after he
    have he : c.appends ++ [(events, false)] = before ++ (es, false) :: after := he
    rcases List.eq_nil_or_concat after with rfl | ⟨after', p, rfl⟩
    · rfl
    · rw [List.concat_eq_append, ← List.cons_append, ← List.append_assoc] at he
      obtain ⟨hinit, -⟩ := List.append_inj' he rfl
      have hmem : (es, false) ∈ c.appends := by simp [hinit]
      cases ht.healthy hok _ hmem

lemma Refused.numbered (h : Refused c c') : Numbered c' n := by
  cases h with
  | stopped h => exact .inl h
  | exhausted _ hn => exact .inr (.inl hn)
  | broken => exact .inl rfl

/-- What does not depend on the lines' calls, after a batch was accepted. -/
lemma Tracked.published (ht : Tracked c lines) (hok : c.failed = false) {new : List Line}
    (hnew : new.map Line.event = stamps c.runs c.sequence events) {runs : BTreeMap RunId ActiveRun}
    (hr : Registered runs (lines ++ new)) (hf : Throughout Fits (lines ++ new)) :
    Tracked { published c events with runs } (lines ++ new) := by
  have hacc : accepted (c.appends ++ [(stamps c.runs c.sequence events, true)]) =
      c.journaled ++ stamps c.runs c.sequence events := by
    simp [accepted, OutputCoordinator.journaled]
  refine ⟨?_, ?_, fun _ p hp => ?_, fun before es after he => ?_, hr, hf⟩
  · exact hacc.trans (by rw [ht.journaled, List.map_append, hnew])
  · exact (congrArg (· ++ _) ht.offered).trans hacc.symm
  · rcases List.mem_append.mp hp with hp | hp
    · exact ht.healthy hok p hp
    · rw [List.mem_singleton.mp hp]
  · have hmem : (es, false) ∈ c.appends ++ [(stamps c.runs c.sequence events, true)] := by
      have he : c.appends ++ [(stamps c.runs c.sequence events, true)] =
        before ++ (es, false) :: after := he
      simp [he]
    rcases List.mem_append.mp hmem with hmem | hmem
    · cases ht.healthy hok _ hmem
    · cases List.mem_singleton.mp hmem

/-- The lines after some more of a call, and the number of the last one. -/
def Extends (call : Call) (lines : List Line) (c : OutputCoordinator) : Prop :=
  ∃ new, (∀ l ∈ new, l.call = call) ∧ Tracked c (lines ++ new) ∧
    Numbered c (position (lines ++ new))

lemma Tracked.extends {call : Call} (h : Tracked c lines) (hn : Numbered c (position lines)) :
    Extends call lines c := by
  refine ⟨[], by simp, ?_⟩
  rw [List.append_nil]
  exact ⟨h, hn⟩

lemma Numbered.eq (h : Numbered c n) (hok : c.failed = false) (hroom : c.sequence < u64Max) :
    c.sequence = n := by
  rcases h with hf | hfull | heq
  · rw [hok] at hf
    cases hf
  · exact absurd hroom (not_lt.mpr hfull)
  · exact heq

lemma publishBatch_extends {call : Call} (ht : Tracked c lines)
    (hn : Numbered c (position lines)) (hstart : startOf call = none)
    (hfinish : finishing call = false) (events : List JournalEvent) :
    Meets True c (publishBatch events) (fun _ c' => Extends call lines c')
      fun _ c' => Extends call lines c' := by
  refine meets_mono (publishBatch_spec events) ?_ fun e c' hr => (hr.tracked ht).extends hr.numbered
  rintro u c' ⟨hok, rfl, hroom⟩
  rcases eq_or_ne events [] with rfl | hne
  · refine ⟨[], by simp, ?_⟩
    rw [List.append_nil]
    refine ⟨?_, hn⟩
    have hsame := @Tracked.published _ _ [] ht hok [] rfl _
      (by simpa using ht.registered) (by simpa using ht.fits)
    rwa [List.append_nil] at hsame
  · obtain ⟨hr, hf, hpos⟩ := ht.registered.batch ht.fits (hn.eq hok (hroom hne)) call hstart
      hfinish events
    have hnew : ((stamps c.runs c.sequence events).map (Line.mk call)).map Line.event =
        stamps c.runs c.sequence events := by
      rw [List.map_map]
      exact List.map_id _
    refine ⟨_, fun l hl => ?_, ht.published hok hnew hr hf, .inr (.inr hpos)⟩
    obtain ⟨e, -, rfl⟩ := List.mem_map.mp hl
    rfl

/-- A run begins: it is journaled and registered, or neither. -/
lemma beginRun_extends (process : Process) {call : Call} {parent : Option RunId} {kind : RunKind}
    (ht : Tracked c lines) (hcall : startOf call = some (id, parent, kind))
    (hfresh : ∀ s ∈ lines, ¬ s.Starts id) (hparent : ∀ p ∈ parent, p ∈ c.runs)
    (hempty : parent = none → c.runs = ∅)
    (hn : Numbered c (if parent = none then 0 else position lines))
    (hsame : id ∈ c.runs → Numbered c (position lines))
    (command : Option String) (context : RunContext) :
    Meets True c (beginRun process id parent kind command context)
      (fun _ c' => Extends call lines c') fun _ c' => Extends call lines c' := by
  refine meets_bind (meets_get (meets_bind (meets_ensure (fun hid => ?_) fun hid => ?_)))
  · refine meets_bind (meets_bind (meets_get (meets_bind (meets_modify (meets_pure ?_)))))
    generalize process.clock c.readings = reading
    obtain ⟨now, started⟩ := reading
    have ht' : Tracked { c with readings := c.readings + 1 } lines :=
      ⟨ht.journaled, ht.offered, ht.healthy, ht.stopped, ht.registered, ht.fits⟩
    refine meets_bind (meets_mono (publishBatch_spec _) ?_
      fun e c' hr => (hr.tracked ht').extends hr.numbered)
    rintro u c' ⟨hok, rfl, hroom⟩
    refine meets_modify ?_
    have hseq : c.sequence = if parent = none then 0 else position lines :=
      Numbered.eq hn hok (hroom (by simp))
    generalize hevent : startedEvent process id parent (rootOf c.runs id parent) kind command
      context now = event
    have hfit : Fits lines ⟨call, stamp c.runs (c.sequence + 1) event⟩ := by
      subst hevent
      exact ht.registered.fits_start hcall hid hfresh hparent (fun h => by simpa [h] using hseq)
        (fun h => by simpa [h] using hseq) rfl rfl rfl rfl rfl rfl
    have hreg := @Registered.start _ _ ⟨call, stamp c.runs (c.sequence + 1) event⟩ _ _ _ now started
      ht.registered hcall hfresh hparent hempty
    refine ⟨[⟨call, stamp c.runs (c.sequence + 1) event⟩], by simp, ?_, .inr (.inr ?_)⟩
    · exact @Tracked.published _ _ [event] ht' hok _ rfl _ hreg
        (throughout_concat.mpr ⟨ht.fits, hfit⟩)
    · change c.sequence + 1 = _
      rw [position_concat, hseq]
      rcases hp : parent with _ | p
      · simp [sessionId_of_startOf (l := ⟨call, stamp c.runs (c.sequence + 1) event⟩) hcall, hp]
      · simp [sessionId_of_startOf (l := ⟨call, stamp c.runs (c.sequence + 1) event⟩) hcall, hp]
  · exact ht.extends (hsame (not_not.mp hid))

/-- A run finishes: it is journaled and no longer registered, or neither. -/
lemma finishRun_extends (process : Process) {call : Call} (ht : Tracked c lines)
    (hn : Numbered c (position lines)) (hfinish : finishing call = true) (id : RunId)
    (outcome : Outcome) (error : Option String) :
    Meets True c (finishRun process id outcome error) (fun _ c' => Extends call lines c')
      fun _ c' => Extends call lines c' := by
  refine meets_bind (meets_get (meets_bind (meets_ensure (fun hno => ?_) fun _ => ht.extends hn)))
  rcases hrun : c.runs[id]? with _ | run
  · exact meets_fail (ht.extends hn)
  · refine meets_bind (meets_bind (meets_get (meets_bind (meets_modify (meets_pure ?_)))))
    generalize process.clock c.readings = reading
    obtain ⟨now, instant⟩ := reading
    have ht' : Tracked { c with readings := c.readings + 1 } lines :=
      ⟨ht.journaled, ht.offered, ht.healthy, ht.stopped, ht.registered, ht.fits⟩
    refine meets_bind (meets_mono (publishBatch_spec _) ?_
      fun e c' hr => (hr.tracked ht').extends hr.numbered)
    rintro u c' ⟨hok, rfl, hroom⟩
    refine meets_modify ?_
    have hseq : c.sequence = position lines := hn.eq hok (hroom (by simp))
    generalize hevent : finishedEvent id run outcome error now instant = event
    have hid : event.runId = id := by
      subst hevent
      rfl
    have hkind : event.eventKind = .runFinished := by
      subst hevent
      rfl
    have hmem : id ∈ c.runs := mem_iff_get.mpr ⟨run, hrun⟩
    have hfinishes : Line.Finishes ⟨call, stamp c.runs (c.sequence + 1) event⟩ id :=
      ⟨hfinish, stamp_runId.trans hid⟩
    have hfit := ht.registered.fits_finish hno hmem hfinishes hseq rfl hkind
    refine ⟨[⟨call, stamp c.runs (c.sequence + 1) event⟩], by simp, ?_, .inr (.inr ?_)⟩
    · exact @Tracked.published _ _ [event] ht' hok _ rfl _ (ht.registered.finish hno hmem hfinishes)
        (throughout_concat.mpr ⟨ht.fits, hfit⟩)
    · change c.sequence + 1 = _
      rw [position_concat, hseq, sessionId_of_startOf_none (startOf_of_finishing hfinish)]
      rfl

lemma Extends.trans {call : Call} {new : List Line} (h : Extends call (lines ++ new) c)
    (hnew : ∀ l ∈ new, l.call = call) : Extends call lines c := by
  obtain ⟨more, hmore, ht, hn⟩ := h
  rw [List.append_assoc] at ht hn
  exact ⟨new ++ more, fun l hl => (List.mem_append.mp hl).elim (hnew l) (hmore l), ht, hn⟩

lemma finishChildren_extends (process : Process) {call : Call} (ht : Tracked c lines)
    (hn : Numbered c (position lines)) (hfinish : finishing call = true) (id : RunId)
    (error : Option String) (rounds : ℕ) :
    Meets True c (finishChildren process id error rounds) (fun _ c' => Extends call lines c')
      fun _ c' => Extends call lines c' := by
  induction rounds generalizing c lines with
  | zero => exact meets_pure (ht.extends hn)
  | succ rounds ih =>
    refine meets_bind (meets_get ?_)
    rcases childlessRun c.runs id with _ | child
    · exact meets_pure (ht.extends hn)
    · refine meets_bind (meets_mono (finishRun_extends process ht hn hfinish child .error error)
        ?_ fun _ _ h => h)
      rintro u c₁ ⟨new, hnew, ht₁, hn₁⟩
      exact meets_mono (ih ht₁ hn₁) (fun _ _ h => h.trans hnew) fun _ _ h => h.trans hnew

/-- A call starts runs that were not started before. -/
def Fresh (lines : List Line) (call : Call) : Prop :=
  ∀ id parent kind, startOf call = some (id, parent, kind) → ∀ l ∈ lines, ¬ l.Starts id

/-- **A call** journals lines that fit, and keeps track of them. -/
theorem call_extends (process : Process) (ht : Tracked c lines) (hn : Numbered c (position lines))
    (call : Call) (hfresh : Fresh lines call) :
    Meets True c (call.run process) (fun _ c' => Extends call lines c')
      fun _ c' => Extends call lines c' := by
  cases call with
  | publishBatch events => exact publishBatch_extends ht hn rfl rfl events
  | startSession id command =>
    refine meets_bind (meets_get (meets_bind (meets_ensure (fun hempty => ?_)
      fun _ => ht.extends hn)))
    have hruns : c.runs = ∅ := Std.ExtTreeMap.isEmpty_iff.mp hempty
    have ht' : Tracked { c with sequence := 0 } lines :=
      ⟨ht.journaled, ht.offered, ht.healthy, ht.stopped, ht.registered, ht.fits⟩
    refine meets_bind (meets_modify (beginRun_extends process ht' rfl (hfresh id none .session rfl)
      (by simp) (fun _ => hruns) (.inr (.inr rfl)) (fun hmem => ?_) _ _))
    have hmem : id ∈ c.runs := hmem
    rw [hruns] at hmem
    exact absurd hmem Std.ExtTreeMap.not_mem_empty
  | startRunWithContext id parent kind context =>
    refine meets_bind (meets_get (meets_bind (meets_ensure (fun hparent => ?_)
      fun _ => ht.extends hn)))
    exact beginRun_extends process ht rfl (hfresh id (some parent) kind rfl)
      (fun p hp => by cases hp; exact hparent) (by simp) (by simpa using hn) (fun _ => hn) _ _
  | finishRun id outcome error => exact finishRun_extends process ht hn rfl id outcome error
  | finishSession id outcome error =>
    refine meets_bind (meets_get ?_)
    have hlast : ∀ {c₁ : OutputCoordinator}, Extends (.finishSession id outcome error) lines c₁ →
        Meets True c₁ (finishRun process id outcome error)
          (fun _ c' => Extends (.finishSession id outcome error) lines c')
          fun _ c' => Extends (.finishSession id outcome error) lines c' := by
      rintro c₁ ⟨new, hnew, ht₁, hn₁⟩
      exact meets_mono (finishRun_extends process ht₁ hn₁ rfl id outcome error)
        (fun _ _ h => h.trans hnew) fun _ _ h => h.trans hnew
    dsimp only
    split_ifs
    · exact meets_bind (meets_mono (finishChildren_extends process ht hn rfl id error _)
        (fun _ _ h => hlast h) fun _ _ h => h)
    · exact hlast (ht.extends hn)
  | flush =>
    refine meets_bind (meets_nextIo (meets_pure (ht.extends hn)) fun _ k => ?_)
    exact meets_fail (ht.extends hn)

end publish

/-! ### Runs -/

/-- A coordinator and the lines of its journal so far. -/
structure System where
  output : OutputCoordinator := {}
  lines : List Line := []

/-- The lines of a call are the events that it adds to the journal. -/
def System.step (process : Process) (w : System) (x : Call × List Io) : System :=
  let output := (x.1.run process (x.2, w.output)).2.2
  { output
    lines := w.lines ++
      (output.journaled.drop w.output.journaled.length).map (Line.mk x.1) }

/-- The systems that calls reach, however their I/O calls end. -/
abbrev Reaches (process : Process) : System → Prop :=
  Reachable (System.step process) (fun w x => Fresh w.lines x.1) {}

section reached
variable {process : Process} {w : System} {lines : List Line}

lemma lines_of_extends {call : Call} {c : OutputCoordinator} (h : Extends call lines c)
    {before : List JournalEvent} (hbefore : before = lines.map Line.event) :
    Tracked c (lines ++ (c.journaled.drop before.length).map (Line.mk call)) ∧
      Numbered c (position (lines ++ (c.journaled.drop before.length).map (Line.mk call))) := by
  obtain ⟨new, hnew, ht, hn⟩ := h
  have hlines : (c.journaled.drop before.length).map (Line.mk call) = new := by
    rw [ht.journaled, hbefore, List.map_append, List.drop_left, List.map_map]
    refine (List.map_congr_left fun l hl => ?_).trans (List.map_id new)
    rw [← hnew l hl]
    rfl
  rw [hlines]
  exact ⟨ht, hn⟩

lemma tracked_of_reaches (h : Reaches process w) :
    Tracked w.output w.lines ∧ Numbered w.output (position w.lines) := by
  refine h.invariant (I := fun w => Tracked w.output w.lines ∧
    Numbered w.output (position w.lines)) ⟨⟨rfl, rfl, by simp, by simp, registered_nil,
      throughout_nil⟩, .inr (.inr rfl)⟩ ?_
  rintro w ⟨call, io⟩ - ⟨ht, hn⟩ hfresh
  have hspec := ends_iff.mp (call_extends process ht hn call hfresh io (.inr trivial))
  have hextends : Extends call w.lines (call.run process (io, w.output)).2.2 := by
    rcases hr : (call.run process (io, w.output)).1 with e | u
    · exact hspec.2 e hr
    · exact (hspec.1 u hr).2
  exact lines_of_extends hextends ht.journaled

/-- The lines of a session have the numbers from one on. -/
lemma sequence_of_fits (h : Throughout Fits lines) {before rest after : List Line} {s : Line}
    (hlines : lines = before ++ s :: (rest ++ after)) (hopens : s.Opens)
    (hrest : ∀ l ∈ rest, ¬ l.Opens) :
    (s :: rest).map (fun l => l.event.eventSequence) =
      (List.range (rest.length + 1)).map fun i => some (i + 1) := by
  have hopens : (sessionId s.call).isSome = true := hopens
  induction rest using List.reverseRecOn generalizing after with
  | nil =>
    have hs := (h before s after (by simpa using hlines)).sequence
    rw [position_concat, if_pos hopens] at hs
    simp [hs]
  | append_singleton rest l ih =>
    have hlines' : lines = (before ++ s :: rest) ++ l :: after := by
      simp [hlines]
    have hl := (h _ l after hlines').sequence
    -- no line of the rest opens a session, so the position is that in the session
    have hpos : ∀ rest : List Line, (∀ l ∈ rest, ¬ l.Opens) →
        position (before ++ s :: rest) = rest.length + 1 := by
      intro rest hrest
      induction rest using List.reverseRecOn with
      | nil =>
        rw [position_concat, if_pos hopens]
        rfl
      | append_singleton rest x ihx =>
        have hx : ¬ (sessionId x.call).isSome = true := hrest x (by simp)
        rw [← List.cons_append, ← List.append_assoc, position_concat, if_neg hx,
          ihx fun l hl => hrest l (List.mem_append_left _ hl), List.length_append]
        rfl
    have hwhole := hpos (rest ++ [l]) hrest
    rw [← List.cons_append, ← List.append_assoc] at hwhole
    rw [hwhole] at hl
    rw [← List.cons_append, List.map_append, @ih (l :: after) (by simp [hlines])
      fun x hx => hrest x (List.mem_append_left _ hx), List.length_append, List.length_singleton,
      List.range_succ (n := rest.length + 1), List.map_append]
    simp [hl]

/-- What a journal's lines and a console's events look like. -/
structure WellFormed (c : OutputCoordinator) (lines : List Line) : Prop where
  /-- In a session the events are numbered from one on. -/
  numbered : ∀ before s rest after, lines = before ++ s :: (rest ++ after) → s.Opens →
    (∀ l ∈ rest, ¬ l.Opens) → (s :: rest).map (fun l => l.event.eventSequence) =
      (List.range (rest.length + 1)).map fun i => some (i + 1)
  /-- A run starts, as it was declared, after its parent and in the tree of the session. -/
  started : ∀ before s after id parent kind, lines = before ++ s :: after →
    startOf s.call = some (id, parent, kind) → s.event.eventKind = .runStarted ∧
    s.event.runId = id ∧ s.event.parentRunId = parent ∧ s.event.runKind = kind ∧
    some s.event.rootRunId = sessionOf (before ++ [s]) ∧ ∀ p ∈ parent, ∃ t ∈ before, t.Starts p
  /-- A run finishes once, and after its children. -/
  finished : ∀ before f after id, lines = before ++ f :: after → f.Finishes id →
    f.event.eventKind = .runFinished ∧ (∃ s ∈ before, s.Starts id) ∧
    (∀ g ∈ before ++ after, ¬ g.Finishes id) ∧ ∀ s ∈ lines, ∀ child kind,
      startOf s.call = some (child, some id, kind) → ∃ g ∈ before, g.Finishes child
  /-- An event of an active run carries what was declared of the run, and the session. -/
  known : ∀ before l after s parent kind, lines = before ++ l :: after → s ∈ before →
    startOf s.call = some (l.event.runId, parent, kind) →
    (∀ f ∈ before, ¬ f.Finishes l.event.runId) → l.event.parentRunId = parent ∧
    l.event.runKind = kind ∧ some l.event.rootRunId = sessionOf before
  /-- The console is offered what is journaled. -/
  offered : c.offered = lines.map Line.event
  journaled : c.journaled = lines.map Line.event
  /-- After an append that failed there is no other. -/
  stopped : ∀ before events after, c.appends = before ++ (events, false) :: after → after = []

/-- No run that has finished takes part in anything again. -/
lemma finished_once (h : Throughout Fits lines) {before after : List Line} {f g : Line}
    {id : RunId} (hlines : lines = before ++ f :: after) (hf : f.Finishes id) (hg : g ∈ after) :
    ¬ g.Finishes id ∧ ∀ child kind, startOf g.call ≠ some (child, some id, kind) := by
  obtain ⟨mid, rest, rfl⟩ := List.mem_iff_append.mp hg
  have hlines' : lines = (before ++ f :: mid) ++ g :: rest := by
    simp [hlines]
  have hfits := h _ g rest hlines'
  have hmem : f ∈ before ++ f :: mid := by simp
  refine ⟨fun hfin => (hfits.finished id hfin).2.1.2 f hmem hf, fun child kind hstart => ?_⟩
  obtain ⟨-, -, -, -, -, hparent⟩ := hfits.started child (some id) kind hstart
  exact (hparent id rfl).2 f hmem hf

lemma wellFormed_of_tracked {c : OutputCoordinator} (h : Tracked c lines) :
    WellFormed c lines where
  numbered before s rest after hlines hopens hrest :=
    sequence_of_fits h.fits hlines hopens hrest
  started before s after id parent kind hlines hstart := by
    obtain ⟨h1, h2, h3, h4, h5, hparent⟩ := (h.fits before s after hlines).started id parent kind
      hstart
    exact ⟨h1, h2, h3, h4, h5, fun p hp => (hparent p hp).1⟩
  finished before f after id hlines hf := by
    obtain ⟨hkind, hactive, hchildren⟩ := (h.fits before f after hlines).finished id hf
    refine ⟨hkind, hactive.1, fun g hg => ?_, fun s hs child kind hstart => ?_⟩
    · rcases List.mem_append.mp hg with hg | hg
      · exact hactive.2 g hg
      · exact (finished_once h.fits hlines hf hg).1
    · rw [hlines] at hs
      rcases List.mem_append.mp hs with hs | hs
      · exact hchildren s hs child kind hstart
      rcases List.mem_cons.mp hs with rfl | hs
      · rw [startOf_of_finishing hf.1] at hstart
        cases hstart
      · exact absurd hstart ((finished_once h.fits hlines hf hs).2 child kind)
  known before l after s parent kind hlines hs hstart hactive :=
    (h.fits before l after hlines).known s hs parent kind hstart hactive
  offered := h.offered.trans h.journaled
  journaled := h.journaled
  stopped := h.stopped

/-- **The run stream** is well formed in every run of a coordinator. -/
theorem wellFormed_of_reaches (h : Reaches process w) : WellFormed w.output w.lines :=
  wellFormed_of_tracked (tracked_of_reaches h).1

end reached

/-! ### A session with one round of pings -/

def pingProcess : Process := ⟨fun n => ((n : ℤ), n), 7⟩

def pingCalls : List Call := [
  .startSession 1 "run",
  .startRunWithContext 2 1 .pingRound {},
  .publishBatch [JournalEvent.new 2 .pingProbe .success 0,
    JournalEvent.new 2 .pingProbe .timeout 0],
  .finishRun 1 .success none,
  .finishRun 2 .success none,
  .finishSession 1 .success none]

def pingSystem : System :=
  (pingCalls.map fun call => (call, [])).foldl (System.step pingProcess) {}

/-- The session is not finished while its round is active. -/
theorem wellFormed_ping : pingSystem.lines.map (fun l => (l.event.eventSequence,
      l.event.eventKind, l.event.runId, l.event.rootRunId)) = [
    (some 1, .runStarted, 1, 1), (some 2, .runStarted, 2, 1), (some 3, .pingProbe, 2, 1),
    (some 4, .pingProbe, 2, 1), (some 5, .runFinished, 2, 1), (some 6, .runFinished, 1, 1)] ∧
    WellFormed pingSystem.output pingSystem.lines := by
  refine ⟨by decide +kernel, @wellFormed_of_reaches pingProcess _
    (Reachable.first.foldl ⟨?_, ?_, ?_, ?_, ?_, ?_, trivial⟩)⟩
  · rintro id parent kind - l hl
    cases hl
  · rintro id parent kind hstart l hl ⟨p, k, hcall⟩
    have hstarts : (System.step pingProcess {} (.startSession 1 "run", [])).lines.map
        (fun l => startOf l.call) = [some (1, none, .session)] := by decide +kernel
    have hmem := List.mem_map_of_mem (f := fun l : Line => startOf l.call) hl
    rw [hcall] at hmem
    cases hstart
    simp [hstarts] at hmem
  all_goals
    rintro id parent kind hstart
    cases hstart

end Netband.Stream

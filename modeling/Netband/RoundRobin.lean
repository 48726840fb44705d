import Mathlib

/-!
Deficit round robin over names.

Each name has been served so many times, and last in some turn. The next turn serves a name with
the fewest services, among these the one served longest ago, among these the first. While the
names are uneven the turns only fill up deficits; from then on the names are served in a fixed
cycle.
-/

namespace Netband.RoundRobin

structure Counter (ι : Type) where
  served : ι → ℕ
  lastTurn : ι → ℕ
  turn : ℕ

variable {ι : Type} [DecidableEq ι]

def Counter.record (c : Counter ι) (x : ι) : Counter ι where
  served := Function.update c.served x (c.served x + 1)
  lastTurn := Function.update c.lastTurn x (c.turn + 1)
  turn := c.turn + 1

variable (index : ι → ℕ) (names : List ι)

/-- Who was served longer ago, and at equal turns comes first. -/
def recency (c : Counter ι) (x : ι) : ℕ ×ₗ ℕ := toLex (c.lastTurn x, index x)

def rank (c : Counter ι) (x : ι) : ℕ ×ₗ (ℕ ×ₗ ℕ) := toLex (c.served x, recency index c x)

/-- A name of least rank. -/
def Picks (c : Counter ι) (x : ι) : Prop :=
  x ∈ names ∧ ∀ y ∈ names, rank index c x ≤ rank index c y

/-- Turns that serve these names, one after the other. -/
inductive Turns : Counter ι → List ι → Counter ι → Prop
  | nil {c : Counter ι} : Turns c [] c
  | cons {c c' : Counter ι} {x : ι} {xs : List ι} (first : Picks index names c x)
      (rest : Turns (c.record x) xs c') : Turns c (x :: xs) c'

/-- No turn is later than the current one. -/
def Recent (c : Counter ι) : Prop := ∀ x ∈ names, c.lastTurn x ≤ c.turn

/-- How far the names are below a number of services, in total. -/
def deficit (most : ℕ) (c : Counter ι) : ℕ := (names.map fun x => most - c.served x).sum

variable {index names} {c c' : Counter ι} {x y : ι} {xs : List ι} {most : ℕ}

@[simp] lemma served_record_self : (c.record x).served x = c.served x + 1 := by
  simp [Counter.record]

@[simp] lemma served_record_ne (h : y ≠ x) : (c.record x).served y = c.served y := by
  simp [Counter.record, h]

@[simp] lemma lastTurn_record_self : (c.record x).lastTurn x = c.turn + 1 := by
  simp [Counter.record]

@[simp] lemma lastTurn_record_ne (h : y ≠ x) : (c.record x).lastTurn y = c.lastTurn y := by
  simp [Counter.record, h]

lemma recent_record (h : Recent names c) : Recent names (c.record x) := by
  intro y hy
  have := h y hy
  by_cases hxy : y = x
  · rw [hxy, lastTurn_record_self]
    exact le_rfl
  · rw [lastTurn_record_ne hxy]
    exact Nat.le_succ_of_le this

omit [DecidableEq ι] in
lemma Picks.least (h : Picks index names c x) (hy : y ∈ names) : c.served x ≤ c.served y := by
  rcases Prod.Lex.le_iff.mp (h.2 y hy) with hlt | ⟨heq, -⟩
  · exact hlt.le
  · exact heq.le

/-! ### Filling up deficits -/

lemma deficit_record (hnodup : names.Nodup) (hx : x ∈ names) (hlt : c.served x < most) :
    deficit names most (c.record x) + 1 = deficit names most c := by
  unfold deficit
  induction names with
  | nil => cases hx
  | cons y names ih =>
    obtain ⟨hy, hnodup⟩ := List.nodup_cons.mp hnodup
    simp only [List.map_cons, List.sum_cons]
    rcases List.mem_cons.mp hx with rfl | hmem
    · have hrest : names.map (fun z => most - (c.record x).served z) =
          names.map fun z => most - c.served z :=
        List.map_congr_left fun z hz => by
          rw [served_record_ne (ne_of_mem_of_not_mem hz hy)]
      rw [hrest, served_record_self]
      omega
    · have hne : y ≠ x := fun h => hy (h ▸ hmem)
      have := ih hnodup hmem
      rw [served_record_ne hne]
      omega

omit [DecidableEq ι] in
lemma exists_lt_of_deficit (h : 0 < deficit names most c) : ∃ x ∈ names, c.served x < most := by
  by_contra hnot
  push Not at hnot
  have hzero : deficit names most c = 0 := by
    refine List.sum_eq_zero fun n hn => ?_
    obtain ⟨x, hx, rfl⟩ := List.mem_map.mp hn
    exact Nat.sub_eq_zero_of_le (hnot x hx)
  omega

omit [DecidableEq ι] in
lemma served_of_no_deficit (h : deficit names most c = 0) (hle : ∀ x ∈ names, c.served x ≤ most) :
    ∀ x ∈ names, c.served x = most := by
  intro x hx
  have hmem : most - c.served x ∈ names.map fun x => most - c.served x := List.mem_map_of_mem hx
  have hzero := List.sum_eq_zero_iff.mp h _ hmem
  have := hle x hx
  omega

/-- **Run**: each turn fills up one unit of the deficit and no name passes the most served. -/
theorem Turns.catches_up (h : Turns index names c xs c') (hnodup : names.Nodup)
    (hle : ∀ x ∈ names, c.served x ≤ most) (hshort : xs.length ≤ deficit names most c) :
    (∀ x ∈ names, c'.served x ≤ most) ∧
      deficit names most c' + xs.length = deficit names most c := by
  induction h with
  | nil => exact ⟨hle, rfl⟩
  | @cons c c' x xs first rest ih =>
    rw [List.length_cons] at hshort
    obtain ⟨y, hy, hlt⟩ := exists_lt_of_deficit (show 0 < deficit names most c by omega)
    have hless : c.served x < most := (first.least hy).trans_lt hlt
    have hdeficit := deficit_record hnodup first.1 hless
    have hbound : ∀ z ∈ names, (c.record x).served z ≤ most := by
      intro z hz
      by_cases hzx : z = x
      · rw [hzx, served_record_self]
        exact hless
      · rw [served_record_ne hzx]
        exact hle z hz
    obtain ⟨hle', hsum⟩ := ih hbound (by omega)
    refine ⟨hle', ?_⟩
    rw [List.length_cons]
    omega

/-! ### The cycle -/

/-- Some names wait for their service, the others have had it; both stand in the order of their
last service. -/
structure Queue (index : ι → ℕ) (names : List ι) (services : ℕ) (waiting done : List ι)
    (c : Counter ι) : Prop where
  perm : (waiting ++ done).Perm names
  low : ∀ x ∈ waiting, c.served x = services
  high : ∀ x ∈ done, c.served x = services + 1
  waits : waiting.Pairwise fun x y => recency index c x < recency index c y
  rests : done.Pairwise fun x y => recency index c x < recency index c y

variable {services : ℕ} {waiting done : List ι}

omit [DecidableEq ι] in
/-- When all have had it, all wait for the next one. -/
lemma Queue.flip (h : Queue index names services [] done c) :
    Queue index names (services + 1) done [] c where
  perm := by simpa using h.perm
  low := h.high
  high := by simp
  waits := h.rests
  rests := .nil

omit [DecidableEq ι] in
lemma Queue.served (h : Queue index names services waiting done c) (hx : x ∈ names) :
    c.served x = services ∨ c.served x = services + 1 := by
  rcases List.mem_append.mp (h.perm.mem_iff.mpr hx) with hmem | hmem
  · exact .inl (h.low x hmem)
  · exact .inr (h.high x hmem)

/-- The next turn serves the first in the queue. -/
lemma Queue.picks (h : Queue index names services (x :: waiting) done c)
    (hpick : Picks index names c y) : y = x := by
  have hx : x ∈ names := h.perm.mem_iff.mp (by simp)
  have hserved := h.low x List.mem_cons_self
  have hle := hpick.least hx
  rcases List.mem_append.mp (h.perm.mem_iff.mpr hpick.1) with hwait | hdone
  · rcases List.mem_cons.mp hwait with heq | hlater
    · exact heq
    · have hlt := (List.pairwise_cons.mp h.waits).1 y hlater
      have hrank : rank index c x < rank index c y :=
        Prod.Lex.lt_iff.mpr (.inr ⟨by simp [rank, hserved, h.low y hwait], hlt⟩)
      exact absurd (hpick.2 x hx) (not_le.mpr hrank)
  · have := h.high y hdone
    omega

lemma recency_record_ne (h : y ≠ x) : recency index (c.record x) y = recency index c y := by
  simp [recency, h]

/-- The name that was served is the most recent one. -/
lemma recency_record_lt (hrecent : Recent names c) (hy : y ∈ names) (h : y ≠ x) :
    recency index (c.record x) y < recency index (c.record x) x := by
  refine Prod.Lex.lt_iff.mpr (.inl ?_)
  have := hrecent y hy
  simp [recency, h]
  omega

/-- **Step**: the first in the queue is served and goes to its end. -/
lemma Queue.record (h : Queue index names services (x :: waiting) done c) (hnodup : names.Nodup)
    (hrecent : Recent names c) :
    Queue index names services waiting (done ++ [x]) (c.record x) := by
  have hdistinct : (x :: (waiting ++ done)).Nodup := h.perm.nodup_iff.mpr hnodup
  have hne : ∀ y ∈ waiting ++ done, y ≠ x :=
    fun y hy heq => (List.nodup_cons.mp hdistinct).1 (heq ▸ hy)
  have hwait : ∀ y ∈ waiting, y ≠ x := fun y hy => hne y (List.mem_append_left done hy)
  have hdone : ∀ y ∈ done, y ≠ x := fun y hy => hne y (List.mem_append_right waiting hy)
  refine ⟨?_, ?_, ?_, ?_, ?_⟩
  · refine List.Perm.trans ?_ h.perm
    rw [← List.append_assoc]
    exact List.perm_append_singleton x (waiting ++ done)
  · intro y hy
    rw [served_record_ne (hwait y hy)]
    exact h.low y (List.mem_cons_of_mem x hy)
  · intro y hy
    rcases List.mem_append.mp hy with hmem | hmem
    · rw [served_record_ne (hdone y hmem)]
      exact h.high y hmem
    · rw [List.mem_singleton.mp hmem, served_record_self, h.low x List.mem_cons_self]
  · refine (List.pairwise_cons.mp h.waits).2.imp_of_mem fun ha hb hlt => ?_
    rwa [recency_record_ne (hwait _ ha), recency_record_ne (hwait _ hb)]
  · refine List.pairwise_append.mpr ⟨?_, List.pairwise_singleton _ _, ?_⟩
    · refine h.rests.imp_of_mem fun ha hb hlt => ?_
      rwa [recency_record_ne (hdone _ ha), recency_record_ne (hdone _ hb)]
    · intro y hy z hz
      rw [List.mem_singleton.mp hz]
      have hmem : y ∈ names := h.perm.mem_iff.mp (by simp [hy])
      exact recency_record_lt hrecent hmem (hdone y hy)

/-- **Run**: as long as no name has had two turns, the names are served in the order of the queue,
and the queue goes on. -/
theorem Turns.follows (h : Turns index names c xs c') (hnodup : names.Nodup)
    (hrecent : Recent names c) (hqueue : Queue index names services waiting done c) :
    (xs.length ≤ names.length → xs = (waiting ++ done).take xs.length) ∧
      ∃ services' waiting' done', Queue index names services' waiting' done' c' := by
  induction h generalizing services waiting done with
  | nil => exact ⟨fun _ => by simp, services, waiting, done, hqueue⟩
  | @cons c c' x xs first rest ih =>
    -- an empty queue starts again
    obtain ⟨services, y, waiting, done, hcycle, hqueue⟩ : ∃ services' y waiting' done',
        waiting ++ done = y :: (waiting' ++ done') ∧
          Queue index names services' (y :: waiting') done' c := by
      cases waiting with
      | cons y waiting => exact ⟨services, y, waiting, done, rfl, hqueue⟩
      | nil =>
        cases done with
        | nil => exact absurd (hqueue.perm.mem_iff.mpr first.1) (by simp)
        | cons y done => exact ⟨services + 1, y, done, [], by simp, hqueue.flip⟩
    obtain rfl := hqueue.picks first
    obtain ⟨htake, hgoes⟩ := ih (recent_record hrecent) (hqueue.record hnodup hrecent)
    refine ⟨fun hlength => ?_, hgoes⟩
    have hsize : (waiting ++ done).length + 1 = names.length := by
      have := hqueue.perm.length_eq
      simpa using this
    rw [List.length_cons] at hlength
    have hxs := htake (by omega)
    rw [hcycle, List.length_cons, List.take_succ_cons]
    rw [← List.append_assoc, List.take_append_of_le_length (by omega)] at hxs
    rw [← hxs]

omit [DecidableEq ι] in
/-- Names that were all served as often form a queue. -/
lemma exists_queue (hnodup : names.Nodup)
    (hindex : ∀ x ∈ names, ∀ y ∈ names, index x = index y → x = y)
    (heven : ∀ x ∈ names, c.served x = services) :
    ∃ waiting, Queue index names services waiting [] c := by
  have hperm := List.perm_insertionSort (fun x y => recency index c x ≤ recency index c y) names
  refine ⟨names.insertionSort fun x y => recency index c x ≤ recency index c y, ?_, ?_, by simp, ?_,
    .nil⟩
  · simpa using hperm
  · exact fun x hx => heven x (hperm.mem_iff.mp hx)
  · have hsorted : (names.insertionSort fun x y => recency index c x ≤ recency index c y).Pairwise
        fun x y => recency index c x ≤ recency index c y := by
      have : Std.Total fun x y => recency index c x ≤ recency index c y := ⟨fun _ _ => le_total _ _⟩
      have : IsTrans ι fun x y => recency index c x ≤ recency index c y :=
        ⟨fun _ _ _ => le_trans⟩
      exact List.pairwise_insertionSort _ _
    have hdistinct := hperm.nodup_iff.mpr hnodup
    refine (hsorted.and hdistinct).imp_of_mem fun ha hb h => lt_of_le_of_ne h.1 fun heq => h.2 ?_
    refine hindex _ (hperm.mem_iff.mp ha) _ (hperm.mem_iff.mp hb) ?_
    exact congrArg (fun r => (ofLex r).2) heq

end Netband.RoundRobin

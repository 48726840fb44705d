import Netband.RoundRobin
import Netband.State

/-!
The selector that shares planned runs between interfaces.

Below the saturation of its counters the selector is deficit round robin over the names of the
interfaces, whatever triggered runs were recorded before.
-/

namespace Netband.Fairness

open Netband.Time Netband.State Netband.RoundRobin

structure FairnessState where
  attempts : ℕ := 0
  lastTurn : Option ℕ := none
  deriving DecidableEq

structure FairInterfaceSelector where
  order : List String
  state : BTreeMap String FairnessState
  turn : ℕ

namespace FairInterfaceSelector

def new (interfaces : List String) : FairInterfaceSelector where
  order := interfaces
  state := interfaces.foldl (fun state interface => state.insert interface ({} : FairnessState)) ∅
  turn := 0

variable (s : FairInterfaceSelector)

def key (p : String × ℕ) : ℕ ×ₗ (ℕ ×ₗ ℕ) :=
  let state := s.state[p.1]?.getD {}
  toLex (state.attempts, toLex (state.lastTurn.getD 0, p.2))

def select (eligible : Finset String) : Option String :=
  ((s.order.zipIdx.filter (·.1 ∈ eligible)).argmin s.key).map Prod.fst

def recordAttempt (interface : String) : FairInterfaceSelector :=
  match s.state[interface]? with
  | none => s
  | some state =>
    let turn := (s.turn + 1) % 2 ^ 64
    { s with
      turn
      state := s.state.insert interface
        { attempts := min (state.attempts + 1) u64Max, lastTurn := some turn } }

def attempts (interface : String) : ℕ := (s.state[interface]?.map (·.attempts)).getD 0

/-- Planned runs: each is recorded for the interface that was selected. -/
def planned (eligible : Finset String) :
    ℕ → FairInterfaceSelector → List String × FairInterfaceSelector
  | 0, s => ([], s)
  | n + 1, s =>
    match s.select eligible with
    | none => ([], s)
    | some interface =>
      let r := planned eligible n (s.recordAttempt interface)
      (interface :: r.1, r.2)

/-! ### The selector as a counter -/

/-- The counts of a selector. -/
def counter : Counter String where
  served := s.attempts
  lastTurn interface := (s.state[interface]?.bind (·.lastTurn)).getD 0
  turn := s.turn

/-- So many calls were recorded for these interfaces. -/
structure Recorded (interfaces : List String) (calls : ℕ) : Prop where
  order : s.order = interfaces
  known : ∀ interface, interface ∈ s.state ↔ interface ∈ interfaces
  turn : s.turn ≤ calls
  attempts : ∀ interface, s.attempts interface ≤ s.turn
  recent : ∀ interface, s.counter.lastTurn interface ≤ s.turn

variable {s} {interfaces : List String} {calls : ℕ} {interface : String}

lemma getElem?_new :
    (new interfaces).state[interface]? = if interface ∈ interfaces then some {} else none := by
  have hfold : ∀ state : BTreeMap String FairnessState,
      (interfaces.foldl (fun state interface => state.insert interface ({} : FairnessState))
        state)[interface]? = if interface ∈ interfaces then some {} else state[interface]? := by
    induction interfaces with
    | nil => simp
    | cons first interfaces ih =>
      intro state
      rw [List.foldl_cons, ih]
      by_cases hmem : interface ∈ interfaces
      · simp [hmem]
      · by_cases hfirst : first = interface
        · simp [hfirst]
        · simp [hmem, hfirst, Ne.symm hfirst, Std.ExtTreeMap.getElem?_insert]
  simpa [new] using hfold ∅

lemma recorded_new : (new interfaces).Recorded interfaces 0 where
  order := rfl
  known interface := by
    rw [← Std.ExtTreeMap.isSome_getElem?_iff_mem, getElem?_new]
    split <;> simp_all
  turn := le_rfl
  attempts interface := by
    rw [attempts, getElem?_new]
    split <;> simp
  recent interface := by
    change ((new interfaces).state[interface]?.bind (·.lastTurn)).getD 0 ≤ 0
    rw [getElem?_new]
    split <;> simp

/-- A call for an interface that is not known changes nothing. -/
lemma recordAttempt_unknown (h : s.Recorded interfaces calls) (hunknown : interface ∉ interfaces) :
    s.recordAttempt interface = s := by
  have hnone : s.state[interface]? = none :=
    Std.ExtTreeMap.getElem?_eq_none fun hmem => hunknown ((h.known interface).mp hmem)
  rw [recordAttempt, hnone]

/-- **Refinement**: below the saturation of the counters, a recorded attempt is a turn. -/
lemma counter_recordAttempt (h : s.Recorded interfaces calls) (hknown : interface ∈ interfaces)
    (hsat : calls < u64Max) : (s.recordAttempt interface).counter = s.counter.record interface := by
  obtain ⟨state, hstate⟩ : ∃ state, s.state[interface]? = some state :=
    Option.isSome_iff_exists.mp
      (Std.ExtTreeMap.isSome_getElem?_iff_mem.mpr ((h.known interface).mpr hknown))
  have hturn := h.turn
  have hattempts : state.attempts ≤ s.turn := by
    have := h.attempts interface
    simpa [attempts, hstate] using this
  have hmax : u64Max + 1 = 2 ^ 64 := by decide
  have hwrap : (s.turn + 1) % 2 ^ 64 = s.turn + 1 := Nat.mod_eq_of_lt (by omega)
  have hbound : min (state.attempts + 1) u64Max = state.attempts + 1 := min_eq_left (by omega)
  have hrecorded : s.recordAttempt interface = { s with
      turn := s.turn + 1
      state := s.state.insert interface
        { attempts := state.attempts + 1, lastTurn := some (s.turn + 1) } } := by
    simp only [recordAttempt, hstate, hwrap, hbound]
  rw [hrecorded]
  unfold counter Counter.record
  congr 1
  · funext y
    by_cases hy : y = interface
    · simp [attempts, hy, hstate]
    · simp [attempts, hy, Ne.symm hy, Std.ExtTreeMap.getElem?_insert]
  · funext y
    by_cases hy : y = interface
    · simp [hy]
    · simp [hy, Ne.symm hy, Std.ExtTreeMap.getElem?_insert]

lemma Recorded.recordAttempt (h : s.Recorded interfaces calls) (hsat : calls < u64Max) :
    (s.recordAttempt interface).Recorded interfaces (calls + 1) := by
  by_cases hknown : interface ∈ interfaces
  · have hcounter := counter_recordAttempt h hknown hsat
    have hserved : ∀ y, (s.recordAttempt interface).attempts y =
        (s.counter.record interface).served y := fun y => congrArg (fun c => c.served y) hcounter
    have hturn : (s.recordAttempt interface).turn = s.turn + 1 :=
      congrArg Counter.turn hcounter
    have hstate : s.state[interface]?.isSome :=
      Std.ExtTreeMap.isSome_getElem?_iff_mem.mpr ((h.known interface).mpr hknown)
    obtain ⟨state, hsome⟩ := Option.isSome_iff_exists.mp hstate
    refine ⟨?_, fun y => ?_, ?_, fun y => ?_, fun y => ?_⟩
    · simp only [FairInterfaceSelector.recordAttempt, hsome]
      exact h.order
    · simp only [FairInterfaceSelector.recordAttempt, hsome, Std.ExtTreeMap.mem_insert,
        Std.compare_eq_iff_eq, h.known y]
      constructor
      · rintro (rfl | hy)
        · exact hknown
        · exact hy
      · exact .inr
    · have := h.turn
      omega
    · rw [hserved, hturn]
      by_cases hy : y = interface
      · rw [hy, served_record_self]
        exact Nat.succ_le_succ (h.attempts interface)
      · rw [served_record_ne hy]
        exact Nat.le_succ_of_le (h.attempts y)
    · rw [hcounter, hturn]
      by_cases hy : y = interface
      · rw [hy, lastTurn_record_self]
        exact le_rfl
      · rw [lastTurn_record_ne hy]
        exact Nat.le_succ_of_le (h.recent y)
  · rw [recordAttempt_unknown h hknown]
    exact ⟨h.order, h.known, Nat.le_succ_of_le h.turn, h.attempts, h.recent⟩

/-- The selector after some recorded attempts. -/
lemma recorded_history {interfaces : List String} (history : List String)
    (hsat : history.length ≤ u64Max) :
    (history.foldl FairInterfaceSelector.recordAttempt (new interfaces)).Recorded interfaces
      history.length := by
  induction history using List.reverseRecOn with
  | nil => exact recorded_new
  | append_singleton history interface ih =>
    rw [List.length_append, List.length_singleton] at hsat ⊢
    rw [List.foldl_append]
    exact (ih (by omega)).recordAttempt (by omega)

/-! ### Planned runs are turns -/

/-- The place of an interface in the configuration. -/
def place (interfaces : List String) (interface : String) : ℕ := interfaces.idxOf interface

lemma key_eq_rank (interface : String) :
    s.key (interface, place interfaces interface) =
      rank (place interfaces) s.counter interface := by
  cases h : s.state[interface]? <;> simp [key, rank, recency, counter, attempts, h]

lemma mem_zipIdx_place (hnodup : interfaces.Nodup) {p : String × ℕ}
    (h : p ∈ interfaces.zipIdx) : p.1 ∈ interfaces ∧ p = (p.1, place interfaces p.1) := by
  have hget := List.mem_zipIdx_iff_getElem?.mp h
  obtain ⟨hlt, heq⟩ := List.getElem?_eq_some_iff.mp hget
  refine ⟨heq ▸ List.getElem_mem hlt, Prod.ext rfl ?_⟩
  rw [place, ← heq]
  exact (hnodup.idxOf_getElem p.2 hlt).symm

lemma zipIdx_place_mem {i : String} (h : i ∈ interfaces) :
    (i, place interfaces i) ∈ interfaces.zipIdx :=
  List.mem_zipIdx_iff_getElem?.mpr (List.getElem?_idxOf h)

/-- **Selection**: with every interface eligible, an interface of least rank is selected. -/
lemma picks_of_select {eligible : Finset String} (h : s.Recorded interfaces calls)
    (hnodup : interfaces.Nodup) (hall : ∀ i ∈ interfaces, i ∈ eligible)
    (hselect : s.select eligible = some interface) :
    Picks (place interfaces) interfaces s.counter interface := by
  obtain ⟨p, hp, rfl⟩ := Option.map_eq_some_iff.mp hselect
  rw [h.order, List.argmin_eq_some_iff] at hp
  obtain ⟨hmem, hleast, -⟩ := hp
  obtain ⟨hknown, hplace⟩ := mem_zipIdx_place hnodup (List.mem_filter.mp hmem).1
  refine ⟨hknown, fun i hi => ?_⟩
  have hle := hleast (i, place interfaces i)
    (List.mem_filter.mpr ⟨zipIdx_place_mem hi, decide_eq_true (hall i hi)⟩)
  rw [hplace] at hle
  rwa [key_eq_rank, key_eq_rank] at hle

lemma select_isSome {eligible : Finset String} (h : s.Recorded interfaces calls)
    (hne : interfaces ≠ []) (hall : ∀ i ∈ interfaces, i ∈ eligible) :
    ∃ interface, s.select eligible = some interface := by
  obtain ⟨first, hfirst⟩ := List.exists_mem_of_ne_nil interfaces hne
  have hmem : (first, place interfaces first) ∈
      s.order.zipIdx.filter fun p => decide (p.1 ∈ eligible) := by
    rw [h.order]
    exact List.mem_filter.mpr ⟨zipIdx_place_mem hfirst, decide_eq_true (hall first hfirst)⟩
  unfold select
  rcases hargmin : (s.order.zipIdx.filter fun p => decide (p.1 ∈ eligible)).argmin s.key with _ | p
  · rw [List.argmin_eq_none] at hargmin
    rw [hargmin] at hmem
    cases hmem
  · exact ⟨p.1, by rw [hargmin]; rfl⟩

/-- **Simulation**: planned runs are turns. -/
lemma turns_planned {eligible : Finset String} (h : s.Recorded interfaces calls)
    (hnodup : interfaces.Nodup) (hall : ∀ i ∈ interfaces, i ∈ eligible) (n : ℕ)
    (hsat : calls + n ≤ u64Max) :
    Turns (place interfaces) interfaces s.counter (planned eligible n s).1
        (planned eligible n s).2.counter ∧
      (planned eligible n s).2.Recorded interfaces (calls + n) ∧
      (interfaces ≠ [] → (planned eligible n s).1.length = n) := by
  induction n generalizing s calls with
  | zero => exact ⟨.nil, h, fun _ => rfl⟩
  | succ n ih =>
    unfold planned
    rcases hselect : s.select eligible with _ | interface
    · refine ⟨.nil, ⟨h.order, h.known, h.turn.trans (by omega), h.attempts, h.recent⟩, ?_⟩
      intro hne
      obtain ⟨interface, hsome⟩ := select_isSome h hne hall
      rw [hselect] at hsome
      cases hsome
    · have hpicks := picks_of_select h hnodup hall hselect
      have hcounter := counter_recordAttempt h hpicks.1 (by omega)
      obtain ⟨hturns, hrecorded, hlength⟩ := ih (h.recordAttempt (by omega)) (by omega)
      rw [hcounter] at hturns
      refine ⟨.cons hpicks hturns, ?_, fun hne => ?_⟩
      · rw [show calls + (n + 1) = calls + 1 + n by omega]
        exact hrecorded
      · exact congrArg Nat.succ (hlength hne)

lemma planned_add (eligible : Finset String) (m n : ℕ) (s : FairInterfaceSelector) :
    planned eligible (m + n) s =
      ((planned eligible m s).1 ++ (planned eligible n (planned eligible m s).2).1,
        (planned eligible n (planned eligible m s).2).2) := by
  induction m generalizing s with
  | zero => simp [planned]
  | succ m ih =>
    rw [Nat.succ_add]
    rcases hselect : s.select eligible with _ | interface
    · have hstopped : ∀ n, planned eligible n s = ([], s) := by
        intro n
        cases n with
        | zero => rfl
        | succ n => simp [planned, hselect]
      simp [hstopped]
    · simp [planned, hselect, ih]

/-! ### Fairness -/

/-- The most attempts of an interface. -/
def mostAttempts (s : FairInterfaceSelector) : ℕ := (s.order.map s.attempts).foldr max 0

/-- The sum of what the interfaces have less than the most attempts. -/
def totalDeficit (s : FairInterfaceSelector) : ℕ :=
  (s.order.map fun interface => s.mostAttempts - s.attempts interface).sum

lemma attempts_le_most (h : interface ∈ s.order) : s.attempts interface ≤ s.mostAttempts := by
  have hle : ∀ l : List ℕ, ∀ n ∈ l, n ≤ l.foldr max 0 := by
    intro l
    induction l with
    | nil => simp
    | cons m l ih =>
      intro n hn
      rcases List.mem_cons.mp hn with rfl | hn
      · exact le_max_left n _
      · exact (ih n hn).trans (le_max_right m _)
  exact hle _ _ (List.mem_map_of_mem h)

/-- While there are deficits, each planned run fills up one of them. -/
lemma catches_up {eligible : Finset String} (h : s.Recorded interfaces calls)
    (hnodup : interfaces.Nodup) (hall : ∀ i ∈ interfaces, i ∈ eligible) (hne : interfaces ≠ [])
    {k : ℕ} (hsat : calls + k ≤ u64Max) (hk : k ≤ s.totalDeficit) :
    (∀ i ∈ interfaces, (planned eligible k s).2.attempts i ≤ s.mostAttempts) ∧
      deficit interfaces s.mostAttempts (planned eligible k s).2.counter + k = s.totalDeficit := by
  obtain ⟨hturns, -, hlength⟩ := turns_planned h hnodup hall k hsat
  have htotal : deficit interfaces s.mostAttempts s.counter = s.totalDeficit := by
    rw [deficit, totalDeficit, h.order]
    rfl
  have hbound : ∀ i ∈ interfaces, s.counter.served i ≤ s.mostAttempts :=
    fun i hi => attempts_le_most (h.order ▸ hi)
  obtain ⟨hle, hsum⟩ := hturns.catches_up hnodup hbound (by rw [hlength hne, htotal]; exact hk)
  rw [hlength hne, htotal] at hsum
  exact ⟨hle, hsum⟩

/-- Once the deficits are filled up, the interfaces form a queue. -/
lemma queue_of_deficit {eligible : Finset String} (h : s.Recorded interfaces calls)
    (hnodup : interfaces.Nodup) (hall : ∀ i ∈ interfaces, i ∈ eligible) (hne : interfaces ≠ [])
    {k : ℕ} (hsat : calls + k ≤ u64Max) (hk : s.totalDeficit ≤ k) :
    ∃ services waiting done, Queue (place interfaces) interfaces services waiting done
      (planned eligible k s).2.counter := by
  obtain ⟨m, rfl⟩ := Nat.exists_eq_add_of_le hk
  obtain ⟨-, hrecorded, -⟩ := turns_planned h hnodup hall s.totalDeficit (by omega)
  obtain ⟨hle, hsum⟩ := catches_up h hnodup hall hne (by omega) le_rfl
  have heven := served_of_no_deficit
    (show deficit interfaces s.mostAttempts (planned eligible s.totalDeficit s).2.counter = 0
      by omega) hle
  have hplace : ∀ x ∈ interfaces, ∀ y ∈ interfaces,
      place interfaces x = place interfaces y → x = y := by
    intro x hx y hy hxy
    exact (List.idxOf_inj hx).mp hxy
  obtain ⟨waiting, hqueue⟩ := exists_queue hnodup hplace heven
  obtain ⟨hturns, -, -⟩ := turns_planned hrecorded hnodup hall m (by omega)
  rw [planned_add]
  exact (hturns.follows hnodup (fun x _ => hrecorded.recent x) hqueue).2

end FairInterfaceSelector

open FairInterfaceSelector

/-- **Deficit round robin**: after any recorded attempts, planned runs first fill up the deficits
without passing the most attempts, then stay within one of each other, and serve each interface
exactly once in any window as long as the list. -/
theorem deficit_round_robin {interfaces history : List String} {eligible : Finset String} {k : ℕ}
    (hnodup : interfaces.Nodup) (hall : ∀ i ∈ interfaces, i ∈ eligible)
    (hsat : history.length + k ≤ u64Max) :
    let s := history.foldl recordAttempt (new interfaces)
    let after := (planned eligible k s).2
    (k ≤ s.totalDeficit → ∀ i ∈ interfaces, after.attempts i ≤ s.mostAttempts) ∧
      (k < s.totalDeficit → ∃ i ∈ interfaces, after.attempts i < s.mostAttempts) ∧
      (k = s.totalDeficit → ∀ i ∈ interfaces, after.attempts i = s.mostAttempts) ∧
      (s.totalDeficit ≤ k →
        ∀ i ∈ interfaces, ∀ j ∈ interfaces, after.attempts i ≤ after.attempts j + 1) ∧
      (s.totalDeficit ≤ k → history.length + k + interfaces.length ≤ u64Max →
        (planned eligible interfaces.length after).1.Perm interfaces) := by
  intro s after
  have h : s.Recorded interfaces history.length := recorded_history history (by omega)
  rcases eq_or_ne interfaces [] with rfl | hne
  · have hzero : s.totalDeficit = 0 := by simp [totalDeficit, h.order]
    simp [hzero, planned]
  refine ⟨fun hk => (catches_up h hnodup hall hne hsat hk).1, fun hk => ?_, fun hk => ?_,
    fun hk i hi j hj => ?_, fun hk hsat' => ?_⟩
  · have hsum : deficit interfaces s.mostAttempts after.counter + k = s.totalDeficit :=
      (catches_up h hnodup hall hne hsat hk.le).2
    have hpos : 0 < deficit interfaces s.mostAttempts after.counter := by omega
    exact exists_lt_of_deficit hpos
  · obtain ⟨hle, hfilled⟩ := catches_up h hnodup hall hne hsat hk.le
    have hsum : deficit interfaces s.mostAttempts after.counter + k = s.totalDeficit := hfilled
    have hzero : deficit interfaces s.mostAttempts after.counter = 0 := by omega
    exact served_of_no_deficit hzero hle
  · obtain ⟨services, waiting, done, hqueue⟩ := queue_of_deficit h hnodup hall hne hsat hk
    have hi : after.attempts i = services ∨ after.attempts i = services + 1 := hqueue.served hi
    have hj : after.attempts j = services ∨ after.attempts j = services + 1 := hqueue.served hj
    omega
  · obtain ⟨services, waiting, done, hqueue⟩ := queue_of_deficit h hnodup hall hne hsat hk
    obtain ⟨-, hrecorded, -⟩ := turns_planned h hnodup hall k hsat
    obtain ⟨hturns, -, hlength⟩ := turns_planned hrecorded hnodup hall interfaces.length hsat'
    have hlength := hlength hne
    have hxs := (hturns.follows hnodup (fun x _ => hrecorded.recent x) hqueue).1 hlength.le
    have hall : (waiting ++ done).take (planned eligible interfaces.length after).1.length =
        waiting ++ done := by
      rw [hlength]
      exact List.take_of_length_le hqueue.perm.length_eq.le
    rw [hall] at hxs
    rw [hxs]
    exact hqueue.perm

/-- After two triggered runs of one interface the other two are planned twice each. -/
theorem triggered_runs_compensated :
    let s := ["a", "a"].foldl recordAttempt (new ["a", "b", "c"])
    s.totalDeficit = 4 ∧ ∀ i ∈ ["a", "b", "c"], (planned {"a", "b", "c"} 4 s).2.attempts i = 2 := by
  have hdeficit : (["a", "a"].foldl recordAttempt (new ["a", "b", "c"])).totalDeficit = 4 := by
    decide +kernel
  have hmost : (["a", "a"].foldl recordAttempt (new ["a", "b", "c"])).mostAttempts = 2 := by
    decide +kernel
  obtain ⟨-, -, heven, -⟩ := @deficit_round_robin ["a", "b", "c"] ["a", "a"] {"a", "b", "c"} 4
    (by decide) (by decide) (by decide)
  refine ⟨hdeficit, ?_⟩
  rw [← hmost]
  exact heven hdeficit.symm

end Netband.Fairness

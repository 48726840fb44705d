import Netband.Fairness
import Netband.Health
import Netband.Scheduler

/-!
The interface that a bandwidth opportunity is measured on.

An opportunity that names no interface goes to the first eligible interface, in the order of
fairness, that resolves. The interfaces before it are marked as failed; no other interface is
touched.
-/

namespace Netband.Selection

open Netband.Time Netband.Model Netband.State Netband.Health Netband.Fairness
open Netband.Scheduling

inductive InterfaceError
  | inspect (message : String)
  | missing (name : String)
  | down (name : String)
  | addressless (name : String)
  deriving DecidableEq

def InterfaceError.toString : InterfaceError → String
  | inspect message => "cannot inspect network interfaces: " ++ message
  | missing name => "network interface does not exist: " ++ name
  | down name => "network interface is not up: " ++ name
  | addressless name => "network interface has no usable source address: " ++ name

/-- What becomes of a name at this instant; the addresses are not looked at. -/
abbrev Resolver := String → Except InterfaceError Unit

structure MonitorStats where
  interfaceFailures : ℕ := 0
  deriving DecidableEq

/-! ### Interfaces -/

/-- An interface as the monitor sees it; instants of the monotonic clock are in nanoseconds. -/
structure InterfaceRuntime where
  name : String
  health : HealthWindow
  latestSuccess : Bool := false
  degraded : Bool := false
  available : Bool := true
  retryAt : Option ℕ := none
  backoffStep : ℕ := 0

namespace InterfaceRuntime

def new (name : String) (health : HealthConfig) : InterfaceRuntime :=
  { name, health := .new health }

variable (runtime : InterfaceRuntime) (now : ℕ)

def canResolve : Bool := runtime.retryAt.all (· ≤ now)

def markAvailable : InterfaceRuntime :=
  { runtime with available := true, retryAt := none, backoffStep := 0 }

/-- The delay of the next attempt, in nanoseconds. -/
def delay : ℕ := min (2 ^ min runtime.backoffStep 6) 60 * 1000000000

def markFailed : InterfaceRuntime :=
  { runtime with
    available := false
    latestSuccess := false
    retryAt := some (now + runtime.delay)
    backoffStep := min (min (runtime.backoffStep + 1) 255) 6 }

def eligible : Bool := runtime.available && !runtime.degraded && runtime.canResolve now

@[simp] lemma markAvailable_name : runtime.markAvailable.name = runtime.name := rfl
@[simp] lemma markFailed_name : (runtime.markFailed now).name = runtime.name := rfl

/-- The seconds of the delay double with each failure in a row, up to a minute. -/
lemma markFailed_eq : runtime.markFailed now =
    { runtime with
      available := false
      latestSuccess := false
      retryAt := some (now + min (2 ^ min runtime.backoffStep 6) 60 * 1000000000)
      backoffStep := min (runtime.backoffStep + 1) 6 } := by
  have hstep : min (min (runtime.backoffStep + 1) 255) 6 = min (runtime.backoffStep + 1) 6 := by
    omega
  rw [markFailed, delay, hstep]

end InterfaceRuntime

/-- Change the first interface of this name. -/
def update (interfaces : List InterfaceRuntime) (name : String)
    (f : InterfaceRuntime → InterfaceRuntime) : List InterfaceRuntime :=
  interfaces.modify (interfaces.findIdx (·.name = name)) f

/-! ### The selection -/

/-- The instant of the decisions, on the clock and on the monotonic clock. -/
structure Instant where
  utc : ℤ
  monotonic : ℕ

def interfaceEvent (runId : RunId) (interface : String) (outcome : Outcome)
    (errorKind : Option ErrorKind) (retryAt : Option ℤ) (action : SchedulerAction)
    (reason : SchedulerReason) (message : String) (now : ℤ) : MeasurementEvent :=
  { MeasurementEvent.new runId .scheduler outcome now with
    interface := if interface = "unassigned" then none else some interface
    errorKind := errorKind
    schedulerNotBeforeUtc := retryAt
    schedulerAction := some action
    schedulerReason := some reason
    message := some message }

/-- What the selection returns and what it leaves behind. -/
structure Selected where
  interface : Option String
  events : List MeasurementEvent
  interfaces : List InterfaceRuntime
  stats : MonitorStats

section selection
variable (runId : RunId) (resolver : Resolver) (now : Instant)

def missingEvent (requested : String) : MeasurementEvent :=
  interfaceEvent runId requested .error (some .io) none .bandwidthSuppressed
    .triggerInterfaceMissing "reason=trigger_interface_missing" now.utc

def backoffEvent (runtime : InterfaceRuntime) : MeasurementEvent :=
  interfaceEvent runId runtime.name .deferred none
    (runtime.retryAt.map fun deadline => now.utc + (deadline - now.monotonic : ℕ))
    .bandwidthSuppressed .triggerInterfaceBackoff "reason=trigger_interface_backoff" now.utc

def unavailableEvent (runtime : InterfaceRuntime) (error : InterfaceError) : MeasurementEvent :=
  interfaceEvent runId runtime.name .deferred (some .io) (some (now.utc + runtime.delay))
    .bandwidthSuppressed .triggerInterfaceUnavailable
    ("reason=trigger_interface_unavailable error=" ++ error.toString) now.utc

def skippedEvent (runtime : InterfaceRuntime) (error : InterfaceError) : MeasurementEvent :=
  interfaceEvent runId runtime.name .deferred (some .io) (some (now.utc + runtime.delay))
    .bandwidthInterfaceSkipped .interfaceUnavailable
    ("reason=unavailable error=" ++ error.toString) now.utc

def noHealthyEvent : MeasurementEvent :=
  interfaceEvent runId "unassigned" .suppressed none none .bandwidthSuppressed
    .noHealthyInterface "reason=no_healthy_interface" now.utc

/-- A requested interface is the only one that is tried. -/
def selectRequested (requested : String) (interfaces : List InterfaceRuntime)
    (stats : MonitorStats) : Selected :=
  match interfaces.find? (·.name = requested) with
  | none => ⟨none, [missingEvent runId now requested], interfaces, stats⟩
  | some runtime =>
    if !runtime.canResolve now.monotonic then
      ⟨none, [backoffEvent runId now runtime], interfaces, stats⟩
    else
      match resolver requested with
      | .ok _ => ⟨some requested, [], update interfaces requested .markAvailable, stats⟩
      | .error error =>
        ⟨none, [unavailableEvent runId now runtime error],
          update interfaces requested fun runtime => runtime.markFailed now.monotonic,
          { stats with interfaceFailures := stats.interfaceFailures + 1 }⟩

variable (fairness : FairInterfaceSelector)

lemma mem_of_select {fairness : FairInterfaceSelector} {eligible : Finset String}
    {selected : String} (h : fairness.select eligible = some selected) : selected ∈ eligible := by
  obtain ⟨p, hp, rfl⟩ := Option.map_eq_some_iff.mp h
  simpa using (List.mem_filter.mp (List.argmin_mem hp)).2

/-- Try the eligible interfaces; `none` where a selected name belongs to no interface. -/
def tryEligible (eligible : Finset String) (interfaces : List InterfaceRuntime)
    (stats : MonitorStats) (events : List MeasurementEvent) : Option Selected :=
  match _h : fairness.select eligible with
  | none => some ⟨none, events ++ [noHealthyEvent runId now], interfaces, stats⟩
  | some selected =>
    match interfaces.find? (·.name = selected) with
    | none => none
    | some runtime =>
      match resolver selected with
      | .ok _ => some ⟨some selected, events, update interfaces selected .markAvailable, stats⟩
      | .error error =>
        tryEligible (eligible.erase selected)
          (update interfaces selected fun runtime => runtime.markFailed now.monotonic)
          { stats with interfaceFailures := stats.interfaceFailures + 1 }
          (events ++ [skippedEvent runId now runtime error])
termination_by eligible.card
decreasing_by exact Finset.card_erase_lt_of_mem (mem_of_select ‹_›)

def eligibleNames (interfaces : List InterfaceRuntime) : Finset String :=
  ((interfaces.filter (·.eligible now.monotonic)).map (·.name)).toFinset

def selectBandwidthInterface (opportunity : BandwidthOpportunity)
    (interfaces : List InterfaceRuntime) (stats : MonitorStats) : Option Selected :=
  match opportunity.interface with
  | some requested => some (selectRequested runId resolver now requested interfaces stats)
  | none =>
    tryEligible runId resolver now fairness (eligibleNames now interfaces) interfaces stats []

end selection

/-! ### The order of fairness -/

open FairInterfaceSelector

variable {runId : RunId} {resolver : Resolver} {now : Instant} {fairness : FairInterfaceSelector}

/-- What the selector compares of an interface. -/
def turn (fairness : FairInterfaceSelector) (name : String) : ℕ ×ₗ (ℕ ×ₗ ℕ) :=
  fairness.key (name, place fairness.order name)

/-- In the order of fairness one interface is ahead of another. -/
def Ahead (fairness : FairInterfaceSelector) (i j : String) : Prop :=
  turn fairness i < turn fairness j

instance (i j : String) : Decidable (Ahead fairness i j) :=
  inferInstanceAs (Decidable (turn fairness i < turn fairness j))

lemma turn_inj {i j : String} (hi : i ∈ fairness.order)
    (h : turn fairness i = turn fairness j) : i = j := by
  have hplace : place fairness.order i = place fairness.order j := by
    simp only [turn, key, EmbeddingLike.apply_eq_iff_eq, Prod.mk.injEq] at h
    exact h.2.2
  exact (List.idxOf_inj hi).mp hplace

lemma select_empty : fairness.select ∅ = none := by
  simp [select]

/-- The eligible interface that is ahead of all others is selected. -/
lemma select_eq {eligible : Finset String} {x : String} (hnodup : fairness.order.Nodup)
    (horder : x ∈ fairness.order) (hx : x ∈ eligible)
    (hahead : ∀ y ∈ eligible, y ≠ x → Ahead fairness x y) : fairness.select eligible = some x := by
  have hmem : (x, place fairness.order x) ∈
      fairness.order.zipIdx.filter fun p => decide (p.1 ∈ eligible) :=
    List.mem_filter.mpr ⟨zipIdx_place_mem horder, decide_eq_true hx⟩
  rcases hargmin : (fairness.order.zipIdx.filter fun p => decide (p.1 ∈ eligible)).argmin
      fairness.key with _ | p
  · rw [List.argmin_eq_none] at hargmin
    rw [hargmin] at hmem
    cases hmem
  · obtain ⟨hp, hleast, -⟩ := List.argmin_eq_some_iff.mp hargmin
    have hle := hleast _ hmem
    obtain ⟨hzip, heligible⟩ := List.mem_filter.mp hp
    have hplace := (mem_zipIdx_place hnodup hzip).2
    have hself : p.1 = x := by
      by_contra hne
      have hlt := hahead p.1 (of_decide_eq_true heligible) hne
      rw [hplace] at hle
      exact absurd hle (not_le.mpr hlt)
    rw [select, hargmin, ← hself]
    rfl

/-! ### The loop -/

section loop
variable {interfaces ranked : List InterfaceRuntime} {stats : MonitorStats}
  {events : List MeasurementEvent} {eligible : Finset String}

lemma update_eq_map {name : String} {f : InterfaceRuntime → InterfaceRuntime}
    (hnodup : (interfaces.map (·.name)).Nodup) :
    update interfaces name f = interfaces.map fun i => if i.name = name then f i else i := by
  unfold update
  induction interfaces with
  | nil => rfl
  | cons i interfaces ih =>
    rw [List.map_cons, List.nodup_cons] at hnodup
    by_cases hi : i.name = name
    · have hothers : interfaces.map (fun j => if j.name = name then f j else j) = interfaces := by
        conv_rhs => rw [← List.map_id interfaces]
        refine List.map_congr_left fun j hj => if_neg fun hname => hnodup.1 ?_
        exact hi.trans hname.symm ▸ List.mem_map_of_mem hj
      simp [List.findIdx_cons, hi, hothers]
    · simp [List.findIdx_cons, hi, ih hnodup.2]

lemma find_of_mem {i : InterfaceRuntime} (hnodup : (interfaces.map (·.name)).Nodup)
    (hi : i ∈ interfaces) : interfaces.find? (·.name = i.name) = some i := by
  induction interfaces with
  | nil => cases hi
  | cons j interfaces ih =>
    rw [List.map_cons, List.nodup_cons] at hnodup
    rcases List.mem_cons.mp hi with rfl | hi
    · simp
    · have hne : j.name ≠ i.name := fun h => hnodup.1 (h ▸ List.mem_map_of_mem hi)
      rw [List.find?_cons_of_neg (by simpa using hne)]
      exact ih hnodup.2 hi

/-- An interface that fails to resolve, and the event that names it, the error and the instant of
its next attempt. -/
def Skips (runId : RunId) (resolver : Resolver) (now : Instant) (runtime : InterfaceRuntime)
    (event : MeasurementEvent) : Prop :=
  ∃ error, resolver runtime.name = .error error ∧ event = {
    eventKind := .scheduler
    runId := runId
    outcome := .deferred
    finishedAtUtc := some now.utc
    interface := if runtime.name = "unassigned" then none else some runtime.name
    errorKind := some .io
    schedulerNotBeforeUtc :=
      some (now.utc + (min (2 ^ min runtime.backoffStep 6) 60 * 1000000000 : ℕ))
    schedulerAction := some .bandwidthInterfaceSkipped
    schedulerReason := some .interfaceUnavailable
    message := some ("reason=unavailable error=" ++ error.toString) }

lemma skips_of_error {runtime : InterfaceRuntime} {error : InterfaceError}
    (h : resolver runtime.name = .error error) :
    Skips runId resolver now runtime (skippedEvent runId now runtime error) :=
  ⟨error, h, rfl⟩

/-- The last event where no interface was left. -/
def NoneHealthy (runId : RunId) (now : Instant) (event : MeasurementEvent) : Prop :=
  event = {
    eventKind := .scheduler
    runId := runId
    outcome := .suppressed
    finishedAtUtc := some now.utc
    schedulerAction := some .bandwidthSuppressed
    schedulerReason := some .noHealthyInterface
    message := some "reason=no_healthy_interface" }

/-- What the selection does to an interface. -/
def touch (now : Instant) (tried : List String) (selected : Option String)
    (runtime : InterfaceRuntime) : InterfaceRuntime :=
  if runtime.name ∈ tried then runtime.markFailed now.monotonic
  else if runtime.name ∈ selected then runtime.markAvailable else runtime

lemma tryEligible_none (h : fairness.select eligible = none) :
    tryEligible runId resolver now fairness eligible interfaces stats events =
      some ⟨none, events ++ [noHealthyEvent runId now], interfaces, stats⟩ := by
  unfold tryEligible
  split
  · rfl
  · rename_i hselected
    rw [h] at hselected
    cases hselected

lemma tryEligible_some {runtime : InterfaceRuntime}
    (h : fairness.select eligible = some runtime.name)
    (hfind : interfaces.find? (·.name = runtime.name) = some runtime) :
    tryEligible runId resolver now fairness eligible interfaces stats events =
      match resolver runtime.name with
      | .ok _ => some ⟨some runtime.name, events, update interfaces runtime.name .markAvailable,
          stats⟩
      | .error error => tryEligible runId resolver now fairness (eligible.erase runtime.name)
          (update interfaces runtime.name fun runtime => runtime.markFailed now.monotonic)
          { stats with interfaceFailures := stats.interfaceFailures + 1 }
          (events ++ [skippedEvent runId now runtime error]) := by
  conv_lhs => unfold tryEligible
  split
  · rename_i hselected
    rw [h] at hselected
    cases hselected
  · rename_i selected hselected
    rw [h] at hselected
    cases hselected
    rw [hfind]

/-- **The loop**: it walks along the eligible interfaces in the order of fairness, up to the
first that resolves. -/
lemma tryEligible_ranked (hnodup : (interfaces.map (·.name)).Nodup)
    (horder : fairness.order = interfaces.map (·.name)) (hmem : ∀ i ∈ ranked, i ∈ interfaces)
    (hranked : ranked.Pairwise fun i j => Ahead fairness i.name j.name)
    (heligible : ∀ name, name ∈ eligible ↔ ∃ i ∈ ranked, i.name = name) :
    ∃ tried rest skips, ranked = tried ++ rest ∧
      (∀ i ∈ rest.head?, resolver i.name = .ok ()) ∧
      List.Forall₂ (Skips runId resolver now) tried skips ∧
      tryEligible runId resolver now fairness eligible interfaces stats events = some {
        interface := rest.head?.map (·.name)
        events := events ++ skips ++ if rest = [] then [noHealthyEvent runId now] else []
        interfaces := interfaces.map (touch now (tried.map (·.name)) (rest.head?.map (·.name)))
        stats := ⟨stats.interfaceFailures + tried.length⟩ } := by
  induction ranked generalizing interfaces eligible stats events with
  | nil =>
    have hnone : eligible = ∅ := by
      ext name
      simp [heligible]
    refine ⟨[], [], [], rfl, by simp, .nil, ?_⟩
    rw [hnone, tryEligible_none select_empty]
    have hsame : touch now [] none = id := funext fun i => by simp [touch]
    simp [hsame]
  | cons i ranked ih =>
    obtain ⟨hahead, hranked⟩ := List.pairwise_cons.mp hranked
    have hi := hmem i (by simp)
    have hselect : fairness.select eligible = some i.name := by
      refine select_eq (horder ▸ hnodup) (horder ▸ List.mem_map_of_mem hi)
        ((heligible _).mpr ⟨i, by simp, rfl⟩) fun name hname hne => ?_
      obtain ⟨j, hj, rfl⟩ := (heligible _).mp hname
      rcases List.mem_cons.mp hj with rfl | hj
      · exact absurd rfl hne
      · exact hahead j hj
    have hne : ∀ j ∈ ranked, j.name ≠ i.name := fun j hj hname =>
      lt_irrefl _ (hname ▸ hahead j hj : turn fairness i.name < turn fairness i.name)
    rw [tryEligible_some hselect (find_of_mem hnodup hi), update_eq_map hnodup,
      update_eq_map hnodup]
    rcases hresolve : resolver i.name with error | ⟨⟩
    · dsimp only
      have hnames : (interfaces.map fun j => if j.name = i.name then j.markFailed now.monotonic
          else j).map (·.name) = interfaces.map (·.name) := by
        rw [List.map_map]
        refine List.map_congr_left fun j _ => ?_
        simp only [Function.comp_apply]
        split_ifs <;> rfl
      have herase : ∀ name, name ∈ eligible.erase i.name ↔ ∃ j ∈ ranked, j.name = name := by
        intro name
        rw [Finset.mem_erase, heligible]
        constructor
        · rintro ⟨hname, j, hj, rfl⟩
          rcases List.mem_cons.mp hj with rfl | hj
          · exact absurd rfl hname
          · exact ⟨j, hj, rfl⟩
        · rintro ⟨j, hj, rfl⟩
          exact ⟨hne j hj, j, by simp [hj], rfl⟩
      obtain ⟨tried, rest, skips, rfl, hrest, hskips, heq⟩ :=
        @ih _ { stats with interfaceFailures := stats.interfaceFailures + 1 }
          (events ++ [skippedEvent runId now i error]) (eligible.erase i.name)
          (hnames ▸ hnodup) (hnames ▸ horder)
          (fun j hj => List.mem_map.mpr ⟨j, hmem j (by simp [hj]), if_neg (hne j hj)⟩) hranked
          herase
      refine ⟨i :: tried, rest, _ :: skips, rfl, hrest, .cons (skips_of_error hresolve) hskips, ?_⟩
      rw [heq, List.map_map]
      have htouch : ∀ j, touch now (tried.map (·.name)) (rest.head?.map (·.name))
          (if j.name = i.name then j.markFailed now.monotonic else j) =
          touch now ((i :: tried).map (·.name)) (rest.head?.map (·.name)) j := by
        intro j
        by_cases hj : j.name = i.name
        · have hnot : i.name ∉ tried.map (·.name) := by
            rintro hname
            obtain ⟨k, hk, hk'⟩ := List.mem_map.mp hname
            exact hne k (by simp [hk]) hk'
          have hhead : i.name ∉ rest.head?.map (·.name) := by
            rintro hname
            obtain ⟨k, hk, hk'⟩ := Option.map_eq_some_iff.mp hname
            exact hne k (by simp [List.mem_of_mem_head? hk]) hk'
          rw [if_pos hj]
          simp only [touch, InterfaceRuntime.markFailed_name, hj, if_neg hnot, if_neg hhead,
            List.map_cons, List.mem_cons, true_or, if_true]
        · simp [touch, hj]
      simp only [Function.comp_def, htouch, List.append_assoc, List.length_cons,
        List.cons_append, List.nil_append, Nat.add_assoc, Nat.add_comm 1]
    · have htouch : ∀ j : InterfaceRuntime, (if j.name = i.name then j.markAvailable else j) =
          touch now [] (some i.name) j := by
        intro j
        simp [touch, eq_comm]
      refine ⟨[], i :: ranked, [], rfl, by simpa using hresolve, .nil, ?_⟩
      simp [htouch]

/-- The eligible interfaces in the order of fairness. -/
lemma exists_ranked (hnodup : (interfaces.map (·.name)).Nodup)
    (horder : fairness.order = interfaces.map (·.name)) :
    ∃ ranked : List InterfaceRuntime,
      ranked.Perm (interfaces.filter (·.eligible now.monotonic)) ∧
      ranked.Pairwise fun i j => Ahead fairness i.name j.name := by
  let before := Order.Preimage (fun i : InterfaceRuntime => turn fairness i.name) (· ≤ ·)
  have hperm := List.perm_insertionSort before (interfaces.filter (·.eligible now.monotonic))
  refine ⟨_, hperm, ?_⟩
  have hsorted := List.pairwise_insertionSort before
    (interfaces.filter (·.eligible now.monotonic))
  have hnames : ((interfaces.filter (·.eligible now.monotonic)).insertionSort before).Pairwise
      fun i j => i.name ≠ j.name := by
    have hfilter := (List.pairwise_map.mp hnodup).filter (·.eligible now.monotonic)
    exact (hperm.pairwise_iff fun h => Ne.symm h).mpr hfilter
  refine (hsorted.and hnames).imp_of_mem fun {i j} hi _ hij => ?_
  refine lt_of_le_of_ne hij.1 fun hturn => hij.2 (turn_inj ?_ hturn)
  rw [horder]
  exact List.mem_map_of_mem (List.mem_of_mem_filter (hperm.mem_iff.mp hi))

end loop

/-! ### The selected interface -/

/-- Available, not degraded, and past its retry deadline. -/
def Eligible (now : Instant) (runtime : InterfaceRuntime) : Prop :=
  runtime.available = true ∧ runtime.degraded = false ∧
    ∀ deadline ∈ runtime.retryAt, deadline ≤ now.monotonic

instance (runtime : InterfaceRuntime) : Decidable (Eligible now runtime) :=
  inferInstanceAs (Decidable (_ ∧ _ ∧ ∀ deadline ∈ runtime.retryAt, deadline ≤ now.monotonic))

lemma eligible_iff {runtime : InterfaceRuntime} :
    runtime.eligible now.monotonic = true ↔ Eligible now runtime := by
  have hretry : runtime.canResolve now.monotonic = true ↔
      ∀ deadline ∈ runtime.retryAt, deadline ≤ now.monotonic := by
    cases h : runtime.retryAt <;> simp [InterfaceRuntime.canResolve, h]
  simp only [InterfaceRuntime.eligible, Bool.and_eq_true, Bool.not_eq_true', hretry, Eligible,
    and_assoc]

/-- An interface that can be measured on now. -/
def Candidate (resolver : Resolver) (now : Instant) (runtime : InterfaceRuntime) : Prop :=
  Eligible now runtime ∧ resolver runtime.name = .ok ()

/-- An eligible interface ahead of the selected one; all are, if none was selected. -/
def Blamed (fairness : FairInterfaceSelector) (now : Instant) (selected : Option String)
    (runtime : InterfaceRuntime) : Prop :=
  Eligible now runtime ∧ ∀ x ∈ selected, Ahead fairness runtime.name x

instance (selected : Option String) (runtime : InterfaceRuntime) :
    Decidable (Blamed fairness now selected runtime) :=
  inferInstanceAs (Decidable (_ ∧ ∀ x ∈ selected, Ahead fairness runtime.name x))

/-- The name of the candidate that is ahead of all other candidates. -/
def First (fairness : FairInterfaceSelector) (resolver : Resolver) (now : Instant)
    (interfaces : List InterfaceRuntime) (x : String) : Prop :=
  ∃ i ∈ interfaces, i.name = x ∧ Candidate resolver now i ∧
    ∀ j ∈ interfaces, Candidate resolver now j → j.name ≠ x → Ahead fairness x j.name

section first
variable {interfaces tried rest : List InterfaceRuntime} {skips : List MeasurementEvent}
  {selected : InterfaceRuntime}

lemma not_candidate_of_skips (hskips : List.Forall₂ (Skips runId resolver now) tried skips)
    {i : InterfaceRuntime} (hi : i ∈ tried) : ¬ Candidate resolver now i := by
  rintro ⟨-, hok⟩
  induction hskips with
  | nil => cases hi
  | cons h _ ih =>
    rcases List.mem_cons.mp hi with rfl | hi
    · obtain ⟨error, herror, -⟩ := h
      rw [herror] at hok
      cases hok
    · exact ih hi

/-- No candidate is skipped. -/
lemma mem_rest_of_candidate
    (heligible : ∀ i, i ∈ tried ++ rest ↔ i ∈ interfaces ∧ Eligible now i)
    (hskips : List.Forall₂ (Skips runId resolver now) tried skips) {i : InterfaceRuntime}
    (hi : i ∈ interfaces) (hc : Candidate resolver now i) : i ∈ rest := by
  rcases List.mem_append.mp ((heligible i).mpr ⟨hi, hc.1⟩) with htried | hrest
  · exact absurd hc (not_candidate_of_skips hskips htried)
  · exact hrest

/-- The interfaces in front of the selected one are ahead of it, the others are not. -/
lemma ahead_iff_mem_tried
    (hranked : (tried ++ selected :: rest).Pairwise fun i j => Ahead fairness i.name j.name)
    {i : InterfaceRuntime} (hi : i ∈ tried ++ selected :: rest) :
    Ahead fairness i.name selected.name ↔ i ∈ tried := by
  obtain ⟨-, hrest, hbefore⟩ := List.pairwise_append.mp hranked
  constructor
  · intro hahead
    rcases List.mem_append.mp hi with hi | hi
    · exact hi
    · rcases List.mem_cons.mp hi with rfl | hi
      · exact absurd hahead (lt_irrefl _)
      · exact absurd hahead (lt_asymm ((List.pairwise_cons.mp hrest).1 i hi))
  · intro hi
    exact hbefore i hi selected (by simp)

/-- The first interface that resolves is the first candidate. -/
lemma first_iff (hranked : (tried ++ rest).Pairwise fun i j => Ahead fairness i.name j.name)
    (heligible : ∀ i, i ∈ tried ++ rest ↔ i ∈ interfaces ∧ Eligible now i)
    (hskips : List.Forall₂ (Skips runId resolver now) tried skips)
    (hrest : ∀ i ∈ rest.head?, resolver i.name = .ok ()) (x : String) :
    rest.head?.map (·.name) = some x ↔ First fairness resolver now interfaces x := by
  have hcandidate : ∀ i ∈ interfaces, Candidate resolver now i → i ∈ rest :=
    fun i hi hc => mem_rest_of_candidate heligible hskips hi hc
  rcases rest with _ | ⟨selected, rest⟩
  · refine iff_of_false (by simp) ?_
    rintro ⟨i, hi, -, hc, -⟩
    cases hcandidate i hi hc
  · obtain ⟨hmem, helig⟩ := (heligible selected).mp (by simp)
    have hself : Candidate resolver now selected := ⟨helig, hrest selected (by simp)⟩
    have hahead := (List.pairwise_cons.mp (List.pairwise_append.mp hranked).2.1).1
    have hfirst : First fairness resolver now interfaces selected.name := by
      refine ⟨selected, hmem, rfl, hself, fun j hj hc hne => ?_⟩
      rcases List.mem_cons.mp (hcandidate j hj hc) with rfl | hj
      · exact absurd rfl hne
      · exact hahead j hj
    simp only [List.head?_cons, Option.map_some, Option.some.injEq]
    constructor
    · rintro rfl
      exact hfirst
    · rintro ⟨i, hi, rfl, hc, hleast⟩
      rcases List.mem_cons.mp (hcandidate i hi hc) with rfl | hi
      · rfl
      · by_contra hne
        exact absurd (hleast selected hmem hself hne) (lt_asymm (hahead i hi))

/-- The blamed interfaces are those that were tried and skipped. -/
lemma blamed_iff_mem_tried
    (hranked : (tried ++ rest).Pairwise fun i j => Ahead fairness i.name j.name)
    (heligible : ∀ i, i ∈ tried ++ rest ↔ i ∈ interfaces ∧ Eligible now i)
    {i : InterfaceRuntime} (hi : i ∈ interfaces) :
    Blamed fairness now (rest.head?.map (·.name)) i ↔ i ∈ tried := by
  constructor
  · rintro ⟨helig, hahead⟩
    have hmem := (heligible i).mpr ⟨hi, helig⟩
    rcases rest with _ | ⟨selected, rest⟩
    · simpa using hmem
    · exact (ahead_iff_mem_tried hranked hmem).mp (hahead selected.name (by simp))
  · intro htried
    have hmem : i ∈ tried ++ rest := List.mem_append_left _ htried
    refine ⟨((heligible i).mp hmem).2, fun x hx => ?_⟩
    rcases rest with _ | ⟨selected, rest⟩
    · cases hx
    · obtain rfl : selected.name = x := by simpa using hx
      exact (ahead_iff_mem_tried hranked hmem).mpr htried

end first

lemma planned_eq {opportunity : BandwidthOpportunity} {interfaces : List InterfaceRuntime}
    {stats : MonitorStats} (hplanned : opportunity.interface = none) :
    selectBandwidthInterface runId resolver now fairness opportunity interfaces stats =
      tryEligible runId resolver now fairness (eligibleNames now interfaces) interfaces stats
        [] := by
  rw [selectBandwidthInterface, hplanned]

/-- **Selection**: an opportunity without an interface goes to the first candidate in the order of
fairness, which is available then. Exactly the eligible interfaces ahead of it have failed: each
has one event, and its own delay before it is tried again. No other interface is touched. -/
theorem selects_first_candidate {opportunity : BandwidthOpportunity}
    {interfaces : List InterfaceRuntime} {stats : MonitorStats}
    (hnodup : (interfaces.map (·.name)).Nodup)
    (horder : fairness.order = interfaces.map (·.name)) (hplanned : opportunity.interface = none) :
    ∃ r tried skips last, selectBandwidthInterface runId resolver now fairness opportunity
        interfaces stats = some r ∧
      (r.interface.isSome ↔ ∃ i ∈ interfaces, Candidate resolver now i) ∧
      (∀ x, r.interface = some x ↔ First fairness resolver now interfaces x) ∧
      tried.Perm (interfaces.filter (Blamed fairness now r.interface)) ∧
      List.Forall₂ (Skips runId resolver now) tried skips ∧
      NoneHealthy runId now last ∧
      r.events = skips ++ (if r.interface = none then [last] else []) ∧
      r.stats.interfaceFailures = stats.interfaceFailures + tried.length ∧
      r.interfaces = interfaces.map fun i =>
        if Blamed fairness now r.interface i then
          { i with
            available := false
            latestSuccess := false
            retryAt := some (now.monotonic + min (2 ^ min i.backoffStep 6) 60 * 1000000000)
            backoffStep := min (i.backoffStep + 1) 6 }
        else if r.interface = some i.name then
          { i with available := true, retryAt := none, backoffStep := 0 }
        else i := by
  obtain ⟨ranked, hperm, hranked⟩ := @exists_ranked now fairness interfaces hnodup horder
  have heligible : ∀ i, i ∈ ranked ↔ i ∈ interfaces ∧ Eligible now i := by
    intro i
    rw [hperm.mem_iff, List.mem_filter, eligible_iff]
  have hnames : ∀ name, name ∈ eligibleNames now interfaces ↔ ∃ i ∈ ranked, i.name = name := by
    intro name
    rw [eligibleNames, List.mem_toFinset, List.mem_map]
    simp only [hperm.mem_iff]
  obtain ⟨tried, rest, skips, rfl, hrest, hskips, heq⟩ :=
    @tryEligible_ranked runId resolver now fairness interfaces ranked stats [] _ hnodup horder
      (fun i hi => ((heligible i).mp hi).1) hranked hnames
  have hfirst := first_iff hranked heligible hskips hrest
  have hblamed := fun i hi => @blamed_iff_mem_tried now fairness interfaces tried rest hranked
    heligible i hi
  refine ⟨_, tried, skips, noHealthyEvent runId now, (planned_eq hplanned).trans heq,
    ⟨fun hsome => ?_, ?_⟩, hfirst, ?_, hskips, rfl, ?_, rfl, ?_⟩
  · obtain ⟨x, hx⟩ := Option.isSome_iff_exists.mp hsome
    obtain ⟨i, hi, -, hc, -⟩ := (hfirst x).mp hx
    exact ⟨i, hi, hc⟩
  · rintro ⟨i, hi, hc⟩
    have hmem := mem_rest_of_candidate heligible hskips hi hc
    rcases rest with _ | ⟨selected, rest⟩
    · cases hmem
    · rfl
  · refine (List.perm_ext_iff_of_nodup ?_ ?_).mpr fun i => ?_
    · have hnodup := hperm.nodup_iff.mpr ((List.Nodup.of_map _ hnodup).filter _)
      exact (List.nodup_append.mp hnodup).1
    · exact (List.Nodup.of_map _ hnodup).filter _
    · rw [List.mem_filter, decide_eq_true_eq]
      constructor
      · intro hi
        have hmem := ((heligible i).mp (List.mem_append_left _ hi)).1
        exact ⟨hmem, (hblamed i hmem).mpr hi⟩
      · rintro ⟨hi, hb⟩
        exact (hblamed i hi).mp hb
  · cases rest <;> simp
  · refine List.map_congr_left fun i hi => ?_
    have htried : i.name ∈ tried.map (·.name) ↔ i ∈ tried := by
      constructor
      · intro hname
        obtain ⟨j, hj, hji⟩ := List.mem_map.mp hname
        have hmem := ((heligible j).mp (List.mem_append_left _ hj)).1
        exact List.inj_on_of_nodup_map hnodup hmem hi hji ▸ hj
      · exact List.mem_map_of_mem
    simp only [touch, InterfaceRuntime.markFailed_eq]
    exact if_congr (htried.trans (hblamed i hi).symm) rfl rfl

/-- The interfaces of a monitor, of which the first is unplugged. -/
def monitored : List InterfaceRuntime := ["eth0", "wlan0"].map (.new · stricter)

def unplugged : Resolver := fun name =>
  if name = "eth0" then .error (.down name) else .ok ()

theorem second_interface_selected :
    ∃ r, selectBandwidthInterface 1 unplugged ⟨0, 0⟩ (.new ["eth0", "wlan0"])
      ⟨.scheduled, none, 0, none⟩ monitored {} = some r ∧ r.interface = some "wlan0" ∧
      r.interfaces.map (·.retryAt) = [some 1000000000, none] := by
  obtain ⟨r, -, -, -, hr, -, hfirst, -, -, -, -, -, hinterfaces⟩ :=
    @selects_first_candidate 1 unplugged ⟨0, 0⟩ (.new ["eth0", "wlan0"])
      ⟨.scheduled, none, 0, none⟩ monitored {} (by decide) rfl rfl
  have hselected : r.interface = some "wlan0" := by
    refine (hfirst "wlan0").mpr ⟨.new "wlan0" stricter, by simp [monitored], rfl,
      ⟨by decide, rfl⟩, fun j hj hc hne => ?_⟩
    obtain ⟨name, hname, rfl⟩ := List.mem_map.mp hj
    rcases List.mem_cons.mp hname with rfl | hname
    · exact absurd hc.2 (by decide)
    · exact absurd (List.mem_singleton.mp hname) hne
  refine ⟨r, hr, hselected, ?_⟩
  rw [hinterfaces, hselected]
  decide

end Netband.Selection

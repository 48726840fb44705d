import Netband.Scheduler
import Netband.Persistence
import Netband.Runs

/-!
A scheduler with its recovery set, and the system it runs in: the disk, at most one open
scheduler, and what was done so far.

A system takes steps. Each step carries the outcomes of its I/O calls; a process that dies
within a call is a step whose call fails, followed by `close`.
-/

namespace Netband.World

open Netband.Time Netband.Model Netband.State Netband.Plan Netband.Effects Netband.Lines
open Netband.Recovery Netband.Scheduling

variable (S : Serde)

/-! ### Schedulers -/

/-- An open scheduler. Its provider is in the store. -/
structure Scheduler where
  persistence : Persistence
  store : SchedulerStore
  policy : SchedulerPolicy
  active : policy.providerId ∈ store.providers

namespace Scheduler

def session (s : Scheduler) (disk : Disk) : Session :=
  { persistence := s.persistence, store := s.store, disk }

def state (s : Scheduler) : ProviderState := s.store.providers.get s.policy.providerId s.active

def setState (st : ProviderState) (s : Scheduler) : Scheduler := { s with
  store := { s.store with providers := s.store.providers.insert s.policy.providerId st }
  active := Std.ExtTreeMap.mem_insert_self }

end Scheduler

lemma insert_insert {α : Type} (m : BTreeMap String α) (k : String) (v w : α) :
    (m.insert k v).insert k w = m.insert k w := by
  refine Std.ExtTreeMap.ext_getElem? fun i => ?_
  simp only [Std.ExtTreeMap.getElem?_insert]
  split <;> rfl

/-! ### Persisting leaves the providers as they are -/

section providers
open Faulty

variable {S} {s t : Session}

lemma onDisk_store {α : Type} (c : Faulty Disk SchedulerError α) {Q : α → Session → Prop}
    {E : SchedulerError → Session → Prop} (hQ : ∀ a disk, Q a { t with disk })
    (hE : ∀ e disk, E e { t with disk }) : Meets True t (onDisk c) Q E := by
  refine meets_zoom fun io _ => ?_
  generalize c (io, t.disk) = r
  rcases r with ⟨e | a, io', d⟩
  · exact hE e d
  · exact ⟨.inr trivial, hQ a d⟩

lemma commitAccounting_store {E : SchedulerError → Session → Prop} {Q : Unit → Session → Prop}
    (hQ : ∀ u, u.store = t.store → u.persistence.poisoned = t.persistence.poisoned → Q () u)
    (hE : ∀ e u, u.store = t.store → u.persistence.poisoned = t.persistence.poisoned → E e u) :
    Meets True t (commitAccounting S) Q E := by
  refine meets_bind (meets_get ?_)
  split
  · exact meets_pure (hQ t rfl rfl)
  · refine meets_bind (meets_ensure (fun _ => ?_) fun _ => hE _ t rfl rfl)
    refine meets_bind (onDisk_store _ (fun _ disk => ?_) fun e disk => hE e _ rfl rfl)
    refine meets_bind (onDisk_store _ (fun _ disk => ?_) fun e disk => hE e _ rfl rfl)
    exact meets_modify (hQ _ rfl rfl)

/-- However persisting ends, the providers are as they were; if it fails, it was poisoned. -/
lemma persist_store : Meets True s (persist S)
    (fun _ t => t.store.providers = s.store.providers)
    fun _ t => t.store.providers = s.store.providers ∧ t.persistence.poisoned = true := by
  refine meets_bind (meets_get (meets_bind (meets_ensure (fun _ => ?_) fun hp => ⟨rfl, by
    simpa using hp⟩)))
  refine meets_bind (meets_modify (meets_bind (meets_ofExcept (fun _ _ => ?_)
    fun _ _ => ⟨rfl, rfl⟩)))
  refine meets_bind (onDisk_store _ (fun previous disk => ?_) fun _ _ => ⟨rfl, rfl⟩)
  refine meets_bind (onDisk_store _ (fun marker disk => ?_) fun _ _ => ⟨rfl, rfl⟩)
  refine meets_bind (meets_ofExcept (fun checkpoint _ => ?_) fun _ _ => ⟨rfl, rfl⟩)
  refine meets_bind (onDisk_store _ (fun unchanged disk => ?_) fun _ _ => ⟨rfl, rfl⟩)
  refine meets_bind (meets_ensure (fun _ => ?_) fun _ => ⟨rfl, rfl⟩)
  refine meets_bind (commitAccounting_store (fun u hu hp => ?_) fun e u hu hp => ⟨by rw [hu], hp⟩)
  refine meets_bind (meets_modify (meets_bind (onDisk_store _ (fun _ disk => ?_) fun _ _ => ?_)))
  · refine meets_bind (meets_get (meets_bind (onDisk_store _ (fun _ disk => ?_) fun _ _ => ?_)))
    · refine meets_modify ?_
      simp [SchedulerStore.withCheckpoint, hu]
    · simp [SchedulerStore.withCheckpoint, hu, hp]
  · simp [SchedulerStore.withCheckpoint, hu, hp]

lemma persist_providers (x : List Io × Session) :
    (persist S x).2.2.store.providers = x.2.store.providers := by
  have h := persist_store (S := S) (s := x.2) x.1 (.inr trivial)
  generalize persist S (x.1, x.2) = r at h ⊢
  rcases r with ⟨e | u, io, t⟩
  · exact h.1
  · exact h.2

lemma persist_poisons {x : List Io × Session} {e : SchedulerError}
    (he : (persist S x).1 = .error e) : (persist S x).2.2.persistence.poisoned = true :=
  ((ends_iff.mp (persist_store (S := S) (s := x.2) x.1 (.inr trivial))).2 e he).2

end providers

/-- Persist the store, and note the call. -/
def Scheduler.persist : Faulty (Scheduler × Disk) SchedulerError Unit := fun x =>
  let r := Recovery.persist S (x.1, x.2.1.session x.2.2)
  (r.1, r.2.1,
    { x.2.1 with
      persistence := r.2.2.persistence
      store := r.2.2.store
      active := by
        rw [persist_providers]
        exact x.2.1.active },
    { r.2.2.disk with persists := x.2.2.persists ++ [(x.2.1.store, r.1.isOk)] })

/-- The record of the active provider, saved by persisting the store that holds it. -/
def backend : Backend ProviderState SchedulerError (Scheduler × Disk) where
  view x := x.1.state
  set st x := (x.1.setState st, x.2)
  put st := fun x => Scheduler.persist S (x.1, x.2.1.setState st, x.2.2)
  view_set st x := by simp [Scheduler.state, Scheduler.setState]
  set_set s t x := by simp [Scheduler.setState, insert_insert]
  put_set s t io x := by simp [Scheduler.setState, insert_insert]

/-! ### Calls -/

inductive Call
  | observeInterfaceHealth (runId : RunId) (now : ℤ) (interface : Option String)
      (decision : HealthDecision)
  | pollInterfaces (runId : RunId) (now : ℤ) (latestSuccess : BTreeMap String Bool)
  | preflightManual (runId : RunId) (now : ℤ)
  | reserveRun (now : ℤ)
  | finishAttempt (runId : RunId) (now : ℤ) (opportunity : BandwidthOpportunity)
      (report : BandwidthReport)
  | flush

inductive Reply
  | observed (events : List MeasurementEvent)
  | polled (poll : SchedulerPoll)
  | preflighted (decision : ManualDecision)
  | reserved (reservation : Reservation)
  | finished (events : List MeasurementEvent) (report : BandwidthReport)
  | flushed
  deriving DecidableEq

/-- The events that a reply returns. -/
def Reply.events : Reply → List MeasurementEvent
  | observed events => events
  | polled poll => poll.events
  | preflighted .allowed => []
  | preflighted (.blocked event) => [event]
  | reserved _ => []
  | finished events _ => events
  | flushed => []

def Call.run (policy : SchedulerPolicy) : Call → Scheduling.Op Reply
  | observeInterfaceHealth runId now interface decision => do
    let events ← Scheduling.observeInterfaceHealth policy runId now interface decision
    return .observed events
  | pollInterfaces runId now latestSuccess => do
    let poll ← Scheduling.pollInterfaces policy runId now latestSuccess
    return .polled poll
  | preflightManual runId now => do
    let decision ← Scheduling.preflightManual policy runId now
    return .preflighted decision
  | reserveRun now => do
    let reservation ← Scheduling.reserveRun policy now
    return .reserved reservation
  | finishAttempt runId now opportunity report => do
    let (events, report) ← Scheduling.finishAttempt policy runId now opportunity report
    return .finished events report
  | flush => do
    Scheduling.flush
    return .flushed

/-- The time a call is made at. -/
def Call.now : Call → Option ℤ
  | observeInterfaceHealth _ now _ _ => some now
  | pollInterfaces _ now _ => some now
  | preflightManual _ now => some now
  | reserveRun now => some now
  | finishAttempt _ now _ _ => some now
  | flush => none

/-! ### Opening -/

/-- Put the store of an opened recovery set under a policy. -/
def admitStore (policy : SchedulerPolicy) (now : ℤ) (seed : UInt64) (persistence : Persistence)
    (store : SchedulerStore) : Scheduler where
  persistence := persistence
  store := (reconcile policy now seed store).1
  policy := policy
  active := by
    unfold reconcile
    split <;> exact Std.ExtTreeMap.mem_insert_self

/-- The scheduler of an opened recovery set; one that was recovered is planned again. -/
def admitRecovered (policy : SchedulerPolicy) (now : ℤ) (seed : UInt64)
    (persistence : Persistence) (store : SchedulerStore) (recovered : Bool) : Scheduler :=
  let scheduler := admitStore policy now seed persistence store
  if recovered then scheduler.setState (replanRemaining policy now scheduler.state)
  else scheduler

/-- Persist a scheduler that is not open yet. -/
def persistOpening (s : Scheduler) : Faulty Disk SchedulerError Scheduler := fun x =>
  let r := Scheduler.persist S (x.1, s, x.2)
  (r.1.map fun _ => r.2.2.1, r.2.1, r.2.2.2)

def openSeeded (policy : SchedulerPolicy) (now : ℤ) (seed : UInt64) (random : Random) :
    Faulty Disk SchedulerError Scheduler := do
  let (persistence, store, recovered) ← openPersistence S random
  let changed := (reconcile policy now seed store).2
  let scheduler := admitRecovered policy now seed persistence store recovered
  if changed || recovered || needsSnapshot S persistence scheduler.store then
    persistOpening S scheduler
  else return scheduler

/-! ### The system -/

/-- A call that was made, its result, and whether a record was added to the ledger. -/
structure Entry where
  policy : SchedulerPolicy
  call : Call
  result : Except SchedulerError Reply
  recorded : Bool

/-- The events that a result gives to the caller. -/
def eventsOf : Except SchedulerError Reply → List MeasurementEvent
  | .ok reply => reply.events
  | .error _ => []

def Entry.events (e : Entry) : List MeasurementEvent := eventsOf e.result

structure System where
  disk : Disk := {}
  live : Option Scheduler := none
  /-- The latest time that any step was given. -/
  clock : Option ℤ := none
  trace : List Entry := []

inductive Action
  | openSeeded (policy : SchedulerPolicy) (now : ℤ) (seed : UInt64) (random : Random)
  | close
  | restore (index : ℕ)
  | call (c : Call)

/-- A step: what is done, and how its I/O calls end. -/
abbrev Step := Action × List Io

def Action.now : Action → Option ℤ
  | openSeeded _ now _ _ => some now
  | call c => c.now
  | _ => none

def laterOf (clock now : Option ℤ) : Option ℤ :=
  match clock, now with
  | none, now => now
  | clock, none => clock
  | some clock, some now => some (max clock now)

/-- The number of lines in the ledger file. -/
def ledgerLines (d : Disk) : ℕ := ((d.files .ledger).getD []).count newline

/-- Replace the snapshot by one that was written earlier. -/
def restoreSnapshot (d : Disk) (index : ℕ) : Disk :=
  match d.snapshots[index]? with
  | some bytes => { d with files := Function.update d.files .primary (some bytes) }
  | none => d

namespace System

/-- The result and the system after a call of the open scheduler. -/
def call (w : System) (s : Scheduler) (c : Call) (io : List Io) : System :=
  let r := (backend S).run (c.run s.policy) (io, s, w.disk)
  { w with
    disk := r.2.2.2
    live := some r.2.2.1
    trace := w.trace ++ [{
      policy := s.policy
      call := c
      result := r.1
      recorded := ledgerLines w.disk < ledgerLines r.2.2.2 }] }

def openScheduler (w : System) (policy : SchedulerPolicy) (now : ℤ) (seed : UInt64)
    (random : Random) (io : List Io) : System :=
  let r := openSeeded S policy now seed random (io, w.disk)
  { w with disk := r.2.2, live := r.1.toOption }

/-- The lock refuses a second scheduler; no call reaches a scheduler that is not open. -/
def act (w : System) (a : Action) (io : List Io) : System :=
  match a, w.live with
  | .openSeeded policy now seed random, none => w.openScheduler S policy now seed random io
  | .openSeeded .., some _ => w
  | .close, _ => { w with live := none }
  | .restore index, _ => { w with disk := restoreSnapshot w.disk index }
  | .call c, some s => w.call S s c io
  | .call _, none => w

def step (w : System) (x : Step) : System :=
  { w.act S x.1 x.2 with clock := laterOf w.clock x.1.now }

end System

/-- The systems that allowed actions reach, however their I/O calls end. -/
abbrev Reaches (allowed : System → Action → Prop) : System → Prop :=
  Runs.Reachable (System.step S) (fun w x => allowed w x.1) {}

/-- Times do not decrease. -/
def InOrder (w : System) (a : Action) : Prop := ∀ clock ∈ w.clock, ∀ now ∈ a.now, clock ≤ now

end Netband.World

import Netband.Calm
import Netband.Encoding
import Netband.Health

/-!
Ping rounds on their way into the scheduler, and the triggers that they raise.

A monitor has one open scheduler and one window for each interface. A round goes through the
window of its interface, and the decision goes into the scheduler; polls and attempts go to the
scheduler directly.
-/

namespace Netband.Episodes

open Netband.Time Netband.Model Netband.State Netband.Plan Netband.Effects Netband.Recovery
open Netband.Scheduling Netband.World Netband.Edits Netband.Steps Netband.Health Netband.Runs
open Saving

/-! ### Monitors -/

/-- What the caller has seen of an input: the decision on a round, and the events returned. -/
structure Note where
  round : Option (String × HealthDecision)
  events : List MeasurementEvent

structure Monitor where
  windows : String → HealthWindow
  system : System
  log : List Note := []

inductive Input
  | round (runId : RunId) (now : ℤ) (interface : Option String) (samples : Round)
  | call (c : Call)

def Monitor.start (config : HealthConfig) (w : System) : Monitor where
  windows _ := .new config
  system := w

namespace Monitor

variable (S : Serde)

def call (m : Monitor) (round : Option (String × HealthDecision)) (c : Call) (io : List Io) :
    Monitor :=
  let w := m.system.step S (.call c, io)
  { m with
    system := w
    log := m.log ++ [⟨round, (w.trace.drop m.system.trace.length).flatMap (·.events)⟩] }

def step (m : Monitor) (x : Input × List Io) : Monitor :=
  match x.1 with
  | .round runId now interface samples =>
    let key := interfaceKey interface
    let r := (m.windows key).observeRound samples
    { m.call S (some (key, r.1)) (.observeInterfaceHealth runId now interface r.1) x.2 with
      windows := Function.update m.windows key r.2 }
  | .call c => m.call S none c x.2

end Monitor

/-- Decisions reach the scheduler through rounds only. -/
def Input.Raised : Input → Prop
  | round .. => True
  | call (.observeInterfaceHealth ..) => False
  | call _ => True

/-! ### Episodes -/

/-- An event that announces a trigger of an interface. -/
def isTrigger (key : String) (e : MeasurementEvent) : Bool :=
  (e.schedulerAction = some .triggerPending
    || e.schedulerAction = some .triggerMergedWithDeferred) && interfaceKey e.interface = key

def triggers (key : String) (log : List Note) : ℕ :=
  (log.flatMap (·.events)).countP (isTrigger key)

def Note.recovers (key : String) (n : Note) : Bool :=
  n.round.any fun r => r.1 = key && isRecovered r.2

/-- Between recoveries of an interface there is at most one trigger. -/
def OnePerEpisode (key : String) (log : List Note) : Prop :=
  ∀ stretch, stretch <:+: log → (∀ n ∈ stretch, n.recovers key = false) → triggers key stretch ≤ 1

def Latched (key : String) (st : ProviderState) : Prop :=
  ∃ trigger ∈ st.interfaceTriggers[key]?, trigger.latched = true

/-- A call that rolls the record over to another day. -/
def RollsOver (st : ProviderState) : Call → Prop
  | .finishAttempt .. => False
  | c => ∃ now ∈ c.now, st.dayUtc < dateNaive now

/-- The call by which an input reaches the scheduler. -/
def Monitor.asked (m : Monitor) : Input → Call
  | .round runId now interface samples => .observeInterfaceHealth runId now interface
      ((m.windows (interfaceKey interface)).observeRound samples).1
  | .call c => c

/-- No day ends while an interface is degraded and its trigger is latched. -/
def WithinDay (key : String) (m : Monitor) (x : Input) : Prop :=
  (m.windows key).degraded = true → ∀ s ∈ m.system.live, Latched key s.state →
    ¬ RollsOver s.state (m.asked x)

/-! ### Latches -/

section latches
variable {policy : SchedulerPolicy} {now : ℤ} {key : String} {st : ProviderState} {c : Call}

lemma latched_insert {k : String} {trigger : InterfaceTriggerState}
    {triggers : BTreeMap String InterfaceTriggerState}
    (h : ∃ t ∈ triggers[key]?, t.latched = true)
    (hk : k = key → trigger.latched = true) :
    ∃ t ∈ (triggers.insert k trigger)[key]?, t.latched = true := by
  rw [Std.ExtTreeMap.getElem?_insert]
  split
  · rename_i heq
    exact ⟨trigger, rfl, hk (compare_eq_iff_eq.mp heq)⟩
  · exact h

lemma interfaceTrigger_latched {interface : Option String} :
    (interfaceTrigger st interface).latched = true ↔ Latched (interfaceKey interface) st := by
  unfold interfaceTrigger Latched
  cases st.interfaceTriggers[interfaceKey interface]? <;> simp

lemma Latched.clearPending (h : Latched key st) (interface : Option String) :
    Latched key (clearPending interface st) :=
  latched_insert h fun hk => interfaceTrigger_latched.mpr (hk ▸ h)

lemma Latched.expirePending (h : Latched key st) (k : String) :
    Latched key (expirePending st k) := by
  unfold Scheduling.expirePending
  split
  · rename_i trigger ht
    refine latched_insert h fun hk => ?_
    obtain ⟨t, hmem, hlatched⟩ := h
    rw [← hk, ht] at hmem
    cases hmem
    exact hlatched
  · exact h

variable (policy now key) in
/-- Within its day a record keeps a latch, unless its interface recovers. -/
lemma edited_latched : Edited policy now (fun interface => interfaceKey interface ≠ key)
    (fun st => Latched key st ∧ dateNaive now ≤ st.dayUtc) where
  advanced st h _ := by
    unfold advanced
    rw [reconcileDay_of_le h.2]
    exact h
  expired st k h := by
    refine ⟨h.1.expirePending k, ?_⟩
    unfold expirePending
    split <;> exact h.2
  dropped _ h := h
  dueSlots _ h := h
  usedSlot st reason h := by
    unfold useSlot
    split_ifs
    · split <;> exact h
    · exact h
  cleared _ interface h := ⟨h.1.clearPending interface, h.2⟩
  latched _ _ _ h _ _ := ⟨latched_insert h.1 fun _ => rfl, h.2⟩
  recovered _ _ hk h := ⟨latched_insert h.1 fun heq => absurd heq hk, h.2⟩

/-- A call that does not roll the day over keeps a latch, unless its interface recovers. -/
lemma latched_call (h : Latched key st) (hday : ¬ RollsOver st c)
    (hrec : ∀ runId now interface snapshot,
      c = .observeInterfaceHealth runId now interface (.recovered snapshot) →
        interfaceKey interface ≠ key) :
    Saves (Latched key) st (c.run policy) (fun _ => Latched key) fun _ => Latched key := by
  have hquiet : Call.Quiet c → (∀ now ∈ c.now, dateNaive now ≤ st.dayUtc) →
      Saves (Latched key) st (c.run policy) (fun _ => Latched key) fun _ => Latched key := by
    intro hc hle
    have hsaves := @quiet_call policy (fun st => Latched key st ∧ ∀ now ∈ c.now,
        dateNaive now ≤ st.dayUtc) _ (fun _ _ => False) _
      (fun interface => interfaceKey interface ≠ key) hc (fun now hnow => ?_) hrec ⟨h, hle⟩
    · exact ⟨fun x hx => (hsaves.1 x hx).1, fun a ha => (hsaves.2.1 a ha).1,
        fun e he => (hsaves.2.2 e he).elim⟩
    · obtain hnow : c.now = some now := hnow
      have hiff : (fun st => Latched key st ∧ ∀ now ∈ c.now, dateNaive now ≤ st.dayUtc) =
          fun st => Latched key st ∧ dateNaive now ≤ st.dayUtc := by
        funext st
        simp [hnow]
      rw [hiff]
      exact edited_latched policy now key
  cases c with
  | reserveRun now =>
    have hle : dateNaive now ≤ st.dayUtc := not_lt.mp fun hlt => hday ⟨now, rfl, hlt⟩
    have hs : Latched key (startRun now st) := h
    rw [Saves, run_reserveRun, reconcileDay_of_le hle]
    cases blockReason policy st now with
    | some blocked => exact ⟨by simp, by simp, by simpa using h⟩
    | none => exact ⟨by simpa using hs, by simpa using hs, by simp⟩
  | finishAttempt runId now opportunity report =>
    obtain ⟨events, report', hr⟩ := run_finishAttempt policy now runId opportunity report st
    have hf : Latched key (finished policy now opportunity report st) := by
      obtain ⟨rng, slots, deferred, cooldown, backoff, hf⟩ :=
        finished_eq policy now opportunity report st
      rw [hf]
      exact h.clearPending opportunity.interface
    rw [Saves, hr]
    exact ⟨by simpa using hf, by simpa using hf, by simp⟩
  | observeInterfaceHealth runId now interface decision =>
    exact hquiet trivial fun t ht => not_lt.mp fun hlt => hday ⟨t, ht, hlt⟩
  | pollInterfaces runId now latestSuccess =>
    exact hquiet trivial fun t ht => not_lt.mp fun hlt => hday ⟨t, ht, hlt⟩
  | preflightManual runId now =>
    exact hquiet trivial fun t ht => not_lt.mp fun hlt => hday ⟨t, ht, hlt⟩
  | flush => exact hquiet trivial fun t ht => by cases ht

end latches

/-! ### Events that announce no trigger -/

section silent
variable {policy : SchedulerPolicy} {now : ℤ} {key : String} {st : ProviderState}
  {R : ProviderState → Prop}

def Silent (key : String) (events : List MeasurementEvent) : Prop :=
  ∀ e ∈ events, isTrigger key e = false

lemma silent_nil : Silent key [] := fun _ h => absurd h List.not_mem_nil

lemma Silent.append {a b : List MeasurementEvent} (ha : Silent key a) (hb : Silent key b) :
    Silent key (a ++ b) :=
  fun e he => (List.mem_append.mp he).elim (ha e) (hb e)

lemma silent_singleton {e : MeasurementEvent} (h : isTrigger key e = false) : Silent key [e] :=
  fun _ he => List.mem_singleton.mp he ▸ h

lemma isTrigger_event (runId : RunId) (outcome : Outcome) (reason : TriggerReason)
    (context : EventContext) (action : SchedulerAction) (schedulerReason : SchedulerReason)
    (message : String) :
    isTrigger key (event policy st runId now outcome reason context action schedulerReason message)
      = ((action = .triggerPending || action = .triggerMergedWithDeferred) &&
        interfaceKey context.interface = key) := by
  simp [isTrigger, event]

lemma isTrigger_blockedEvent {blocked : BlockReason} {runId : RunId} {outcome : Outcome}
    {reason : TriggerReason} {interface : Option String} {st' : ProviderState}
    (h : blockReason policy st now = some blocked) :
    isTrigger key (blockedEvent policy st' runId now outcome reason interface blocked) = false := by
  rw [blockedEvent, isTrigger_event]
  rcases action_blockReason h with ha | ha <;> simp [ha]

/-- From `st`, the computation returns no event that announces a trigger of the interface. -/
def Returns (key : String) {α : Type} (events : α → List MeasurementEvent) (st : ProviderState)
    (c : Scheduling.Op α) : Prop :=
  Saves (fun _ => True) st c (fun a _ => Silent key (events a)) fun _ _ => True

lemma Returns.bind {α β : Type} {c : Scheduling.Op α} {k : α → Scheduling.Op β}
    {events : α → List MeasurementEvent} {events' : β → List MeasurementEvent}
    (hc : Returns key events st c)
    (hk : ∀ a st', Silent key (events a) → Returns key events' st' (k a)) :
    Returns key events' st (c >>= k) :=
  saves_bind (saves_mono hc (fun a st' ha => hk a st' ha) fun _ _ he => he)

lemma returns_pure {α : Type} {a : α} {events : α → List MeasurementEvent}
    (h : Silent key (events a)) : Returns key events st (pure a) :=
  saves_pure h

lemma returns_advanceClock (runId : RunId) :
    Returns key id st (advanceClock policy runId now) := by
  refine saves_bind (saves_get (saves_ite (fun _ => saves_pure ?_) fun _ => ?_))
  · exact silent_singleton (by rw [isTrigger_event]; rfl)
  · exact saves_bind (saves_modify (saves_bind (saves_save trivial (saves_pure silent_nil))))

lemma returns_expireTriggers (runId : RunId) :
    Returns key id st (expireTriggers policy runId now) := by
  refine saves_bind (saves_get (saves_ite (fun _ => saves_pure silent_nil) fun _ => ?_))
  refine saves_bind (saves_modify (saves_bind (saves_save trivial (saves_bind (saves_get
    (saves_pure ?_))))))
  intro e he
  obtain ⟨p, -, rfl⟩ := List.mem_map.mp he
  rw [isTrigger_event]
  rfl

lemma returns_pollDeferred (runId : RunId) :
    Returns key SchedulerPoll.events st (pollDeferred policy runId now) := by
  refine saves_bind (saves_get ?_)
  split
  · exact saves_pure silent_nil
  · refine saves_ite (fun _ => ?_) fun _ => saves_ite (fun _ => ?_) fun _ => ?_
    · exact saves_bind (saves_modify (saves_bind (saves_save trivial (saves_bind (saves_get
        (saves_pure (silent_singleton (by rw [isTrigger_event]; rfl))))))))
    · exact saves_pure silent_nil
    · exact saves_pure silent_nil

lemma returns_pollDue (runId : RunId) (latestSuccess : BTreeMap String Bool) :
    Returns key SchedulerPoll.events st (pollDue policy runId now latestSuccess) := by
  refine saves_bind (saves_get (saves_ite (fun _ => saves_pure silent_nil) fun _ => ?_))
  rcases hb : blockReason policy st now with _ | blocked
  · refine saves_bind (saves_modify (saves_bind (saves_modify (saves_bind (saves_save trivial
      (saves_bind (saves_get (saves_pure (silent_singleton ?_)))))))))
    rw [isTrigger_event]
    rfl
  · exact saves_bind (saves_modify (saves_bind (saves_modify (saves_bind (saves_save trivial
      (saves_bind (saves_get (saves_pure (silent_singleton (isTrigger_blockedEvent hb))))))))))

lemma returns_pollAccepted (runId : RunId) (latestSuccess : BTreeMap String Bool) :
    Returns key SchedulerPoll.events st (pollAccepted policy runId now latestSuccess) := by
  refine (returns_expireTriggers runId).bind fun expired st hexpired => ?_
  refine (returns_pollDeferred runId).bind fun deferred st hdeferred => ?_
  refine saves_ite (fun _ => returns_pure (Silent.append hexpired hdeferred)) fun _ => ?_
  refine (returns_pollDue runId latestSuccess).bind fun due st hdue => ?_
  exact returns_pure (Silent.append hexpired (Silent.append hdeferred hdue))

lemma returns_pollInterfaces (runId : RunId) (latestSuccess : BTreeMap String Bool) :
    Returns key SchedulerPoll.events st (pollInterfaces policy runId now latestSuccess) := by
  refine (returns_advanceClock runId).bind fun events st hclock => ?_
  refine saves_bind (saves_get (saves_ite (fun _ => saves_pure hclock) fun _ => ?_))
  refine (returns_pollAccepted runId latestSuccess).bind fun poll st hpoll => ?_
  exact returns_pure (Silent.append hclock hpoll)

lemma returns_preflightManual (runId : RunId) :
    Returns key (fun decision => Reply.events (.preflighted decision)) st
      (preflightManual policy runId now) := by
  refine (returns_advanceClock runId).bind fun events st' hclock => saves_bind (saves_get ?_)
  split
  · rename_i event hlast
    refine saves_pure (silent_singleton (hclock event ?_))
    exact List.mem_of_getLast? (Option.filter_eq_some_iff.mp hlast).1
  · rcases hb : blockReason policy st' now with _ | blocked
    · exact saves_pure silent_nil
    · exact saves_pure (silent_singleton (isTrigger_blockedEvent hb))

/-- Only decisions raise triggers. -/
lemma returns_call {c : Call} (hc : (Input.call c).Raised) :
    Returns key Reply.events st (c.run policy) := by
  cases c with
  | observeInterfaceHealth runId now interface decision => exact absurd hc id
  | pollInterfaces runId now latestSuccess =>
    exact (returns_pollInterfaces runId latestSuccess).bind fun _ _ h => returns_pure h
  | preflightManual runId now =>
    exact (returns_preflightManual runId).bind fun _ _ h => returns_pure h
  | reserveRun now =>
    rw [Returns, Saves, run_reserveRun]
    cases blockReason policy (reconcileDay policy now st) now with
    | some blocked => exact ⟨by simp, by simp, by simp⟩
    | none =>
      refine ⟨by simp, fun a ha => ?_, by simp⟩
      cases ha
      exact silent_nil
  | finishAttempt runId now opportunity report =>
    have hevents : Returns key Prod.fst st
        (finishAttempt policy runId now opportunity report) := by
      unfold finishAttempt
      split
      · refine saves_bind (saves_edit (saves_bind (saves_save trivial (saves_bind (saves_get
          (saves_pure (silent_singleton ?_)))))))
        rw [isTrigger_event]
        rfl
      · exact saves_bind (saves_modify (saves_bind (saves_save trivial (saves_pure silent_nil))))
    exact hevents.bind fun _ _ h => returns_pure h
  | flush => exact saves_bind (saves_save trivial (saves_pure silent_nil))

/-! ### Decisions -/

lemma returns_observeDegraded {interface : Option String} {reason : DegradationReason}
    {snapshot : HealthSnapshot} (runId : RunId)
    (h : interfaceKey interface ≠ key ∨ Latched (interfaceKey interface) st) :
    Returns key id st (observeDegraded policy runId now interface snapshot reason) := by
  refine saves_bind (saves_get (saves_ite (fun _ => saves_pure silent_nil) fun hlatched => ?_))
  have hkey := h.resolve_right fun hl => hlatched (interfaceTrigger_latched.mpr hl)
  refine saves_bind (saves_modify (saves_bind (saves_save trivial (saves_bind (saves_get
    (saves_pure (silent_singleton ?_)))))))
  rw [isTrigger_event]
  simp [hkey]

lemma returns_observeRecovered {interface : Option String} (runId : RunId) :
    Returns key id st (observeRecovered policy runId now interface) := by
  refine saves_bind (saves_get (saves_ite (fun _ => ?_) fun _ => saves_pure silent_nil))
  refine saves_bind (saves_modify (saves_bind (saves_save trivial (saves_bind (saves_get
    (saves_pure fun e he => ?_))))))
  obtain ⟨pending, -, rfl⟩ := Option.mem_map.mp (Option.mem_toList.mp he)
  rw [isTrigger_event]
  rfl

/-- A decision announces no trigger of an interface if it is for another one, if it is no
degradation, or if a latch is kept until it is looked at. -/
lemma returns_observe {interface : Option String} {decision : HealthDecision} (runId : RunId)
    (h : interfaceKey interface ≠ key ∨ isDegraded decision = false ∨
      Latched (interfaceKey interface) st ∧ dateNaive now ≤ st.dayUtc) :
    Returns key Reply.events st
      ((Call.observeInterfaceHealth runId now interface decision).run policy) := by
  -- what the clock leaves of the latch
  have hclock : Saves (fun _ => True) st (advanceClock policy runId now)
      (fun events st' => Silent key events ∧ (interfaceKey interface ≠ key ∨
        isDegraded decision = false ∨ Latched (interfaceKey interface) st'))
      fun _ _ => True := by
    rcases h with hkey | hdecision | hlatched
    · exact saves_mono (returns_advanceClock runId) (fun _ _ hs => ⟨hs, .inl hkey⟩)
        fun _ _ he => he
    · exact saves_mono (returns_advanceClock runId) (fun _ _ hs => ⟨hs, .inr (.inl hdecision)⟩)
        fun _ _ he => he
    · have hand := Saves.and (@returns_advanceClock policy now key st runId)
        (advanceClock_spec (edited_latched policy now _).toObserved hlatched runId)
      exact saves_mono (hand.weaken fun _ _ => trivial)
        (fun _ _ hs => ⟨hs.1, .inr (.inr hs.2.1.1)⟩) fun _ _ he => he
  refine saves_bind (saves_bind (saves_mono hclock (fun events st hst => ?_) fun _ _ he => he))
  refine saves_bind ?_
  have hdecide : Returns key id st (observeDecision policy runId now interface decision) := by
    cases decision with
    | healthy snapshot => exact saves_pure silent_nil
    | recovered snapshot => exact returns_observeRecovered runId
    | degraded snapshot reason =>
      refine returns_observeDegraded runId (hst.2.imp_right fun h => h.resolve_left ?_)
      simp [isDegraded]
  exact saves_mono hdecide (fun _ _ hd => saves_pure (saves_pure (hst.1.append hd)))
    fun _ _ he => he

/-- A degradation announces one trigger at most, and leaves the latch. -/
lemma observe_degraded {interface : Option String} {decision : HealthDecision} (runId : RunId)
    (h : isDegraded decision = true) :
    Saves (fun _ => True) st ((Call.observeInterfaceHealth runId now interface decision).run policy)
      (fun reply st' => reply.events.countP (isTrigger key) ≤ 1 ∧
        Latched (interfaceKey interface) st') fun _ _ => True := by
  refine saves_bind (saves_bind (saves_mono (@returns_advanceClock policy now key st runId)
    (fun events st hst => ?_) fun _ _ he => he))
  have hnone : events.countP (isTrigger key) = 0 :=
    List.countP_eq_zero.mpr fun e he => by simp [hst e he]
  cases decision with
  | healthy snapshot => cases h
  | recovered snapshot => cases h
  | degraded snapshot reason =>
    refine saves_bind (saves_bind (saves_get (saves_ite (fun hlatched => ?_) fun _ => ?_)))
    · refine saves_pure (saves_pure (saves_pure ⟨?_, interfaceTrigger_latched.mp hlatched⟩))
      simp [Reply.events, hnone]
    · refine saves_bind (saves_modify (saves_bind (saves_save trivial (saves_bind (saves_get
        (saves_pure (saves_pure (saves_pure ⟨?_, ?_⟩))))))))
      · simp only [Reply.events, List.countP_append, hnone, Nat.zero_add]
        exact List.countP_le_length
      · unfold Latched latchTrigger updateTrigger
        exact ⟨_, Std.ExtTreeMap.getElem?_insert_self, rfl⟩

end silent

/-! ### Runs -/

section runs
variable {S : Serde} {config : HealthConfig} {key : String} {m : Monitor} {s : Scheduler}

/-- What a call leaves of the record, and what is seen of it. -/
structure Seen (S : Serde) (m : Monitor) (s : Scheduler) (round : Option (String × HealthDecision))
    (c : Call) (io : List Io) (s' : Scheduler) (events : List MeasurementEvent) : Prop where
  live : (m.call S round c io).system.live = some s'
  log : (m.call S round c io).log = m.log ++ [⟨round, events⟩]
  returned : events = [] ∨ ∃ reply, (c.run s.policy s.state).2.1 = .ok reply ∧
    events = reply.events ∧ s'.state = (c.run s.policy s.state).2.2
  kept : ∀ R : ProviderState → Prop, R s.state →
    Saves R s.state (c.run s.policy) (fun _ => R) (fun _ => R) → R s'.state

lemma seen_call (h : m.system.live = some s) (round : Option (String × HealthDecision)) (c : Call)
    (io : List Io) : ∃ s' events, Seen S m s round c io s' events := by
  have hact : m.system.act S (.call c) io = m.system.call S s c io := by
    simp only [System.act, h]
  have hstep : m.system.step S (.call c, io) =
      { m.system.call S s c io with clock := laterOf m.system.clock c.now } := by
    rw [← hact]
    rfl
  have htrace : ∃ e : Entry, (m.system.call S s c io).trace = m.system.trace ++ [e] ∧
      e.result = ((backend S).run (c.run s.policy) (io, s, m.system.disk)).1 := ⟨_, rfl, rfl⟩
  obtain ⟨e, htrace, hresult⟩ := htrace
  obtain ⟨s', hs', -⟩ := call_keeps (S := S) (R := fun _ => True) (s := s) (w := m.system) (c := c)
    trivial ⟨fun _ _ => trivial, fun _ _ => trivial, fun _ _ => trivial⟩ io
  refine ⟨s', e.events, ?_, ?_, ?_, fun R hR hc => ?_⟩
  · simp only [Monitor.call, hstep, hs']
  · simp only [Monitor.call, hstep, htrace, List.drop_left, List.flatMap_cons, List.flatMap_nil,
      List.append_nil]
  · rcases hr : ((backend S).run (c.run s.policy) (io, s, m.system.disk)).1 with err | reply
    · left
      rw [Entry.events, hresult, hr, eventsOf]
    · right
      refine ⟨reply, ((backend S).run_ok hr).1, by rw [Entry.events, hresult, hr, eventsOf], ?_⟩
      have hview := (backend S).run_ok_view hr
      obtain rfl : _ = s' := Option.some.inj hs'
      exact hview
  · obtain ⟨t, ht, hR'⟩ := call_keeps (S := S) (w := m.system) hR hc io
    obtain rfl : t = s' := Option.some.inj (ht.symm.trans hs')
    exact hR'

/-- The decision that an input makes, with the key of its interface. -/
def Monitor.decided (m : Monitor) : Input → Option (String × HealthDecision)
  | .round _ _ interface samples => some (interfaceKey interface,
      ((m.windows (interfaceKey interface)).observeRound samples).1)
  | .call _ => none

lemma step_system (m : Monitor) (x : Input × List Io) :
    (m.step S x).system = (m.call S (m.decided x.1) (m.asked x.1) x.2).system := by
  rcases x with ⟨_ | _, io⟩ <;> rfl

lemma step_log (m : Monitor) (x : Input × List Io) :
    (m.step S x).log = (m.call S (m.decided x.1) (m.asked x.1) x.2).log := by
  rcases x with ⟨_ | _, io⟩ <;> rfl

/-- The interface is degraded and its trigger is latched. -/
structure Held (key : String) (m : Monitor) (s : Scheduler) : Prop where
  degraded : (m.windows key).degraded = true
  latched : Latched key s.state

/-- What one input adds to the triggers of an episode. -/
structure Noted (key : String) (m : Monitor) (s : Scheduler) (m' : Monitor) (s' : Scheduler)
    (n : Note) : Prop where
  le_one : triggers key [n] ≤ 1
  held : triggers key [n] = 1 → Held key m' s'
  silent : Held key m s → triggers key [n] = 0 ∧ Held key m' s'

lemma triggers_silent {n : Note} (h : Silent key n.events) : triggers key [n] = 0 := by
  unfold triggers
  rw [List.countP_eq_zero]
  intro e he
  have hn : e ∈ n.events := by simpa using he
  simp [h e hn]

/-- A note without a trigger, after which a degraded interface is degraded and latched still. -/
lemma noted_silent {m' : Monitor} {s' : Scheduler} {n : Note} (h : Silent key n.events)
    (hheld : Held key m s → Held key m' s') : Noted key m s m' s' n where
  le_one := (triggers_silent h).le.trans (Nat.zero_le _)
  held hone := absurd hone (by simp [triggers_silent h])
  silent hh := ⟨triggers_silent h, hheld hh⟩

lemma Seen.silent {round : Option (String × HealthDecision)} {c : Call} {io : List Io}
    {s' : Scheduler} {events : List MeasurementEvent} (h : Seen S m s round c io s' events)
    (hc : Returns key Reply.events s.state (c.run s.policy)) : Silent key events := by
  rcases h.returned with rfl | ⟨reply, hreply, rfl, -⟩
  · exact silent_nil
  · exact hc.2.1 reply hreply

/-- **Inputs**: one that recovers no interface announces one trigger at most, and none while the
interface is degraded and latched. -/
theorem noted_step {x : Input × List Io} (hlive : m.system.live = some s)
    (hraised : x.1.Raised) (hday : WithinDay key m x.1) :
    ∃ s' n, (m.step S x).system.live = some s' ∧ (m.step S x).log = m.log ++ [n] ∧
      (n.recovers key = false → Noted key m s (m.step S x) s' n) := by
  obtain ⟨s', events, hseen⟩ := seen_call (S := S) hlive (m.decided x.1) (m.asked x.1) x.2
  refine ⟨s', _, by rw [step_system, hseen.live], by rw [step_log, hseen.log], fun hrec => ?_⟩
  have hrolls : Held key m s → ¬ RollsOver s.state (m.asked x.1) := fun hheld =>
    hday hheld.degraded s hlive hheld.latched
  have hkept : Held key m s → (∀ runId now interface snapshot,
      m.asked x.1 = .observeInterfaceHealth runId now interface (.recovered snapshot) →
        interfaceKey interface ≠ key) → Latched key s'.state := fun hheld hother =>
    hseen.kept _ hheld.latched (latched_call hheld.latched (hrolls hheld) hother)
  rcases x with ⟨_ | c, io⟩
  case call =>
    refine noted_silent (hseen.silent (returns_call hraised)) fun hheld => ⟨hheld.degraded, ?_⟩
    refine hkept hheld fun runId now interface snapshot hcall => ?_
    change c = _ at hcall
    rw [hcall] at hraised
    exact hraised.elim
  case round runId now interface samples =>
    by_cases hkey : interfaceKey interface = key
    swap
    · -- the round of another interface
      refine noted_silent (hseen.silent (returns_observe runId (.inl hkey))) fun hheld => ⟨?_, ?_⟩
      · change (Function.update m.windows (interfaceKey interface) _ key).degraded = true
        rw [Function.update_of_ne (Ne.symm hkey)]
        exact hheld.degraded
      · refine hkept hheld fun runId' now' interface' snapshot hcall => ?_
        obtain ⟨-, -, hinterface, -⟩ := Call.observeInterfaceHealth.inj hcall
        exact hinterface ▸ hkey
    subst hkey
    generalize hdecision :
      ((m.windows (interfaceKey interface)).observeRound samples).1 = decision at hrec hseen
    have hwindow : ((m.step S (.round runId now interface samples, io)).windows
        (interfaceKey interface)).degraded = isDegraded decision := by
      change (Function.update m.windows (interfaceKey interface) _ _).degraded = _
      rw [Function.update_self, degraded_observeRound, hdecision]
    have hrecovered : isRecovered decision = false := by
      simpa [Note.recovers, Monitor.decided, hdecision] using hrec
    have hremains : Held (interfaceKey interface) m s → isDegraded decision = true := by
      intro hheld
      rw [← hdecision] at hrecovered ⊢
      exact isDegraded_of_degraded hheld.degraded hrecovered
    cases hdegraded : isDegraded decision with
    | false =>
      refine noted_silent (hseen.silent ?_) fun hheld => ?_
      · refine returns_observe runId (.inr (.inl ?_))
        rw [hdecision]
        exact hdegraded
      · exact absurd (hremains hheld) (by simp [hdegraded])
    | true =>
      have hone := @observe_degraded s.policy now (interfaceKey interface) s.state
        interface _ runId hdegraded
      have hcount : triggers (interfaceKey interface) [⟨m.decided (.round runId now interface
          samples), events⟩] = events.countP (isTrigger (interfaceKey interface)) := by
        simp [triggers]
      have hasked : m.asked (.round runId now interface samples) =
          .observeInterfaceHealth runId now interface decision := by
        rw [← hdecision]
        rfl
      have hreturned := hseen.returned
      simp only [hasked] at hreturned
      refine ⟨?_, fun htrigger => ⟨hwindow.trans hdegraded, ?_⟩, fun hheld => ⟨?_, ?_⟩⟩
      · rw [hcount]
        rcases hreturned with rfl | ⟨reply, hreply, rfl, -⟩
        · exact Nat.zero_le _
        · exact (hone.2.1 reply hreply).1
      · rw [hcount] at htrigger
        rcases hreturned with rfl | ⟨reply, hreply, rfl, hstate⟩
        · simp at htrigger
        · rw [hstate]
          exact (hone.2.1 reply hreply).2
      · refine triggers_silent (hseen.silent (returns_observe runId (.inr (.inr
          ⟨hheld.latched, not_lt.mp fun hlt => hrolls hheld ⟨now, rfl, hlt⟩⟩))))
      · refine ⟨hwindow.trans hdegraded,
          hkept hheld fun runId' now' interface' snapshot hcall => ?_⟩
        simp only [hasked] at hcall
        cases hcall
        cases hrecovered

/-! ### Stretches of a log -/

lemma triggers_concat (log : List Note) (n : Note) :
    triggers key (log ++ [n]) = triggers key log + triggers key [n] := by
  simp [triggers]

/-- At most one trigger since the last recovery, and if there is one the interface is held. -/
structure Counted (key : String) (m : Monitor) (s : Scheduler) : Prop where
  episodes : OnePerEpisode key m.log
  current : ∀ stretch, stretch <:+ m.log → (∀ n ∈ stretch, n.recovers key = false) →
    triggers key stretch ≤ 1 ∧ (triggers key stretch = 1 → Held key m s)

lemma counted_start {w : System} : Counted key (.start config w) s := by
  constructor
  · intro stretch hs _
    rw [List.infix_nil.mp hs]
    exact Nat.zero_le _
  · intro stretch hs _
    rw [List.suffix_nil.mp hs]
    exact ⟨Nat.zero_le _, fun h => by cases h⟩

lemma Counted.step {m' : Monitor} {s' : Scheduler} {n : Note} (h : Counted key m s)
    (hlog : m'.log = m.log ++ [n]) (hn : n.recovers key = false → Noted key m s m' s' n) :
    Counted key m' s' := by
  have hcurrent : ∀ stretch, stretch <:+ m'.log → (∀ n ∈ stretch, n.recovers key = false) →
      triggers key stretch ≤ 1 ∧ (triggers key stretch = 1 → Held key m' s') := by
    intro stretch hs hnone
    rw [hlog] at hs
    rcases List.suffix_concat_iff.mp hs with rfl | ⟨earlier, rfl, hearlier⟩
    · exact ⟨Nat.zero_le _, fun h => by cases h⟩
    · have hnote := hn (hnone n (by simp))
      obtain ⟨hle, hheld⟩ := h.current earlier hearlier fun x hx => hnone x (by simp [hx])
      rw [triggers_concat]
      -- either there was a trigger before, or there is one now
      rcases Nat.lt_or_ge 0 (triggers key earlier) with hpos | hzero
      · obtain ⟨hsilent, hheld'⟩ := hnote.silent (hheld (by omega))
        exact ⟨by omega, fun _ => hheld'⟩
      · have hone := hnote.le_one
        exact ⟨by omega, fun htotal => hnote.held (by omega)⟩
  refine ⟨fun stretch hs hnone => ?_, hcurrent⟩
  rw [hlog] at hs
  rcases List.infix_concat_iff.mp hs with hsuffix | hinfix
  · exact (hcurrent stretch (hlog ▸ hsuffix) hnone).1
  · exact h.episodes stretch hinfix hnone

/-- **One trigger per episode**: as long as no day ends while an interface is degraded and
latched, at most one trigger is announced for it between two recoveries. -/
theorem one_trigger_per_episode {w : System} (hlive : w.live.isSome = true)
    (h : Reachable (Monitor.step S) (fun m x => x.1.Raised ∧ WithinDay key m x.1)
      (.start config w) m) : OnePerEpisode key m.log := by
  obtain ⟨s, hs⟩ := Option.isSome_iff_exists.mp hlive
  have hinvariant : ∃ s, m.system.live = some s ∧ Counted key m s := by
    refine h.invariant (I := fun m => ∃ s, m.system.live = some s ∧ Counted key m s)
      ⟨s, hs, counted_start⟩ ?_
    rintro m x - ⟨s, hs, hcounted⟩ ⟨hraised, hday⟩
    obtain ⟨s', n, hs', hlog, hn⟩ := noted_step (S := S) hs hraised hday
    exact ⟨s', hs', hcounted.step hlog hn⟩
  obtain ⟨_, _, hcounted⟩ := hinvariant
  exact hcounted.episodes

/-! ### An episode over midnight -/

lemma calm_call {policy : SchedulerPolicy} {st : ProviderState} {n : ℕ} {L : Ledger}
    (h : Calm S policy st n s L m.system) (round : Option (String × HealthDecision)) (c : Call)
    (hn : n + (c.run policy st).1.length ≤ u64Max) :
    ∃ s' L', Calm S policy (c.run policy st).2.2 (n + (c.run policy st).1.length) s' L'
        (m.call S round c []).system ∧
      (m.call S round c []).log = m.log ++ [⟨round, eventsOf (c.run policy st).2.1⟩] := by
  obtain ⟨s', L', e, hcalm, htrace, htold, -⟩ := h.call c hn
  refine ⟨s', L', hcalm, ?_⟩
  have hresult : e.result = (c.run policy st).2.1 := result_of_told htold
  simp only [Monitor.call, htrace, List.drop_left, List.flatMap_cons, List.flatMap_nil,
    List.append_nil, Entry.events, hresult]

/-- The calls that some inputs make. -/
def asks (S : Serde) (m : Monitor) : List Input → List Call
  | [] => []
  | x :: rest => m.asked x :: asks S (m.step S (x, [])) rest

/-- What is seen of some inputs when no I/O call fails. -/
def notes (S : Serde) (policy : SchedulerPolicy) (m : Monitor) (st : ProviderState) :
    List Input → List Note
  | [] => []
  | x :: rest => ⟨m.decided x, eventsOf ((m.asked x).run policy st).2.1⟩ ::
      notes S policy (m.step S (x, [])) ((m.asked x).run policy st).2.2 rest

lemma calm_inputs {policy : SchedulerPolicy} {st : ProviderState} {n : ℕ} {L : Ledger}
    (h : Calm S policy st n s L m.system) (inputs : List Input)
    (hn : n + savedBy policy st (asks S m inputs) ≤ u64Max) :
    ((inputs.map fun x => (x, ([] : List Io))).foldl (Monitor.step S) m).log =
      m.log ++ notes S policy m st inputs := by
  induction inputs generalizing st n s L m with
  | nil => simp [notes]
  | cons x rest ih =>
    rw [asks, savedBy] at hn
    obtain ⟨s', L', hcalm, hlog⟩ := calm_call h (m.decided x) (m.asked x) (by omega)
    have hsystem : (m.step S (x, [])).system = (m.call S (m.decided x) (m.asked x) []).system :=
      step_system m (x, [])
    have hrest := ih (hsystem ▸ hcalm) (by omega)
    rw [List.map_cons, List.foldl_cons, hrest, step_log, hlog, notes, List.append_assoc]
    rfl

end runs

/-- A system that opens a minute before midnight. -/
noncomputable def lateSystem : System :=
  System.step Encoding.formats {}
    (.openSeeded mlabPolicy 86340000000000 1 (.ok (.replicate 16 0)), [])

/-- Six lost probes. -/
def lostRound (now : ℤ) : Input := .round 1 now none (lost 6)

lemma late_log (inputs : List Input)
    (hn : 1 + savedBy mlabPolicy (newState mlabPolicy 86340000000000 1)
      (asks Encoding.formats (.start stricter lateSystem) inputs) ≤ u64Max) :
    ((inputs.map fun x => (x, ([] : List Io))).foldl (Monitor.step Encoding.formats)
        (.start stricter lateSystem)).log =
      notes Encoding.formats mlabPolicy (.start stricter lateSystem)
        (newState mlabPolicy 86340000000000 1) inputs := by
  obtain ⟨s, L, hcalm, -⟩ := calm_first (S := Encoding.formats) mlabPolicy 86340000000000 1
    (.replicate 16 0)
  exact calm_inputs (m := .start stricter lateSystem) hcalm inputs hn

lemma reaches_late : Reaches Encoding.formats InOrder lateSystem :=
  .step .first fun clock hc => by cases hc

/-- **Two triggers in one episode**: the outage goes on over midnight, where the latch is lost. -/
theorem two_triggers_over_midnight : ¬ ∀ (config : HealthConfig) (w : System) (m : Monitor)
    (key : String), config.Accepted → Reaches Encoding.formats InOrder w →
    w.live.isSome = true →
    Reachable (Monitor.step Encoding.formats)
      (fun m x => x.1.Raised ∧ InOrder m.system (.call (m.asked x.1))) (.start config w) m →
    OnePerEpisode key m.log := by
  intro h
  obtain ⟨s, L, hcalm, -⟩ := calm_first (S := Encoding.formats) mlabPolicy 86340000000000 1
    (.replicate 16 0)
  have hlog := late_log [lostRound 86350000000000, lostRound 86401000000000] (by decide +kernel)
  have hreach : Reachable (Monitor.step Encoding.formats)
      (fun m x => x.1.Raised ∧ InOrder m.system (.call (m.asked x.1)))
      (.start stricter lateSystem)
      (([lostRound 86350000000000, lostRound 86401000000000].map fun x =>
        (x, ([] : List Io))).foldl (Monitor.step Encoding.formats)
          (.start stricter lateSystem)) := by
    refine Reachable.first.foldl ⟨⟨trivial, ?_⟩, ⟨trivial, ?_⟩, trivial⟩
    · rintro clock hclock now hnow
      cases hclock
      cases hnow
      decide
    · rintro clock hclock now hnow
      cases hclock
      cases hnow
      decide
  have hone := h stricter lateSystem _ "" stricter_accepted reaches_late
    (by rw [show lateSystem.live = some s from hcalm.live]; rfl) hreach _ List.infix_rfl
  rw [hlog] at hone
  exact absurd (hone (by decide +kernel)) (by decide +kernel)

/-- Two lost rounds on one day announce one trigger. -/
theorem one_trigger_for_two_rounds : ∃ m : Monitor,
    OnePerEpisode "" m.log ∧ triggers "" m.log = 1 := by
  obtain ⟨s, L, hcalm, -⟩ := calm_first (S := Encoding.formats) mlabPolicy 86340000000000 1
    (.replicate 16 0)
  have hlog := late_log [lostRound 86350000000000, lostRound 86360000000000] (by decide +kernel)
  have hlive : lateSystem.live = some s := hcalm.live
  refine ⟨_, @one_trigger_per_episode Encoding.formats stricter _ _ lateSystem
    (by rw [hlive]; rfl) (Reachable.first.foldl (l := [lostRound 86350000000000,
      lostRound 86360000000000].map fun x => (x, ([] : List Io)))
      ⟨⟨trivial, fun hdegraded => by cases hdegraded⟩, ⟨trivial, fun _ t ht _ => ?_⟩, trivial⟩), ?_⟩
  · obtain ⟨s', L', hnext, -⟩ := calm_call (m := .start stricter lateSystem) hcalm
      ((Monitor.start stricter lateSystem).decided (lostRound 86350000000000))
      ((Monitor.start stricter lateSystem).asked (lostRound 86350000000000)) (by decide +kernel)
    obtain rfl : s' = t := Option.some.inj (hnext.live.symm.trans ht)
    rintro ⟨now, hnow, hlt⟩
    cases hnow
    rw [hnext.state] at hlt
    revert hlt
    decide +kernel
  · rw [hlog]
    decide +kernel

end Netband.Episodes

import Netband.Calm
import Netband.Encoding
import Netband.Persists

/-!
Every store that is reached passes its own validation: the store of a scheduler, every store
that `persist` was asked to write, and what is read back from the files.
-/

namespace Netband.Steps

open Netband.Time Netband.Model Netband.State Netband.Plan Netband.Effects Netband.Lines
open Netband.Recovery Netband.Scheduling Netband.World Netband.Edits Netband.Runs
open Faulty

/-- All records of a store, and of the stores that were ever persisted, have the property. -/
def Clean (K : String → ProviderState → Prop) (s : Scheduler)
    (persists : List (SchedulerStore × Bool)) : Prop :=
  AllRecords K s.store ∧ ∀ p ∈ persists, AllRecords K p.1

section clean
variable {S : Serde} {K : String → ProviderState → Prop} {w : System}

lemma noting_clean : Noting (Clean K) := by
  rintro s s' persists ok - hproviders ⟨hrecords, hpersisted⟩
  refine ⟨fun id st hst => hrecords id st (by rwa [← hproviders]), fun p hp => ?_⟩
  rcases List.mem_append.mp hp with hmem | hmem
  · exact hpersisted p hmem
  · rw [List.mem_singleton.mp hmem]
    exact hrecords

lemma joins_clean {policy : SchedulerPolicy} {x : ProviderState} (hx : K policy.providerId x) :
    Joins (Clean K) policy x := by
  rintro s persists rfl ⟨hrecords, hpersisted⟩
  refine ⟨fun id y hy => ?_, hpersisted⟩
  rw [setState_get] at hy
  split at hy
  · rename_i hid
    cases hy
    exact hid ▸ hx
  · exact hrecords id y hy

/-- **Records**: only records with a property that edits keep are held and persisted. -/
theorem clean_of_reaches (hK : Kept K) (h : Reaches S (fun _ _ => True) w) :
    (∀ s ∈ w.live, AllRecords K s.store) ∧ ∀ p ∈ w.disk.persists, AllRecords K p.1 := by
  have hclean := noting_clean.of_reaches (J := fun persists => ∀ p ∈ persists, AllRecords K p.1)
    hK (fun _ _ hs => hs.2) (by simp)
    (fun _ _ _ _ _ _ _ _ _ hd _ hs => ⟨hs.running.records, hd⟩) (fun s d c io hs => ?_) h
  · exact ⟨fun s hs => (hclean.1 s hs).1, hclean.2⟩
  · have hcall := hK.call (hs.1 _ _ (state_get s)) c
    refine noting_clean.run _ (fun x hx => joins_clean (hcall.1 x hx)) (joins_clean ?_) hs io
    rcases hr : (c.run s.policy s.state).2.1 with e | a
    · exact hcall.2.2 e hr
    · exact hcall.2.1 a hr

end clean

/-! ### Every system that is reached -/

section reached
variable {S : Serde} {w : System}

/-- Whatever validates stores accepts them: the store of the open scheduler, the stores that
were persisted, and those that opening reads from the snapshot, the backup and the ledger. -/
structure Validated (S : Serde) (w : System) : Prop where
  live : ∀ s ∈ w.live, validateStore .primary s.store = .ok ()
  persisted : ∀ p ∈ w.disk.persists, validateStore .primary p.1 = .ok ()
  snapshots : ∀ b ∈ w.disk.snapshots, ∃ store, parseStore S .primary b = .ok store
  files : ∀ b, w.disk.files .primary = some b ∨ w.disk.files .backup = some b →
    b ∈ w.disk.snapshots
  ledger : ∀ b ∈ w.disk.files .ledger, (∃ log, readLog S .ledger b = .ok log) ∨
    readLog S .ledger b = .error (.corrupt .ledger "accounting log has an incomplete final record")

/-- **Validation**: every store that is reached is valid, no store is refused when it is
persisted, and what was written is valid when it is read back. -/
theorem validated_of_reaches (h : Reaches S (fun _ _ => True) w) : Validated S w := by
  obtain ⟨hlive, hpersisted⟩ := clean_of_reaches kept_validState h
  obtain ⟨states, torn, hrest⟩ := resting_of_reaches kept_validState h
  have hvalid : ∀ path store, AllRecords ValidState store → validateStore path store = .ok () :=
    fun path store hs => validateStore_eq_ok.mpr hs
  have hlive' : ∀ s ∈ w.live, validateStore .primary s.store = .ok () :=
    fun s hs => hvalid _ _ (hlive s hs)
  have hpersisted' : ∀ p ∈ w.disk.persists, validateStore .primary p.1 = .ok () :=
    fun p hp => hvalid _ _ (hpersisted p hp)
  cases hrest.sound with
  | untouched hu =>
    exact ⟨hlive', hpersisted', by simp [hu.snapshots], by simp [hu.files], by simp [hu.files]⟩
  | @consistent L _ hc =>
    refine ⟨hlive', hpersisted', fun b hb => ?_, fun b hb => ?_, fun b hb => ?_⟩
    · obtain ⟨store, rfl, hsnap⟩ := hc.snapshots b hb
      exact ⟨store, parseStore_encode S hsnap.ok⟩
    · exact hb.elim (hc.primary b) (hc.backup b)
    · have hb : w.disk.files .ledger = some b := hb
      rw [hc.ledger, Option.some.injEq] at hb
      subst hb
      rcases eq_or_ne torn [] with rfl | htorn
      · exact .inl ⟨_, by rw [List.append_nil, L.readLog_bytes]⟩
      · exact .inr (readLog_torn htorn hc.noBreak _)

/-- A run on the next day, and one that is asked for with the clock set back. -/
theorem validated_after_rollback : ∃ w, Reaches Encoding.formats (fun _ _ => True) w ∧
    w.trace.map told = [
      (mlabPolicy, .reserveRun 86400000000000, .ok (.reserved ⟨1, 1⟩)),
      (mlabPolicy, .reserveRun 1000000000, .error (.admission
        ("reservation rejected after preflight: " ++
          "reason=minimum_spacing until=1970-01-02T00:36:00+00:00")))] ∧
    Validated Encoding.formats w := by
  have hreach : Reaches Encoding.formats (fun _ _ => True) _ :=
    @reaches_calmRun _ mlabPolicy _ 0 1
    (.replicate 16 0) [.reserveRun 86400000000000, .reserveRun 1000000000] trivial
    fun _ => trivial
  obtain ⟨s, L, -, htold⟩ := @calmRun_spec Encoding.formats mlabPolicy 0 1
    (.replicate 16 0) [.reserveRun 86400000000000, .reserveRun 1000000000] (by decide +kernel)
  refine ⟨_, hreach, htold.trans ?_, validated_of_reaches hreach⟩
  rfl

end reached
end Netband.Steps

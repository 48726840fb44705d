import Mathlib.Tactic

/-!
Computations with I/O calls that may fail, and computations that save their state on the way.

A *faulty* computation runs on a state and a list of outcomes for its I/O calls; calls beyond
the list succeed. A *saving* computation hands its state to a backend at some points, and a
refused save ends it. Nothing else of the backend is visible to it, so it is described by the
states it saves, its result when all of them are accepted, and the state it leaves; `run_bind`
says that saving at the end is saving along the way.
-/

namespace Netband.Effects

variable {σ ε α β δ : Type}

/-! ### Faulty computations -/

/-- How an I/O call ends. A call that fails may have taken effect in part. -/
inductive Io
  | done
  | failed (written : ℕ)
  deriving DecidableEq

def Faulty (σ ε α : Type) := List Io × σ → Except ε α × List Io × σ

namespace Faulty

protected def bind (c : Faulty σ ε α) (k : α → Faulty σ ε β) : Faulty σ ε β := fun s =>
  match c s with
  | (.ok a, s') => k a s'
  | (.error e, s') => (.error e, s')

instance : Monad (Faulty σ ε) where
  pure a := fun s => (.ok a, s)
  bind := Faulty.bind

def get : Faulty σ ε σ := fun s => (.ok s.2, s)
def modify (f : σ → σ) : Faulty σ ε Unit := fun s => (.ok (), s.1, f s.2)
def fail (e : ε) : Faulty σ ε α := fun s => (.error e, s)
def ofExcept (x : Except ε α) : Faulty σ ε α := fun s => (x, s)
def ensure (p : Prop) [Decidable p] (e : ε) : Faulty σ ε Unit :=
  if p then pure () else fail e

/-- The outcome of the next I/O call. -/
def nextIo : Faulty σ ε Io := fun s => (.ok (s.1.headD .done), s.1.tail, s.2)

/-- A computation on a part of the state. -/
def zoom (view : δ → σ) (put : σ → δ → δ) (c : Faulty σ ε α) : Faulty δ ε α := fun d =>
  ((c (d.1, view d.2)).1, (c (d.1, view d.2)).2.1, put (c (d.1, view d.2)).2.2 d.2)

/-- A computation that returns has returned on the way. -/
lemma ok_of_bind {c : Faulty σ ε α} {k : α → Faulty σ ε β} {b : β} {x x' : List Io × σ}
    (h : (c >>= k) x = (.ok b, x')) : ∃ a x₁, c x = (.ok a, x₁) ∧ k a x₁ = (.ok b, x') := by
  change Faulty.bind c k x = _ at h
  unfold Faulty.bind at h
  rcases hc : c x with ⟨e | a, x₁⟩
  · rw [hc] at h
    cases h
  · rw [hc] at h
    exact ⟨a, x₁, rfl, h⟩

lemma bind_ok {c : Faulty σ ε α} {k : α → Faulty σ ε β} {a : α} {x y : List Io × σ}
    (h : c x = (.ok a, y)) : (c >>= k) x = k a y := by
  change Faulty.bind c k x = _
  unfold Faulty.bind
  rw [h]

lemma bind_error {c : Faulty σ ε α} {k : α → Faulty σ ε β} {e : ε} {x y : List Io × σ}
    (h : c x = (.error e, y)) : (c >>= k) x = (.error e, y) := by
  change Faulty.bind c k x = _
  unfold Faulty.bind
  rw [h]

lemma ensure_ok {p : Prop} [Decidable p] {e : ε} {x : List Io × σ} (h : p) :
    (ensure p e : Faulty σ ε Unit) x = (.ok (), x) := by
  unfold ensure
  rw [if_pos h]
  rfl

/-- An outcome that is a value as `Q` says or an error as `E` says; only under `faults` may
failures be left to come. -/
def Ends (faults : Prop) (Q : α → σ → Prop) (E : ε → σ → Prop) :
    Except ε α × List Io × σ → Prop
  | (.ok a, io, s) => (io = [] ∨ faults) ∧ Q a s
  | (.error e, _, s) => E e s

lemma ends_iff {faults : Prop} {Q : α → σ → Prop} {E : ε → σ → Prop}
    {r : Except ε α × List Io × σ} : Ends faults Q E r ↔
      (∀ a, r.1 = .ok a → (r.2.1 = [] ∨ faults) ∧ Q a r.2.2) ∧
        ∀ e, r.1 = .error e → E e r.2.2 := by
  rcases r with ⟨e | a, io, s⟩ <;> simp [Ends]

/-- From `s`, and with failing I/O calls only under `faults`, the computation ends with a value
as `Q` says or with an error as `E` says. -/
def Meets (faults : Prop) (s : σ) (c : Faulty σ ε α) (Q : α → σ → Prop) (E : ε → σ → Prop) :
    Prop :=
  ∀ io, (io = [] ∨ faults) → Ends faults Q E (c (io, s))

section rules
variable {faults : Prop} {s : σ} {Q Q' : α → σ → Prop} {E E' : ε → σ → Prop}

lemma meets_pure {a : α} (h : Q a s) : Meets faults s (pure a : Faulty σ ε α) Q E :=
  fun _ hio => ⟨hio, h⟩

lemma meets_get {Q : σ → σ → Prop} (h : Q s s) :
    Meets faults s (get : Faulty σ ε σ) Q E :=
  fun _ hio => ⟨hio, h⟩

lemma meets_modify {f : σ → σ} {Q : Unit → σ → Prop} (h : Q () (f s)) :
    Meets faults s (modify f : Faulty σ ε Unit) Q E :=
  fun _ hio => ⟨hio, h⟩

lemma meets_fail {e : ε} (h : E e s) : Meets faults s (fail e : Faulty σ ε α) Q E :=
  fun _ _ => h

lemma meets_ofExcept {x : Except ε α} (hok : ∀ a, x = .ok a → Q a s)
    (herr : ∀ e, x = .error e → E e s) : Meets faults s (ofExcept x : Faulty σ ε α) Q E := by
  intro io hio
  cases x with
  | ok a => exact ⟨hio, hok a rfl⟩
  | error e => exact herr e rfl

lemma meets_ensure {p : Prop} [Decidable p] {e : ε} {Q : Unit → σ → Prop} (hok : p → Q () s)
    (herr : ¬p → E e s) : Meets faults s (ensure p e : Faulty σ ε Unit) Q E := by
  unfold ensure
  split
  · exact meets_pure (hok ‹_›)
  · exact meets_fail (herr ‹_›)

lemma meets_nextIo {Q : Io → σ → Prop} (hdone : Q .done s)
    (hfailed : faults → ∀ k, Q (.failed k) s) :
    Meets faults s (nextIo : Faulty σ ε Io) Q E := by
  intro io hio
  rcases io with _ | ⟨_ | k, io⟩
  · exact ⟨.inl rfl, hdone⟩
  · exact ⟨.inr (hio.resolve_left (by simp)), hdone⟩
  · have hf := hio.resolve_left (by simp)
    exact ⟨.inr hf, hfailed hf k⟩

lemma meets_bind {c : Faulty σ ε α} {k : α → Faulty σ ε β} {Q : β → σ → Prop}
    (h : Meets faults s c (fun a s' => Meets faults s' (k a) Q E) E) :
    Meets faults s (c >>= k) Q E := by
  intro io hio
  have hc := h io hio
  change Ends faults Q E (Faulty.bind c k (io, s))
  unfold Faulty.bind
  generalize c (io, s) = r at hc ⊢
  rcases r with ⟨e | a, io', s'⟩
  · exact hc
  · exact hc.2 io' hc.1

lemma meets_mono {c : Faulty σ ε α} (h : Meets faults s c Q E)
    (hQ : ∀ a s', Q a s' → Q' a s') (hE : ∀ e s', E e s' → E' e s') :
    Meets faults s c Q' E' := by
  intro io hio
  have hc := h io hio
  generalize c (io, s) = r at hc ⊢
  rcases r with ⟨e | a, io', s'⟩
  · exact hE e s' hc
  · exact ⟨hc.1, hQ a s' hc.2⟩

lemma meets_zoom {view : δ → σ} {put : σ → δ → δ} {d : δ} {c : Faulty σ ε α}
    {Q : α → δ → Prop} {E : ε → δ → Prop}
    (h : Meets faults (view d) c (fun a s => Q a (put s d)) fun e s => E e (put s d)) :
    Meets faults d (zoom view put c) Q E := by
  intro io hio
  have hc := h io hio
  unfold zoom
  generalize c (io, view d) = r at hc ⊢
  rcases r with ⟨e | a, io', s'⟩ <;> exact hc

end rules

/-! ### Relations along a computation -/

/-- However the computation ends, its first and its last state are related. -/
def Along (R : σ → σ → Prop) (c : Faulty σ ε α) : Prop := ∀ x, R x.2 (c x).2.2

section along
variable {R : σ → σ → Prop} [IsPreorder σ R]

lemma along_of_eq {c : Faulty σ ε α} (h : ∀ x, (c x).2.2 = x.2) : Along R c := by
  intro x
  rw [h]
  exact refl_of R x.2

lemma along_pure {a : α} : Along R (pure a : Faulty σ ε α) := along_of_eq fun _ => rfl
lemma along_get : Along R (get : Faulty σ ε σ) := along_of_eq fun _ => rfl
lemma along_fail {e : ε} : Along R (fail e : Faulty σ ε α) := along_of_eq fun _ => rfl
lemma along_nextIo : Along R (nextIo : Faulty σ ε Io) := along_of_eq fun _ => rfl
lemma along_ofExcept {x : Except ε α} : Along R (ofExcept x) := along_of_eq fun _ => rfl

lemma along_ensure {p : Prop} [Decidable p] {e : ε} : Along R (ensure p e) := by
  unfold ensure
  split
  · exact along_pure
  · exact along_fail

omit [IsPreorder σ R] in
lemma along_modify {f : σ → σ} (h : ∀ s, R s (f s)) : Along R (modify f : Faulty σ ε Unit) :=
  fun x => h x.2

lemma along_bind {c : Faulty σ ε α} {k : α → Faulty σ ε β} (hc : Along R c)
    (hk : ∀ a, Along R (k a)) : Along R (c >>= k) := by
  intro x
  have hfirst := hc x
  change R x.2 (Faulty.bind c k x).2.2
  unfold Faulty.bind
  generalize c x = r at hfirst ⊢
  rcases r with ⟨e | a, y⟩
  · exact hfirst
  · exact trans_of R hfirst (hk a y)

omit [IsPreorder σ R] in
lemma along_zoom {R' : δ → δ → Prop} {view : δ → σ} {put : σ → δ → δ} {c : Faulty σ ε α}
    (hc : Along R c) (hput : ∀ d s, R (view d) s → R' d (put s d)) :
    Along R' (zoom view put c) :=
  fun x => hput x.2 _ (hc (x.1, view x.2))

omit [IsPreorder σ R] in
lemma Along.meets {c : Faulty σ ε α} (h : Along R c) (s : σ) :
    Meets True s c (fun _ => R s) fun _ => R s :=
  fun io _ => ends_iff.mpr ⟨fun _ _ => ⟨.inr trivial, h (io, s)⟩, fun _ _ => h (io, s)⟩

omit [IsPreorder σ R] in
lemma Meets.along {s : σ} {c : Faulty σ ε α} (h : Meets True s c (fun _ => R s) fun _ => R s)
    (io : List Io) : R s (c (io, s)).2.2 := by
  have hends := ends_iff.mp (h io (.inr trivial))
  rcases hr : (c (io, s)).1 with e | a
  · exact hends.2 e hr
  · exact (hends.1 a hr).2

end along
end Faulty

/-! ### Saving computations -/

/-- The states saved, the result, and the state left. -/
def Saving (σ ε α : Type) := σ → List σ × Except ε α × σ

namespace Saving

protected def bind (c : Saving σ ε α) (k : α → Saving σ ε β) : Saving σ ε β := fun s =>
  match c s with
  | (saves, .ok a, s') => (saves ++ (k a s').1, (k a s').2)
  | (saves, .error e, s') => (saves, .error e, s')

instance : Monad (Saving σ ε) where
  pure a := fun s => ([], .ok a, s)
  bind := Saving.bind

def get : Saving σ ε σ := fun s => ([], .ok s, s)
def modify (f : σ → σ) : Saving σ ε Unit := fun s => ([], .ok (), f s)
/-- An edit that also returns a value. -/
def edit (f : σ → α × σ) : Saving σ ε α := fun s => ([], .ok (f s).1, (f s).2)
def save : Saving σ ε Unit := fun s => ([s], .ok (), s)
def fail (e : ε) : Saving σ ε α := fun s => ([], .error e, s)

lemma get_bind (k : σ → Saving σ ε β) (s : σ) : (get >>= k) s = k s s := rfl
lemma modify_bind (f : σ → σ) (k : Unit → Saving σ ε β) (s : σ) :
    (modify f >>= k) s = k () (f s) := rfl

/-- From `s`, the computation saves only states with `R`, and ends with a value as `Q` says or
with an error as `E` says. -/
def Saves (R : σ → Prop) (s : σ) (c : Saving σ ε α) (Q : α → σ → Prop) (E : ε → σ → Prop) :
    Prop :=
  (∀ x ∈ (c s).1, R x) ∧ (∀ a, (c s).2.1 = .ok a → Q a (c s).2.2) ∧
    ∀ e, (c s).2.1 = .error e → E e (c s).2.2

section rules
variable {R : σ → Prop} {s : σ} {Q Q' : α → σ → Prop} {E E' : ε → σ → Prop}

lemma bind_cases (c : Saving σ ε α) (k : α → Saving σ ε β) (s : σ) :
    (∃ saves a s', c s = (saves, .ok a, s') ∧ (c >>= k) s = (saves ++ (k a s').1, (k a s').2)) ∨
    ∃ saves e s', c s = (saves, .error e, s') ∧ (c >>= k) s = (saves, .error e, s') := by
  change (∃ saves a s', c s = (saves, .ok a, s') ∧ Saving.bind c k s = _) ∨
    ∃ saves e s', c s = (saves, .error e, s') ∧ Saving.bind c k s = _
  rcases h : c s with ⟨saves, e | a, s'⟩
  · exact .inr ⟨saves, e, s', rfl, by simp [Saving.bind, h]⟩
  · exact .inl ⟨saves, a, s', rfl, by simp [Saving.bind, h]⟩

lemma saves_pure {a : α} (h : Q a s) : Saves R s (pure a : Saving σ ε α) Q E := by
  refine ⟨fun _ hx => absurd hx List.not_mem_nil, ?_, ?_⟩
  · rintro b ⟨⟩
    exact h
  · rintro e ⟨⟩

lemma saves_get {Q : σ → σ → Prop} (h : Q s s) : Saves R s (get : Saving σ ε σ) Q E := by
  refine ⟨fun _ hx => absurd hx List.not_mem_nil, ?_, ?_⟩
  · rintro b ⟨⟩
    exact h
  · rintro e ⟨⟩

lemma saves_edit {f : σ → α × σ} (h : Q (f s).1 (f s).2) :
    Saves R s (edit f : Saving σ ε α) Q E := by
  refine ⟨fun _ hx => absurd hx List.not_mem_nil, ?_, ?_⟩
  · rintro b ⟨⟩
    exact h
  · rintro e ⟨⟩

lemma saves_modify {f : σ → σ} {Q : Unit → σ → Prop} (h : Q () (f s)) :
    Saves R s (modify f : Saving σ ε Unit) Q E := by
  refine ⟨fun _ hx => absurd hx List.not_mem_nil, fun _ _ => h, ?_⟩
  rintro e ⟨⟩

lemma saves_save {Q : Unit → σ → Prop} (hR : R s) (h : Q () s) :
    Saves R s (save : Saving σ ε Unit) Q E := by
  refine ⟨fun x hx => ?_, fun _ _ => h, ?_⟩
  · exact List.mem_singleton.mp hx ▸ hR
  · rintro e ⟨⟩

lemma saves_fail {e : ε} (h : E e s) : Saves R s (fail e : Saving σ ε α) Q E := by
  refine ⟨fun _ hx => absurd hx List.not_mem_nil, ?_, ?_⟩
  · rintro a ⟨⟩
  · rintro e' ⟨⟩
    exact h

lemma saves_bind {c : Saving σ ε α} {k : α → Saving σ ε β} {Q : β → σ → Prop}
    (h : Saves R s c (fun a s' => Saves R s' (k a) Q E) E) : Saves R s (c >>= k) Q E := by
  obtain ⟨hsaves, hok, herr⟩ := h
  rcases bind_cases c k s with ⟨saves, a, s', hc, hb⟩ | ⟨saves, e, s', hc, hb⟩
  · rw [hc] at hsaves hok
    obtain ⟨hsaves', hrest⟩ := hok a rfl
    rw [Saves, hb]
    exact ⟨fun x hx => (List.mem_append.mp hx).elim (hsaves x) (hsaves' x), hrest⟩
  · rw [hc] at hsaves herr
    rw [Saves, hb]
    refine ⟨hsaves, ?_, ?_⟩
    · rintro b ⟨⟩
    · rintro e' ⟨⟩
      exact herr e rfl

lemma saves_ite {p : Prop} [Decidable p] {c d : Saving σ ε α} (hc : p → Saves R s c Q E)
    (hd : ¬p → Saves R s d Q E) : Saves R s (if p then c else d) Q E := by
  split
  · exact hc ‹_›
  · exact hd ‹_›

lemma saves_mono {c : Saving σ ε α} (h : Saves R s c Q E) (hQ : ∀ a s', Q a s' → Q' a s')
    (hE : ∀ e s', E e s' → E' e s') : Saves R s c Q' E' :=
  ⟨h.1, fun a ha => hQ a _ (h.2.1 a ha), fun e he => hE e _ (h.2.2 e he)⟩

lemma Saves.and {R' : σ → Prop} {c : Saving σ ε α} (h : Saves R s c Q E)
    (h' : Saves R' s c Q' E) :
    Saves (fun x => R x ∧ R' x) s c (fun a x => Q a x ∧ Q' a x) E :=
  ⟨fun x hx => ⟨h.1 x hx, h'.1 x hx⟩, fun a ha => ⟨h.2.1 a ha, h'.2.1 a ha⟩, h.2.2⟩

lemma Saves.weaken {R' : σ → Prop} {c : Saving σ ε α} (h : Saves R s c Q E)
    (hR : ∀ x, R x → R' x) : Saves R' s c Q E :=
  ⟨fun x hx => hR x (h.1 x hx), h.2⟩

end rules

/-! ### Computations that stay within a relation -/

/-- However it goes, the computation visits only states that are related to its first, and it
returns as `P` says. -/
def Within (rel : σ → σ → Prop) (P : α → Prop) (c : Saving σ ε α) : Prop :=
  ∀ s, Saves (rel s) s c (fun a s' => rel s s' ∧ P a) fun _ => rel s

section within
variable {rel : σ → σ → Prop} [IsPreorder σ rel] {P : α → Prop} {P' : β → Prop}

lemma within_pure {a : α} (h : P a) : Within rel P (pure a : Saving σ ε α) :=
  fun s => saves_pure ⟨refl_of rel s, h⟩

omit [IsPreorder σ rel] in
lemma within_edit {f : σ → α × σ} (h : ∀ s, rel s (f s).2 ∧ P (f s).1) :
    Within rel P (edit f : Saving σ ε α) :=
  fun s => saves_edit (h s)

omit [IsPreorder σ rel] in
/-- After a computation that stays within a relation. -/
lemma saves_bind_of_within {c : Saving σ ε α} {k : α → Saving σ ε β} {R : σ → Prop} {s : σ}
    {Q : β → σ → Prop} {E : ε → σ → Prop} (hc : Within rel P c) (hR : ∀ x, rel s x → R x)
    (hE : ∀ e x, rel s x → E e x) (hk : ∀ a s', rel s s' → P a → Saves R s' (k a) Q E) :
    Saves R s (c >>= k) Q E := by
  apply saves_bind
  refine saves_mono ((hc s).weaken hR) ?_ hE
  exact fun a s' h => hk a s' h.1 h.2

lemma within_bind {c : Saving σ ε α} {k : α → Saving σ ε β} (hc : Within rel P c)
    (hk : ∀ a, P a → Within rel P' (k a)) : Within rel P' (c >>= k) := by
  intro s
  refine saves_bind_of_within hc (fun _ => id) (fun _ _ => id) ?_
  intro a s' hs ha
  refine saves_mono ((hk a ha s').weaken fun x => trans_of rel hs) ?_ fun _ x => trans_of rel hs
  exact fun b x h => ⟨trans_of rel hs h.1, h.2⟩

omit [IsPreorder σ rel] in
lemma Within.mono {rel' : σ → σ → Prop} {Q : α → Prop} {c : Saving σ ε α} (h : Within rel P c)
    (hrel : ∀ s s', rel s s' → rel' s s') (hP : ∀ a, P a → Q a) : Within rel' Q c :=
  fun s => saves_mono ((h s).weaken (hrel s)) (fun a _ ha => ⟨hrel s _ ha.1, hP a ha.2⟩)
    fun _ => hrel s

end within

/-! ### Computations that return -/

/-- From every state the computation returns. -/
def Completes (c : Saving σ ε α) : Prop := ∀ s, ∃ a, (c s).2.1 = .ok a

section completes

lemma completes_pure {a : α} : Completes (pure a : Saving σ ε α) := fun _ => ⟨a, rfl⟩

lemma completes_save : Completes (save : Saving σ ε Unit) := fun _ => ⟨(), rfl⟩

lemma completes_edit {f : σ → α × σ} : Completes (edit f : Saving σ ε α) := fun s => ⟨(f s).1, rfl⟩

lemma completes_bind {c : Saving σ ε α} {k : α → Saving σ ε β} (hc : Completes c)
    (hk : ∀ a, Completes (k a)) : Completes (c >>= k) := by
  intro s
  rcases bind_cases c k s with ⟨saves, a, s', hs, hb⟩ | ⟨saves, e, s', hs, hb⟩
  · obtain ⟨b, hb'⟩ := hk a s'
    exact ⟨b, by rw [hb, hb']⟩
  · obtain ⟨a, ha⟩ := hc s
    rw [hs] at ha
    cases ha

end completes

/-! ### What a computation returns -/

/-- From `s`, the computation returns a value and leaves a state. -/
def Returns (c : Saving σ ε α) (s : σ) (a : α) (s' : σ) : Prop := (c s).2 = (.ok a, s')

section returns
variable {s s' : σ}

lemma returns_bind {c : Saving σ ε α} {k : α → Saving σ ε β} {b : β} :
    Returns (c >>= k) s b s' ↔ ∃ a t, Returns c s a t ∧ Returns (k a) t b s' := by
  unfold Returns
  rcases bind_cases c k s with ⟨saves, a, t, hc, hb⟩ | ⟨saves, e, t, hc, hb⟩
  · rw [hc, hb]
    constructor
    · exact fun h => ⟨a, t, rfl, h⟩
    · rintro ⟨a', t', ht, h⟩
      cases ht
      exact h
  · rw [hc, hb]
    constructor
    · rintro ⟨⟩
    · rintro ⟨a', t', ht, -⟩
      cases ht

@[simp] lemma returns_pure {a b : α} :
    Returns (pure a : Saving σ ε α) s b s' ↔ b = a ∧ s' = s := by
  constructor
  · rintro ⟨⟩
    exact ⟨rfl, rfl⟩
  · rintro ⟨rfl, rfl⟩
    rfl

@[simp] lemma returns_get {a : σ} :
    Returns (get : Saving σ ε σ) s a s' ↔ a = s ∧ s' = s := by
  constructor
  · rintro ⟨⟩
    exact ⟨rfl, rfl⟩
  · rintro ⟨rfl, rfl⟩
    rfl

end returns
end Saving

/-! ### Running on a backend -/

/-- A backend holds a working copy of the state and can be asked to save a state. -/
structure Backend (σ ε δ : Type) where
  view : δ → σ
  set : σ → δ → δ
  put : σ → Faulty δ ε Unit
  view_set : ∀ s d, view (set s d) = s
  set_set : ∀ s t d, set s (set t d) = set s d
  put_set : ∀ s t io d, put s (io, set t d) = put s (io, d)

namespace Backend

open Faulty

variable (B : Backend σ ε δ)

def putAll : List σ → Faulty δ ε Unit
  | [] => pure ()
  | s :: rest => do
    B.put s
    putAll rest

/-- Run a saving computation on the working copy. -/
def run (c : Saving σ ε α) : Faulty δ ε α := do
  let d ← get
  B.putAll (c (B.view d)).1
  modify (B.set (c (B.view d)).2.2)
  ofExcept (c (B.view d)).2.1

lemma run_apply (c : Saving σ ε α) (io : List Io) (d : δ) :
    B.run c (io, d) =
      match B.putAll (c (B.view d)).1 (io, d) with
      | (.ok (), io', d') => ((c (B.view d)).2.1, io', B.set (c (B.view d)).2.2 d')
      | (.error e, s) => (.error e, s) := by
  change Faulty.bind (B.putAll _) _ _ = _
  unfold Faulty.bind
  rcases B.putAll (c (B.view d)).1 (io, d) with ⟨e | u, s⟩ <;> rfl

lemma run_unsaved {c : Saving σ ε α} {d : δ} (h : (c (B.view d)).1 = []) (io : List Io) :
    B.run c (io, d) = ((c (B.view d)).2.1, io, B.set (c (B.view d)).2.2 d) := by
  rw [run_apply, h]
  rfl

/-- What is returned is what the computation returns, and all its states were saved. -/
lemma run_ok {c : Saving σ ε α} {a : α} {io : List Io} {d : δ}
    (h : (B.run c (io, d)).1 = .ok a) :
    (c (B.view d)).2.1 = .ok a ∧ (B.putAll (c (B.view d)).1 (io, d)).1 = .ok () := by
  rw [run_apply] at h
  rcases hp : B.putAll (c (B.view d)).1 (io, d) with ⟨e | u, io', d'⟩
  · rw [hp] at h
    cases h
  · rw [hp] at h
    exact ⟨h, rfl⟩

lemma run_ok_view {c : Saving σ ε α} {a : α} {io : List Io} {d : δ}
    (h : (B.run c (io, d)).1 = .ok a) :
    B.view (B.run c (io, d)).2.2 = (c (B.view d)).2.2 := by
  rw [run_apply] at h ⊢
  rcases hp : B.putAll (c (B.view d)).1 (io, d) with ⟨e | u, io', d'⟩
  · rw [hp] at h
    cases h
  · exact B.view_set _ _

lemma putAll_cons (s : σ) (rest : List σ) (x : List Io × δ) :
    B.putAll (s :: rest) x =
      match B.put s x with
      | (.ok (), x') => B.putAll rest x'
      | (.error e, x') => (.error e, x') := by
  change Faulty.bind (B.put s) _ x = _
  unfold Faulty.bind
  rcases B.put s x with ⟨e | u, x'⟩ <;> rfl

lemma putAll_append (xs ys : List σ) (x : List Io × δ) :
    B.putAll (xs ++ ys) x =
      match B.putAll xs x with
      | (.ok (), x') => B.putAll ys x'
      | (.error e, x') => (.error e, x') := by
  induction xs generalizing x with
  | nil => rfl
  | cons s xs ih =>
    rw [List.cons_append, putAll_cons, putAll_cons]
    rcases B.put s x with ⟨e | u, x'⟩
    · rfl
    · exact ih x'

lemma putAll_set (s : σ) (xs : List σ) (io : List Io) (d : δ) (h : xs ≠ []) :
    B.putAll xs (io, B.set s d) = B.putAll xs (io, d) := by
  rcases xs with _ | ⟨x, xs⟩
  · exact absurd rfl h
  · rw [putAll_cons, putAll_cons, B.put_set]

/-- A property of the working copy that every saved state has is kept, also when a save fails. -/
lemma putAll_view {R : σ → Prop} (hput : ∀ s x, B.view (B.put s x).2.2 = s) {xs : List σ}
    (hxs : ∀ x ∈ xs, R x) {x : List Io × δ} (h : R (B.view x.2)) :
    R (B.view (B.putAll xs x).2.2) := by
  induction xs generalizing x with
  | nil => exact h
  | cons s xs ih =>
    have hs : R (B.view (B.put s x).2.2) := by
      rw [hput]
      exact hxs s (by simp)
    rw [putAll_cons]
    generalize B.put s x = r at hs
    rcases r with ⟨e | u, y⟩
    · exact hs
    · exact ih (fun x hx => hxs x (by simp [hx])) hs

lemma run_view {R : σ → Prop} (hput : ∀ s x, B.view (B.put s x).2.2 = s) {c : Saving σ ε α}
    {x : List Io × δ} (h : R (B.view x.2))
    (hc : Saving.Saves R (B.view x.2) c (fun _ => R) fun _ => R) :
    R (B.view (B.run c x).2.2) := by
  have hall := B.putAll_view hput hc.1 h
  rw [run_apply]
  rcases hp : B.putAll (c (B.view x.2)).1 (x.1, x.2) with ⟨e | u, io, d⟩
  · rw [hp] at hall
    exact hall
  · rw [B.view_set]
    rcases hr : (c (B.view x.2)).2.1 with e | a
    · exact hc.2.2 e hr
    · exact hc.2.1 a hr

/-- **Saving at the end**: it is the same as saving along the way. -/
theorem run_bind (c : Saving σ ε α) (k : α → Saving σ ε β) (io : List Io) (d : δ) :
    B.run (c >>= k) (io, d) = (B.run c >>= fun a => B.run (k a)) (io, d) := by
  change _ = Faulty.bind (B.run c) (fun a => B.run (k a)) (io, d)
  unfold Faulty.bind
  rw [run_apply, run_apply]
  rcases Saving.bind_cases c k (B.view d) with ⟨saves, a, s', h, hb⟩ | ⟨saves, e, s', h, hb⟩
  · rw [h, hb, putAll_append]
    rcases hp : B.putAll saves (io, d) with ⟨e | u, io', d'⟩
    · rfl
    · simp only [run_apply, B.view_set]
      rcases hk : (k a s').1 with _ | ⟨x, xs⟩
      · change _ = (_, io', B.set _ (B.set _ d'))
        rw [B.set_set]
        rfl
      · rw [← hk, B.putAll_set _ _ _ _ (by simp [hk])]
  · rw [h, hb]
    rcases B.putAll saves (io, d) with ⟨e' | u, d'⟩ <;> rfl

end Backend
end Netband.Effects

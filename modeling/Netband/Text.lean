import Mathlib

/-!
Texts addressed by byte offsets, as UTF-8 strings are.

A text can be cut only between two characters; a search returns the byte offset of what it finds.
-/

namespace Netband.Text

/-- A text, by its characters. -/
abbrev Chars := List Char

def byteLen (s : Chars) : ℕ := (s.map Char.utf8Size).sum

@[simp] lemma byteLen_nil : byteLen [] = 0 := rfl

@[simp] lemma byteLen_cons (c : Char) (s : Chars) : byteLen (c :: s) = c.utf8Size + byteLen s := by
  simp [byteLen]

@[simp] lemma byteLen_append (s t : Chars) : byteLen (s ++ t) = byteLen s + byteLen t := by
  simp [byteLen]

lemma byteLen_pos {s : Chars} (h : s ≠ []) : 0 < byteLen s := by
  obtain ⟨c, s, rfl⟩ := List.exists_cons_of_ne_nil h
  have := c.utf8Size_pos
  rw [byteLen_cons]
  omega

/-! ### Cuts -/

/-- Cut a text at a byte offset; `none` inside a character and behind the end. -/
def cut (s : Chars) (offset : ℕ) : Option (Chars × Chars) :=
  if offset = 0 then some ([], s)
  else
    match s with
    | [] => none
    | c :: s =>
      if c.utf8Size ≤ offset then (cut s (offset - c.utf8Size)).map fun p => (c :: p.1, p.2)
      else none

@[simp] lemma cut_zero (s : Chars) : cut s 0 = some ([], s) := by
  unfold cut
  simp

lemma cut_append (s t : Chars) : cut (s ++ t) (byteLen s) = some (s, t) := by
  induction s with
  | nil => exact cut_zero t
  | cons c s ih =>
    have hpos := c.utf8Size_pos
    have hne : byteLen (c :: s) ≠ 0 := by
      rw [byteLen_cons]
      omega
    have hle : c.utf8Size ≤ byteLen (c :: s) := by
      rw [byteLen_cons]
      omega
    have hrest : byteLen (c :: s) - c.utf8Size = byteLen s := by
      rw [byteLen_cons]
      omega
    rw [List.cons_append, cut, if_neg hne]
    simp only [hle, if_true, hrest, ih, Option.map_some]

lemma of_cut_eq_some {s a b : Chars} {offset : ℕ} (h : cut s offset = some (a, b)) :
    s = a ++ b ∧ byteLen a = offset := by
  induction s generalizing a b offset with
  | nil =>
    unfold cut at h
    split_ifs at h with h0
    cases h
    exact ⟨rfl, h0.symm⟩
  | cons c s ih =>
    by_cases h0 : offset = 0
    · rw [h0, cut_zero] at h
      cases h
      exact ⟨rfl, h0.symm⟩
    by_cases hle : c.utf8Size ≤ offset
    · simp only [cut, h0, if_false, hle, if_true] at h
      obtain ⟨⟨a', b'⟩, hp, heq⟩ := Option.map_eq_some_iff.mp h
      cases heq
      obtain ⟨rfl, hlen⟩ := ih hp
      refine ⟨rfl, ?_⟩
      rw [byteLen_cons, hlen]
      omega
    · simp only [cut, h0, if_false, hle] at h
      cases h

/-! ### Searches -/

/-- The byte offset of the first suffix with a property. -/
def search (p : Chars → Bool) : Chars → Option ℕ
  | [] => if p [] then some 0 else none
  | c :: s => if p (c :: s) then some 0 else (search p s).map (c.utf8Size + ·)

/-- The first suffix with a property starts here. -/
structure Found (p : Chars → Bool) (before after : Chars) : Prop where
  holds : p after = true
  first : ∀ a b, before = a ++ b → b ≠ [] → p (b ++ after) = false

lemma search_cases (p : Chars → Bool) (s : Chars) :
    (search p s = none ∧ ∀ a b, s = a ++ b → p b = false) ∨
      ∃ a b, s = a ++ b ∧ search p s = some (byteLen a) ∧ Found p a b := by
  induction s with
  | nil =>
    by_cases hp : p [] = true
    · refine .inr ⟨[], [], rfl, by simp [search, hp], hp, fun a b hab hb => ?_⟩
      exact absurd (List.append_eq_nil_iff.mp hab.symm).2 hb
    · refine .inl ⟨by simp [search, hp], fun a b hab => ?_⟩
      rw [(List.append_eq_nil_iff.mp hab.symm).2]
      simpa using hp
  | cons c s ih =>
    by_cases hp : p (c :: s) = true
    · refine .inr ⟨[], c :: s, rfl, by simp [search, hp], hp, fun a b hab hb => ?_⟩
      exact absurd (List.append_eq_nil_iff.mp hab.symm).2 hb
    · rcases ih with ⟨hnone, hnot⟩ | ⟨a, b, rfl, hsome, hholds, hfirst⟩
      · refine .inl ⟨by simp [search, hp, hnone], fun a b hab => ?_⟩
        rcases a with _ | ⟨d, a⟩
        · rw [← List.nil_append b, ← hab]
          simpa using hp
        · exact hnot a b (List.cons.inj hab).2
      · refine .inr ⟨c :: a, b, rfl, by simp [search, hp, hsome], hholds, fun x y hxy hy => ?_⟩
        rcases x with _ | ⟨d, x⟩
        · rw [← List.nil_append y, ← hxy]
          simpa using hp
        · exact hfirst x y (List.cons.inj hxy).2 hy

/-! ### Lower case -/

/-- `to_ascii_lowercase`. -/
def lower (s : Chars) : Chars := s.map Char.toLower

@[simp] lemma lower_cons (c : Char) (s : Chars) : lower (c :: s) = c.toLower :: lower s := rfl

@[simp] lemma lower_append (s t : Chars) : lower (s ++ t) = lower s ++ lower t := List.map_append

@[simp] lemma length_lower (s : Chars) : (lower s).length = s.length := List.length_map _

/-- Only the letters A to Z have another lower case, and it is one of a to z. -/
lemma toLower_cases (c : Char) :
    c.toLower = c ∨ (65 ≤ c.toNat ∧ c.toNat ≤ 90 ∧ c.toLower.toNat = c.toNat + 32) := by
  by_cases h : c.val ≥ 'A'.val ∧ c.val ≤ 'Z'.val
  · right
    have hlow : 65 ≤ c.toNat := UInt32.le_iff_toNat_le.mp h.1
    have hhigh : c.toNat ≤ 90 := UInt32.le_iff_toNat_le.mp h.2
    refine ⟨hlow, hhigh, ?_⟩
    have hval : c.toLower.val = c.val + 32 := by
      rw [Char.toLower, dif_pos h]
      rfl
    change c.toLower.val.toNat = c.val.toNat + 32
    have hlt : c.val.toNat ≤ 90 := hhigh
    rw [hval, UInt32.toNat_add]
    exact Nat.mod_eq_of_lt (by
      have : (32 : UInt32).toNat = 32 := rfl
      omega)
  · left
    rw [Char.toLower, dif_neg h]

lemma utf8Size_of_toNat_lt {c : Char} (h : c.toNat < 128) : c.utf8Size = 1 :=
  Char.utf8Size_eq_one_iff.mpr (UInt32.le_iff_toNat_le.mpr (Nat.le_of_lt_succ h))

@[simp] lemma utf8Size_toLower (c : Char) : c.toLower.utf8Size = c.utf8Size := by
  rcases toLower_cases c with h | ⟨-, hhigh, hlower⟩
  · rw [h]
  · rw [utf8Size_of_toNat_lt (by omega), utf8Size_of_toNat_lt (by omega)]

@[simp] lemma byteLen_lower (s : Chars) : byteLen (lower s) = byteLen s := by
  simp [byteLen, lower, Function.comp_def]

end Netband.Text

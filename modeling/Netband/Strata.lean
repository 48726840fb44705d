import Mathlib.Tactic

/-!
An interval of `total` units cut into `count` strata of nearly equal widths, and the centred
part of a stratum: the middle `pct` percent of its width, rounded down.
-/

namespace Netband.Strata

/-- Where stratum `index` starts. Stratum `index` ends where the next one starts. -/
def cut (total : ℤ) (count index : ℕ) : ℤ := total * index / count

def width (total : ℤ) (count index : ℕ) : ℤ := cut total count (index + 1) - cut total count index

/-- The room that `pct` percent of a width leave to a draw. -/
def room (pct : ℕ) (width : ℤ) : ℤ := width * pct / 100

/-- The first unit of the centred part of stratum `index`. -/
def centre (pct : ℕ) (total : ℤ) (count index : ℕ) : ℤ :=
  cut total count index + (width total count index - room pct (width total count index)) / 2

/-- A unit lies in the centred part of stratum `index`; a part with no room is its first unit. -/
def Centred (pct : ℕ) (total : ℤ) (count index : ℕ) (offset : ℤ) : Prop :=
  centre pct total count index ≤ offset ∧
    offset < centre pct total count index + max (room pct (width total count index)) 1

variable {pct : ℕ} {total : ℤ} {count index : ℕ}

variable (count index) in
lemma cut_nonneg (ht : 0 ≤ total) : 0 ≤ cut total count index :=
  Int.ediv_nonneg (by positivity) (by positivity)

lemma cut_le (ht : 0 ≤ total) (hc : 0 < count) (hi : index ≤ count) :
    cut total count index ≤ total := by
  apply Int.ediv_le_of_le_mul (by exact_mod_cast hc)
  exact mul_le_mul_of_nonneg_left (by exact_mod_cast hi) ht

lemma cut_lt (ht : 0 < total) (hc : 0 < count) (hi : index < count) :
    cut total count index < total := by
  apply Int.ediv_lt_of_lt_mul (by exact_mod_cast hc)
  exact mul_lt_mul_of_pos_left (by exact_mod_cast hi) ht

variable (total index) in
/-- **Near-equal strata**: a stratum is as wide as the quotient, or one unit wider. -/
theorem width_eq (hc : 0 < count) :
    width total count index = total / count ∨ width total count index = total / count + 1 := by
  have hc' : (0 : ℤ) < count := by exact_mod_cast hc
  have hnext : total * ((index + 1 : ℕ) : ℤ) = total * index + total := by push_cast; ring
  have h₁ := Int.mul_ediv_self_le (x := total * index) hc'.ne'
  have h₂ := Int.lt_mul_ediv_self_add (x := total * index) hc'
  have h₃ := Int.mul_ediv_self_le (x := total * index + total) hc'.ne'
  have h₄ := Int.lt_mul_ediv_self_add (x := total * index + total) hc'
  have h₅ := Int.mul_ediv_self_le (x := total) hc'.ne'
  have h₆ := Int.lt_mul_ediv_self_add (x := total) hc'
  simp only [width, cut, hnext]
  generalize (total * index + total) / (count : ℤ) = b at *
  generalize total * index / (count : ℤ) = a at *
  generalize total / (count : ℤ) = q at *
  have hlow : (count : ℤ) * (b - a - q) < count * 2 := by linarith
  have hhigh : (count : ℤ) * (-1) < count * (b - a - q) := by linarith
  have hlow := lt_of_mul_lt_mul_left hlow hc'.le
  have hhigh := lt_of_mul_lt_mul_left hhigh hc'.le
  omega

variable (index) in
/-- When there is a unit for every stratum, no stratum is empty. -/
lemma width_pos (hc : 0 < count) (h : (count : ℤ) ≤ total) : 0 < width total count index := by
  have hq : 1 ≤ total / count := Int.le_ediv_of_mul_le (by exact_mod_cast hc) (by simpa using h)
  rcases width_eq total index hc with hw | hw <;> omega

lemma room_le (hp : pct ≤ 100) {w : ℤ} (hw : 0 ≤ w) : room pct w ≤ w := by
  apply Int.ediv_le_of_le_mul (by decide)
  exact mul_le_mul_of_nonneg_left (by exact_mod_cast hp) hw

variable (pct) in
lemma room_nonneg {w : ℤ} (hw : 0 ≤ w) : 0 ≤ room pct w :=
  Int.ediv_nonneg (by positivity) (by decide)

/-- One more unit of width is at most one more unit of room. -/
lemma room_succ (hp : pct ≤ 100) (w : ℤ) :
    room pct (w + 1) = room pct w ∨ room pct (w + 1) = room pct w + 1 := by
  have h : (w + 1) * pct = w * pct + pct := by ring
  simp only [room, h]
  omega

/-- **Gap**: units in the centred parts of adjacent strata are as far apart as the quotient
leaves beside its room, whatever was drawn and whichever of the two strata is wider. -/
theorem Centred.gap {offset next : ℤ} (hp : pct ≤ 100) (hc : 0 < count)
    (hq : 1 ≤ total / count) (h : Centred pct total count index offset)
    (hn : Centred pct total count (index + 1) next) :
    total / count - room pct (total / count) ≤ next - offset := by
  obtain ⟨-, hlast⟩ := h
  obtain ⟨hfirst, -⟩ := hn
  have hend : cut total count (index + 1) = cut total count index + width total count index := by
    simp only [width]
    ring
  have hroom := room_succ hp (total / count)
  have hquot : 0 ≤ total / count := by omega
  have hle := room_le hp hquot
  have hnonneg := room_nonneg pct hquot
  simp only [centre] at hlast hfirst
  -- both strata may be the wide one: the room grows with the width in at most one of two ways
  rcases width_eq total index hc with hw | hw <;>
    rcases width_eq total (index + 1) hc with hw' | hw' <;>
    rw [hw] at hlast hend <;> rw [hw'] at hfirst <;> omega

end Netband.Strata

import Mathlib.Tactic

/-!
Append-only files of text lines, and the codecs that write one line.

A file that ends with a line break is a list of lines; one that does not was cut inside its
last line. Lines are appended whole or cut at some byte, so a file is a list of lines and a
torn tail without line break.
-/

namespace Netband.Lines

abbrev Bytes := List UInt8

def newline : UInt8 := 10

/-- A text codec: what it writes reads back, is not empty, and has no line break. -/
structure Codec (α : Type) where
  encode : α → Bytes
  decode : Bytes → Except String α
  decode_encode : ∀ a, decode (encode a) = .ok a
  encode_ne_nil : ∀ a, encode a ≠ []
  no_newline : ∀ a, newline ∉ encode a

namespace Codec
variable {α : Type} (C : Codec α)

lemma encode_injective : Function.Injective C.encode := by
  intro a b h
  have := C.decode_encode a
  rw [h, C.decode_encode b] at this
  exact (Except.ok.inj this).symm

end Codec

def line (b : Bytes) : Bytes := b ++ [newline]

/-- The file that holds the given lines. -/
def unlines (ls : List Bytes) : Bytes := ls.flatMap line

/-- The lines of a file, unless its last line is incomplete. -/
def lines (file : Bytes) : Option (List Bytes) :=
  if file.getLast? = some newline then some (file.dropLast.splitOn newline) else none

@[simp] lemma unlines_nil : unlines [] = [] := rfl
@[simp] lemma unlines_cons (l : Bytes) (ls : List Bytes) :
    unlines (l :: ls) = line l ++ unlines ls := rfl
lemma unlines_append (ls ms : List Bytes) : unlines (ls ++ ms) = unlines ls ++ unlines ms := by
  simp [unlines]

lemma unlines_eq_intercalate {ls : List Bytes} (h : ls ≠ []) :
    unlines ls = [newline].intercalate ls ++ [newline] := by
  induction ls with
  | nil => exact absurd rfl h
  | cons l ls ih =>
    rcases ls with _ | ⟨m, ls⟩
    · simp [line, List.intercalate]
    · rw [unlines_cons, ih (by simp), List.intercalate_cons_cons]
      simp [line]

lemma append_cons_inj {α : Type} {c : α} {a b r s : List α} (ha : c ∉ a) (hb : c ∉ b)
    (h : a ++ c :: r = b ++ c :: s) : a = b ∧ r = s := by
  induction a generalizing b with
  | nil =>
    rcases b with _ | ⟨x, b⟩
    · exact ⟨rfl, (List.cons.inj h).2⟩
    · have hx : c = x := (List.cons.inj h).1
      simp [← hx] at hb
  | cons y a ih =>
    rcases b with _ | ⟨x, b⟩
    · have hy : y = c := (List.cons.inj h).1
      simp [hy] at ha
    · simp only [List.cons_append, List.cons.injEq] at h
      obtain ⟨rfl, h⟩ := h
      obtain ⟨rfl, rfl⟩ := ih (fun hc => ha (by simp [hc])) (fun hc => hb (by simp [hc])) h
      exact ⟨rfl, rfl⟩

/-- A file that begins with another one has its lines first. -/
lemma unlines_prefix {ls ms : List Bytes} {torn : Bytes} (hl : ∀ l ∈ ls, newline ∉ l)
    (hm : ∀ m ∈ ms, newline ∉ m) (h : unlines ls ++ torn <+: unlines ms) : ls <+: ms := by
  induction ls generalizing ms with
  | nil => exact List.nil_prefix
  | cons l ls ih =>
    obtain ⟨rest, h⟩ := h
    rcases ms with _ | ⟨m, ms⟩
    · simp [line] at h
    · have h : l ++ newline :: (unlines ls ++ torn ++ rest) = m ++ newline :: unlines ms := by
        simpa [line] using h
      obtain ⟨rfl, hrest⟩ := append_cons_inj (hl l (by simp)) (hm m (by simp)) h
      exact List.cons_prefix_cons.mpr ⟨rfl, ih (fun k hk => hl k (by simp [hk]))
        (fun k hk => hm k (by simp [hk])) ⟨rest, hrest⟩⟩

/-- What is written reads back. -/
theorem lines_unlines {ls : List Bytes} (hne : ls ≠ []) (h : ∀ l ∈ ls, newline ∉ l) :
    lines (unlines ls) = some ls := by
  rw [unlines_eq_intercalate hne, lines, if_pos (by simp), List.dropLast_concat,
    List.splitOn_intercalate newline h hne]

/-- A file cut inside its last line is not read. -/
theorem lines_torn {file torn : Bytes} (hne : torn ≠ []) (h : newline ∉ torn) :
    lines (file ++ torn) = none := by
  refine if_neg fun hlast => h ?_
  rw [List.getLast?_append_of_ne_nil _ hne] at hlast
  exact List.mem_of_getLast? hlast

/-- The number of line breaks is the number of complete lines. -/
lemma count_unlines {ls : List Bytes} (h : ∀ l ∈ ls, newline ∉ l) :
    (unlines ls).count newline = ls.length := by
  induction ls with
  | nil => rfl
  | cons l ls ih =>
    have hl : l.count newline = 0 := List.count_eq_zero.mpr (h l (by simp))
    rw [unlines_cons, List.count_append, ih fun m hm => h m (by simp [hm])]
    simp [line, hl, Nat.add_comm]

lemma take_of_lt_line {b : Bytes} {k : ℕ} (hk : k < (line b).length) :
    (line b).take k = b.take k := by
  rw [line, List.length_append, List.length_singleton] at hk
  exact List.take_append_of_le_length (by omega)

end Netband.Lines

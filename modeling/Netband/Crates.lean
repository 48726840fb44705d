import Netband.Encoding
import Netband.Spans

/-!
The crates that a journal is written and read with.

They are parameters: what a journal relies on is what their documentation says of them.
-/

namespace Netband.Journal

open Netband.Time Netband.Encoding Netband.Lines Netband.Csv

/-- The reader and the writer of the csv crate, and how chrono writes a time as
`%Y%m%dT%H%M%S%.3fZ`. -/
class Crates where
  read : Bytes → List Record
  writeRecord : List Bytes → Bytes
  compactText : ℤ → String
  -- a reader of RFC 4180, for which the end of the input ends an open record
  read_eq : ∀ {rest : Bytes} {place : Place}, walk .first rest = .within place →
    ∀ spans, read (bytesOf spans ++ rest) = placed 0 spans ++
      place.last (bytesOf spans).length (bytesOf spans ++ rest).length
  -- fields are quoted where it is necessary, and a record ends with CR LF
  writeRecord_eq : ∀ {fields : List Bytes}, 2 ≤ fields.length →
    writeRecord fields = writeFields fields ++ [cr, lf]
  -- a year of four digits has no sign, and a later one has a plus
  compactText_plain : ∀ {t : ℤ}, yearOf (dateNaive t) ≤ 9999 → ∀ c ∈ (compactText t).toList,
    c.isAlphanum = true ∨ c = '-' ∨ c = '.'
  compactText_signed : ∀ {t : ℤ}, 9999 < yearOf (dateNaive t) → '+' ∈ (compactText t).toList

end Netband.Journal

/-! ### Crates that do so -/

namespace Netband.Standard

open Netband.Time Netband.Encoding Netband.Lines Netband.Csv

/-- Read on to the end of a record: its fields, and the rest of the input. -/
def scan : Mode → List Bytes → Bytes → Bytes → Option (List Bytes × Bytes)
  | mode, fields, field, [] => if mode = .startRecord then none else some (fields ++ [field], [])
  | mode, fields, field, c :: rest =>
    match action mode c with
    | .discard mode => scan mode fields field rest
    | .copy mode => scan mode fields (field ++ [c]) rest
    | .endField => scan .startField (fields ++ [field]) [] rest
    | .endRecord => some (fields ++ [field], rest)

/-- As many records as there can be: each takes a byte. -/
def readFrom : ℕ → ℕ → Bytes → List Record
  | 0, _, _ => []
  | rounds + 1, start, bytes =>
    match scan .startRecord [] [] bytes with
    | none => []
    | some (fields, rest) =>
      let stop := start + (bytes.length - rest.length)
      ⟨start, fields, stop⟩ :: readFrom rounds stop rest

def read (bytes : Bytes) : List Record := readFrom bytes.length 0 bytes

def writeRecord (fields : List Bytes) : Bytes := writeFields fields ++ [cr, lf]

def compactText (t : ℤ) : String :=
  let day := dateNaive t
  let y := yearOf day
  let md := monthDay (monthLengths (isLeap y)) (day - daysBeforeYear y).toNat
  let n := (t - dayStart day).toNat
  let s := n / 1000000000
  yearText y ++ padded 2 md.1 ++ padded 2 md.2 ++ "T" ++ padded 2 (s / 3600)
    ++ padded 2 (s / 60 % 60) ++ padded 2 (s % 60) ++ "." ++ padded 3 (n % 1000000000 / 1000000)
    ++ "Z"

lemma scan_eq (p : Place) (bytes : Bytes) : scan p.mode p.fields p.field bytes =
    match walk p bytes with
    | .closed fields rest => some (fields, rest)
    | .within q => if q.mode = .startRecord then none else some (q.fields ++ [q.field], []) := by
  induction bytes generalizing p with
  | nil => rfl
  | cons c rest ih =>
    cases h : action p.mode c with
    | discard mode =>
      rw [walk_discard h, scan, h]
      exact ih { p with mode }
    | copy mode =>
      rw [walk_copy h, scan, h]
      exact ih ⟨mode, p.fields, p.field ++ [c]⟩
    | endField =>
      rw [walk_endField h, scan, h]
      exact ih ⟨.startField, p.fields ++ [p.field], []⟩
    | endRecord => rw [walk_endRecord h, scan, h]

lemma readFrom_nil (rounds start : ℕ) : readFrom rounds start [] = [] := by
  cases rounds <;> rfl

lemma readFrom_eq {rest : Bytes} {place : Place} (h : walk .first rest = .within place)
    (spans : List Span) {rounds start : ℕ} (hrounds : (bytesOf spans ++ rest).length ≤ rounds) :
    readFrom rounds start (bytesOf spans ++ rest) = placed start spans ++
      place.last (start + (bytesOf spans).length) (start + (bytesOf spans ++ rest).length) := by
  induction spans generalizing rounds start with
  | nil =>
    simp only [bytesOf_nil, List.nil_append, placed, List.length_nil, Nat.add_zero] at *
    cases rounds with
    | zero =>
      obtain rfl : rest = [] := List.eq_nil_of_length_eq_zero (by omega)
      obtain rfl : Place.first = place := by simpa using h
      rfl
    | succ rounds =>
      have hscan := scan_eq .first rest
      rw [h] at hscan
      change scan .startRecord [] [] rest = _ at hscan
      rw [readFrom, hscan, Place.last]
      by_cases hmode : place.mode = .startRecord
      · simp [hmode]
      · simp [hmode, readFrom_nil]
  | cons s spans ih =>
    have hpos := s.length_pos
    cases rounds with
    | zero =>
      simp only [bytesOf_cons, List.length_append] at hrounds
      omega
    | succ rounds =>
      have hscan := scan_eq .first (bytesOf (s :: spans) ++ rest)
      rw [bytesOf_cons, List.append_assoc, walk_append_closed s.closed] at hscan
      change scan .startRecord [] [] _ = _ at hscan
      rw [bytesOf_cons, List.append_assoc, readFrom, hscan]
      simp only [List.nil_append, List.length_append, bytesOf_cons] at hrounds ⊢
      rw [ih (by simp; omega), placed]
      have hstop : start + (s.bytes.length + ((bytesOf spans).length + rest.length) -
          ((bytesOf spans).length + rest.length)) = start + s.bytes.length := by omega
      simp only [hstop, List.length_append, List.cons_append, Nat.add_assoc]

/-- The records of an input. -/
lemma read_eq {rest : Bytes} {place : Place} (h : walk .first rest = .within place)
    (spans : List Span) : read (bytesOf spans ++ rest) = placed 0 spans ++
      place.last (bytesOf spans).length (bytesOf spans ++ rest).length := by
  rw [read, readFrom_eq h spans le_rfl]
  simp

lemma isAlphanum_padded {width n : ℕ} {c : Char} (h : c ∈ (padded width n).toList) :
    c.isAlphanum = true := by
  simp [Char.isAlphanum, isDigit_padded h]

lemma compactText_plain {t : ℤ} (h : yearOf (dateNaive t) ≤ 9999) :
    ∀ c ∈ (compactText t).toList, c.isAlphanum = true ∨ c = '-' ∨ c = '.' := by
  have hyear : ∀ c ∈ (yearText (yearOf (dateNaive t))).toList, c.isAlphanum = true ∨ c = '-' := by
    intro c hc
    unfold yearText at hc
    split_ifs at hc with hfour hpos
    · exact .inl (isAlphanum_padded hc)
    · omega
    · rw [String.toList_append, List.mem_append] at hc
      rcases hc with hc | hc
      · exact .inr (by simpa using hc)
      · exact .inl (isAlphanum_padded hc)
  intro c hc
  simp only [compactText, String.toList_append, List.mem_append] at hc
  rcases hc with ((((((((hc | hc) | hc) | hc) | hc) | hc) | hc) | hc) | hc) | hc
  · exact (hyear c hc).imp_right .inl
  · exact .inl (isAlphanum_padded hc)
  · exact .inl (isAlphanum_padded hc)
  · obtain rfl : c = 'T' := by simpa using hc
    exact .inl (by decide)
  · exact .inl (isAlphanum_padded hc)
  · exact .inl (isAlphanum_padded hc)
  · exact .inl (isAlphanum_padded hc)
  · exact .inr (.inr (by simpa using hc))
  · exact .inl (isAlphanum_padded hc)
  · obtain rfl : c = 'Z' := by simpa using hc
    exact .inl (by decide)

lemma compactText_signed {t : ℤ} (h : 9999 < yearOf (dateNaive t)) :
    '+' ∈ (compactText t).toList := by
  have hyear : '+' ∈ (yearText (yearOf (dateNaive t))).toList := by
    rw [yearText, if_neg (by omega), if_pos (by omega)]
    simp
  simp only [compactText, String.toList_append, List.mem_append]
  simp [hyear]

scoped instance crates : Journal.Crates where
  read := read
  writeRecord := writeRecord
  compactText := compactText
  read_eq := read_eq
  writeRecord_eq _ := rfl
  compactText_plain := compactText_plain
  compactText_signed := compactText_signed

example : (read (writeRecord [[97], [34, 10], []] ++ writeRecord [[98], []])).map Record.fields =
    [[[97], [34, 10], []], [[98], []]] := by decide

end Netband.Standard

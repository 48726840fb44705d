import Netband.Csv

/-!
Where a reader of comma-separated records stands.

An input is the spans of its complete records and what is left after them. A record that was
written is a span again, up to the line feed at its end: that one goes to the next span.
-/

namespace Netband.Csv

open Netband.Lines

/-! ### Within a record -/

/-- How far the reader is in a record. -/
structure Place where
  mode : Mode
  fields : List Bytes
  field : Bytes

def Place.first : Place := ⟨.startRecord, [], []⟩

inductive Walk
  | closed (fields : List Bytes) (rest : Bytes)
  | within (place : Place)

/-- Read on, to the end of a record or of the input. -/
def walk : Place → Bytes → Walk
  | p, [] => .within p
  | p, c :: rest =>
    match action p.mode c with
    | .discard mode => walk { p with mode } rest
    | .copy mode => walk ⟨mode, p.fields, p.field ++ [c]⟩ rest
    | .endField => walk ⟨.startField, p.fields ++ [p.field], []⟩ rest
    | .endRecord => .closed (p.fields ++ [p.field]) rest

/-- How the reader stands after a byte. -/
def next (mode : Mode) (c : UInt8) : Mode :=
  match action mode c with
  | .discard mode => mode
  | .copy mode => mode
  | .endField => .startField
  | .endRecord => .startRecord

/-- How the reader stands after an input. -/
def standing (bytes : Bytes) : Mode := bytes.foldl next .startRecord

section walks
variable {p q : Place} {a b rest : Bytes} {fields : List Bytes} {c : UInt8} {mode : Mode}

@[simp] lemma walk_nil (p : Place) : walk p [] = .within p := rfl

lemma walk_discard (h : action p.mode c = .discard mode) :
    walk p (c :: rest) = walk { p with mode } rest := by
  rw [walk, h]

lemma walk_copy (h : action p.mode c = .copy mode) :
    walk p (c :: rest) = walk ⟨mode, p.fields, p.field ++ [c]⟩ rest := by
  rw [walk, h]

lemma walk_endField (h : action p.mode c = .endField) :
    walk p (c :: rest) = walk ⟨.startField, p.fields ++ [p.field], []⟩ rest := by
  rw [walk, h]

lemma walk_endRecord (h : action p.mode c = .endRecord) :
    walk p (c :: rest) = .closed (p.fields ++ [p.field]) rest := by
  rw [walk, h]

lemma before_record (h : action p.mode c = .discard .startRecord) :
    p.mode = .startRecord ∧ terminator c = true := by
  revert h
  cases p.mode <;> simp only [action, separated] <;> split_ifs <;> simp_all

lemma copy_ne_startRecord : action p.mode c ≠ .copy .startRecord := by
  cases p.mode <;> simp only [action, separated] <;> split_ifs <;> simp

/-- One byte, and then the rest. -/
lemma walk_cons (p : Place) (c : UInt8) :
    (∃ q : Place, (∀ rest, walk p (c :: rest) = walk q rest) ∧ q.mode = next p.mode c ∧
      p.fields.length ≤ q.fields.length ∧
      (q.mode = .startRecord → p.mode = .startRecord ∧ terminator c = true ∧ q = p)) ∨
    (∀ rest, walk p (c :: rest) = .closed (p.fields ++ [p.field]) rest) ∧
      next p.mode c = .startRecord := by
  cases h : action p.mode c with
  | discard mode =>
    refine .inl ⟨_, fun _ => walk_discard h, by simp [next, h], le_rfl, ?_⟩
    rintro rfl
    obtain ⟨hmode, hc⟩ := before_record h
    exact ⟨hmode, hc, by rw [← hmode]⟩
  | copy mode =>
    refine .inl ⟨_, fun _ => walk_copy h, by simp [next, h], le_rfl, ?_⟩
    rintro rfl
    exact absurd h copy_ne_startRecord
  | endField => exact .inl ⟨_, fun _ => walk_endField h, by simp [next, h], by simp, by simp⟩
  | endRecord => exact .inr ⟨fun _ => walk_endRecord h, by simp [next, h]⟩

lemma walk_append_within (h : walk p a = .within q) (b : Bytes) : walk p (a ++ b) = walk q b := by
  induction a generalizing p with
  | nil =>
    obtain rfl : p = q := by simpa using h
    rfl
  | cons c a ih =>
    rcases walk_cons p c with ⟨r, hr, -⟩ | ⟨hr, -⟩
    · rw [hr] at h
      rw [List.cons_append, hr]
      exact ih h
    · rw [hr] at h
      cases h

lemma walk_append_closed (h : walk p a = .closed fields rest) (b : Bytes) :
    walk p (a ++ b) = .closed fields (rest ++ b) := by
  induction a generalizing p with
  | nil => cases h
  | cons c a ih =>
    rcases walk_cons p c with ⟨r, hr, -⟩ | ⟨hr, -⟩
    · rw [hr] at h
      rw [List.cons_append, hr]
      exact ih h
    · rw [hr] at h
      rw [List.cons_append, hr]
      cases h
      rfl

/-- The bytes of a record. -/
lemma split_of_closed (h : walk p a = .closed fields rest) :
    ∃ span, span ≠ [] ∧ a = span ++ rest ∧ walk p span = .closed fields [] := by
  induction a generalizing p with
  | nil => cases h
  | cons c a ih =>
    rcases walk_cons p c with ⟨r, hr, -⟩ | ⟨hr, -⟩
    · rw [hr] at h
      obtain ⟨span, -, rfl, hspan⟩ := ih h
      exact ⟨c :: span, by simp, rfl, by rw [hr, hspan]⟩
    · rw [hr] at h
      cases h
      exact ⟨[c], by simp, rfl, hr []⟩

lemma standing_within (h : walk p a = .within q) : a.foldl next p.mode = q.mode := by
  induction a generalizing p with
  | nil =>
    obtain rfl : p = q := by simpa using h
    rfl
  | cons c a ih =>
    rcases walk_cons p c with ⟨r, hr, hmode, -⟩ | ⟨hr, -⟩
    · rw [hr] at h
      rw [List.foldl_cons, ← hmode]
      exact ih h
    · rw [hr] at h
      cases h

lemma standing_closed (h : walk p a = .closed fields []) :
    a.foldl next p.mode = .startRecord := by
  induction a generalizing p with
  | nil => cases h
  | cons c a ih =>
    rcases walk_cons p c with ⟨r, hr, hmode, -⟩ | ⟨hr, hmode⟩
    · rw [hr] at h
      rw [List.foldl_cons, ← hmode]
      exact ih h
    · rw [hr] at h
      cases h
      exact hmode

/-- Fields that are read stay. -/
lemma length_fields_le (h : walk p a = .within q) : p.fields.length ≤ q.fields.length := by
  induction a generalizing p with
  | nil =>
    obtain rfl : p = q := by simpa using h
    exact le_rfl
  | cons c a ih =>
    rcases walk_cons p c with ⟨r, hr, -, hlen, -⟩ | ⟨hr, -⟩
    · rw [hr] at h
      exact hlen.trans (ih h)
    · rw [hr] at h
      cases h

end walks

/-! ### Line breaks -/

lemma next_terminator {c : UInt8} (h : terminator c = true) (mode : Mode) :
    next mode c = if mode = .inQuotedField then .inQuotedField else .startRecord := by
  have hcomma : c ≠ comma := by
    rintro rfl
    exact absurd h (by decide)
  have hquote : c ≠ quote := by
    rintro rfl
    exact absurd h (by decide)
  cases mode <;> simp [next, action, separated, h, hcomma, hquote]

lemma next_of_not_terminator {c : UInt8} (h : terminator c = false) (mode : Mode) :
    next mode c ≠ .startRecord := by
  unfold next
  cases mode <;> simp only [action, separated, h, Bool.false_eq_true, if_false] <;>
    split_ifs <;> simp

/-- Line breaks only. -/
def Blank (bytes : Bytes) : Prop := ∀ c ∈ bytes, terminator c = true

lemma blank_nil : Blank [] := by simp [Blank]
lemma blank_lf : Blank [lf] := by simp [Blank, terminator]

lemma walk_blank {a : Bytes} (h : Blank a) : walk .first a = .within .first := by
  induction a with
  | nil => rfl
  | cons c a ih =>
    have hc : action Place.first.mode c = .discard .startRecord := by
      simp [Place.first, action, h c (by simp)]
    rw [walk_discard hc]
    exact ih fun c hc => h c (by simp [hc])

/-- The reader is before a record only after line breaks. -/
lemma blank_of_within {p q : Place} {a : Bytes} (h : walk p a = .within q)
    (hq : q.mode = .startRecord) : q = p ∧ Blank a := by
  induction a generalizing p with
  | nil => exact ⟨by simpa [eq_comm] using h, blank_nil⟩
  | cons c a ih =>
    rcases walk_cons p c with ⟨r, hr, -, -, hback⟩ | ⟨hr, -⟩
    · rw [hr] at h
      obtain ⟨rfl, hblank⟩ := ih h
      obtain ⟨-, hc, rfl⟩ := hback hq
      refine ⟨rfl, fun d hd => ?_⟩
      rcases List.mem_cons.mp hd with rfl | hd
      · exact hc
      · exact hblank d hd
    · rw [hr] at h
      cases h

/-! ### Spans -/

/-- The bytes of a complete record, with the line breaks before it. -/
structure Span where
  bytes : Bytes
  fields : List Bytes
  closed : walk .first bytes = .closed fields []

def bytesOf (spans : List Span) : Bytes := spans.flatMap Span.bytes

@[simp] lemma bytesOf_nil : bytesOf [] = [] := rfl
@[simp] lemma bytesOf_cons (s : Span) (spans : List Span) :
    bytesOf (s :: spans) = s.bytes ++ bytesOf spans := rfl

@[simp] lemma bytesOf_append (spans spans' : List Span) :
    bytesOf (spans ++ spans') = bytesOf spans ++ bytesOf spans' := by
  simp [bytesOf]

lemma Span.length_pos (s : Span) : 0 < s.bytes.length := by
  rw [List.length_pos_iff]
  intro h
  have hclosed := s.closed
  rw [h] at hclosed
  cases hclosed

/-- Every input is the spans of its complete records, and a rest within a record or before one. -/
theorem exists_spans (content : Bytes) : ∃ spans rest place,
    content = bytesOf spans ++ rest ∧ walk .first rest = .within place := by
  induction hn : content.length using Nat.strong_induction_on generalizing content with
  | _ n ih =>
    subst hn
    cases h : walk .first content with
    | within place => exact ⟨[], content, place, rfl, h⟩
    | closed fields rest =>
      obtain ⟨span, hne, hsplit, hspan⟩ := split_of_closed h
      have hlen : rest.length < content.length := by
        rw [hsplit, List.length_append]
        have := List.length_pos_iff.mpr hne
        omega
      obtain ⟨spans, rest', place, hrest, hplace⟩ := ih _ hlen rest rfl
      exact ⟨⟨span, fields, hspan⟩ :: spans, rest', place, by simp [hsplit, hrest], hplace⟩

/-- The records of spans that follow each other. -/
def placed : ℕ → List Span → List Record
  | _, [] => []
  | start, s :: spans =>
    ⟨start, s.fields, start + s.bytes.length⟩ :: placed (start + s.bytes.length) spans

/-- The record that the end of the input ends. -/
def Place.last (p : Place) (start stop : ℕ) : List Record :=
  if p.mode = .startRecord then [] else [⟨start, p.fields ++ [p.field], stop⟩]

lemma map_fields_placed (start : ℕ) (spans : List Span) :
    (placed start spans).map Record.fields = spans.map Span.fields := by
  induction spans generalizing start with
  | nil => rfl
  | cons s spans ih => simp [placed, ih]

lemma length_placed (start : ℕ) (spans : List Span) :
    (placed start spans).length = spans.length := by
  have h := congrArg List.length (map_fields_placed start spans)
  simpa using h

lemma standing_eq {rest : Bytes} {place : Place} (h : walk .first rest = .within place)
    (spans : List Span) : standing (bytesOf spans ++ rest) = place.mode := by
  unfold standing
  induction spans with
  | nil => exact standing_within h
  | cons s spans ih =>
    have hfirst : s.bytes.foldl next .startRecord = .startRecord := standing_closed s.closed
    rw [bytesOf_cons, List.append_assoc, List.foldl_append, hfirst]
    exact ih

/-! ### Records that were written -/

/-- The line breaks before a record belong to it. -/
def Span.after (s : Span) (blank : Bytes) (h : Blank blank) : Span where
  bytes := blank ++ s.bytes
  fields := s.fields
  closed := by rw [walk_append_within (walk_blank h), s.closed]

section written
variable {fields : List Bytes} {field : Bytes} {mode : Mode}

lemma walk_inField (h : field.any special = false) (read : List Bytes) (start : Bytes) :
    walk ⟨.inField, read, start⟩ field = .within ⟨.inField, read, start ++ field⟩ := by
  induction field generalizing start with
  | nil => simp
  | cons c field ih =>
    simp only [List.any_cons, Bool.or_eq_false_iff] at h
    have hc : action .inField c = .copy .inField := by
      have := h.1
      simp only [special, Bool.or_eq_false_iff, decide_eq_false_iff_not] at this
      simp [action, separated, this]
    rw [walk_copy hc, ih h.2]
    simp

lemma walk_escape (field : Bytes) (read : List Bytes) (start : Bytes) :
    walk ⟨.inQuotedField, read, start⟩ (escape field) =
      .within ⟨.inQuotedField, read, start ++ field⟩ := by
  induction field generalizing start with
  | nil => simp [escape]
  | cons c field ih =>
    by_cases hc : c = quote
    · subst hc
      have hescape : escape (quote :: field) = quote :: quote :: escape field := by
        simp [escape, escapeByte]
      have hfirst : action .inQuotedField quote = .discard .inDoubleEscapedQuote := by decide
      have hsecond : action .inDoubleEscapedQuote quote = .copy .inQuotedField := by decide
      rw [hescape, walk_discard hfirst, walk_copy hsecond, ih]
      simp
    · have hescape : escape (c :: field) = c :: escape field := by simp [escape, escapeByte, hc]
      have hcopy : action .inQuotedField c = .copy .inQuotedField := by simp [action, hc]
      rw [hescape, walk_copy hcopy, ih]
      simp

/-- The reader is at the end of a field that was written. -/
lemma walk_writeField (hmode : mode = .startRecord ∨ mode = .startField) (read : List Bytes)
    (field : Bytes) : ∃ mode', walk ⟨mode, read, []⟩ (writeField field) =
      .within ⟨mode', read, field⟩ ∧ mode' ≠ .inQuotedField ∧
      (mode' = .startRecord → mode = .startRecord ∧ field = []) := by
  unfold writeField
  split_ifs with hspecial
  · refine ⟨.inDoubleEscapedQuote, ?_, by simp, by simp⟩
    have hopen : action mode quote = .discard .inQuotedField := by
      rcases hmode with rfl | rfl <;> decide
    have hclose : action .inQuotedField quote = .discard .inDoubleEscapedQuote := by decide
    rw [List.cons_append, walk_discard (p := ⟨mode, read, []⟩) hopen,
      walk_append_within (walk_escape field read []), walk_discard hclose]
    simp
  · have hplain : field.any special = false := by simpa using hspecial
    cases field with
    | nil =>
      refine ⟨mode, by simp, ?_, fun h => ⟨h, rfl⟩⟩
      rcases hmode with rfl | rfl <;> simp
    | cons c field =>
      simp only [List.any_cons, Bool.or_eq_false_iff] at hplain
      have hc : action mode c = .copy .inField := by
        have := hplain.1
        simp only [special, Bool.or_eq_false_iff, decide_eq_false_iff_not] at this
        rcases hmode with rfl | rfl <;> simp [action, separated, this]
      refine ⟨.inField, ?_, by simp, by simp⟩
      rw [walk_copy hc, walk_inField hplain.2]
      simp

lemma action_comma (h : mode ≠ .inQuotedField) : action mode comma = .endField := by
  revert h
  cases mode <;> decide

lemma action_terminator {c : UInt8} (hc : terminator c = true) (h : mode ≠ .inQuotedField)
    (h' : mode ≠ .startRecord) : action mode c = .endRecord := by
  have hcases : c = cr ∨ c = lf := by simpa [terminator] using hc
  revert h h'
  rcases hcases with rfl | rfl <;> cases mode <;> decide

lemma writeFields_cons (field : Bytes) (h : fields ≠ []) :
    writeFields (field :: fields) = writeField field ++ comma :: writeFields fields := by
  obtain ⟨next, fields, rfl⟩ := List.exists_cons_of_ne_nil h
  simp [writeFields, List.intercalate]

lemma writeFields_append (field : Bytes) (h : fields ≠ []) :
    writeFields (fields ++ [field]) = writeFields fields ++ comma :: writeField field := by
  induction fields with
  | nil => exact absurd rfl h
  | cons f fields ih =>
    rcases eq_or_ne fields [] with rfl | hne
    · simp [writeFields, List.intercalate]
    · rw [List.cons_append, writeFields_cons f (by simp), ih hne, writeFields_cons f hne]
      simp

lemma mem_writeFields {c : UInt8} (h : c ∈ writeFields fields) :
    c = comma ∨ ∃ field ∈ fields, c ∈ writeField field := by
  induction fields with
  | nil => cases h
  | cons f fields ih =>
    rcases eq_or_ne fields [] with rfl | hne
    · exact .inr ⟨f, by simp, by simpa [writeFields, List.intercalate] using h⟩
    · rw [writeFields_cons f hne, List.mem_append, List.mem_cons] at h
      rcases h with h | h | h
      · exact .inr ⟨f, by simp, h⟩
      · exact .inl h
      · refine (ih h).imp_right ?_
        rintro ⟨g, hg, hc⟩
        exact ⟨g, by simp [hg], hc⟩

lemma length_writeFields_le (fields : List Bytes) :
    (writeFields fields).length ≤ (fields.map fun field => (writeField field).length + 1).sum := by
  induction fields with
  | nil => exact le_rfl
  | cons f fields ih =>
    rcases eq_or_ne fields [] with rfl | hne
    · simp [writeFields, List.intercalate]
    · rw [writeFields_cons f hne]
      simp only [List.length_append, List.length_cons, List.map_cons, List.sum_cons]
      omega

/-- The reader is in the last field of a record that was written. -/
lemma walk_writeFields (hmode : mode = .startRecord ∨ mode = .startField) (read : List Bytes)
    (fields : List Bytes) (field : Bytes) : ∃ mode',
      walk ⟨mode, read, []⟩ (writeFields (fields ++ [field])) =
        .within ⟨mode', read ++ fields, field⟩ ∧ mode' ≠ .inQuotedField ∧
      (mode' = .startRecord → fields = []) := by
  induction fields generalizing mode read with
  | nil =>
    obtain ⟨mode', hwalk, hquoted, -⟩ := walk_writeField hmode read field
    refine ⟨mode', ?_, hquoted, fun _ => rfl⟩
    simpa [writeFields, List.intercalate] using hwalk
  | cons f fields ih =>
    obtain ⟨mode₁, hfirst, hquoted, -⟩ := walk_writeField hmode read f
    obtain ⟨mode', hwalk, hquoted', hstart⟩ := @ih .startField (.inr rfl) (read ++ [f])
    refine ⟨mode', ?_, hquoted', fun h => ?_⟩
    · rw [List.cons_append, writeFields_cons f (by simp), walk_append_within hfirst,
        walk_endField (action_comma hquoted), hwalk]
      simp
    · subst h
      obtain ⟨hstart', -⟩ := blank_of_within hwalk rfl
      have := congrArg Place.mode hstart'
      cases this

/-- A record of two fields and more is read as it was written. -/
lemma walk_writeRecord (h : 2 ≤ fields.length) {c : UInt8} (hc : terminator c = true) :
    walk .first (writeFields fields ++ [c]) = .closed fields [] := by
  have hne : fields ≠ [] := by
    rintro rfl
    simp at h
  have hsplit := List.dropLast_append_getLast hne
  obtain ⟨mode', hwalk, hquoted, hstart⟩ := @walk_writeFields .startRecord (.inl rfl) []
    fields.dropLast (fields.getLast hne)
  rw [hsplit] at hwalk
  have hmode : mode' ≠ .startRecord := by
    intro hm
    have hlen := congrArg List.length (hstart hm)
    simp at hlen
    omega
  change walk ⟨.startRecord, [], []⟩ _ = _
  rw [walk_append_within hwalk, walk_endRecord (action_terminator hc hquoted hmode),
    List.nil_append, hsplit]

def Span.ofFields (fields : List Bytes) (h : 2 ≤ fields.length) : Span :=
  ⟨writeFields fields ++ [cr], fields, walk_writeRecord h (by decide)⟩

/-- Records that were written, after line breaks, and with the last line feed left over. -/
lemma exists_spans_written {blank : Bytes} (hblank : Blank blank) {records : List (List Bytes)}
    (h : ∀ fields ∈ records, 2 ≤ fields.length) : ∃ spans rest,
      blank ++ records.flatMap (fun fields => writeFields fields ++ [cr, lf]) =
        bytesOf spans ++ rest ∧
      rest = (if records = [] then blank else [lf]) ∧ spans.map Span.fields = records := by
  induction records generalizing blank with
  | nil => exact ⟨[], blank, by simp, rfl, rfl⟩
  | cons fields records ih =>
    obtain ⟨spans, rest, hbytes, hrest, hfields⟩ := ih blank_lf fun f hf => h f (by simp [hf])
    refine ⟨(Span.ofFields fields (h fields (by simp))).after blank hblank :: spans, rest, ?_,
      by simp [hrest], by simp [Span.after, Span.ofFields, hfields]⟩
    rw [List.flatMap_cons]
    simp only [bytesOf_cons, Span.after, Span.ofFields, List.append_assoc, ← hbytes]
    simp

end written

end Netband.Csv

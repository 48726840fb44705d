import Netband.Folders

/-!
Journal files that are opened again: a last record that was cut off, and what is appended after
it.

A file that is not new begins with the span of the header. What opening makes of it depends on its
last byte and on where the reader stands at its end.
-/

namespace Netband.Tails

open Netband.Time Netband.Effects Netband.Lines Netband.Csv Netband.Json Netband.Journal
open Netband.Segments Faulty

/-! ### Rows -/

def headerFields : List Bytes := csvFields.map fun name => utf8 name.toList

/-- The fields of a row, as a reader has them. -/
def rowFields (row : Row) : List Bytes := row.fields.map utf8

lemma length_headerFields : headerFields.length = 69 := by decide

lemma length_rowFields (row : Row) : (rowFields row).length = 69 := by
  rw [rowFields, List.length_map, row.length]
  decide

lemma utf8_toList (s : String) : utf8 s.toList = s.toByteArray.data.toList := by
  have h : s.toList.utf8Encode = s.toByteArray := String.utf8Encode_toList
  rw [← h]
  simp [List.utf8Encode, utf8]

/-- The names of the columns are written without quotes. -/
lemma headerFields_plain : ∀ field ∈ headerFields, ∀ c ∈ field, special c = false := by
  have h : (csvFields.all fun name =>
      name.toByteArray.data.toList.all fun c => !special c) = true := by decide +kernel
  intro field hfield c hc
  obtain ⟨name, hname, rfl⟩ := List.mem_map.mp hfield
  rw [utf8_toList] at hc
  have hall := List.all_eq_true.mp (List.all_eq_true.mp h name hname) c hc
  simpa using hall

lemma writeField_header {field : Bytes} (h : field ∈ headerFields) : writeField field = field := by
  have hplain : field.any special = false := by
    rw [List.any_eq_false]
    intro c hc
    simp [headerFields_plain field h c hc]
  rw [writeField, hplain]
  rfl

lemma writeFields_header : writeFields headerFields = csvHeader := by
  have hmap : headerFields.map writeField = headerFields :=
    (List.map_congr_left fun _ h => writeField_header h).trans (List.map_id headerFields)
  rw [writeFields, hmap, csvHeader, headerFields]

/-- The header has no line break. -/
lemma csvHeader_plain : ∀ c ∈ csvHeader, terminator c = false := by
  intro c hc
  rw [← writeFields_header] at hc
  rcases mem_writeFields hc with rfl | ⟨field, hfield, hc⟩
  · decide
  · rw [writeField_header hfield] at hc
    have hspecial := headerFields_plain field hfield c hc
    simp only [special, Bool.or_eq_false_iff] at hspecial
    exact hspecial.2

lemma length_csvHeader_le : csvHeader.length ≤ 2000 := by
  have hnames : (csvFields.map fun name => name.toByteArray.data.toList.length + 1).sum ≤ 2000 := by
    decide +kernel
  have hmap : (headerFields.map fun field => (writeField field).length + 1) =
      csvFields.map fun name => name.toByteArray.data.toList.length + 1 := by
    rw [headerFields, List.map_map]
    refine List.map_congr_left fun name hname => ?_
    have hfield : utf8 name.toList ∈ headerFields := List.mem_map.mpr ⟨name, hname, rfl⟩
    rw [Function.comp_apply, writeField_header hfield, utf8_toList]
  have hle := length_writeFields_le headerFields
  rw [hmap, writeFields_header] at hle
  exact hle.trans hnames

lemma structurallyValid_rowFields (row : Row) : structurallyValid (rowFields row) = true := by
  have hlen : (rowFields row).length = csvFields.length := by simp [rowFields, row.length]
  rw [structurallyValid, Bool.and_eq_true, decide_eq_true_iff, List.all_eq_true]
  refine ⟨hlen, fun field hfield => ?_⟩
  obtain ⟨text, -, rfl⟩ := List.mem_map.mp hfield
  exact ByteArray.validateUTF8_eq_true_iff.mpr ⟨text, rfl⟩

/-- The span of the header, up to its first line break. -/
lemma walk_header {c : UInt8} (hc : terminator c = true) :
    walk .first (csvHeader ++ [c]) = .closed headerFields [] := by
  rw [← writeFields_header]
  exact walk_writeRecord (by rw [length_headerFields]; decide) hc

section written
variable [Crates]

lemma headerLine_eq : headerLine = csvHeader ++ [cr, lf] := by
  have htwo : 2 ≤ headerFields.length := by
    rw [length_headerFields]
    decide
  rw [← writeFields_header]
  exact Crates.writeRecord_eq htwo

lemma encodeRow_eq (row : Row) : encodeRow row = writeFields (rowFields row) ++ [cr, lf] := by
  have htwo : 2 ≤ (rowFields row).length := by
    rw [length_rowFields]
    decide
  exact Crates.writeRecord_eq htwo

lemma encodeBatch_append (rows rows' : Batch) :
    encodeBatch (rows ++ rows') = encodeBatch rows ++ encodeBatch rows' := by
  simp [encodeBatch]

lemma encodeBatch_eq (rows : Batch) : encodeBatch rows =
    (rows.map rowFields).flatMap fun fields => writeFields fields ++ [cr, lf] := by
  rw [List.flatMap_map]
  exact List.flatMap_congr fun row _ => encodeRow_eq row

end written

/-! ### Recovery -/

def terminated (content : Bytes) : Bool := content.getLast?.any terminator

/-- What opening does to a file that is not new. -/
def recovery [Crates] (path : String) (content : Bytes) : Except JournalError Recovery := do
  validateHeader path content
  recoverTrailingRecord path content

def Valid (spans : List Span) : Prop := ∀ s ∈ spans, structurallyValid s.fields = true

/-- Records that end before the input does, or after a line break, are kept if they are valid. -/
lemma truncateAt_placed {path : String} {ended : Bool} {length start number : ℕ}
    {spans : List Span} {others : List Record} (hnumber : 0 < number)
    (hend : ended = true ∨ start + (bytesOf spans).length < length) :
    (Valid spans → truncateAt path ended length number (placed start spans ++ others) =
      truncateAt path ended length (number + spans.length) others) ∧
    (¬ Valid spans → truncateAt path ended length number (placed start spans ++ others) =
      .error (.corrupt path)) := by
  induction spans generalizing start number with
  | nil => exact ⟨fun _ => rfl, fun h => absurd (by simp [Valid]) h⟩
  | cons s spans ih =>
    have hnot : ¬ (ended = false ∧ start + s.bytes.length = length) := by
      rintro ⟨hopen, hstop⟩
      rcases hend with hend | hend
      · rw [hopen] at hend
        cases hend
      · rw [bytesOf_cons, List.length_append] at hend
        omega
    obtain ⟨hvalid, hinvalid⟩ := @ih (start + s.bytes.length) (number + 1) (by omega) (by
      refine hend.imp_right fun h => ?_
      rw [bytesOf_cons, List.length_append] at h
      omega)
    simp only [placed, List.cons_append, truncateAt]
    by_cases hs : structurallyValid s.fields = true
    · rw [if_neg (by simp [hs]), if_neg (fun h => hnot h.2)]
      constructor
      · intro h
        rw [hvalid fun t ht => h t (by simp [ht]), List.length_cons]
        congr 1
        omega
      · intro h
        refine hinvalid fun hv => h fun t ht => ?_
        rcases List.mem_cons.mp ht with rfl | ht
        · exact hs
        · exact hv t ht
    · rw [if_pos ⟨hnumber, by simpa using hs⟩, if_neg hnot]
      exact ⟨fun h => absurd (h s (by simp)) hs, fun _ => rfl⟩

lemma boundary_eq (spans : List Span) (rest : Bytes) :
    (bytesOf spans ++ rest).take (boundary (bytesOf spans ++ rest) (bytesOf spans).length) =
      bytesOf spans ++ if rest.head? = some lf then [lf] else [] := by
  have hat : (bytesOf spans ++ rest)[(bytesOf spans).length]? = rest.head? := by
    rw [List.getElem?_append_right le_rfl, Nat.sub_self, List.head?_eq_getElem?]
  unfold boundary
  rw [hat]
  split_ifs with h
  · rw [List.take_append]
    obtain ⟨rest, rfl⟩ : ∃ r, rest = lf :: r := by
      cases rest with
      | nil => cases h
      | cons c r => exact ⟨r, by rw [Option.some.inj h]⟩
    simp [List.take_of_length_le]
  · simp

section analysis
variable {path : String} {head : Span} {spans : List Span} {rest : Bytes} {place : Place}

/-- The reader stands before or within quotes after a line break, and neither after another
byte. -/
lemma standing_terminated {content : Bytes} (h : terminated content = true) :
    standing content = .startRecord ∨ standing content = .inQuotedField := by
  rcases List.eq_nil_or_concat content with rfl | ⟨front, c, rfl⟩
  · cases h
  · simp only [List.concat_eq_append] at h ⊢
    have hc : terminator c = true := by simpa [terminated] using h
    rw [standing, List.foldl_append]
    change next _ c = _ ∨ next _ c = _
    rw [next_terminator hc]
    split_ifs
    · exact .inr rfl
    · exact .inl rfl

lemma standing_unterminated {content : Bytes} (h : terminated content = false)
    (hne : content ≠ []) : standing content ≠ .startRecord := by
  rcases List.eq_nil_or_concat content with rfl | ⟨front, c, rfl⟩
  · exact absurd rfl hne
  · simp only [List.concat_eq_append] at h ⊢
    have hc : terminator c = false := by simpa [terminated] using h
    rw [standing, List.foldl_append]
    exact next_of_not_terminator hc _

variable [Crates] in
/-- **Recovery**: what becomes of a file whose first record is the header. -/
theorem recoverTrailingRecord_eq (h : walk .first rest = .within place)
    (hlen : (bytesOf (head :: spans) ++ rest).length ≠ csvHeader.length) :
    (¬ Valid spans → recoverTrailingRecord path (bytesOf (head :: spans) ++ rest) =
      .error (.corrupt path)) ∧
    (Valid spans → recoverTrailingRecord path (bytesOf (head :: spans) ++ rest) =
      if terminated (bytesOf (head :: spans) ++ rest) = true then
        if place.mode = .startRecord ∨ structurallyValid (place.fields ++ [place.field]) = true
        then .ok .keep else .error (.corrupt path)
      else .ok (.truncate (boundary (bytesOf (head :: spans) ++ rest)
        (bytesOf (head :: spans)).length))) := by
  set content := bytesOf (head :: spans) ++ rest with hcontent
  have hstanding : standing content = place.mode := standing_eq h (head :: spans)
  have hlength : content.length = head.bytes.length + (bytesOf spans).length + rest.length := by
    simp [hcontent, Nat.add_assoc]
  have hpos := head.length_pos
  have hne : content ≠ [] := by
    rw [← List.length_pos_iff]
    omega
  have hread : truncateAt path (terminated content) content.length 0 (Crates.read content) =
      truncateAt path (terminated content) content.length 1
        (placed (0 + head.bytes.length) spans ++
          place.last (bytesOf (head :: spans)).length content.length) := by
    rw [hcontent, Crates.read_eq h (head :: spans)]
    simp only [placed, List.cons_append, truncateAt]
    rw [if_neg (by simp), if_neg (by simp)]
  have hend : terminated content = true ∨
      0 + head.bytes.length + (bytesOf spans).length < content.length := by
    by_contra hnot
    push Not at hnot
    obtain ⟨hunterminated, hall⟩ := hnot
    have hrest : rest = [] := List.eq_nil_of_length_eq_zero (by omega)
    subst hrest
    obtain rfl : Place.first = place := by simpa using h
    exact standing_unterminated (by simpa using hunterminated) hne hstanding
  obtain ⟨hvalid, hinvalid⟩ := @truncateAt_placed path (terminated content) content.length
    (0 + head.bytes.length) 1 spans (place.last (bytesOf (head :: spans)).length content.length)
    Nat.one_pos hend
  rw [recoverTrailingRecord, if_neg hlen]
  change (¬ Valid spans → (truncateAt path (terminated content) content.length 0
      (Crates.read content) >>= _) = _) ∧
    (Valid spans → (truncateAt path (terminated content) content.length 0
      (Crates.read content) >>= _) = _)
  rw [hread]
  refine ⟨fun hv => by rw [hinvalid hv]; rfl, fun hv => ?_⟩
  rw [hvalid hv, Place.last]
  by_cases hmode : place.mode = .startRecord
  · have ht : terminated content = true := by
      by_contra ht
      exact standing_unterminated (by simpa using ht) hne (hstanding.trans hmode)
    rw [if_pos hmode, if_pos ht, if_pos (.inl hmode)]
    rfl
  · rw [if_neg hmode, truncateAt]
    by_cases hs : structurallyValid (place.fields ++ [place.field]) = true
    · rw [if_neg (by simp [hs])]
      by_cases ht : terminated content = true
      · rw [if_neg (by simp [ht]), if_pos ht, if_pos (.inr hs)]
        rfl
      · rw [if_pos ⟨by omega, by simpa using ht, rfl⟩, if_neg ht]
        rfl
    · rw [if_pos ⟨by omega, by simpa using hs⟩]
      by_cases ht : terminated content = true
      · rw [if_neg (by simp [ht]), if_pos ht, if_neg (by simp [hmode, hs])]
        rfl
      · rw [if_pos ⟨by simpa using ht, rfl⟩, if_neg ht]
        rfl

end analysis

/-! ### Opening -/

/-- What recovery does to a file of a directory. -/
def recoverIn (file : ℕ) (d : Folder) : Recovery → Folder
  | .keep => d
  | .terminate => (d.append file [cr, lf]).sync file
  | .truncate length => (d.truncate file length).sync file

lemma entries_recoverIn (file : ℕ) (d : Folder) (r : Recovery) :
    (recoverIn file d r).entries = d.entries := by
  cases r <;> rfl

lemma content_recoverIn {file : ℕ} {d : Folder} (h : file < d.inodes.length) (r : Recovery) :
    (recoverIn file d r).content file = r.apply (d.content file) := by
  cases r <;> simp [recoverIn, Recovery.apply, h]

section recovering
variable [Crates]

/-- What opening makes of the content of a file. -/
def opened (path : String) (content : Bytes) : Except JournalError Bytes :=
  if content = [] then .ok headerLine
  else (recovery path content).map fun r => r.apply content

lemma headerLine_fits : headerLine.length ≤ u64Max := by
  have hmax : 2002 ≤ u64Max := by decide
  have := length_csvHeader_le
  rw [headerLine_eq, List.length_append]
  simp only [List.length_cons, List.length_nil]
  omega

/-- Only a header without its line break is given one. -/
lemma length_of_terminate {path : String} {content : Bytes}
    (h : recoverTrailingRecord path content = .ok .terminate) :
    content.length = csvHeader.length := by
  by_contra hne
  rw [recoverTrailingRecord, if_neg hne] at h
  change (truncateAt path _ _ _ _ >>= _) = _ at h
  cases ht : truncateAt path (content.getLast?.any terminator) content.length 0
      (Crates.read content) with
  | error e =>
    rw [ht] at h
    cases h
  | ok offset =>
    rw [ht] at h
    cases offset <;> cases h

lemma terminate_fits {path : String} {content : Bytes}
    (h : recoverTrailingRecord path content = .ok .terminate) :
    content.length + [cr, lf].length ≤ u64Max := by
  have hlen := length_of_terminate h
  have hmax : 2002 ≤ u64Max := by decide
  have := length_csvHeader_le
  simp only [List.length_cons, List.length_nil]
  omega

end recovering

/-! ### The header line -/

def headSpan {c : UInt8} (hc : terminator c = true) : Span :=
  ⟨csvHeader ++ [c], headerFields, walk_header hc⟩

lemma terminator_cr : terminator cr = true := by decide

lemma validateHeader_ok {path : String} {content : Bytes} :
    validateHeader path content = .ok () ↔ firstLine content = csvHeader := by
  unfold validateHeader
  split_ifs with h
  · refine ⟨fun hok => ?_, fun hline => absurd hline h⟩
    cases hok
  · exact ⟨fun _ => not_not.mp h, fun _ => rfl⟩

variable [Crates] in
lemma line_of_recovery {path : String} {content : Bytes} {r : Recovery}
    (h : recovery path content = .ok r) : firstLine content = csvHeader := by
  by_contra hline
  rw [recovery, validateHeader, if_pos hline] at h
  cases h

variable [Crates] in
lemma recovery_of_line {path : String} {content : Bytes} (h : firstLine content = csvHeader) :
    recovery path content = recoverTrailingRecord path content := by
  rw [recovery, validateHeader_ok.mpr h]
  rfl

lemma rdropWhile_replicate (line : Bytes) (n : ℕ) :
    (line ++ List.replicate n cr).rdropWhile terminator = line.rdropWhile terminator := by
  induction n with
  | zero => simp
  | succ n ih =>
    have hcr : terminator cr = true := by decide
    rw [List.replicate_succ', ← List.append_assoc, List.rdropWhile_concat_pos _ _ _ hcr, ih]

lemma rdropWhile_of_plain {line : Bytes} (h : ∀ c ∈ line, terminator c = false) :
    line.rdropWhile terminator = line := by
  rw [List.rdropWhile_eq_self_iff]
  intro hne
  simp [h _ (List.getLast_mem hne)]

lemma takeWhile_line {line rest : Bytes} (h : lf ∉ line) :
    (line ++ lf :: rest).takeWhile (· ≠ lf) = line := by
  rw [List.takeWhile_append_of_pos (by
    intro c hc
    simp only [ne_eq, decide_eq_true_eq]
    rintro rfl
    exact h hc)]
  simp

lemma notMem_headerLine (n : ℕ) : lf ∉ csvHeader ++ List.replicate n cr := by
  intro h
  rcases List.mem_append.mp h with h | h
  · exact absurd (csvHeader_plain lf h) (by decide)
  · exact absurd (List.eq_of_mem_replicate h) (by decide)

/-- A header line with its line break. -/
lemma firstLine_header (n : ℕ) (rest : Bytes) :
    firstLine (csvHeader ++ List.replicate n cr ++ lf :: rest) = csvHeader := by
  rw [firstLine, takeWhile_line (notMem_headerLine n), rdropWhile_replicate,
    rdropWhile_of_plain csvHeader_plain]

/-- What follows the header in a file whose first line is the header. -/
lemma of_firstLine {content : Bytes} (h : firstLine content = csvHeader) : ∃ n tail,
    content = csvHeader ++ List.replicate n cr ++ tail ∧
      (tail = [] ∨ ∃ rest, tail = lf :: rest) := by
  have hsplit := List.takeWhile_append_dropWhile (p := fun c : UInt8 => decide (c ≠ lf))
    (l := content)
  set line := content.takeWhile fun c => decide (c ≠ lf)
  have hline : line.rdropWhile terminator ++ line.rtakeWhile terminator = line :=
    List.rdropWhile_append_rtakeWhile
  have hbreaks : line.rtakeWhile terminator =
      List.replicate (line.rtakeWhile terminator).length cr := by
    rw [List.eq_replicate_iff]
    refine ⟨rfl, fun c hc => ?_⟩
    have hterminator := List.mem_rtakeWhile_imp hc
    have hmem : c ∈ line := (List.rtakeWhile_suffix terminator line).subset hc
    have hlf : c ≠ lf := by simpa using List.mem_takeWhile_imp hmem
    have hcases : c = cr ∨ c = lf := by simpa [terminator] using hterminator
    exact hcases.resolve_right hlf
  refine ⟨(line.rtakeWhile terminator).length, content.dropWhile fun c => decide (c ≠ lf), ?_, ?_⟩
  · rw [← hbreaks, ← h]
    change content = line.rdropWhile terminator ++ line.rtakeWhile terminator ++ _
    rw [hline, hsplit]
  · rcases hd : content.dropWhile fun c => decide (c ≠ lf) with _ | ⟨c, rest⟩
    · exact .inl rfl
    · right
      have hhead := List.head_dropWhile_not (fun c : UInt8 => decide (c ≠ lf))
        (l := content) (by rw [hd]; simp)
      simp only [hd, List.head_cons] at hhead
      exact ⟨rest, by simpa using hhead⟩

variable [Crates] in
/-- **What opening makes of a file** whose first line is the header, with a line break. -/
theorem opened_eq {path : String} {c : UInt8} {hc : terminator c = true} {spans : List Span}
    {rest : Bytes} {place : Place}
    (hline : firstLine (bytesOf (headSpan hc :: spans) ++ rest) = csvHeader)
    (h : walk .first rest = .within place) :
    (¬ Valid spans → opened path (bytesOf (headSpan hc :: spans) ++ rest) =
      .error (.corrupt path)) ∧
    (Valid spans → opened path (bytesOf (headSpan hc :: spans) ++ rest) =
      if terminated (bytesOf (headSpan hc :: spans) ++ rest) = true then
        if place.mode = .startRecord ∨ structurallyValid (place.fields ++ [place.field]) = true
        then .ok (bytesOf (headSpan hc :: spans) ++ rest) else .error (.corrupt path)
      else .ok (bytesOf (headSpan hc :: spans) ++
        if rest.head? = some lf then [lf] else [])) := by
  have hlong : csvHeader.length < (bytesOf (headSpan hc :: spans) ++ rest).length := by
    simp only [bytesOf_cons, headSpan, List.length_append, List.length_singleton]
    omega
  have hne : bytesOf (headSpan hc :: spans) ++ rest ≠ [] := by
    rw [← List.length_pos_iff]
    omega
  obtain ⟨hinvalid, hvalid⟩ := @recoverTrailingRecord_eq path _ spans _ _ _ h hlong.ne'
  rw [opened, if_neg hne, recovery_of_line hline]
  refine ⟨fun hv => by rw [hinvalid hv]; rfl, fun hv => ?_⟩
  rw [hvalid hv]
  by_cases ht : terminated (bytesOf (headSpan hc :: spans) ++ rest) = true
  · rw [if_pos ht, if_pos ht]
    split_ifs <;> rfl
  · rw [if_neg ht, if_neg ht]
    exact congrArg Except.ok (boundary_eq (headSpan hc :: spans) rest)

section opening
variable [Crates] {faults : Prop} {d : Folder} {file : ℕ} {name : String}
  {E : JournalError → Folder → Prop}

lemma meets_recoverFile {Q : Unit → Folder → Prop}
    (hok : ∀ r, recovery name (d.content file) = .ok r → Q () (recoverIn file d r))
    (hbad : ∀ e, recovery name (d.content file) = .error e → E e d)
    (herr : faults → ∀ e, E e d)
    (hterminate : faults → recovery name (d.content file) = .ok .terminate →
      ∀ bytes, bytes <+: [cr, lf] → ∀ e, E e (d.append file bytes))
    (htruncate : faults → ∀ length, recovery name (d.content file) = .ok (.truncate length) →
      ∀ e, E e (d.truncate file length)) :
    Meets faults d (recoverFile name file) Q E := by
  refine meets_bind (meets_readContent ?_ herr)
  refine meets_bind (meets_ofExcept (fun _ hheader => ?_) fun e he => ?_)
  · have hrecovery : recovery name (d.content file) =
        recoverTrailingRecord name (d.content file) :=
      recovery_of_line (validateHeader_ok.mp hheader)
    refine meets_bind (meets_ofExcept (fun r hfound => ?_) fun e he =>
      hbad e (hrecovery.trans he))
    have hr := hrecovery.trans hfound
    cases r with
    | keep => exact meets_pure (hok .keep hr)
    | terminate =>
      have hwhole : [cr, lf] <+: [cr, lf] := List.prefix_refl _
      refine meets_bind (meets_writeAll (fun _ => ?_) (fun hlong => ?_) fun hf k => ?_)
      · exact meets_syncData (hok .terminate hr) fun hf => hterminate hf hr _ hwhole
      · exact absurd (terminate_fits hfound) (not_le.mpr hlong)
      · exact hterminate hf hr _ (List.take_prefix k _)
    | truncate length =>
      refine meets_bind (meets_atomically ?_ herr fun hf => htruncate hf length hr)
      exact meets_syncData (hok (.truncate length) hr) fun hf => htruncate hf length hr
  · refine hbad e ?_
    rw [recovery, he]
    rfl

/-- The marker names a file of the directory. -/
def Marks (d : Folder) (name : String) (file : ℕ) : Prop :=
  ∃ m, d.entries[activeName]? = some m ∧ markedName (d.content m) = some name ∧
    d.entries[name]? = some file

/-- **Recovering a directory**: nothing happens to it, or to the file that the marker names what
happens to a file that is opened. -/
lemma meets_recoverDirectory {Q : Unit → Folder → Prop}
    (hnone : d.entries[activeName]? = none → Q () d)
    (hsome : ∀ name file r, Marks d name file → recovery name (d.content file) = .ok r →
      Q () ((recoverIn file d r).sync file))
    (hstart : ∀ e, E e d)
    (hterminate : ∀ name file, Marks d name file →
      recovery name (d.content file) = .ok .terminate →
      ∀ bytes, bytes <+: [cr, lf] → ∀ e, E e (d.append file bytes))
    (htruncate : ∀ name file, Marks d name file → ∀ length,
      recovery name (d.content file) = .ok (.truncate length) →
      ∀ e, E e (d.truncate file length))
    (hend : ∀ name file r, Marks d name file → recovery name (d.content file) = .ok r →
      ∀ e, E e (recoverIn file d r)) : Meets faults d recoverDirectory Q E := by
  have hbegin : faults → ∀ e, E e d := fun _ => hstart
  refine meets_bind (meets_regularOrMissing ?_ hbegin)
  split_ifs with hmarked
  · refine meets_bind (meets_openFile (fun m hm => ?_) (fun _ => hstart) hbegin)
    refine meets_bind (meets_readContent ?_ hbegin)
    refine meets_bind (meets_require (fun name hname => ?_) fun _ => hstart _)
    refine meets_bind (meets_ensure (fun _ => ?_) fun _ => hstart _)
    refine meets_bind (meets_regularOrMissing ?_ hbegin)
    refine meets_bind (meets_ensure (fun _ => ?_) fun _ => hstart _)
    refine meets_bind (meets_openFile (fun file hfile => ?_) (fun _ => hstart) hbegin)
    have hmarks : Marks d name file := ⟨m, hm, hname, hfile⟩
    refine meets_bind (meets_inspect ?_ hbegin)
    refine meets_bind (meets_recoverFile (fun r hr => ?_) (fun e _ => hstart e) hbegin
      (fun _ hr => hterminate name file hmarks hr)
      fun _ length hr => htruncate name file hmarks length hr)
    exact meets_syncData (hsome name file r hmarks hr) fun _ => hend name file r hmarks hr
  · refine meets_pure (hnone ?_)
    rw [Std.ExtTreeMap.contains_eq_isSome_getElem?, Bool.not_eq_true,
      Option.isSome_eq_false_iff, Option.isNone_iff_eq_none] at hmarked
    exact hmarked

/-- **Opening a file that is there**. -/
lemma meets_openExplicit {Q : ℕ → Folder → Prop} (hentry : d.entries[name]? = some file)
    (hok : ∀ d', d'.entries = d.entries → opened name (d.content file) = .ok (d'.content file) →
      Q file d')
    (hbad : ∀ e, opened name (d.content file) = .error e → ∀ d', E e d')
    (herr : faults → ∀ e d', E e d') : Meets faults d (openExplicit name) Q E := by
  have hthere := d.there name file hentry
  have hlate : faults → ∀ e, E e d := fun hf e => herr hf e d
  refine meets_bind (meets_openOrCreate (fun x hx => ?_) (fun hnew => ?_) hlate fun hf _ e =>
    herr hf e _)
  · obtain rfl : file = x := Option.some.inj (hentry.symm.trans hx)
    refine meets_bind (meets_inspect (meets_bind (meets_metadataLen ?_ hlate)) hlate)
    split_ifs with hlen
    · have hempty : d.content file = [] := List.eq_nil_of_length_eq_zero hlen
      have hopened : opened name (d.content file) = .ok headerLine := by rw [opened, if_pos hempty]
      have hfits := headerLine_fits
      generalize headerLine = line at *
      refine meets_bind (@meets_writeAll faults d file E line _ (fun _ => ?_)
        (fun hlong => ?_) fun hf k e => herr hf e _)
      · refine meets_bind (meets_syncData (meets_bind (meets_inspect (meets_pure ?_) ?_)) ?_)
        · refine hok _ rfl ?_
          rw [hopened]
          simp [hthere, hempty]
        · exact fun hf e => herr hf e _
        · exact fun hf e => herr hf e _
      · rw [hempty, List.length_nil, Nat.zero_add] at hlong
        exact absurd hfits (not_le.mpr hlong)
    · have hempty : d.content file ≠ [] := fun h => hlen (by rw [h]; rfl)
      have hopened : opened name (d.content file) =
          (recovery name (d.content file)).map fun r => r.apply (d.content file) := by
        rw [opened, if_neg hempty]
      refine meets_bind (meets_recoverFile (fun r hr => ?_) (fun e he => ?_) hlate
        (fun hf _ _ _ e => herr hf e _) fun hf _ _ e => herr hf e _)
      · refine meets_bind (meets_syncData (meets_bind (meets_inspect (meets_pure ?_) ?_)) ?_)
        · refine hok _ (entries_recoverIn file d r) ?_
          rw [hopened, hr]
          simp [content_recoverIn hthere, Except.map]
        · exact fun hf e => herr hf e _
        · exact fun hf e => herr hf e _
      · refine hbad e ?_ _
        rw [hopened, he]
        rfl
  · rw [Std.ExtTreeMap.mem_iff_isSome_getElem?, hentry] at hnew
    exact absurd rfl hnew

end opening

/-! ### A batch that was cut -/

lemma prefix_append_cases {α : Type} {p a b : List α} (h : p <+: a ++ b) :
    (p <+: a ∧ p ≠ a) ∨ ∃ q, q <+: b ∧ p = a ++ q := by
  rcases List.prefix_or_prefix_of_prefix h (List.prefix_append a b) with hp | ⟨q, rfl⟩
  · rcases eq_or_ne p a with rfl | hne
    · exact .inr ⟨[], List.nil_prefix, by simp⟩
    · exact .inl ⟨hp, hne⟩
  · exact .inr ⟨q, (List.prefix_append_right_inj a).mp h, rfl⟩

variable [Crates] in
/-- The whole rows of what was written, and what was written of the next one. -/
lemma prefix_encodeBatch {p : Bytes} {batch : Batch} (h : p <+: encodeBatch batch) :
    ∃ whole q, p = encodeBatch whole ++ q ∧ (whole <+: batch ∧ q = [] ∨
      ∃ row, whole ++ [row] <+: batch ∧ q <+: encodeRow row ∧ q ≠ encodeRow row) := by
  induction batch generalizing p with
  | nil =>
    obtain rfl : p = [] := List.prefix_nil.mp h
    exact ⟨[], [], rfl, .inl ⟨List.nil_prefix, rfl⟩⟩
  | cons row batch ih =>
    rcases prefix_append_cases h with ⟨hp, hne⟩ | ⟨p, hp, rfl⟩
    · exact ⟨[], p, rfl, .inr ⟨row, ⟨batch, rfl⟩, hp, hne⟩⟩
    · obtain ⟨whole, q, rfl, hrest⟩ := ih hp
      refine ⟨row :: whole, q, by simp [encodeBatch], ?_⟩
      rcases hrest with ⟨hwhole, hq⟩ | ⟨next, hnext, hq⟩
      · exact .inl ⟨(List.prefix_cons_inj row).mpr hwhole, hq⟩
      · exact .inr ⟨next, (List.prefix_cons_inj row).mpr hnext, hq⟩

lemma special_utf8EncodeChar {c : Char} (h : c.isDigit = true ∨ c = '-') :
    ∀ b ∈ String.utf8EncodeChar c, special b = false := by
  have hbounds : 45 ≤ c.val.toNat ∧ c.val.toNat ≤ 57 := by
    rcases h with h | rfl
    · simp only [Char.isDigit, Bool.and_eq_true, decide_eq_true_eq] at h
      have hlow : 48 ≤ c.val.toNat := h.1
      exact ⟨by omega, h.2⟩
    · exact ⟨le_rfl, by decide⟩
  intro b hb
  unfold String.utf8EncodeChar at hb
  dsimp only at hb
  rw [if_pos (by omega), List.mem_singleton] at hb
  have hvalue : b.toNat = c.val.toNat := by
    rw [hb, UInt8.toNat_ofNat']
    omega
  have hne : ∀ x : UInt8, x.toNat < 45 → b ≠ x := by
    rintro x hx rfl
    omega
  have h1 := hne comma (by decide)
  have h2 := hne quote (by decide)
  have h3 := hne cr (by decide)
  have h4 := hne lf (by decide)
  simp [special, terminator, h1, h2, h3, h4]

/-- The last column is written without quotes. -/
lemma exists_last_column (row : Row) : ∃ (fields : List Bytes) (field : Bytes),
    rowFields row = fields ++ [field] ∧ fields.length = 68 ∧ writeField field = field ∧
      ∀ b ∈ field, special b = false := by
  have hlen := length_rowFields row
  have hne : row.fields ≠ [] := by
    intro h
    rw [rowFields, h] at hlen
    cases hlen
  have hlast := row.osErrorCode (row.fields.getLast hne) (List.getLast?_eq_some_getLast hne)
  have hplain : ∀ b ∈ utf8 (row.fields.getLast hne), special b = false := by
    intro b hb
    obtain ⟨c, hc, hb⟩ := List.mem_flatMap.mp hb
    exact special_utf8EncodeChar (hlast c hc) b hb
  refine ⟨row.fields.dropLast.map utf8, utf8 (row.fields.getLast hne), ?_, ?_, ?_, hplain⟩
  · rw [rowFields, ← List.map_singleton, ← List.map_append, List.dropLast_append_getLast hne]
  · rw [rowFields, List.length_map] at hlen
    rw [List.length_map, List.length_dropLast, hlen]
  · rw [writeField, if_neg]
    intro h
    obtain ⟨b, hb, hspecial⟩ := List.any_eq_true.mp h
    rw [hplain b hb] at hspecial
    cases hspecial

/-- A row does not begin with a line break. -/
lemma head_writeFields {fields : List Bytes} (h : 2 ≤ fields.length) :
    ∀ c ∈ (writeFields fields).head?, terminator c = false := by
  obtain ⟨f, g, fields, rfl⟩ : ∃ f g l, fields = f :: g :: l := by
    match fields, h with
    | f :: g :: l, _ => exact ⟨f, g, l, rfl⟩
  intro c hc
  rw [writeFields_cons f (by simp), writeField] at hc
  split_ifs at hc with hspecial
  · obtain rfl : quote = c := by simpa using hc
    decide
  · cases f with
    | nil =>
      obtain rfl : comma = c := by simpa using hc
      decide
    | cons d f =>
      obtain rfl : d = c := by simpa using hc
      simp only [List.any_cons, Bool.or_eq_true, not_or, special, Bool.not_eq_true] at hspecial
      exact hspecial.1.2

/-- The reader is within a row that was cut; after a line break it is within quotes, and not in
the last column. -/
lemma walk_cut {row : Row} {q : Bytes} (hq : q <+: writeFields (rowFields row)) (hne : q ≠ []) :
    ∃ place, walk .first q = .within place ∧ place.mode ≠ .startRecord ∧
      (terminated q = true → place.mode = .inQuotedField ∧ place.fields.length < 68) := by
  have htwo : 2 ≤ (rowFields row).length := by
    rw [length_rowFields]
    decide
  obtain ⟨r, hr⟩ := hq
  have hwhole := walk_writeRecord htwo terminator_cr
  rw [← hr, List.append_assoc] at hwhole
  cases hwalk : walk .first q with
  | closed fields rest =>
    rw [walk_append_closed hwalk] at hwhole
    have hrest := (Walk.closed.inj hwhole).2
    simp at hrest
  | within place =>
    have hmode : place.mode ≠ .startRecord := by
      intro hmode
      obtain ⟨-, hblank⟩ := blank_of_within hwalk hmode
      obtain ⟨c, q, rfl⟩ := List.exists_cons_of_ne_nil hne
      have hhead := head_writeFields htwo c (by rw [← hr]; rfl)
      rw [hblank c (by simp)] at hhead
      cases hhead
    refine ⟨place, rfl, hmode, fun ht => ?_⟩
    have hstanding : standing q = place.mode := standing_within hwalk
    refine ⟨?_, ?_⟩
    · rw [← hstanding] at hmode ⊢
      exact (standing_terminated ht).resolve_left hmode
    · obtain ⟨fields, field, hfields, hlen, hplain, hspecial⟩ := exists_last_column row
      have hfirst : fields ≠ [] := by
        rintro rfl
        cases hlen
      have hbefore : q <+: writeFields fields := by
        have hsplit : q <+: writeFields fields ++ comma :: field := by
          rw [← hplain, ← writeFields_append field hfirst, ← hfields]
          exact ⟨r, hr⟩
        rcases prefix_append_cases hsplit with ⟨hp, -⟩ | ⟨t, hpre, rfl⟩
        · exact hp
        · rcases List.eq_nil_or_concat t with rfl | ⟨front, c, rfl⟩
          · simp
          · have hc : c ∈ comma :: field := hpre.subset (by simp)
            have hterminator : terminator c = true := by simpa [terminated] using ht
            rcases List.mem_cons.mp hc with rfl | hc
            · exact absurd hterminator (by decide)
            · have := hspecial c hc
              simp [special, hterminator] at this
      obtain ⟨t, ht'⟩ := hbefore
      have hsplit := List.dropLast_append_getLast hfirst
      obtain ⟨mode, hlast, -⟩ := @walk_writeFields .startRecord (.inl rfl) []
        fields.dropLast (fields.getLast hfirst)
      rw [hsplit, ← ht'] at hlast
      change walk .first (q ++ t) = _ at hlast
      rw [walk_append_within hwalk] at hlast
      have hle := length_fields_le hlast
      simp only [List.nil_append, List.length_dropLast, hlen] at hle
      omega

lemma terminated_append (a : Bytes) {q : Bytes} (h : q ≠ []) :
    terminated (a ++ q) = terminated q := by
  obtain ⟨front, c, rfl⟩ := (List.eq_nil_or_concat q).resolve_left h
  simp [terminated, ← List.append_assoc]

lemma two_le_rowFields (rows : Batch) : ∀ fields ∈ rows.map rowFields, 2 ≤ fields.length := by
  intro fields hfields
  obtain ⟨row, -, rfl⟩ := List.mem_map.mp hfields
  rw [length_rowFields]
  decide

lemma standing_record {fields : List Bytes} (h : 2 ≤ fields.length) (q : Bytes) :
    standing (writeFields fields ++ [cr, lf] ++ q) = standing q := by
  have hrecord : (writeFields fields ++ [cr, lf]).foldl next .startRecord = .startRecord := by
    have hspan := standing_closed (walk_writeRecord h terminator_cr)
    have hsplit : writeFields fields ++ [cr, lf] = writeFields fields ++ [cr] ++ [lf] := by
      simp
    rw [hsplit, List.foldl_append]
    change List.foldl next (List.foldl next .startRecord _) [lf] = _
    change List.foldl next .startRecord _ = _ at hspan
    rw [hspan]
    decide
  rw [standing, List.foldl_append, hrecord]
  rfl

lemma valid_of_rows {spans : List Span} {rows : Batch}
    (h : spans.map Span.fields = rows.map rowFields) : Valid spans := by
  intro s hs
  have hmem : s.fields ∈ rows.map rowFields := h ▸ List.mem_map_of_mem hs
  obtain ⟨row, -, hrow⟩ := List.mem_map.mp hmem
  rw [← hrow]
  exact structurallyValid_rowFields row

lemma exists_folder (name : String) (content : Bytes) : ∃ d : Folder,
    d.entries[name]? = some 0 ∧ d.content 0 = content := by
  refine ⟨(Folder.create name {}).append 0 content, ?_, ?_⟩
  · simp [Folder.append, Folder.update, Folder.create]
  · rw [Folder.content_append_self _ _ _ (by simp [Folder.create]), Folder.content_create]
    rfl

section cut
variable [Crates]

lemma standing_encodeBatch (rows : Batch) (q : Bytes) :
    standing (encodeBatch rows ++ q) = standing q := by
  induction rows with
  | nil => rfl
  | cons row rows ih =>
    have hcons : encodeBatch (row :: rows) = encodeRow row ++ encodeBatch rows := rfl
    rw [hcons, encodeRow_eq, List.append_assoc,
      standing_record (two_le_rowFields [row] _ (by simp)), ih]

/-- A file of rows, as its spans. -/
lemma exists_spans_rows (rows : Batch) : ∃ spans,
    headerLine ++ encodeBatch rows = bytesOf (headSpan terminator_cr :: spans) ++ [lf] ∧
      spans.map Span.fields = rows.map rowFields := by
  obtain ⟨spans, rest, hbytes, hrest, hfields⟩ :=
    exists_spans_written blank_lf (two_le_rowFields rows)
  have hrest : rest = [lf] := by
    rw [hrest]
    split_ifs <;> rfl
  refine ⟨spans, ?_, hfields⟩
  rw [← encodeBatch_eq, hrest] at hbytes
  rw [headerLine_eq, bytesOf_cons, List.append_assoc, List.append_assoc, ← hbytes]
  simp [headSpan]

/-- The file begins with the given rows, and holds whole rows of the batch besides. -/
structure Recovered (rows batch : Batch) (content : Bytes) : Prop where
  kept : headerLine ++ encodeBatch rows <+: content
  complete : ∀ r ∈ Crates.read content, r.fields.length = 69
  records : ∃ whole, whole <+: batch ∧
    (Crates.read content).map Record.fields = headerFields :: (rows ++ whole).map rowFields
  closed : standing content = .startRecord

lemma recovered_of_spans {rows batch whole : Batch} {c : UInt8} {hc : terminator c = true}
    {spans : List Span} {rest : Bytes} (hwhole : whole <+: batch)
    (hfields : spans.map Span.fields = (rows ++ whole).map rowFields) (hrest : Blank rest)
    (hkept : headerLine ++ encodeBatch rows <+: bytesOf (headSpan hc :: spans) ++ rest) :
    Recovered rows batch (bytesOf (headSpan hc :: spans) ++ rest) := by
  have hrecords : (Crates.read (bytesOf (headSpan hc :: spans) ++ rest)).map Record.fields =
      headerFields :: (rows ++ whole).map rowFields := by
    rw [Crates.read_eq (walk_blank hrest), List.map_append, map_fields_placed, List.map_cons,
      hfields]
    simp [Place.last, Place.first, headSpan]
  refine ⟨hkept, fun r hr => ?_, ⟨whole, hwhole, hrecords⟩, standing_eq (walk_blank hrest) _⟩
  have hmem : r.fields ∈ headerFields :: (rows ++ whole).map rowFields :=
    hrecords ▸ List.mem_map_of_mem hr
  rcases List.mem_cons.mp hmem with h | h
  · rw [h, length_headerFields]
  · obtain ⟨row, -, hrow⟩ := List.mem_map.mp h
    rw [← hrow, length_rowFields]

/-- The cut is after a line break within quotes. -/
def Torn (p : Bytes) : Prop := standing p = .inQuotedField ∧ terminated p = true

instance (p : Bytes) : Decidable (Torn p) := inferInstanceAs (Decidable (_ ∧ _))

omit [Crates] in
lemma torn_append {x p : Bytes} (h : standing (x ++ p) = standing p) : Torn (x ++ p) ↔ Torn p := by
  rw [Torn, Torn, h]
  rcases eq_or_ne p [] with rfl | hne
  · exact iff_of_false (fun h => absurd h.1 (by decide)) (fun h => absurd h.1 (by decide))
  · rw [terminated_append _ hne]

/-- What is whole before the cut does not matter. -/
lemma torn_rows (rows : Batch) (p : Bytes) :
    Torn (headerLine ++ encodeBatch rows ++ p) ↔ Torn p := by
  refine torn_append ?_
  have htwo : 2 ≤ headerFields.length := by
    rw [length_headerFields]
    decide
  have hheader : headerLine = writeFields headerFields ++ [cr, lf] := Crates.writeRecord_eq htwo
  rw [hheader, List.append_assoc, standing_record htwo, standing_encodeBatch]

lemma prefix_of_row {row : Row} {q : Bytes} (hq : q <+: encodeRow row) (hne : q ≠ encodeRow row) :
    q <+: writeFields (rowFields row) ∨ q = writeFields (rowFields row) ++ [cr] := by
  have hrow : encodeRow row = writeFields (rowFields row) ++ [cr] ++ [lf] := by
    simp [encodeRow_eq]
  rw [hrow] at hq hne
  rcases List.prefix_concat_iff.mp hq with h | h
  · exact absurd h hne
  · exact (List.prefix_concat_iff.mp h).symm

section spans
variable {path : String} {spans : List Span} {row : Row} {q : Bytes}

/-- A cut between two rows leaves the file as it is. -/
lemma opened_between
    (hline : firstLine (bytesOf (headSpan terminator_cr :: spans) ++ [lf]) = csvHeader)
    (hvalid : Valid spans) : opened path (bytesOf (headSpan terminator_cr :: spans) ++ [lf]) =
      .ok (bytesOf (headSpan terminator_cr :: spans) ++ [lf]) := by
  obtain ⟨-, hopened⟩ := @opened_eq _ path _ _ _ _ _ hline (walk_blank blank_lf)
  have hended : terminated (bytesOf (headSpan terminator_cr :: spans) ++ [lf]) = true := by
    rw [terminated_append _ (by simp)]
    decide
  rw [hopened hvalid, if_pos hended, if_pos (.inl rfl)]

/-- A cut before the line break of a row. -/
lemma opened_within
    (hline : firstLine (bytesOf (headSpan terminator_cr :: spans) ++ lf :: q) = csvHeader)
    (hvalid : Valid spans) (hq : q <+: writeFields (rowFields row)) (hq0 : q ≠ []) :
    (Torn q → opened path (bytesOf (headSpan terminator_cr :: spans) ++ lf :: q) =
      .error (.corrupt path)) ∧
    (¬ Torn q → opened path (bytesOf (headSpan terminator_cr :: spans) ++ lf :: q) =
      .ok (bytesOf (headSpan terminator_cr :: spans) ++ [lf])) := by
  have hblank : walk .first (lf :: q) = walk .first q := walk_append_within (walk_blank blank_lf) q
  have hended : terminated (bytesOf (headSpan terminator_cr :: spans) ++ lf :: q) =
      terminated q := by
    have hlast := terminated_append (bytesOf (headSpan terminator_cr :: spans) ++ [lf]) hq0
    simpa using hlast
  obtain ⟨place, hwalk, hmode, hquoted⟩ := walk_cut hq hq0
  obtain ⟨-, hopened⟩ := @opened_eq _ path _ _ _ _ _ hline (hblank.trans hwalk)
  have hstanding : standing q = place.mode := standing_within hwalk
  rw [hopened hvalid, hended, Torn]
  rcases ht : terminated q with _ | _
  · rw [if_neg (by simp), List.head?_cons, if_pos rfl]
    exact ⟨fun h => absurd h.2 (by simp), fun _ => rfl⟩
  · obtain ⟨hin, hlen⟩ := hquoted ht
    have hshort : ¬ structurallyValid (place.fields ++ [place.field]) = true := by
      have hcolumns : csvFields.length = 69 := by decide
      simp only [structurallyValid, hcolumns, Bool.and_eq_true, decide_eq_true_eq,
        List.length_append, List.length_singleton]
      omega
    rw [if_pos rfl, if_neg (by simp [hmode, hshort])]
    exact ⟨fun _ => rfl, fun h => absurd ⟨hstanding.trans hin, rfl⟩ h⟩

omit [Crates] in
/-- A row that only lacks the line feed is the last record. -/
lemma exists_spans_unfed (spans : List Span) (row : Row) : ∃ spans' : List Span,
    bytesOf (headSpan terminator_cr :: spans) ++ lf :: (writeFields (rowFields row) ++ [cr]) =
      bytesOf (headSpan terminator_cr :: spans') ++ [] ∧
    spans'.map Span.fields = spans.map Span.fields ++ [rowFields row] := by
  let last := (Span.ofFields (rowFields row) (two_le_rowFields [row] _ (by simp))).after [lf]
    blank_lf
  refine ⟨spans ++ [last], ?_, ?_⟩
  · simp [last, Span.after, Span.ofFields]
  · simp [last, Span.after, Span.ofFields]

/-- A cut before the line feed leaves the file as it is. -/
lemma opened_unfed (hline : firstLine (bytesOf (headSpan terminator_cr :: spans) ++ []) = csvHeader)
    (hvalid : Valid spans)
    (hended : terminated (bytesOf (headSpan terminator_cr :: spans) ++ []) = true) :
    opened path (bytesOf (headSpan terminator_cr :: spans) ++ []) =
      .ok (bytesOf (headSpan terminator_cr :: spans) ++ []) := by
  obtain ⟨-, hopened⟩ := @opened_eq _ path _ _ _ _ _ hline (walk_nil .first)
  rw [hopened hvalid, if_pos hended, if_pos (.inl rfl)]

omit [Crates] in
lemma not_torn_unfed (row : Row) : ¬ Torn (writeFields (rowFields row) ++ [cr]) := by
  have hstart : standing (writeFields (rowFields row) ++ [cr]) = .startRecord :=
    standing_closed (walk_writeRecord (two_le_rowFields [row] _ (by simp)) terminator_cr)
  exact fun h => absurd h.1 (by simp [hstart])

end spans

/-- What opening makes of rows and the beginning of a batch. -/
lemma opened_cut (path : String) (rows : Batch) {batch : Batch} {p : Bytes}
    (hp : p <+: encodeBatch batch) :
    (Torn p → opened path (headerLine ++ encodeBatch rows ++ p) = .error (.corrupt path)) ∧
    (¬ Torn p → ∃ content, opened path (headerLine ++ encodeBatch rows ++ p) = .ok content ∧
      Recovered rows batch content) := by
  obtain ⟨whole, q, rfl, hcases⟩ := prefix_encodeBatch hp
  obtain ⟨spans, hspans, hfields⟩ := exists_spans_rows (rows ++ whole)
  have hcontent : headerLine ++ encodeBatch rows ++ (encodeBatch whole ++ q) =
      bytesOf (headSpan terminator_cr :: spans) ++ lf :: q := by
    rw [← List.append_assoc, List.append_assoc headerLine, ← encodeBatch_append, hspans]
    simp
  have hline : firstLine (headerLine ++ encodeBatch rows ++ (encodeBatch whole ++ q)) =
      csvHeader := by
    have hshape : headerLine ++ encodeBatch rows ++ (encodeBatch whole ++ q) =
        csvHeader ++ List.replicate 1 cr ++
          lf :: (encodeBatch rows ++ (encodeBatch whole ++ q)) := by
      simp [headerLine_eq]
    rw [hshape, firstLine_header]
  have hvalid := valid_of_rows hfields
  have hkept : headerLine ++ encodeBatch rows <+:
      bytesOf (headSpan terminator_cr :: spans) ++ [lf] := by
    rw [← hspans, encodeBatch_append, ← List.append_assoc]
    exact List.prefix_append _ _
  rw [torn_append (standing_encodeBatch whole q)]
  rw [hcontent] at hline ⊢
  have hwhole : whole <+: batch := by
    rcases hcases with ⟨hwhole, -⟩ | ⟨row, hnext, -⟩
    · exact hwhole
    · exact (List.prefix_append whole [row]).trans hnext
  have hall := recovered_of_spans hwhole hfields blank_lf hkept
  rcases eq_or_ne q [] with rfl | hq0
  · exact ⟨fun h => absurd h.1 (by decide), fun _ => ⟨_, opened_between hline hvalid, hall⟩⟩
  · obtain ⟨row, hnext, hq, hne⟩ := hcases.resolve_left fun h => hq0 h.2
    rcases prefix_of_row hq hne with hq | rfl
    · obtain ⟨htorn, hwithin⟩ := @opened_within _ path _ _ _ hline hvalid hq hq0
      exact ⟨htorn, fun h => ⟨_, hwithin h, hall⟩⟩
    · obtain ⟨spans', hsplit, hfields'⟩ := exists_spans_unfed spans row
      rw [hfields, List.map_append] at hfields'
      have hfields' : spans'.map Span.fields = (rows ++ (whole ++ [row])).map rowFields := by
        rw [hfields']
        simp
      have hended : terminated (bytesOf (headSpan terminator_cr :: spans') ++ []) = true := by
        rw [← hsplit, terminated_append _ (by simp), ← List.cons_append,
          terminated_append _ (by simp)]
        decide
      have hlast : headerLine ++ encodeBatch rows <+:
          bytesOf (headSpan terminator_cr :: spans') ++ [] := by
        rw [← hsplit]
        exact hkept.trans ⟨writeFields (rowFields row) ++ [cr], by simp⟩
      rw [hsplit] at hline ⊢
      exact ⟨fun h => absurd h (not_torn_unfed row), fun _ => ⟨_,
        opened_unfed hline (valid_of_rows hfields') hended,
        recovered_of_spans hnext hfields' blank_nil hlast⟩⟩

/-- **Without failing calls**, opening leaves what `opened` says. -/
theorem openExplicit_iff {d : Folder} {path : String} {file : ℕ}
    (hentry : d.entries[path]? = some file) {P : Bytes → Prop} :
    (∃ d', openExplicit path ([], d) = (.ok file, [], d') ∧ P (d'.content file)) ↔
      ∃ content, opened path (d.content file) = .ok content ∧ P content := by
  have hmeets : Meets False d (openExplicit path)
      (fun x d' => x = file ∧ opened path (d.content file) = .ok (d'.content file))
      fun e _ => ∃ e, opened path (d.content file) = .error e :=
    meets_openExplicit hentry (fun d' _ h => ⟨rfl, h⟩) (fun e h _ => ⟨e, h⟩) fun hf => hf.elim
  have hends := hmeets [] (.inl rfl)
  rcases hr : openExplicit path ([], d) with ⟨_ | x, io, d'⟩
  · rw [hr] at hends
    obtain ⟨e, he⟩ := hends
    constructor
    · rintro ⟨d', h, -⟩
      cases h
    · rintro ⟨content, h, -⟩
      rw [he] at h
      cases h
  · rw [hr] at hends
    obtain ⟨hio, rfl, hopened⟩ := hends
    obtain rfl : io = [] := hio.resolve_right id
    constructor
    · rintro ⟨d₁, h, hP⟩
      obtain rfl : d' = d₁ := congrArg (·.2.2) h
      exact ⟨_, hopened, hP⟩
    · rintro ⟨content, h, hP⟩
      exact ⟨d', rfl, Except.ok.inj (hopened.symm.trans h) ▸ hP⟩

/-- A file that opening refuses. -/
lemma openExplicit_error {d : Folder} {path : String} {file : ℕ} {e : JournalError}
    (hentry : d.entries[path]? = some file) (h : opened path (d.content file) = .error e) :
    (openExplicit path ([], d)).1 = .error e := by
  have hmeets : Meets False d (openExplicit path)
      (fun _ d' => opened path (d.content file) = .ok (d'.content file))
      fun e _ => opened path (d.content file) = .error e :=
    meets_openExplicit hentry (fun _ _ hok => hok) (fun _ herror _ => herror) fun hf => hf.elim
  have hends := hmeets [] (.inl rfl)
  rcases hr : openExplicit path ([], d) with ⟨_ | x, io, d'⟩
  · rw [hr] at hends
    exact congrArg Except.error (Except.error.inj (hends.symm.trans h))
  · rw [hr] at hends
    have hok := h.symm.trans hends.2
    cases hok

/-- **Torn tails**: a journal that ends in the beginning of a batch is opened, with every byte of
the rows before kept and whole records only, exactly if the cut is not after a line break within
quotes. There it is refused as corrupt. -/
theorem torn_tail_recovered {d : Folder} {path : String} {file : ℕ} {rows batch : Batch}
    {p : Bytes} (hentry : d.entries[path]? = some file)
    (hcontent : d.content file = headerLine ++ encodeBatch rows ++ p)
    (hp : p <+: encodeBatch batch) :
    ((∃ d', openExplicit path ([], d) = (.ok file, [], d') ∧
      Recovered rows batch (d'.content file)) ↔ ¬ Torn p) ∧
    (Torn p → (openExplicit path ([], d)).1 = .error (.corrupt path)) := by
  obtain ⟨htorn, hwhole⟩ := opened_cut path rows hp
  rw [← hcontent] at htorn hwhole
  refine ⟨?_, fun ht => openExplicit_error hentry (htorn ht)⟩
  rw [openExplicit_iff hentry]
  refine ⟨?_, hwhole⟩
  rintro ⟨content, hopened, -⟩ ht
  rw [htorn ht] at hopened
  cases hopened

end cut

/-- A ping that failed, with a message of two lines. -/
def timeoutRow : Row where
  fields := (["1", "event-1", "ping_probe"] ++ List.replicate 10 "" ++
    ["timeout", "timeout\nsecond line"] ++ List.replicate 54 "").map String.toList
  length := by decide
  osErrorCode := by
    intro field hfield
    obtain rfl : [] = field := by simpa using hfield
    simp

open scoped Standard in
/-- A journal that ends in the first line of the message is opened. -/
theorem torn_before_message : ∃ d d' : Folder,
    d.content 0 = headerLine ++ encodeBatch [timeoutRow] ++ utf8 "1,event-1,ping".toList ∧
    openExplicit "events.csv" ([], d) = (.ok 0, [], d') ∧
    Recovered [timeoutRow] [timeoutRow] (d'.content 0) := by
  obtain ⟨d, hentry, hcontent⟩ := exists_folder "events.csv"
    (headerLine ++ encodeBatch [timeoutRow] ++ utf8 "1,event-1,ping".toList)
  have hcut : utf8 "1,event-1,ping".toList <+: encodeBatch [timeoutRow] := by decide +kernel
  obtain ⟨d', hopen, hrecovered⟩ := (torn_tail_recovered hentry hcontent hcut).1.mpr
    (by decide +kernel)
  exact ⟨d, d', hcontent, hopen, hrecovered⟩

open scoped Standard in
/-- **A torn message**: a journal that ends after the first line of a message is not opened. -/
theorem torn_message_refused : ¬ ∀ (d : Folder) (path : String) (file : ℕ) (rows batch : Batch)
    (p : Bytes), d.entries[path]? = some file →
    d.content file = headerLine ++ encodeBatch rows ++ p → p <+: encodeBatch batch →
    ∃ d', openExplicit path ([], d) = (.ok file, [], d') ∧
      Recovered rows batch (d'.content file) := by
  intro h
  have hcut : utf8 "1,event-1,ping_probe,,,,,,,,,,,timeout,\"timeout\n".toList <+:
      encodeBatch [timeoutRow] := by decide +kernel
  obtain ⟨d, hentry, hcontent⟩ := exists_folder "events.csv" (headerLine ++ encodeBatch [] ++
    utf8 "1,event-1,ping_probe,,,,,,,,,,,timeout,\"timeout\n".toList)
  obtain ⟨content, hopened, -⟩ := (openExplicit_iff hentry).mp
    (h d "events.csv" 0 [] [timeoutRow] _ hentry hcontent hcut)
  rw [hcontent, (opened_cut "events.csv" [] hcut).1 (by decide +kernel)] at hopened
  cases hopened

end Netband.Tails

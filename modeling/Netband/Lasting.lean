import Netband.Tails

/-!
A journal file that was accepted once, and rows that are appended to it: when it is accepted again
and reads as before with the rows after.
-/

namespace Netband.Lasting

open Netband.Effects Netband.Lines Netband.Csv Netband.Json Netband.Journal Netband.Segments
open Netband.Tails Faulty

/-! ### Files that begin with the header -/

lemma firstLine_append {content : Bytes} (h : lf ∈ content) (more : Bytes) :
    firstLine (content ++ more) = firstLine content := by
  rw [firstLine, List.takeWhile_append, if_neg, firstLine]
  intro hlen
  have hall := (List.takeWhile_prefix fun c : UInt8 => decide (c ≠ lf)).eq_of_length hlen
  rw [← hall] at h
  simpa using List.mem_takeWhile_imp h

lemma terminated_blank {c : UInt8} {hc : terminator c = true} {spans : List Span} {rest : Bytes}
    (hrest : Blank rest) : terminated (bytesOf (headSpan hc :: spans) ++ rest) = true := by
  have hstanding : standing (bytesOf (headSpan hc :: spans) ++ rest) = .startRecord :=
    standing_eq (walk_blank hrest) (headSpan hc :: spans)
  by_contra ht
  refine standing_unterminated (by simpa using ht) ?_ hstanding
  have := (headSpan hc).length_pos
  rw [← List.length_pos_iff, bytesOf_cons, List.length_append, List.length_append]
  omega

/-- Without a line break at its end, a file ends within a record. -/
lemma mode_of_unterminated {c : UInt8} {hc : terminator c = true} {spans : List Span} {rest : Bytes}
    {place : Place} (hwalk : walk .first rest = .within place)
    (hended : terminated (bytesOf (headSpan hc :: spans) ++ rest) = false) :
    place.mode ≠ .startRecord := by
  have hstanding : standing (bytesOf (headSpan hc :: spans) ++ rest) = place.mode :=
    standing_eq hwalk (headSpan hc :: spans)
  rw [← hstanding]
  refine standing_unterminated hended ?_
  have := (headSpan hc).length_pos
  rw [← List.length_pos_iff, bytesOf_cons, List.length_append, List.length_append]
  omega

section crates
variable [Crates]

lemma line_of_opened {path : String} {content content' : Bytes}
    (h : opened path content = .ok content') (hne : content ≠ []) :
    firstLine content = csvHeader := by
  rw [opened, if_neg hne, recovery] at h
  by_contra hline
  rw [validateHeader, if_pos hline] at h
  cases h

/-- The rows of a file that the reader is done with are read again before what is appended. -/
def Keeps (path : String) (content : Bytes) : Prop :=
  ∀ rows : Batch, ∃ content', opened path (content ++ encodeBatch rows) = .ok content' ∧
    (Crates.read content').map Record.fields =
      (Crates.read content).map Record.fields ++ rows.map rowFields

lemma read_blank {c : UInt8} {hc : terminator c = true} {spans : List Span} {rest : Bytes}
    (hrest : Blank rest) :
      (Crates.read (bytesOf (headSpan hc :: spans) ++ rest)).map Record.fields =
      headerFields :: spans.map Span.fields := by
  rw [Crates.read_eq (walk_blank hrest), List.map_append, map_fields_placed]
  simp [Place.last, Place.first, headSpan]

/-- A file whose header line is ended, and whose records are. -/
lemma keeps_of_spans {path : String} {c : UInt8} {hc : terminator c = true} {spans : List Span}
    {rest : Bytes} (hvalid : Valid spans) (hrest : Blank rest)
    (hline : firstLine (bytesOf (headSpan hc :: spans) ++ rest) = csvHeader)
    (hlf : lf ∈ bytesOf (headSpan hc :: spans) ++ rest) :
    Keeps path (bytesOf (headSpan hc :: spans) ++ rest) := by
  intro rows
  obtain ⟨added, rest', hbytes, hblank, hfields⟩ :=
    exists_spans_written hrest (two_le_rowFields rows)
  have hrest' : Blank rest' := by
    rw [hblank]
    split_ifs
    · exact hrest
    · exact blank_lf
  have hsplit : bytesOf (headSpan hc :: spans) ++ rest ++ encodeBatch rows =
      bytesOf (headSpan hc :: (spans ++ added)) ++ rest' := by
    rw [List.append_assoc, encodeBatch_eq, hbytes]
    simp
  have hline' : firstLine (bytesOf (headSpan hc :: (spans ++ added)) ++ rest') = csvHeader := by
    rw [← hsplit, firstLine_append hlf, hline]
  have hvalid' : Valid (spans ++ added) := by
    intro s hs
    rcases List.mem_append.mp hs with hs | hs
    · exact hvalid s hs
    · exact valid_of_rows hfields s hs
  have hended := @terminated_blank c hc (spans ++ added) rest' hrest'
  obtain ⟨-, hopened⟩ := opened_eq hline' (walk_blank hrest')
  have hopened := hopened hvalid'
  rw [if_pos hended, if_pos (.inl rfl), ← hsplit] at hopened
  refine ⟨_, hopened, ?_⟩
  rw [hsplit, read_blank hrest', read_blank hrest, List.map_append, hfields]
  rfl

end crates

/-! ### Files that are lost -/

lemma dropWhile_replicate (n : ℕ) (rest : Bytes) :
    (List.replicate n cr ++ rest).dropWhile (· = cr) = rest.dropWhile (· = cr) :=
  List.dropWhile_append_of_pos fun c hc => by simpa using List.eq_of_mem_replicate hc

/-- A row with a version and nothing else. -/
def plainRow : Row where
  fields := ("1" :: List.replicate 68 "").map String.toList
  length := by decide
  osErrorCode := by
    intro field hfield
    obtain rfl : [] = field := by simpa using hfield
    simp

lemma walk_within_quotes {bytes : Bytes} (h : quote ∉ bytes) (fields : List Bytes)
    (field : Bytes) : walk ⟨.inQuotedField, fields, field⟩ bytes =
      .within ⟨.inQuotedField, fields, field ++ bytes⟩ := by
  induction bytes generalizing field with
  | nil => simp
  | cons c bytes ih =>
    rw [List.mem_cons, not_or] at h
    have hcopy : action .inQuotedField c = .copy .inQuotedField := by simp [action, Ne.symm h.1]
    rw [walk_copy hcopy, ih h.2]
    simp

section crates
variable [Crates]

lemma encodeBatch_singleton (row : Row) :
    encodeBatch [row] = writeFields (rowFields row) ++ [cr, lf] := by
  simp [encodeBatch, encodeRow_eq]

/-- A row does not begin with a line break. -/
lemma exists_first_byte (row : Row) : ∃ c rest, encodeBatch [row] = c :: rest ∧
    terminator c = false := by
  have htwo := two_le_rowFields [row] (rowFields row) (by simp)
  rw [encodeBatch_singleton]
  cases hw : writeFields (rowFields row) with
  | nil =>
    have hspan := walk_writeRecord htwo terminator_cr
    rw [hw, List.nil_append, walk_blank (by simp [Blank, terminator_cr])] at hspan
    cases hspan
  | cons c rest => exact ⟨c, _, rfl, head_writeFields htwo c (by rw [hw]; rfl)⟩

/-- The header line is not ended by a line feed. -/
lemma not_keeps_header (path : String) (n : ℕ) :
    ¬ Keeps path (csvHeader ++ List.replicate (n + 1) cr) := by
  intro h
  obtain ⟨content', hopened, -⟩ := h [timeoutRow]
  obtain ⟨c, rest, hrow, hc⟩ := exists_first_byte timeoutRow
  have hcr : c ≠ cr := by
    rintro rfl
    exact absurd terminator_cr (by simp [hc])
  have hline : firstLine (csvHeader ++ List.replicate (n + 1) cr ++ encodeBatch [timeoutRow]) ≠
      csvHeader := by
    intro hline
    obtain ⟨k, tail, hsplit, htail⟩ := of_firstLine hline
    rw [List.append_assoc, List.append_assoc, List.append_cancel_left_eq, hrow] at hsplit
    have hdrop := congrArg (List.dropWhile fun x => decide (x = cr)) hsplit
    rw [dropWhile_replicate, dropWhile_replicate, List.dropWhile_cons_of_neg (by simpa)] at hdrop
    rcases htail with rfl | ⟨r, rfl⟩
    · cases hdrop
    · rw [List.dropWhile_cons_of_neg (by decide)] at hdrop
      have hlf : c = lf := (List.cons.inj hdrop).1
      rw [hlf] at hc
      exact absurd hc (by decide)
  have hne : csvHeader ++ List.replicate (n + 1) cr ++ encodeBatch [timeoutRow] ≠ [] := by
    rw [hrow]
    simp
  rw [opened, if_neg hne, recovery, validateHeader, if_pos hline] at hopened
  cases hopened

/-- The last field is not closed. -/
lemma not_keeps_quoted {path : String} {c : UInt8} {hc : terminator c = true} {spans : List Span}
    {rest : Bytes} {place : Place} (h : walk .first rest = .within place)
    (hquoted : place.mode = .inQuotedField) :
    ¬ Keeps path (bytesOf (headSpan hc :: spans) ++ rest) := by
  intro hkeeps
  obtain ⟨content', hopened, hread⟩ := hkeeps [plainRow]
  have hplain : quote ∉ encodeBatch [plainRow] := by
    rw [encodeBatch_singleton]
    decide +kernel
  have hwithin : walk .first (rest ++ encodeBatch [plainRow]) =
      .within ⟨.inQuotedField, place.fields, place.field ++ encodeBatch [plainRow]⟩ := by
    rw [walk_append_within h]
    obtain ⟨mode, fields, field⟩ := place
    obtain rfl : mode = .inQuotedField := hquoted
    exact walk_within_quotes hplain fields field
  have hne : bytesOf (headSpan hc :: spans) ++ (rest ++ encodeBatch [plainRow]) ≠ [] := by
    have := (headSpan hc).length_pos
    rw [← List.length_pos_iff, bytesOf_cons, List.length_append, List.length_append]
    omega
  have hended : terminated (bytesOf (headSpan hc :: spans) ++ (rest ++ encodeBatch [plainRow])) =
      true := by
    rw [← List.append_assoc, encodeBatch_singleton, ← List.append_assoc,
      terminated_append _ (by simp)]
    decide
  rw [List.append_assoc] at hopened
  have hline := line_of_opened hopened hne
  obtain ⟨hinvalid, hvalid⟩ := opened_eq hline hwithin
  have hspans : Valid spans := by
    by_contra hv
    rw [hinvalid hv] at hopened
    cases hopened
  rw [hvalid hspans, if_pos hended] at hopened
  have hkept : bytesOf (headSpan hc :: spans) ++ (rest ++ encodeBatch [plainRow]) = content' := by
    split at hopened
    · exact Except.ok.inj hopened
    · cases hopened
  rw [← hkept] at hread
  have hlength := congrArg List.length hread
  rw [Crates.read_eq hwithin, Crates.read_eq h] at hlength
  simp [Place.last, hquoted, length_placed] at hlength

end crates

/-! ### What is accepted for good -/

lemma blank_replicate (n : ℕ) : Blank (List.replicate n cr) := by
  intro c hc
  rw [List.eq_of_mem_replicate hc]
  exact terminator_cr

/-- A span that follows carriage returns and a line feed has the line feed. -/
lemma mem_span {s : Span} {n : ℕ} {rest more : Bytes}
    (h : s.bytes ++ more = List.replicate n cr ++ lf :: rest) : lf ∈ s.bytes := by
  by_contra hlf
  have hpre : s.bytes <+: List.replicate n cr ++ lf :: rest := ⟨more, h⟩
  rcases prefix_append_cases hpre with ⟨hp, -⟩ | ⟨q, hq, hbytes⟩
  · have hblank : Blank s.bytes := fun c hc => blank_replicate n c (hp.subset hc)
    have hclosed := s.closed
    rw [walk_blank hblank] at hclosed
    cases hclosed
  · cases q with
    | nil =>
      have hclosed := s.closed
      rw [hbytes, List.append_nil, walk_blank (blank_replicate n)] at hclosed
      cases hclosed
    | cons c q =>
      obtain ⟨t, ht⟩ := hq
      have hc : c = lf := (List.cons.inj ht).1
      exact hlf (by rw [hbytes, hc]; simp)

/-- A file whose first line is the header is the span of the header and what follows it. -/
lemma exists_head {content : Bytes} (hline : firstLine content = csvHeader)
    (hne : content ≠ csvHeader) : ∃ (c : UInt8) (hc : terminator c = true) (spans : List Span)
      (rest : Bytes) (place : Place), content = bytesOf (headSpan hc :: spans) ++ rest ∧
      walk .first rest = .within place ∧ (c = lf ∨ c = cr ∧ ∃ n tail,
        bytesOf spans ++ rest = List.replicate n cr ++ tail ∧
          (tail = [] ∨ ∃ r, tail = lf :: r)) := by
  obtain ⟨n, tail, rfl, htail⟩ := of_firstLine hline
  cases n with
  | zero =>
    rcases htail with rfl | ⟨r, rfl⟩
    · simp at hne
    · obtain ⟨spans, rest, place, hr, hwalk⟩ := exists_spans r
      refine ⟨lf, by decide, spans, rest, place, ?_, hwalk, .inl rfl⟩
      simp [headSpan, hr]
  | succ n =>
    obtain ⟨spans, rest, place, hr, hwalk⟩ := exists_spans (List.replicate n cr ++ tail)
    refine ⟨cr, terminator_cr, spans, rest, place, ?_, hwalk, .inr ⟨rfl, n, tail, hr.symm, htail⟩⟩
    rw [bytesOf_cons, List.append_assoc, List.append_assoc, ← hr, List.replicate_succ]
    simp [headSpan]

/-- The header line of a file without a line feed. -/
lemma eq_replicate_of_notMem {c : UInt8} {hc : terminator c = true} {spans : List Span}
    {rest : Bytes} (hline : firstLine (bytesOf (headSpan hc :: spans) ++ rest) = csvHeader)
    (hlf : lf ∉ bytesOf (headSpan hc :: spans) ++ rest) :
    ∃ n, bytesOf (headSpan hc :: spans) ++ rest = csvHeader ++ List.replicate (n + 1) cr := by
  obtain ⟨n, tail, hsplit, htail⟩ := of_firstLine hline
  rcases htail with rfl | ⟨r, rfl⟩
  · cases n with
    | zero =>
      have hlen := congrArg List.length hsplit
      simp [headSpan] at hlen
    | succ n => exact ⟨n, by simpa using hsplit⟩
  · rw [hsplit] at hlf
    simp at hlf

lemma terminated_csvHeader : terminated csvHeader = false := by
  rcases List.eq_nil_or_concat csvHeader with h | ⟨front, d, h⟩
  · rw [h]
    rfl
  · have hplain := csvHeader_plain d (by simp [h])
    rw [h, terminated]
    simpa using hplain

lemma terminated_header (n : ℕ) : terminated (csvHeader ++ List.replicate (n + 1) cr) = true := by
  rw [terminated_append _ (by simp), List.replicate_succ', terminated_append _ (by simp)]
  decide

/-- What is left of the input after the last record. -/
lemma blank_left (rest : Bytes) : Blank (if rest.head? = some lf then [lf] else []) := by
  split_ifs
  · exact blank_lf
  · exact blank_nil

section crates
variable [Crates]

/-- The header line is not ended, or nothing is left behind a broken one, or the last field is not
closed. -/
inductive Fragile (content : Bytes) : Prop
  | header (n : ℕ) (h : content = csvHeader ++ List.replicate (n + 1) cr)
  | only (h : csvHeader ++ [cr, cr] <+: content) (hended : terminated content = false)
    (hlen : (Crates.read content).length = 2)
  | quoted (h : standing content = .inQuotedField) (hended : terminated content = true)

/-- A file with the header alone. -/
lemma exists_spans_headerLine : ∃ spans, headerLine = bytesOf (headSpan terminator_cr :: spans) ++
    [lf] ∧ spans.map Span.fields = [] := by
  obtain ⟨spans, hspans, hfields⟩ := exists_spans_rows []
  have hempty : headerLine ++ encodeBatch [] = headerLine := by simp [encodeBatch]
  rw [hempty] at hspans
  exact ⟨spans, hspans, hfields⟩

lemma keeps_headerLine (path : String) : Keeps path headerLine := by
  obtain ⟨spans, hspans, hfields⟩ := exists_spans_headerLine
  have hline : firstLine headerLine = csvHeader := by
    have hshape : headerLine = csvHeader ++ List.replicate 1 cr ++ lf :: [] := by
      simp [headerLine_eq]
    rw [hshape, firstLine_header]
  rw [hspans] at hline ⊢
  exact keeps_of_spans (@valid_of_rows spans [] hfields) blank_lf hline (by simp)

lemma read_headerLine : (Crates.read headerLine).map Record.fields = [headerFields] := by
  obtain ⟨spans, hspans, hfields⟩ := exists_spans_headerLine
  rw [hspans, read_blank blank_lf, hfields]

section iff
variable {path : String} {c : UInt8} {hc : terminator c = true} {spans : List Span}
  {rest content' : Bytes} {place : Place}

/-- A file that ends with a line break. -/
lemma keeps_iff_terminated (hwalk : walk .first rest = .within place)
    (hline : firstLine (bytesOf (headSpan hc :: spans) ++ rest) = csvHeader)
    (hvalid : Valid spans)
    (hended : terminated (bytesOf (headSpan hc :: spans) ++ rest) = true) :
    Keeps path (bytesOf (headSpan hc :: spans) ++ rest) ↔
      ¬ Fragile (bytesOf (headSpan hc :: spans) ++ rest) := by
  have hstanding : standing (bytesOf (headSpan hc :: spans) ++ rest) = place.mode :=
    standing_eq hwalk (headSpan hc :: spans)
  constructor
  · intro hkeeps hf
    cases hf with
    | header n h => exact not_keeps_header path n (h ▸ hkeeps)
    | only _ h => rw [hended] at h; cases h
    | quoted h => exact not_keeps_quoted hwalk (hstanding.symm.trans h) hkeeps
  · intro hnot
    have hmode : place.mode = .startRecord := by
      rw [← hstanding]
      exact (standing_terminated hended).resolve_right fun h => hnot (.quoted h hended)
    have hlf : lf ∈ bytesOf (headSpan hc :: spans) ++ rest := by
      by_contra hlf
      obtain ⟨n, hn⟩ := eq_replicate_of_notMem hline hlf
      exact hnot (.header n hn)
    exact keeps_of_spans hvalid (blank_of_within hwalk hmode).2 hline hlf

/-- A cut last record leaves a whole line unless the file is fragile. -/
lemma lf_mem_left (hended : terminated (bytesOf (headSpan hc :: spans) ++ rest) = false)
    (hread : (Crates.read (bytesOf (headSpan hc :: spans) ++ rest)).length = spans.length + 2)
    (hshape : c = lf ∨ c = cr ∧ ∃ n tail, bytesOf spans ++ rest = List.replicate n cr ++ tail ∧
      (tail = [] ∨ ∃ r, tail = lf :: r))
    (hnot : ¬ Fragile (bytesOf (headSpan hc :: spans) ++ rest)) :
    lf ∈ bytesOf (headSpan hc :: spans) ++ if rest.head? = some lf then [lf] else [] := by
  rcases hshape with rfl | ⟨rfl, n, tail, hsplit, htail⟩
  · simp [headSpan]
  rcases htail with rfl | ⟨r, rfl⟩
  · have hcontent : bytesOf (headSpan hc :: spans) ++ rest =
        csvHeader ++ List.replicate (n + 1) cr := by
      rw [bytesOf_cons, List.append_assoc, hsplit, List.replicate_succ]
      simp [headSpan]
    rw [hcontent, terminated_header] at hended
    cases hended
  · cases spans with
    | cons s spans =>
      rw [bytesOf_cons, List.append_assoc] at hsplit
      simp [mem_span hsplit]
    | nil =>
      rw [bytesOf_nil, List.nil_append] at hsplit
      subst hsplit
      cases n with
      | zero => simp
      | succ n =>
        refine absurd (.only ?_ hended (by simpa using hread)) hnot
        rw [List.replicate_succ]
        exact ⟨List.replicate n cr ++ lf :: r, by simp [headSpan]⟩

/-- A file whose last record is cut. -/
lemma keeps_iff_unterminated (hwalk : walk .first rest = .within place)
    (hline : firstLine (bytesOf (headSpan hc :: spans) ++ rest) = csvHeader)
    (hvalid : Valid spans)
    (hended : terminated (bytesOf (headSpan hc :: spans) ++ rest) = false)
    (hshape : c = lf ∨ c = cr ∧ ∃ n tail, bytesOf spans ++ rest = List.replicate n cr ++ tail ∧
      (tail = [] ∨ ∃ r, tail = lf :: r)) :
    Keeps path (bytesOf (headSpan hc :: spans) ++ if rest.head? = some lf then [lf] else []) ↔
      ¬ Fragile (bytesOf (headSpan hc :: spans) ++ rest) := by
  have hmode : place.mode ≠ .startRecord := mode_of_unterminated hwalk hended
  have hread :
      (Crates.read (bytesOf (headSpan hc :: spans) ++ rest)).length = spans.length + 2 := by
    rw [Crates.read_eq hwalk, List.length_append, length_placed, Place.last, if_neg hmode]
    rfl
  constructor
  · intro hkeeps hf
    cases hf with
    | header n h =>
      rw [h, terminated_header] at hended
      cases hended
    | quoted _ h => rw [hended] at h; cases h
    | only hpre _ hlen =>
      have hspans : spans = [] := List.eq_nil_of_length_eq_zero (by omega)
      subst hspans
      have hsplit : bytesOf [headSpan hc] ++ rest = csvHeader ++ c :: rest := by simp [headSpan]
      rw [hsplit, List.prefix_append_right_inj] at hpre
      obtain ⟨t, ht⟩ := hpre
      obtain ⟨rfl, rfl⟩ := List.cons.inj ht
      refine not_keeps_header path 0 ?_
      have hhead : ¬ (cr :: t).head? = some lf := by
        rw [List.head?_cons]
        decide
      change Keeps path (bytesOf [headSpan hc] ++ if (cr :: t).head? = some lf then [lf] else [])
        at hkeeps
      rw [if_neg hhead] at hkeeps
      simpa [headSpan] using hkeeps
  · intro hnot
    have hlf := lf_mem_left hended hread hshape hnot
    have hpre : bytesOf (headSpan hc :: spans) ++ (if rest.head? = some lf then [lf] else []) <+:
        bytesOf (headSpan hc :: spans) ++ rest := by
      rw [List.prefix_append_right_inj]
      split_ifs with hhead
      · cases rest with
        | nil => cases hhead
        | cons d rest =>
          obtain rfl : d = lf := by simpa using hhead
          exact ⟨rest, rfl⟩
      · exact List.nil_prefix
    have hline' : firstLine (bytesOf (headSpan hc :: spans) ++
        if rest.head? = some lf then [lf] else []) = csvHeader := by
      obtain ⟨t, ht⟩ := hpre
      rw [← hline, ← ht, firstLine_append hlf]
    exact keeps_of_spans hvalid (blank_left rest) hline' hlf

end iff

/-- What opening makes of a file that it accepts. -/
inductive Accepts : Bytes → Bytes → Prop
  | fresh : Accepts [] headerLine
  | header : Accepts csvHeader headerLine
  | ended {c : UInt8} {hc : terminator c = true} {spans : List Span} {rest : Bytes} {place : Place}
    (hwalk : walk .first rest = .within place)
    (hline : firstLine (bytesOf (headSpan hc :: spans) ++ rest) = csvHeader)
    (hvalid : Valid spans)
    (hended : terminated (bytesOf (headSpan hc :: spans) ++ rest) = true) :
    Accepts (bytesOf (headSpan hc :: spans) ++ rest) (bytesOf (headSpan hc :: spans) ++ rest)
  | cut {c : UInt8} {hc : terminator c = true} {spans : List Span} {rest : Bytes} {place : Place}
    (hwalk : walk .first rest = .within place)
    (hline : firstLine (bytesOf (headSpan hc :: spans) ++ rest) = csvHeader)
    (hvalid : Valid spans)
    (hended : terminated (bytesOf (headSpan hc :: spans) ++ rest) = false)
    (hshape : c = lf ∨ c = cr ∧ ∃ n tail, bytesOf spans ++ rest = List.replicate n cr ++ tail ∧
      (tail = [] ∨ ∃ r, tail = lf :: r)) :
    Accepts (bytesOf (headSpan hc :: spans) ++ rest)
      (bytesOf (headSpan hc :: spans) ++ if rest.head? = some lf then [lf] else [])

lemma accepts_of_opened {path : String} {content content' : Bytes}
    (hopened : opened path content = .ok content') : Accepts content content' := by
  rcases eq_or_ne content [] with rfl | hne
  · rw [opened, if_pos rfl] at hopened
    rw [← Except.ok.inj hopened]
    exact .fresh
  have hline := line_of_opened hopened hne
  rcases eq_or_ne content csvHeader with rfl | hlong
  · rw [opened, if_neg hne, recovery_of_line hline, recoverTrailingRecord, if_pos rfl] at hopened
    have hkept : headerLine = content' := headerLine_eq.trans (Except.ok.inj hopened)
    rw [← hkept]
    exact .header
  obtain ⟨c, hc, spans, rest, place, rfl, hwalk, hshape⟩ := exists_head hline hlong
  obtain ⟨hinvalid, hvalid⟩ := opened_eq hline hwalk
  have hspans : Valid spans := by
    by_contra hv
    rw [hinvalid hv] at hopened
    cases hopened
  rw [hvalid hspans] at hopened
  by_cases hended : terminated (bytesOf (headSpan hc :: spans) ++ rest) = true
  · rw [if_pos hended] at hopened
    have hkept : bytesOf (headSpan hc :: spans) ++ rest = content' := by
      split at hopened
      · exact Except.ok.inj hopened
      · cases hopened
    rw [← hkept]
    exact .ended hwalk hline hspans hended
  · rw [if_neg hended] at hopened
    rw [← Except.ok.inj hopened]
    exact .cut hwalk hline hspans (by simpa using hended) hshape

/-- What opening leaves of a file that was not new is kept, or fragile from the beginning. -/
lemma keeps_iff {path : String} {content content' : Bytes}
    (hopened : opened path content = .ok content') : Keeps path content' ↔ ¬ Fragile content := by
  cases accepts_of_opened hopened with
  | fresh =>
    refine ⟨fun _ hf => ?_, fun _ => keeps_headerLine path⟩
    cases hf with
    | header n h => simp at h
    | only h => simp at h
    | quoted h => cases h
  | header =>
    refine ⟨fun _ hf => ?_, fun _ => keeps_headerLine path⟩
    cases hf with
    | header n h => simp at h
    | only h =>
      have hlen := h.length_le
      simp at hlen
    | quoted _ h =>
      rw [terminated_csvHeader] at h
      cases h
  | ended hwalk hline hvalid hended => exact keeps_iff_terminated hwalk hline hvalid hended
  | cut hwalk hline hvalid hended hshape =>
    exact keeps_iff_unterminated hwalk hline hvalid hended hshape

/-! ### What is read after opening -/

/-- The rows of a file, without a last one that is not ended. -/
def finished (content : Bytes) : List (List Bytes) :=
  (((if terminated content = true then Crates.read content
    else (Crates.read content).dropLast)).map Record.fields).tail

/-- Without a line break, only the beginning of a header is read. -/
lemma finished_csvHeader : finished csvHeader = [] := by
  have hended := terminated_csvHeader
  cases hwalk : walk .first csvHeader with
  | closed fields rest =>
    have hclosed := walk_append_closed hwalk [cr]
    rw [walk_header terminator_cr] at hclosed
    have hrest := (Walk.closed.inj hclosed).2
    simp at hrest
  | within place =>
    have hread : Crates.read csvHeader = place.last 0 csvHeader.length :=
      Crates.read_eq hwalk []
    rw [finished, if_neg (by simp [hended]), hread, Place.last]
    split_ifs <;> rfl

/-- **Opening** leaves the header and the rows that were ended. -/
lemma read_opened {path : String} {content content' : Bytes}
    (hopened : opened path content = .ok content') :
    (Crates.read content').map Record.fields = headerFields :: finished content := by
  cases accepts_of_opened hopened with
  | fresh =>
    have hread : Crates.read [] = [] := Crates.read_eq (walk_nil .first) []
    rw [read_headerLine, finished, hread]
    rfl
  | header => rw [read_headerLine, finished_csvHeader]
  | ended hwalk _ _ hended =>
    rw [finished, if_pos hended, Crates.read_eq hwalk]
    rfl
  | @cut _ _ _ rest _ hwalk _ _ hended =>
    rw [read_blank (blank_left rest), finished, if_neg (ne_true_of_eq_false hended),
      Crates.read_eq hwalk, Place.last, if_neg (mode_of_unterminated hwalk hended),
      List.dropLast_concat, map_fields_placed]
    rfl

/-! ### Files that are opened again -/

/-- The directory after batches that were appended to a file. -/
def afterBatches (file : ℕ) (d : Folder) (batches : List Batch) : Folder :=
  batches.foldl (fun d batch => d.append file (encodeBatch batch)) d

/-- Whatever batches are appended to the file, it can be opened again, and has the header, the rows
that were ended before, and the rows of the batches after them. -/
def Lasts (path : String) (file : ℕ) (before : Bytes) (d : Folder) : Prop :=
  ∀ batches : List Batch, ∃ d', openExplicit path ([], afterBatches file d batches) =
      (.ok file, [], d') ∧
    (Crates.read (d'.content file)).map Record.fields =
      headerFields :: (finished before ++ batches.flatten.map rowFields)

lemma afterBatches_entries (file : ℕ) (d : Folder) (batches : List Batch) :
    (afterBatches file d batches).entries = d.entries := by
  induction batches generalizing d with
  | nil => rfl
  | cons batch batches ih => exact ih (d.append file (encodeBatch batch))

lemma afterBatches_content {file : ℕ} {d : Folder} (h : file < d.inodes.length)
    (batches : List Batch) : (afterBatches file d batches).content file =
      d.content file ++ encodeBatch batches.flatten := by
  induction batches generalizing d with
  | nil => simp [afterBatches, encodeBatch]
  | cons batch batches ih =>
    have hthere : file < (d.append file (encodeBatch batch)).inodes.length := by
      simpa [Folder.append] using h
    change (afterBatches file (d.append file (encodeBatch batch)) batches).content file = _
    rw [ih hthere, Folder.content_append_self _ _ _ h, List.flatten_cons, encodeBatch_append,
      List.append_assoc]

lemma lasts_iff {path : String} {file : ℕ} {before : Bytes} {d : Folder}
    (hentry : d.entries[path]? = some file) (hopened : opened path before = .ok (d.content file)) :
    Lasts path file before d ↔ Keeps path (d.content file) := by
  have hread := read_opened hopened
  have hbatches : ∀ batches : List Batch, (∃ d', openExplicit path
      ([], afterBatches file d batches) = (.ok file, [], d') ∧
        (Crates.read (d'.content file)).map Record.fields =
          headerFields :: (finished before ++ batches.flatten.map rowFields)) ↔
      ∃ content', opened path (d.content file ++ encodeBatch batches.flatten) = .ok content' ∧
        (Crates.read content').map Record.fields =
          (Crates.read (d.content file)).map Record.fields ++ batches.flatten.map rowFields := by
    intro batches
    have hentry' : (afterBatches file d batches).entries[path]? = some file := by
      rw [afterBatches_entries, hentry]
    rw [hread, List.cons_append, ← afterBatches_content (d.there path file hentry)]
    exact openExplicit_iff hentry' (P := fun content => (Crates.read content).map Record.fields =
      headerFields :: (finished before ++ batches.flatten.map rowFields))
  constructor
  · intro h rows
    have hrows := (hbatches [rows]).mp (h [rows])
    simpa using hrows
  · intro h batches
    exact (hbatches batches).mpr (h batches.flatten)

/-- What an opening that returned leaves. -/
lemma opened_of_openExplicit {d d' : Folder} {path : String} {file : ℕ} {io io' : List Io}
    (hentry : d.entries[path]? = some file)
    (hopen : openExplicit path (io, d) = (.ok file, io', d')) :
    d'.entries[path]? = some file ∧ opened path (d.content file) = .ok (d'.content file) := by
  have hmeets : Meets True d (openExplicit path)
      (fun _ d' => d'.entries = d.entries ∧ opened path (d.content file) = .ok (d'.content file))
      fun _ _ => True :=
    meets_openExplicit hentry (fun d' he h => ⟨he, h⟩) (fun _ _ _ => trivial) fun _ _ _ => trivial
  have hends := hmeets io (.inr trivial)
  rw [hopen] at hends
  obtain ⟨-, hsame, hopened⟩ := hends
  exact ⟨hsame ▸ hentry, hopened⟩

/-- **Accepted journals**: a file that opening accepted is accepted again, with the rows that were
ended before and all rows that were appended, exactly if it was not fragile. -/
theorem accepted_lasts_iff {d d' : Folder} {path : String} {file : ℕ} {io io' : List Io}
    (hentry : d.entries[path]? = some file)
    (hopen : openExplicit path (io, d) = (.ok file, io', d')) :
    Lasts path file (d.content file) d' ↔ ¬ Fragile (d.content file) := by
  obtain ⟨hentry', hopened⟩ := opened_of_openExplicit hentry hopen
  rw [lasts_iff hentry' hopened]
  exact keeps_iff hopened

end crates

open scoped Standard in
/-- A file of one row and the beginning of another. -/
theorem torn_journal_lasts : ∃ d d' : Folder,
    d.content 0 = headerLine ++ encodeBatch [timeoutRow] ++ utf8 "1,event-1".toList ∧
    openExplicit "events.csv" ([], d) = (.ok 0, [], d') ∧
    Lasts "events.csv" 0 (d.content 0) d' := by
  obtain ⟨d, hentry, hcontent⟩ := exists_folder "events.csv"
    (headerLine ++ encodeBatch [timeoutRow] ++ utf8 "1,event-1".toList)
  have hcut : utf8 "1,event-1".toList <+: encodeBatch [timeoutRow] := by decide +kernel
  obtain ⟨content, hopened, hrecovered⟩ :=
    (opened_cut "events.csv" [timeoutRow] hcut).2 (by decide +kernel)
  rw [← hcontent] at hopened
  obtain ⟨d', hopen, -⟩ := (openExplicit_iff hentry (P := fun _ => True)).mpr
    ⟨content, hopened, trivial⟩
  refine ⟨d, d', hcontent, hopen, (accepted_lasts_iff hentry hopen).mpr fun hf => ?_⟩
  have hended : terminated (d.content 0) = false := by
    rw [hcontent, terminated_append _ (by decide +kernel)]
    decide +kernel
  have hshape : d.content 0 =
      csvHeader ++ cr :: lf :: (encodeBatch [timeoutRow] ++ utf8 "1,event-1".toList) := by
    simp [hcontent, headerLine_eq]
  cases hf with
  | header n h =>
    rw [h, terminated_header] at hended
    cases hended
  | only h =>
    rw [hshape, List.prefix_append_right_inj] at h
    obtain ⟨t, ht⟩ := h
    simp only [List.cons_append, List.cons.injEq] at ht
    exact absurd ht.2.1 (by decide)
  | quoted _ h =>
    rw [hended] at h
    cases h

open scoped Standard in
/-- **A header that was cut**: a journal that ends in the carriage return of its header is accepted
once, and after the next row never again. -/
theorem cut_header_lost : ∃ d d' : Folder, d.content 0 = csvHeader ++ [cr] ∧
    openExplicit "events.csv" ([], d) = (.ok 0, [], d') ∧
    ¬ Lasts "events.csv" 0 (d.content 0) d' := by
  obtain ⟨d, hentry, hcontent⟩ := exists_folder "events.csv" (csvHeader ++ [cr])
  have hbytes : bytesOf [headSpan terminator_cr] ++ [] = csvHeader ++ [cr] := by simp [headSpan]
  have hline : firstLine (csvHeader ++ [cr]) = csvHeader := by
    have hplain : ∀ c ∈ csvHeader ++ [cr], decide (c ≠ lf) = true := by
      intro c hc
      simp only [decide_eq_true_eq]
      rintro rfl
      exact notMem_headerLine 1 hc
    have hbreak := rdropWhile_replicate csvHeader 1
    rw [rdropWhile_of_plain csvHeader_plain] at hbreak
    rw [firstLine, List.takeWhile_eq_self_iff.mpr hplain]
    exact hbreak
  have hended : terminated (csvHeader ++ [cr]) = true := by
    rw [terminated_append _ (by simp)]
    decide
  rw [← hbytes] at hline hended
  obtain ⟨-, hopened⟩ := opened_eq hline (walk_nil .first)
  have hopened := hopened fun _ h => by cases h
  rw [if_pos hended, if_pos (.inl rfl), hbytes, ← hcontent] at hopened
  obtain ⟨d', hopen, hsame⟩ := (openExplicit_iff hentry (P := fun c => c = d.content 0)).mpr
    ⟨_, hopened, rfl⟩
  obtain ⟨hentry', hopened'⟩ := opened_of_openExplicit hentry hopen
  refine ⟨d, d', hcontent, hopen, ?_⟩
  rw [lasts_iff hentry' hopened', hsame, hcontent]
  exact not_keeps_header "events.csv" 0

end Netband.Lasting

import Netband.Text

/-!
The redaction of secrets in messages.

One pass for each key walks over the message and replaces the values of the key, up to the next
delimiter. The passes work on byte offsets into a string that they change as they go.
-/

namespace Netband.Sanitize

open Netband.Text

/-! ### Messages -/

/-- The characters with the property White_Space. -/
def isWhitespace (c : Char) : Bool :=
  let n := c.toNat
  (9 ≤ n && n ≤ 13) || n = 32 || n = 0x85 || n = 0xA0 || n = 0x1680 || (0x2000 ≤ n && n ≤ 0x200A)
    || n = 0x2028 || n = 0x2029 || n = 0x202F || n = 0x205F || n = 0x3000

/-- What ends a value; 34 and 39 are the quotes. -/
def isDelimiter (c : Char) : Bool :=
  isWhitespace c || c = '&' || c = ',' || c = ';' || c.toNat = 34 || c.toNat = 39

/-- A key is found by its equals sign, the only one in it; it holds no delimiter. -/
structure Key where
  stem : Chars
  plain : stem.all (fun c => c ≠ '=' ∧ isDelimiter c = false) = true

def Key.text (key : Key) : Chars := key.stem ++ ['=']

def keys : List Key :=
  [⟨"access_token".toList, by decide +kernel⟩, ⟨"api_key".toList, by decide +kernel⟩,
    ⟨"authorization".toList, by decide +kernel⟩, ⟨"token".toList, by decide +kernel⟩,
    ⟨"key".toList, by decide +kernel⟩]

def redacted : Chars := "[redacted]".toList

/-- A text starts with a key, in any case. -/
def Key.found (key : Key) (s : Chars) : Bool := key.text.isPrefixOf (lower s)

/-- The message so far, and the byte offset from which it is searched. -/
structure Cursor where
  sanitized : Chars
  searchFrom : ℕ

section passes
variable (isAlphanumeric : Char → Bool)

/-- One round of a pass: the next cursor, if the key is found. Where a slice would cut through a
character there is no result. -/
def round (key : Key) (c : Cursor) : Option (Option Cursor) := do
  let lowercase ← cut (lower c.sanitized) c.searchFrom
  match search (key.text.isPrefixOf ·) lowercase.2 with
  | none => return none
  | some offset =>
    let start := c.searchFrom + offset
    let valueStart := start + byteLen key.text
    let before ← cut c.sanitized start
    if before.1.getLast?.any isAlphanumeric then
      return some { c with searchFrom := valueStart }
    else
      let value ← cut c.sanitized valueStart
      let valueEnd := ((search (·.head?.any isDelimiter) value.2).map (valueStart + ·)).getD
        (byteLen c.sanitized)
      let after ← cut c.sanitized valueEnd
      return some {
        sanitized := value.1 ++ redacted ++ after.2
        searchFrom := valueStart + byteLen redacted }

variable {isAlphanumeric} in
/-- Each round leaves less of the message to search. -/
lemma round_decreases {key : Key} {c next : Cursor}
    (h : round isAlphanumeric key c = some (some next)) :
    byteLen next.sanitized - next.searchFrom < byteLen c.sanitized - c.searchFrom := by
  obtain ⟨⟨a, tail⟩, hcut, h⟩ := Option.bind_eq_some_iff.mp h
  obtain ⟨htail, ha⟩ := of_cut_eq_some hcut
  have hlen := congrArg byteLen htail
  rw [byteLen_lower, byteLen_append, ha] at hlen
  rcases search_cases (key.text.isPrefixOf ·) tail with ⟨hnone, -⟩ | ⟨x, y, rfl, hsome, hfound⟩
  · simp only [hnone] at h
    cases h
  obtain ⟨z, rfl⟩ := List.isPrefixOf_iff_prefix.mp hfound.holds
  have hpos : 0 < byteLen key.text := byteLen_pos (by simp [Key.text])
  simp only [byteLen_append] at hlen
  simp only [hsome] at h
  obtain ⟨before, -, h⟩ := Option.bind_eq_some_iff.mp h
  split_ifs at h with halnum
  · cases h
    dsimp only
    omega
  · obtain ⟨⟨kept, value⟩, hvalue, h⟩ := Option.bind_eq_some_iff.mp h
    obtain ⟨⟨front, after⟩, hafter, h⟩ := Option.bind_eq_some_iff.mp h
    cases h
    obtain ⟨hkept, hstart⟩ := of_cut_eq_some hvalue
    obtain ⟨hfront, hend⟩ := of_cut_eq_some hafter
    have hkept := congrArg byteLen hkept
    have hfront := congrArg byteLen hfront
    have hle : byteLen kept ≤ byteLen front := by
      rw [hend, hstart]
      rw [byteLen_append] at hkept
      rcases search (fun s => s.head?.any isDelimiter) value with _ | offset
      · simp only [Option.map_none, Option.getD_none]
        omega
      · exact Nat.le_add_right _ _
    simp only [byteLen_append] at hkept hfront hstart ⊢
    omega

/-- The pass for a key. -/
def redactKey (key : Key) (c : Cursor) : Option Chars :=
  match _h : round isAlphanumeric key c with
  | none => none
  | some none => some c.sanitized
  | some (some next) => redactKey key next
termination_by byteLen c.sanitized - c.searchFrom
decreasing_by exact round_decreases ‹_›

def sanitizeMessage (value : String) : Option String :=
  (keys.foldlM (fun sanitized key => redactKey isAlphanumeric key ⟨sanitized, 0⟩)
    value.toList).map String.ofList

end passes

lemma getLast_redacted : redacted.getLast? = some ']' := by decide +kernel

/-! ### Occurrences of a key -/

lemma toLower_eq_equals {c : Char} : c.toLower = '=' ↔ c = '=' := by
  constructor
  · intro h
    rcases toLower_cases c with hsame | ⟨hlow, -, hlower⟩
    · exact hsame.symm.trans h
    · have hequals : c.toLower.toNat = 61 := by
        rw [h]
        rfl
      omega
  · rintro rfl
    rfl

lemma found_iff {key : Key} {s : Chars} :
    key.found s = true ↔ ∃ shown value, s = shown ++ '=' :: value ∧ lower shown = key.stem := by
  rw [Key.found, List.isPrefixOf_iff_prefix, Key.text]
  constructor
  · rintro ⟨rest, hrest⟩
    rw [List.append_assoc, eq_comm] at hrest
    obtain ⟨shown, tail, rfl, hshown, htail⟩ := List.map_eq_append_iff.mp hrest
    obtain ⟨c, value, rfl, hc, -⟩ := List.map_eq_cons_iff.mp htail
    exact ⟨shown, value, by rw [toLower_eq_equals.mp hc], hshown⟩
  · rintro ⟨shown, value, rfl, hshown⟩
    exact ⟨lower value, by simp [hshown]⟩

lemma search_lower {key : Key} (s : Chars) :
    search (key.text.isPrefixOf ·) (lower s) = search key.found s := by
  induction s with
  | nil => rfl
  | cons c s ih =>
    rw [lower_cons, search, search, ih, utf8Size_toLower]
    rfl

/-! ### The pass as a scan -/

section scan
variable (isAlphanumeric : Char → Bool)

/-- The pass, character by character; `prev` is the character in front of the text. -/
def scan (key : Key) (prev : Option Char) : Chars → Chars
  | [] => []
  | c :: s =>
    if key.found (c :: s) then
      let shown := (c :: s).take key.stem.length
      let value := s.drop key.stem.length
      if prev.any isAlphanumeric then shown ++ '=' :: scan key (some '=') value
      else shown ++ '=' :: (redacted ++ scan key (some ']') (value.dropWhile (!isDelimiter ·)))
    else c :: scan key (some c) s
termination_by s => s.length
decreasing_by
  · simp only [List.length_cons, List.length_drop]
    omega
  · have := (List.dropWhile_sublist (!isDelimiter ·) (l := s.drop key.stem.length)).length_le
    simp only [List.length_cons, List.length_drop] at this ⊢
    omega
  · simp

variable {isAlphanumeric} {key : Key} {prev : Option Char} {shown value s : Chars}

@[simp] lemma scan_nil : scan isAlphanumeric key prev [] = [] := by
  rw [scan]

lemma scan_step {c : Char} (h : key.found (c :: s) = false) :
    scan isAlphanumeric key prev (c :: s) = c :: scan isAlphanumeric key (some c) s := by
  rw [scan, h]
  rfl

lemma scan_found (hshown : lower shown = key.stem) :
    scan isAlphanumeric key prev (shown ++ '=' :: value) = shown ++ '=' ::
      if prev.any isAlphanumeric then scan isAlphanumeric key (some '=') value
      else redacted ++ scan isAlphanumeric key (some ']') (value.dropWhile (!isDelimiter ·)) := by
  have hlen : key.stem.length = shown.length := by rw [← hshown, length_lower]
  have hfound : key.found (shown ++ '=' :: value) = true :=
    found_iff.mpr ⟨shown, value, rfl, hshown⟩
  obtain ⟨c, s, hcons⟩ : ∃ c s, shown ++ '=' :: value = c :: s :=
    List.exists_cons_of_ne_nil (by simp)
  have htake : (c :: s).take key.stem.length = shown := by
    rw [← hcons, hlen, List.take_left]
  have hdrop : s.drop key.stem.length = value := by
    have h : (c :: s).drop (key.stem.length + 1) = value := by
      rw [← hcons, hlen]
      simp
    simpa using h
  rw [hcons] at hfound ⊢
  rw [scan, if_pos hfound]
  simp only [htake, hdrop]
  split_ifs <;> rfl

/-- In front of the first occurrence nothing changes. -/
lemma scan_append {gap rest : Chars}
    (h : ∀ a b, gap = a ++ b → b ≠ [] → key.found (b ++ rest) = false) :
    scan isAlphanumeric key prev (gap ++ rest) =
      gap ++ scan isAlphanumeric key (gap.getLast?.or prev) rest := by
  induction gap generalizing prev with
  | nil => simp
  | cons c gap ih =>
    have hfirst : key.found (c :: (gap ++ rest)) = false := h [] (c :: gap) rfl (by simp)
    rw [List.cons_append, scan_step hfirst,
      ih fun a b hab hb => h (c :: a) b (by rw [hab]; rfl) hb]
    cases gap with
    | nil => simp
    | cons d gap =>
      obtain ⟨last, hlast⟩ : ∃ last, (d :: gap).getLast? = some last :=
        ⟨_, List.getLast?_eq_some_getLast (by simp)⟩
      rw [List.getLast?_cons_cons, hlast]
      rfl

/-! ### The rounds walk along the scan -/

variable {before rest gap : Chars}

lemma cut_lower :
    cut (lower (before ++ rest)) (byteLen before) = some (lower before, lower rest) := by
  rw [lower_append, ← byteLen_lower before, cut_append]

lemma round_none (h : search key.found rest = none) :
    round isAlphanumeric key ⟨before ++ rest, byteLen before⟩ = some none := by
  rw [round, cut_lower, Option.bind_eq_bind, Option.bind_some, search_lower, h]
  rfl

lemma search_delimiter (value : Chars) :
    ((search (·.head?.any isDelimiter) value).map (byteLen before + ·)).getD
      (byteLen (before ++ value)) = byteLen (before ++ value.takeWhile (!isDelimiter ·)) := by
  induction value generalizing before with
  | nil => simp [search]
  | cons c value ih =>
    by_cases hc : isDelimiter c = true
    · simp [search, hc]
    · have ih := @ih (before ++ [c])
      rw [search, if_neg (by simpa using hc), List.takeWhile_cons_of_pos (by simpa using hc)]
      rw [List.append_assoc, List.singleton_append, List.append_assoc, List.singleton_append] at ih
      rw [← ih]
      rcases search (·.head?.any isDelimiter) value with _ | offset
      · rfl
      · simp [Nat.add_assoc]

lemma round_found (hshown : lower shown = key.stem)
    (h : search key.found (gap ++ (shown ++ '=' :: value)) = some (byteLen gap)) :
    round isAlphanumeric key ⟨before ++ (gap ++ (shown ++ '=' :: value)), byteLen before⟩ =
      some (some (if (before ++ gap).getLast?.any isAlphanumeric then
        ⟨before ++ (gap ++ (shown ++ '=' :: value)), byteLen (before ++ gap ++ shown ++ ['='])⟩
      else
        ⟨before ++ gap ++ shown ++ ['='] ++ redacted ++ value.dropWhile (!isDelimiter ·),
          byteLen (before ++ gap ++ shown ++ ['='] ++ redacted)⟩)) := by
  have hstart : byteLen before + byteLen gap = byteLen (before ++ gap) := by simp
  have hkey : byteLen (before ++ gap) + byteLen key.text =
      byteLen (before ++ gap ++ shown ++ ['=']) := by
    simp only [Key.text, ← hshown, byteLen_append, byteLen_lower]
    omega
  have hcutStart := cut_append (before ++ gap) (shown ++ '=' :: value)
  have hcutValue := cut_append (before ++ gap ++ shown ++ ['=']) value
  have hcutEnd := cut_append (before ++ gap ++ shown ++ ['='] ++ value.takeWhile (!isDelimiter ·))
    (value.dropWhile (!isDelimiter ·))
  have hend := @search_delimiter (before ++ gap ++ shown ++ ['=']) value
  simp only [List.append_assoc, List.cons_append, List.nil_append,
    List.takeWhile_append_dropWhile]
    at hcutStart hcutValue hcutEnd hend hkey ⊢
  rw [round, cut_lower, Option.bind_eq_bind, Option.bind_some, search_lower, h]
  dsimp only
  rw [hstart, hcutStart, Option.bind_some]
  split_ifs with halnum
  · rw [hkey]
    rfl
  · rw [hkey, hcutValue, Option.bind_some]
    dsimp only
    rw [hend, hcutEnd, ← byteLen_append]
    simp

lemma redactKey_done {c : Cursor} (h : round isAlphanumeric key c = some none) :
    redactKey isAlphanumeric key c = some c.sanitized := by
  unfold redactKey
  split <;> simp_all

lemma redactKey_next {c next : Cursor} (h : round isAlphanumeric key c = some (some next)) :
    redactKey isAlphanumeric key c = redactKey isAlphanumeric key next := by
  conv_lhs => unfold redactKey
  split <;> simp_all

/-- **The loop**: a pass ends, cuts only between characters, and is the scan. -/
lemma redactKey_eq (before rest : Chars) :
    redactKey isAlphanumeric key ⟨before ++ rest, byteLen before⟩ =
      some (before ++ scan isAlphanumeric key before.getLast? rest) := by
  induction hn : rest.length using Nat.strong_induction_on generalizing before rest with
  | _ n ih =>
  rcases search_cases key.found rest with ⟨hnone, hnot⟩ | ⟨gap, r, rfl, hsome, hfound⟩
  · have hsame := @scan_append isAlphanumeric key before.getLast? rest []
      fun a b hab _ => by rw [List.append_nil]; exact hnot a b hab
    rw [List.append_nil, scan_nil, List.append_nil] at hsame
    rw [redactKey_done (round_none hnone), hsame]
  · obtain ⟨shown, value, rfl, hshown⟩ := found_iff.mp hfound.holds
    rw [redactKey_next (round_found hshown hsome), scan_append hfound.first,
      ← List.getLast?_append, scan_found hshown]
    simp only [List.length_append, List.length_cons] at hn
    split_ifs with halnum
    · have hnext := ih _ (by omega) (before ++ gap ++ shown ++ ['=']) value rfl
      simpa using hnext
    · have hshorter := (List.dropWhile_sublist (!isDelimiter ·) (l := value)).length_le
      have hnext := ih _ (by omega) (before ++ gap ++ shown ++ ['='] ++ redacted)
        (value.dropWhile (!isDelimiter ·)) rfl
      have hlast : (before ++ gap ++ shown ++ ['='] ++ redacted).getLast? = some ']' := by
        rw [List.getLast?_append, getLast_redacted]
        rfl
      rw [hnext, hlast]
      simp

end scan

/-! ### Segments without delimiters -/

/-- A text without delimiters. -/
def Plain (s : Chars) : Prop := ∀ c ∈ s, isDelimiter c = false

lemma plain_append {s t : Chars} : Plain (s ++ t) ↔ Plain s ∧ Plain t := by
  simp only [Plain, List.mem_append, or_imp, forall_and]

lemma plain_redacted : Plain redacted := by
  have h : redacted.all (fun c => isDelimiter c = false) = true := by decide +kernel
  simpa [Plain] using h

lemma plain_equals : isDelimiter '=' = false := by decide +kernel

lemma equals_notMem_redacted : '=' ∉ redacted := by decide +kernel

/-- Two places of an equals sign in one text. -/
lemma split_cases {x x' v v' : Chars} (h : x ++ '=' :: v = x' ++ '=' :: v') :
    (x = x' ∧ v = v') ∨ (∃ y, x' = x ++ '=' :: y ∧ v = y ++ '=' :: v') ∨
      ∃ y, x = x' ++ '=' :: y ∧ v' = y ++ '=' :: v := by
  rcases List.append_eq_append_iff.mp h with ⟨y, rfl, hy⟩ | ⟨y, rfl, hy⟩
  · rcases y with _ | ⟨c, y⟩
    · left
      simpa using hy
    · obtain ⟨rfl, hv⟩ := List.cons.inj hy
      exact .inr (.inl ⟨y, rfl, hv⟩)
  · rcases y with _ | ⟨c, y⟩
    · left
      simpa [eq_comm] using hy
    · obtain ⟨rfl, hv⟩ := List.cons.inj hy
      exact .inr (.inr ⟨y, rfl, hv⟩)

lemma or_getLast_cons {c : Char} {a : Chars} {prev : Option Char} :
    (c :: a).getLast?.or prev = a.getLast?.or (some c) := by
  cases a with
  | nil => rfl
  | cons d a =>
    rw [List.getLast?_cons_cons, List.getLast?_eq_some_getLast (by simp)]
    rfl

lemma Key.notMem {key : Key} {shown : Chars} (h : lower shown = key.stem) : '=' ∉ shown := by
  intro hmem
  have hstem : '=' ∈ key.stem := by
    rw [← h]
    exact List.mem_map.mpr ⟨'=', hmem, rfl⟩
  have := List.all_eq_true.mp key.plain '=' hstem
  simp at this

section segments
variable (isAlphanumeric : Char → Bool)

/-- In front of an equals sign there is a key, with no letter or digit before it. -/
def EndsOpen (key : Key) (prev : Option Char) (x : Chars) : Prop :=
  ∃ a shown, x = a ++ shown ∧ lower shown = key.stem ∧
    (a.getLast?.or prev).any isAlphanumeric = false

/-- No equals sign in the text belongs to a key. -/
def NoneOpen (key : Key) (prev : Option Char) (s : Chars) : Prop :=
  ∀ x v, s = x ++ '=' :: v → ¬ EndsOpen isAlphanumeric key prev x

/-- The first equals sign that belongs to a key. -/
structure FirstOpen (key : Key) (prev : Option Char) (s x v : Chars) : Prop where
  split : s = x ++ '=' :: v
  opens : EndsOpen isAlphanumeric key prev x
  first : ∀ x' v', s = x' ++ '=' :: v' → EndsOpen isAlphanumeric key prev x' →
    x.length ≤ x'.length

variable {isAlphanumeric} {key : Key} {prev : Option Char} {shown value s x v : Chars}

lemma endsOpen_cons {c : Char} (h : EndsOpen isAlphanumeric key (some c) x) :
    EndsOpen isAlphanumeric key prev (c :: x) := by
  obtain ⟨a, shown, rfl, hshown, hopen⟩ := h
  exact ⟨c :: a, shown, rfl, hshown, by rwa [or_getLast_cons]⟩

lemma endsOpen_append {a : Chars} (h : EndsOpen isAlphanumeric key (a.getLast?.or prev) x) :
    EndsOpen isAlphanumeric key prev (a ++ x) := by
  induction a generalizing prev with
  | nil => simpa using h
  | cons c a ih =>
    rw [or_getLast_cons] at h
    exact endsOpen_cons (ih h)

/-- A text that does not start with a key. -/
lemma of_endsOpen_cons {c : Char} (hfound : key.found (c :: s) = false)
    (hsplit : c :: s = x ++ '=' :: v) (h : EndsOpen isAlphanumeric key prev x) :
    ∃ x', x = c :: x' ∧ s = x' ++ '=' :: v ∧ EndsOpen isAlphanumeric key (some c) x' := by
  obtain ⟨a, shown, rfl, hshown, hopen⟩ := h
  rcases a with _ | ⟨d, a⟩
  · have := found_iff.mpr ⟨shown, v, hsplit, hshown⟩
    rw [hfound] at this
    cases this
  · rw [List.cons_append, List.cons_append, List.cons.injEq] at hsplit
    obtain ⟨rfl, hsplit⟩ := hsplit
    exact ⟨a ++ shown, rfl, hsplit, a, shown, rfl, hshown, by rwa [or_getLast_cons] at hopen⟩

/-- A text that starts with a key behind a letter or digit. -/
lemma of_endsOpen_skipped (hshown : lower shown = key.stem)
    (halnum : prev.any isAlphanumeric = true) (hsplit : shown ++ '=' :: value = x ++ '=' :: v)
    (h : EndsOpen isAlphanumeric key prev x) : ∃ x', x = shown ++ '=' :: x' ∧
      value = x' ++ '=' :: v ∧ EndsOpen isAlphanumeric key (some '=') x' := by
  have hnot := Key.notMem hshown
  rcases split_cases hsplit with ⟨rfl, -⟩ | ⟨y, rfl, hv⟩ | ⟨y, rfl, -⟩
  · obtain ⟨a, other, heq, hother, hopen⟩ := h
    have hlen : a.length = 0 := by
      have h1 := congrArg List.length heq
      have h2 := congrArg List.length (hshown.trans hother.symm)
      simp only [length_lower, List.length_append] at h1 h2
      omega
    rw [List.length_eq_zero_iff.mp hlen] at hopen
    simp [halnum] at hopen
  · refine ⟨y, rfl, hv, ?_⟩
    obtain ⟨a, other, heq, hother, hopen⟩ := h
    have hnone := Key.notMem hother
    rcases List.append_eq_append_iff.mp heq with ⟨b, rfl, hb⟩ | ⟨b, -, rfl⟩
    · rcases b with _ | ⟨c, b⟩
      · rw [List.nil_append] at hb
        exact absurd (hb ▸ List.mem_cons_self) hnone
      · obtain ⟨rfl, rfl⟩ := List.cons.inj hb
        refine ⟨b, other, rfl, hother, ?_⟩
        rw [List.getLast?_append_of_ne_nil _ (by simp), or_getLast_cons] at hopen
        exact hopen
    · exact absurd (by simp) hnone
  · exact absurd (by simp) hnot

/-- Behind an open key the rest of the segment goes. -/
lemma scan_open (hshown : lower shown = key.stem) (hopen : prev.any isAlphanumeric = false)
    (hvalue : Plain value) : scan isAlphanumeric key prev (shown ++ '=' :: value) =
      shown ++ '=' :: redacted := by
  have hnone : value.dropWhile (!isDelimiter ·) = [] :=
    List.dropWhile_eq_nil_iff.mpr fun c hc => by rw [hvalue c hc]; rfl
  rw [scan_found hshown, hopen, hnone]
  simp

/-- **A segment**: a pass redacts behind the first equals sign that belongs to its key. -/
lemma scan_plain (hs : Plain s) :
    (NoneOpen isAlphanumeric key prev s ∧ scan isAlphanumeric key prev s = s) ∨
      ∃ x v, FirstOpen isAlphanumeric key prev s x v ∧
        scan isAlphanumeric key prev s = x ++ '=' :: redacted := by
  induction hn : s.length using Nat.strong_induction_on generalizing s prev with
  | _ n ih =>
  rcases s with _ | ⟨c, s⟩
  · exact .inl ⟨fun x v h => by simp at h, scan_nil⟩
  by_cases hfound : key.found (c :: s) = true
  · obtain ⟨shown, value, heq, hshown⟩ := found_iff.mp hfound
    rw [heq] at hs hn ⊢
    have hvalue : Plain value := fun d hd => hs d (by simp [hd])
    rw [List.length_append, List.length_cons] at hn
    by_cases halnum : prev.any isAlphanumeric = true
    · have hscan : scan isAlphanumeric key prev (shown ++ '=' :: value) =
          shown ++ '=' :: scan isAlphanumeric key (some '=') value := by
        rw [scan_found hshown, if_pos halnum]
      rw [hscan]
      rcases ih _ (by omega) hvalue rfl with ⟨hnone, hsame⟩ | ⟨x, v, ⟨rfl, hopens, hfirst⟩, hsame⟩
      · refine .inl ⟨fun x v hsplit hopens => ?_, by rw [hsame]⟩
        obtain ⟨x', rfl, hvalue', hopens⟩ := of_endsOpen_skipped hshown halnum hsplit hopens
        exact hnone x' v hvalue' hopens
      · refine .inr ⟨shown ++ '=' :: x, v, ⟨by simp, ?_, fun x' v' hsplit hopens' => ?_⟩,
          by rw [hsame]; simp⟩
        · refine endsOpen_append ?_
          exact endsOpen_cons hopens
        · obtain ⟨y, rfl, hvalue', hopens'⟩ := of_endsOpen_skipped hshown halnum hsplit hopens'
          have := hfirst y v' hvalue' hopens'
          simp only [List.length_append, List.length_cons]
          omega
    · have halnum : prev.any isAlphanumeric = false := by simpa using halnum
      refine .inr ⟨shown, value, ⟨rfl, ⟨[], shown, rfl, hshown, by simpa using halnum⟩,
        fun x' v' hsplit _ => ?_⟩, scan_open hshown halnum hvalue⟩
      rcases split_cases hsplit with ⟨rfl, -⟩ | ⟨y, rfl, -⟩ | ⟨y, rfl, -⟩
      · exact le_rfl
      · simp
      · exact absurd (by simp) (Key.notMem hshown)
  · have hfound : key.found (c :: s) = false := by simpa using hfound
    have htail : Plain s := fun d hd => hs d (by simp [hd])
    rw [List.length_cons] at hn
    rw [scan_step hfound]
    rcases ih _ (by omega) htail rfl with ⟨hnone, hsame⟩ | ⟨x, v, ⟨rfl, hopens, hfirst⟩, hsame⟩
    · refine .inl ⟨fun x v hsplit hopens => ?_, by rw [hsame]⟩
      obtain ⟨x', rfl, htail', hopens⟩ := of_endsOpen_cons hfound hsplit hopens
      exact hnone x' v htail' hopens
    · refine .inr ⟨c :: x, v, ⟨rfl, endsOpen_cons hopens, fun x' v' hsplit hopens' => ?_⟩,
        by rw [hsame]; rfl⟩
      obtain ⟨y, rfl, htail', hopens'⟩ := of_endsOpen_cons hfound hsplit hopens'
      exact Nat.succ_le_succ (hfirst y v' htail' hopens')

lemma plain_scan (hs : Plain s) : Plain (scan isAlphanumeric key prev s) := by
  rcases @scan_plain isAlphanumeric key prev s hs with ⟨-, hsame⟩ | ⟨x, v, h, hsame⟩
  · rwa [hsame]
  · rw [h.split, plain_append] at hs
    rw [hsame, plain_append]
    refine ⟨hs.1, fun c hc => ?_⟩
    rcases List.mem_cons.mp hc with rfl | hc
    · exact plain_equals
    · exact plain_redacted c hc

/-- After its pass a key is settled: the pass changes nothing more. -/
lemma scan_scan (hs : Plain s) : scan isAlphanumeric key prev (scan isAlphanumeric key prev s) =
    scan isAlphanumeric key prev s := by
  have hout := @plain_scan isAlphanumeric key prev s hs
  rcases @scan_plain isAlphanumeric key prev s hs with ⟨-, hsame⟩ | ⟨x, v, h, hsame⟩
  · rw [hsame, hsame]
  · rw [hsame] at hout ⊢
    rcases @scan_plain isAlphanumeric key prev _ hout with ⟨-, hout⟩ | ⟨x', v', h', hout⟩
    · exact hout
    · have hle := h'.first x redacted rfl h.opens
      rcases split_cases h'.split with ⟨rfl, -⟩ | ⟨y, rfl, -⟩ | ⟨y, rfl, -⟩
      · exact hout
      · simp at hle
      · have hge := h.first x' (y ++ '=' :: v) (by rw [h.split]; simp) h'.opens
        simp at hge

/-- The pass for another key leaves a settled key settled. -/
lemma scan_scan_of_settled {other : Key} (hs : Plain s)
    (hsettled : scan isAlphanumeric key prev s = s) :
    scan isAlphanumeric key prev (scan isAlphanumeric other prev s) =
      scan isAlphanumeric other prev s := by
  have hout := @plain_scan isAlphanumeric other prev s hs
  rcases @scan_plain isAlphanumeric other prev s hs with ⟨-, hsame⟩ | ⟨x', v', h', hsame⟩
  · rw [hsame, hsettled]
  rw [hsame] at hout ⊢
  rcases @scan_plain isAlphanumeric key prev _ hout with ⟨-, hout⟩ | ⟨x, v, h, hout⟩
  · exact hout
  rcases split_cases h.split with ⟨rfl, -⟩ | ⟨y, rfl, hy⟩ | ⟨y, rfl, -⟩
  · exact hout
  · exact absurd (hy ▸ by simp) equals_notMem_redacted
  · -- The key occurs in front of the other one, where it was settled with the end of the segment.
    have hsplit : s = x ++ '=' :: (y ++ '=' :: v') := by
      rw [h'.split]
      simp
    rcases @scan_plain isAlphanumeric key prev s hs with ⟨hnone, -⟩ | ⟨x₀, v₀, h₀, hs₀⟩
    · exact absurd h.opens (hnone x _ hsplit)
    · have hle := h₀.first x _ hsplit h.opens
      rw [hsettled] at hs₀
      rcases split_cases (hs₀.symm.trans h'.split) with ⟨rfl, -⟩ | ⟨z, -, hz⟩ | ⟨z, rfl, -⟩
      · simp at hle
      · exact absurd (hz ▸ by simp) equals_notMem_redacted
      · simp only [List.length_append, List.length_cons] at hle
        omega

/-! ### All passes -/

variable (isAlphanumeric) in
def passes (ks : List Key) (prev : Option Char) (s : Chars) : Chars :=
  ks.foldl (fun s key => scan isAlphanumeric key prev s) s

variable {ks : List Key}

lemma plain_passes (hs : Plain s) : Plain (passes isAlphanumeric ks prev s) := by
  induction ks generalizing s with
  | nil => exact hs
  | cons key ks ih => exact ih (plain_scan hs)

lemma passes_of_settled (h : ∀ key ∈ ks, scan isAlphanumeric key prev s = s) :
    passes isAlphanumeric ks prev s = s := by
  induction ks with
  | nil => rfl
  | cons key ks ih =>
    rw [passes, List.foldl_cons, h key (by simp)]
    exact ih fun key hkey => h key (by simp [hkey])

lemma settled_passes (hs : Plain s) : ∀ key ∈ ks,
    scan isAlphanumeric key prev (passes isAlphanumeric ks prev s) =
      passes isAlphanumeric ks prev s := by
  induction ks using List.reverseRecOn with
  | nil => simp
  | append_singleton ks last ih =>
    have hlast : passes isAlphanumeric (ks ++ [last]) prev s =
        scan isAlphanumeric last prev (passes isAlphanumeric ks prev s) := by
      rw [passes, List.foldl_append]
      rfl
    intro key hkey
    rw [hlast]
    rcases List.mem_append.mp hkey with hkey | hkey
    · exact scan_scan_of_settled (plain_passes hs) (ih key hkey)
    · rw [List.mem_singleton.mp hkey]
      exact scan_scan (plain_passes hs)

/-! ### Delimiters -/

/-- The text is empty or starts with a delimiter. -/
def Stops (s : Chars) : Prop := s.head?.all isDelimiter = true

lemma stops_cases {rest : Chars} (h : Stops rest) :
    rest = [] ∨ ∃ d t, rest = d :: t ∧ isDelimiter d = true := by
  rcases rest with _ | ⟨d, t⟩
  · exact .inl rfl
  · exact .inr ⟨d, t, rfl, by simpa [Stops] using h⟩

lemma toLower_of_isDelimiter {c : Char} (h : isDelimiter c = true) : c.toLower = c := by
  rcases toLower_cases c with hsame | ⟨hlow, hhigh, -⟩
  · exact hsame
  · have hne : ∀ d : Char, d.toNat < 65 → c ≠ d := by
      rintro d hd rfl
      omega
    have h1 := hne '&' (by decide)
    have h2 := hne ',' (by decide)
    have h3 := hne ';' (by decide)
    simp [isDelimiter, isWhitespace, h1, h2, h3] at h
    omega

lemma Key.plain_shown (h : lower shown = key.stem) : Plain shown := by
  intro c hc
  by_contra hd
  have hd : isDelimiter c = true := by simpa using hd
  have hmem : c ∈ key.stem := by
    rw [← h]
    exact List.mem_map.mpr ⟨c, hc, toLower_of_isDelimiter hd⟩
  have hplain := List.all_eq_true.mp key.plain c hmem
  simp [hd] at hplain

/-- A key in front of a delimiter lies in front of it as a whole. -/
lemma found_before {rest : Chars} (hrest : Stops rest) (hshown : lower shown = key.stem)
    (h : s ++ rest = shown ++ '=' :: value) : ∃ v, s = shown ++ '=' :: v ∧ value = v ++ rest := by
  have hplain := Key.plain_shown hshown
  have hhead : ∀ c t, rest = c :: t → (c ∈ shown ∨ c = '=') → False := by
    rintro c t rfl hc
    have hd : isDelimiter c = true := by simpa [Stops] using hrest
    rcases hc with hc | rfl
    · rw [hplain c hc] at hd
      cases hd
    · rw [plain_equals] at hd
      cases hd
  rcases List.append_eq_append_iff.mp h with ⟨a, rfl, ha⟩ | ⟨b, rfl, hb⟩
  · rcases a with _ | ⟨c, a⟩
    · exact absurd ha fun ha => hhead '=' value ha (.inr rfl)
    · exact absurd ha fun ha => hhead c _ ha (.inl (by simp))
  · rcases b with _ | ⟨c, b⟩
    · exact absurd hb.symm fun hb => hhead '=' value hb (.inr rfl)
    · obtain ⟨rfl, hvalue⟩ := List.cons.inj hb
      exact ⟨b, rfl, hvalue⟩

lemma scan_delimiter {d : Char} {t : Chars} (hd : isDelimiter d = true) :
    scan isAlphanumeric key prev (d :: t) = d :: scan isAlphanumeric key (some d) t := by
  refine scan_step ?_
  by_contra hfound
  obtain ⟨shown, value, heq, hshown⟩ := found_iff.mp (by simpa using hfound)
  obtain ⟨v, hv, -⟩ :=
    @found_before key shown value [] (d :: t) (by simpa [Stops] using hd) hshown heq
  simp at hv

/-- **Delimiters**: a pass works on each segment by itself. -/
lemma scan_segment {rest : Chars} (hs : Plain s) (hrest : Stops rest) :
    scan isAlphanumeric key prev (s ++ rest) =
      scan isAlphanumeric key prev s ++ scan isAlphanumeric key none rest := by
  induction hn : s.length using Nat.strong_induction_on generalizing s prev with
  | _ n ih =>
  rcases s with _ | ⟨c, s⟩
  · rcases stops_cases hrest with rfl | ⟨d, t, rfl, hd⟩
    · simp
    · simp [scan_delimiter hd]
  by_cases hfound : key.found (c :: s ++ rest) = true
  · obtain ⟨shown, value, heq, hshown⟩ := found_iff.mp hfound
    obtain ⟨v, hv, rfl⟩ := found_before hrest hshown heq
    rw [hv] at hs hn ⊢
    have hplain : Plain v := fun d hd => hs d (by simp [hd])
    rw [List.length_append, List.length_cons] at hn
    rw [List.append_assoc, List.cons_append, scan_found hshown, scan_found hshown]
    split_ifs with halnum
    · rw [ih _ (by omega) hplain rfl]
      simp
    · have hnone : v.dropWhile (!isDelimiter ·) = [] :=
        List.dropWhile_eq_nil_iff.mpr fun d hd => by rw [hplain d hd]; rfl
      have hdrop : (v ++ rest).dropWhile (!isDelimiter ·) = rest := by
        rw [List.dropWhile_append, hnone]
        rcases stops_cases hrest with rfl | ⟨d, t, rfl, hd⟩
        · rfl
        · simp [hd]
      have hrest : scan isAlphanumeric key (some ']') rest = scan isAlphanumeric key none rest := by
        rcases stops_cases hrest with rfl | ⟨d, t, rfl, hd⟩
        · simp
        · rw [scan_delimiter hd, scan_delimiter hd]
      rw [hnone, hdrop, hrest]
      simp
  · have hfound : key.found (c :: (s ++ rest)) = false := by simpa using hfound
    have hfirst : key.found (c :: s) = false := by
      by_contra hfirst
      obtain ⟨shown, value, heq, hshown⟩ := found_iff.mp (by simpa using hfirst)
      have htrue : key.found (c :: (s ++ rest)) = true :=
        found_iff.mpr ⟨shown, value ++ rest, by rw [← List.cons_append, heq]; simp, hshown⟩
      rw [hfound] at htrue
      cases htrue
    rw [List.length_cons] at hn
    rw [List.cons_append, scan_step hfound, scan_step hfirst,
      ih _ (by omega) (fun d hd => hs d (by simp [hd])) rfl]
    rfl

lemma stops_scan {rest : Chars} (hrest : Stops rest) :
    Stops (scan isAlphanumeric key none rest) := by
  rcases stops_cases hrest with rfl | ⟨d, t, rfl, hd⟩
  · simp [Stops]
  · rw [scan_delimiter hd]
    simpa [Stops] using hd

lemma passes_segment {rest : Chars} (hs : Plain s) (hrest : Stops rest) :
    passes isAlphanumeric ks prev (s ++ rest) =
      passes isAlphanumeric ks prev s ++ passes isAlphanumeric ks none rest := by
  induction ks generalizing s rest with
  | nil => rfl
  | cons key ks ih =>
    simp only [passes, List.foldl_cons] at ih ⊢
    rw [scan_segment hs hrest]
    exact ih (plain_scan hs) (stops_scan hrest)

lemma passes_delimiter {d : Char} {t : Chars} (hd : isDelimiter d = true) :
    passes isAlphanumeric ks prev (d :: t) = d :: passes isAlphanumeric ks (some d) t := by
  induction ks generalizing t with
  | nil => rfl
  | cons key ks ih =>
    simp only [passes, List.foldl_cons] at ih ⊢
    rw [scan_delimiter hd]
    exact ih

/-- A text is a segment, or a segment in front of a delimiter and more. -/
lemma segment_cases (s : Chars) :
    Plain s ∨ ∃ front d t, s = front ++ d :: t ∧ Plain front ∧ isDelimiter d = true := by
  induction s with
  | nil => exact .inl fun c hc => by cases hc
  | cons c s ih =>
    by_cases hc : isDelimiter c = true
    · exact .inr ⟨[], c, s, rfl, fun d hd => (by cases hd), hc⟩
    · have hc : isDelimiter c = false := by simpa using hc
      rcases ih with hplain | ⟨front, d, t, rfl, hplain, hd⟩
      · refine .inl fun d hd => ?_
        rcases List.mem_cons.mp hd with rfl | hd
        · exact hc
        · exact hplain d hd
      · refine .inr ⟨c :: front, d, t, rfl, fun e he => ?_, hd⟩
        rcases List.mem_cons.mp he with rfl | he
        · exact hc
        · exact hplain e he

/-- **Idempotence**: after all passes, all passes change nothing more. -/
lemma passes_passes (ks : List Key) (prev : Option Char) (s : Chars) :
    passes isAlphanumeric ks prev (passes isAlphanumeric ks prev s) =
      passes isAlphanumeric ks prev s := by
  induction hn : s.length using Nat.strong_induction_on generalizing s prev with
  | _ n ih =>
  rcases segment_cases s with hs | ⟨front, d, t, rfl, hfront, hd⟩
  · exact passes_of_settled (settled_passes hs)
  · have hstops : ∀ t, Stops (d :: t) := fun t => by simpa [Stops] using hd
    rw [List.length_append, List.length_cons] at hn
    rw [passes_segment hfront (hstops t), passes_delimiter hd,
      passes_segment (plain_passes hfront) (hstops _), passes_delimiter hd,
      passes_of_settled (settled_passes hfront), ih _ (by omega) (some d) t rfl]

/-! ### Secrets -/

variable {q v₁ v₂ : Chars}

/-- The equals sign behind `x` lies in `q` or just behind it. -/
def Within (q x : Chars) : Prop := x = q ∨ ∃ y, q = x ++ '=' :: y

lemma Within.split (h : Within q x) (v : Chars) : ∃ w, q ++ '=' :: v = x ++ '=' :: w := by
  rcases h with rfl | ⟨y, rfl⟩
  · exact ⟨v, rfl⟩
  · exact ⟨y ++ '=' :: v, by simp⟩

/-- A place of an equals sign is in front of the value or in the value. -/
lemma within_or (h : q ++ '=' :: value = x ++ '=' :: v) :
    Within q x ∨ ∃ y, x = q ++ '=' :: y := by
  rcases split_cases h with ⟨rfl, -⟩ | ⟨y, rfl, -⟩ | ⟨y, rfl, -⟩
  · exact .inl (.inl rfl)
  · exact .inr ⟨y, rfl⟩
  · exact .inl (.inr ⟨y, rfl⟩)

/-- With an open key in front of the value, or just before it, nothing of the value is left. -/
lemma scan_eq_of_within (h₁ : Plain (q ++ '=' :: v₁)) (h₂ : Plain (q ++ '=' :: v₂))
    (hx : Within q x) (hopen : EndsOpen isAlphanumeric key prev x) :
    scan isAlphanumeric key prev (q ++ '=' :: v₁) =
      scan isAlphanumeric key prev (q ++ '=' :: v₂) := by
  have hfirst : ∀ v, Plain (q ++ '=' :: v) → ∃ x' v', Within q x' ∧
      FirstOpen isAlphanumeric key prev (q ++ '=' :: v) x' v' ∧
      scan isAlphanumeric key prev (q ++ '=' :: v) = x' ++ '=' :: redacted := by
    intro v hv
    obtain ⟨w, hw⟩ := hx.split v
    rcases @scan_plain isAlphanumeric key prev _ hv with ⟨hnone, -⟩ | ⟨x', v', h, hout⟩
    · exact absurd hopen (hnone x w hw)
    · refine ⟨x', v', ?_, h, hout⟩
      rcases within_or h.split with hwithin | ⟨y, rfl⟩
      · exact hwithin
      · have hle := h.first x w hw hopen
        rcases hx with rfl | ⟨z, rfl⟩
        · simp at hle
        · simp only [List.length_append, List.length_cons] at hle
          omega
  obtain ⟨x₁, w₁, hx₁, hf₁, hout₁⟩ := hfirst v₁ h₁
  obtain ⟨x₂, w₂, hx₂, hf₂, hout₂⟩ := hfirst v₂ h₂
  obtain ⟨u₁, hu₁⟩ := hx₁.split v₂
  obtain ⟨u₂, hu₂⟩ := hx₂.split v₁
  have hle₁ := hf₁.first x₂ u₂ hu₂ hf₂.opens
  have hle₂ := hf₂.first x₁ u₁ hu₁ hf₁.opens
  have hsame := (List.append_inj (hu₁.symm.trans hf₂.split) (le_antisymm hle₁ hle₂)).1
  rw [hout₁, hout₂, hsame]

/-- Without one, what is in front of the value stays. -/
lemma scan_eq_append (hv : Plain (q ++ '=' :: value))
    (hnone : ∀ x, Within q x → ¬ EndsOpen isAlphanumeric key prev x) :
    ∃ w, scan isAlphanumeric key prev (q ++ '=' :: value) = q ++ '=' :: w := by
  rcases @scan_plain isAlphanumeric key prev _ hv with ⟨-, hsame⟩ | ⟨x, v, h, hout⟩
  · exact ⟨value, hsame⟩
  · rcases within_or h.split with hwithin | ⟨y, rfl⟩
    · exact absurd h.opens (hnone x hwithin)
    · exact ⟨y ++ '=' :: redacted, by rw [hout]; simp⟩

/-- **Secrets**: the value of an open key does not influence the passes. -/
lemma passes_secret (hkey : key ∈ ks) (hopen : EndsOpen isAlphanumeric key prev q)
    (h₁ : Plain (q ++ '=' :: v₁)) (h₂ : Plain (q ++ '=' :: v₂)) :
    passes isAlphanumeric ks prev (q ++ '=' :: v₁) =
      passes isAlphanumeric ks prev (q ++ '=' :: v₂) := by
  induction ks generalizing v₁ v₂ with
  | nil => cases hkey
  | cons first ks ih =>
    simp only [passes, List.foldl_cons] at ih ⊢
    by_cases hwithin : ∃ x, Within q x ∧ EndsOpen isAlphanumeric first prev x
    · obtain ⟨x, hx, hxopen⟩ := hwithin
      rw [scan_eq_of_within h₁ h₂ hx hxopen]
    · push Not at hwithin
      have hp₁ := @plain_scan isAlphanumeric first prev _ h₁
      have hp₂ := @plain_scan isAlphanumeric first prev _ h₂
      obtain ⟨w₁, hw₁⟩ := scan_eq_append h₁ hwithin
      obtain ⟨w₂, hw₂⟩ := scan_eq_append h₂ hwithin
      rw [hw₁] at hp₁ ⊢
      rw [hw₂] at hp₂ ⊢
      rcases List.mem_cons.mp hkey with rfl | hkey
      · exact absurd hopen (hwithin q (.inl rfl))
      · exact ih hkey hp₁ hp₂

/-- The same behind any text that does not end in a letter or digit, and in front of a delimiter. -/
lemma passes_secret_append {before after : Chars} (hkey : key ∈ ks)
    (hshown : lower shown = key.stem)
    (hbefore : (before.getLast?.or prev).any isAlphanumeric = false) (hafter : Stops after)
    (h₁ : Plain v₁) (h₂ : Plain v₂) :
    passes isAlphanumeric ks prev (before ++ (shown ++ '=' :: v₁ ++ after)) =
      passes isAlphanumeric ks prev (before ++ (shown ++ '=' :: v₂ ++ after)) := by
  induction hn : before.length using Nat.strong_induction_on generalizing before prev with
  | _ n ih =>
  rcases segment_cases before with hs | ⟨front, d, t, rfl, hfront, hd⟩
  · have hplain : ∀ v, Plain v → Plain (before ++ shown ++ '=' :: v) := by
      intro v hv
      refine plain_append.mpr ⟨plain_append.mpr ⟨hs, Key.plain_shown hshown⟩, fun c hc => ?_⟩
      rcases List.mem_cons.mp hc with rfl | hc
      · exact plain_equals
      · exact hv c hc
    have hopen : EndsOpen isAlphanumeric key prev (before ++ shown) :=
      ⟨before, shown, rfl, hshown, hbefore⟩
    have h₁ := hplain v₁ h₁
    have h₂ := hplain v₂ h₂
    rw [← List.append_assoc, ← List.append_assoc, ← List.append_assoc, ← List.append_assoc,
      passes_segment h₁ hafter, passes_segment h₂ hafter, passes_secret hkey hopen h₁ h₂]
  · have hstops : ∀ t, Stops (d :: t) := fun t => by simpa [Stops] using hd
    rw [List.length_append, List.length_cons] at hn
    rw [List.getLast?_append_of_ne_nil _ (by simp), or_getLast_cons] at hbefore
    have hsame := ih _ (by omega) hbefore rfl
    have hcut : ∀ u, passes isAlphanumeric ks prev (front ++ d :: t ++ u) =
        passes isAlphanumeric ks prev front ++ d :: passes isAlphanumeric ks (some d) (t ++ u) := by
      intro u
      rw [List.append_assoc, List.cons_append, passes_segment hfront (hstops _),
        passes_delimiter hd]
    rw [hcut, hcut, hsame]

end segments

/-! ### Sanitized messages -/

variable {isAlphanumeric : Char → Bool} {s : Chars}

/-- **Refinement**: the passes end and never cut through a character. -/
lemma sanitizeMessage_eq (value : String) : sanitizeMessage isAlphanumeric value =
    some (String.ofList (passes isAlphanumeric keys none value.toList)) := by
  have hfold : ∀ (ks : List Key) (s : Chars),
      ks.foldlM (fun sanitized key => redactKey isAlphanumeric key ⟨sanitized, 0⟩) s =
        some (passes isAlphanumeric ks none s) := by
    intro ks
    induction ks with
    | nil => exact fun s => rfl
    | cons key ks ih =>
      intro s
      have hpass := @redactKey_eq isAlphanumeric key [] s
      rw [List.nil_append, byteLen_nil, List.nil_append, List.getLast?_nil] at hpass
      rw [List.foldlM_cons, hpass]
      exact ih _
  rw [sanitizeMessage, hfold]
  rfl

/-- **Idempotence**: a message is sanitized without a fault, and its sanitized form stays. -/
theorem sanitizeMessage_idempotent (isAlphanumeric : Char → Bool) (value : String) :
    ∃ sanitized, sanitizeMessage isAlphanumeric value = some sanitized ∧
      sanitizeMessage isAlphanumeric sanitized = some sanitized := by
  refine ⟨_, sanitizeMessage_eq value, ?_⟩
  rw [sanitizeMessage_eq, String.toList_ofList, passes_passes]

/-- **Noninterference**: behind a key the sanitized message does not depend on the secret. -/
theorem sanitizeMessage_secret (isAlphanumeric : Char → Bool)
    {before shown secret₁ secret₂ after : String} {key : Key} (hkey : key ∈ keys)
    (hshown : lower shown.toList = key.text)
    (hbefore : before.toList.getLast?.any isAlphanumeric = false) (hafter : Stops after.toList)
    (h₁ : Plain secret₁.toList) (h₂ : Plain secret₂.toList) :
    ∃ sanitized, sanitizeMessage isAlphanumeric (before ++ shown ++ secret₁ ++ after) =
        some sanitized ∧
      sanitizeMessage isAlphanumeric (before ++ shown ++ secret₂ ++ after) = some sanitized := by
  obtain ⟨stem, sign, hsplit, hstem, hsign⟩ := List.map_eq_append_iff.mp hshown
  obtain ⟨c, rest, rfl, hc, hnil⟩ := List.map_eq_cons_iff.mp hsign
  obtain rfl := toLower_eq_equals.mp hc
  obtain rfl := List.map_eq_nil_iff.mp hnil
  refine ⟨_, sanitizeMessage_eq _, ?_⟩
  rw [sanitizeMessage_eq]
  have hsame := @passes_secret_append isAlphanumeric key none stem keys _ _ before.toList
    after.toList hkey hstem (by rwa [Option.or_none]) hafter h₁ h₂
  simp only [String.toList_append, hsplit, List.append_assoc, List.cons_append, List.nil_append]
    at hsame ⊢
  rw [hsame]

lemma plain_of_all (h : s.all (!isDelimiter ·) = true) : Plain s := by
  simpa [Plain] using h

/-- A secret with a key in it, and one without. -/
theorem token_secret : ∃ sanitized,
    sanitizeMessage Char.isAlphanum ("url?" ++ "ToKen=" ++ "a-key=b" ++ "&n=1") = some sanitized ∧
    sanitizeMessage Char.isAlphanum ("url?" ++ "ToKen=" ++ "c" ++ "&n=1") = some sanitized :=
  @sanitizeMessage_secret Char.isAlphanum "url?" "ToKen=" "a-key=b" "c" "&n=1"
    ⟨"token".toList, by decide +kernel⟩ (by simp [keys]) (by decide +kernel) (by decide +kernel)
    (show _ = true by decide +kernel) (plain_of_all (by decide +kernel))
    (plain_of_all (by decide +kernel))

end Netband.Sanitize

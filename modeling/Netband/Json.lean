import Mathlib

/-!
Compact JSON texts that determine the value they were printed from.

A printer is a function to texts that can be taken off the front of whatever follows, as
long as what follows does not go on with a digit. Objects, arrays and maps are printers of
their parts in a row.
-/

namespace Netband.Json

abbrev Text := List Char

/-- The text does not go on with a digit. -/
def Stops (r : Text) : Prop := ∀ c ∈ r.head?, c.isDigit = false

structure Printer (α : Type) where
  text : α → Text
  unambiguous : ∀ {a b r s}, Stops r → Stops s → text a ++ r = text b ++ s → a = b ∧ r = s
  oneLine : ∀ a, '\n' ∉ text a
  /-- A value does not begin like the end of a list. -/
  head : ∀ a, ∃ c ∈ (text a).head?, c ≠ ']' ∧ c ≠ '}'

variable {α β : Type}

lemma stops_cons {c : Char} {r : Text} (h : c.isDigit = false) : Stops (c :: r) := by
  simpa [Stops] using h

lemma opening_array : '[' ≠ ']' ∧ '[' ≠ '}' ∧ '[' ≠ '\n' := by decide

lemma closing_array : ']'.isDigit = false ∧ ']' ≠ '\n' := by decide

namespace Printer

variable (p : Printer α)

lemma text_injective : Function.Injective p.text := by
  intro a b h
  have hnil : Stops [] := by simp [Stops]
  exact (p.unambiguous hnil hnil (by rw [h])).1

lemma text_ne_nil (a : α) : p.text a ≠ [] := by
  intro h
  obtain ⟨c, hc, -⟩ := p.head a
  simp [h] at hc

/-! ### Numbers and truth values -/

lemma takeWhile_digits {n : ℕ} {r : Text} (hr : Stops r) :
    (Nat.toDigits 10 n ++ r).takeWhile Char.isDigit = Nat.toDigits 10 n := by
  have hall : ∀ c ∈ Nat.toDigits 10 n, c.isDigit = true := fun c hc =>
    Nat.isDigit_of_mem_toDigits (by omega) (by omega) hc
  rw [List.takeWhile_append_of_pos hall]
  rcases r with _ | ⟨c, r⟩
  · simp
  · have hc : c.isDigit = false := hr c rfl
    simp [hc]

def nat : Printer ℕ where
  text n := Nat.toDigits 10 n
  unambiguous := by
    intro a b r s hr hs h
    have hdigits : Nat.toDigits 10 a = Nat.toDigits 10 b := by
      rw [← takeWhile_digits hr, h, takeWhile_digits hs]
    have hab : a = b := by
      have hval := congrArg (fun l => Nat.ofDigitChars 10 l 0) hdigits
      simpa [Nat.ofDigitChars_ten_toDigits] using hval
    subst hab
    exact ⟨rfl, List.append_cancel_left h⟩
  oneLine n h := by
    have hdigit := Nat.isDigit_of_mem_toDigits (b := 10) (by omega) (by omega) h
    simp [Char.isDigit] at hdigit
  head n := by
    have hne : Nat.toDigits 10 n ≠ [] := Nat.toDigits_ne_nil
    obtain ⟨c, l, hl⟩ := List.exists_cons_of_ne_nil hne
    have hdigit : c.isDigit = true :=
      Nat.isDigit_of_mem_toDigits (by omega) (by omega) (show c ∈ Nat.toDigits 10 n by simp [hl])
    refine ⟨c, by simp [hl], ?_, ?_⟩ <;>
      · rintro rfl
        simp [Char.isDigit] at hdigit

def bool : Printer Bool where
  text b := if b then "true".toList else "false".toList
  unambiguous := by
    intro a b r s _ _ h
    cases a <;> cases b <;> simp at h ⊢ <;> exact h
  oneLine b := by cases b <;> decide
  head b := by cases b <;> simp

/-! ### Strings -/

def escapeChar (c : Char) : Text :=
  if c = '"' then ['\\', '"']
  else if c = '\\' then ['\\', '\\']
  else if c = '\x08' then ['\\', 'b']
  else if c = '\t' then ['\\', 't']
  else if c = '\n' then ['\\', 'n']
  else if c = '\x0c' then ['\\', 'f']
  else if c = '\r' then ['\\', 'r']
  else if c.toNat < 32 then
    ['\\', 'u', '0', '0', (c.toNat / 16).digitChar, (c.toNat % 16).digitChar]
  else [c]

/-- Take one escaped character off a text. -/
def unescapeChar : Text → Option (Char × Text)
  | '\\' :: '"' :: r => some ('"', r)
  | '\\' :: '\\' :: r => some ('\\', r)
  | '\\' :: 'b' :: r => some ('\x08', r)
  | '\\' :: 't' :: r => some ('\t', r)
  | '\\' :: 'n' :: r => some ('\n', r)
  | '\\' :: 'f' :: r => some ('\x0c', r)
  | '\\' :: 'r' :: r => some ('\r', r)
  | '\\' :: 'u' :: '0' :: '0' :: a :: b :: r =>
    some (Char.ofNat
      (16 * (a.toNat - 48) + (if b.toNat < 58 then b.toNat - 48 else b.toNat - 87)), r)
  | '"' :: _ => none
  | c :: r => some (c, r)
  | [] => none

lemma unescapeChar_escapeChar (c : Char) (r : Text) :
    unescapeChar (escapeChar c ++ r) = some (c, r) := by
  unfold escapeChar
  split_ifs with h1 h2 h3 h4 h5 h6 h7 h8
  · subst h1
    rfl
  · subst h2
    rfl
  · subst h3
    rfl
  · subst h4
    rfl
  · subst h5
    rfl
  · subst h6
    rfl
  · subst h7
    rfl
  · have hc : Char.ofNat c.toNat = c := Char.ofNat_toNat c
    generalize c.toNat = n at h8 hc
    subst hc
    interval_cases n <;> rfl
  · rw [List.singleton_append, unescapeChar.eq_def]
    split <;> simp_all

lemma newline_notMem_escapeChar (c : Char) : '\n' ∉ escapeChar c := by
  unfold escapeChar
  split_ifs with h1 h2 h3 h4 h5 h6 h7 h8 <;> try decide
  · have hn : ∀ n < 32, '\n' ∉ ['\\', 'u', '0', '0', (n / 16).digitChar, (n % 16).digitChar] := by
      decide
    exact hn _ h8
  · simpa [eq_comm] using h5

lemma unescapeChar_quote (r : Text) : unescapeChar ('"' :: r) = none := rfl

lemma escaped_unambiguous {l m r s : Text}
    (h : l.flatMap escapeChar ++ '"' :: r = m.flatMap escapeChar ++ '"' :: s) :
    l = m ∧ r = s := by
  induction l generalizing m with
  | nil =>
    rcases m with _ | ⟨c, m⟩
    · simpa using h
    · have := congrArg unescapeChar h
      simp [unescapeChar_quote, unescapeChar_escapeChar] at this
  | cons c l ih =>
    rcases m with _ | ⟨d, m⟩
    · have := congrArg unescapeChar h
      simp [unescapeChar_quote, unescapeChar_escapeChar] at this
    · have hhead := congrArg unescapeChar h
      simp only [List.flatMap_cons, List.append_assoc, unescapeChar_escapeChar, Option.some.injEq,
        Prod.mk.injEq] at hhead
      obtain ⟨rfl, hrest⟩ := hhead
      obtain ⟨rfl, rfl⟩ := ih hrest
      exact ⟨rfl, rfl⟩

def str : Printer String where
  text s := '"' :: s.toList.flatMap escapeChar ++ ['"']
  unambiguous := by
    intro a b r s _ _ h
    simp only [List.cons_append, List.append_assoc, List.cons.injEq, true_and] at h
    obtain ⟨hl, hrs⟩ := escaped_unambiguous h
    exact ⟨String.toList_injective hl, hrs⟩
  oneLine s := by
    have hbody : '\n' ∉ s.toList.flatMap escapeChar := by
      rw [List.mem_flatMap]
      rintro ⟨c, -, hc⟩
      exact newline_notMem_escapeChar c hc
    simp [hbody]
  head s := ⟨'"', by simp, by decide, by decide⟩

/-! ### Parts -/

def comap (f : β → α) (hf : Function.Injective f) : Printer β where
  text b := p.text (f b)
  unambiguous hr hs h := by
    obtain ⟨hab, hrs⟩ := p.unambiguous hr hs h
    exact ⟨hf hab, hrs⟩
  oneLine b := p.oneLine (f b)
  head b := p.head (f b)

/-- A value after a fixed text that is not empty. -/
def after (front : Text) (hfront : ∃ c ∈ front.head?, c ≠ ']' ∧ c ≠ '}') (hline : '\n' ∉ front) :
    Printer α where
  text a := front ++ p.text a
  unambiguous hr hs h := by
    rw [List.append_assoc, List.append_assoc] at h
    exact p.unambiguous hr hs (List.append_cancel_left h)
  oneLine a := by
    rw [List.mem_append]
    exact fun h => h.elim hline (p.oneLine a)
  head a := by
    obtain ⟨c, hc, h⟩ := hfront
    refine ⟨c, ?_, h⟩
    rw [Option.mem_def] at hc ⊢
    rw [List.head?_append, hc]
    rfl

/-- Two values with a character between them that is no digit. -/
def pair (q : Printer β) (c : Char) (hc : c.isDigit = false) (hline : c ≠ '\n') :
    Printer (α × β) where
  text x := p.text x.1 ++ c :: q.text x.2
  unambiguous := by
    rintro ⟨a, b⟩ ⟨a', b'⟩ r s hr hs h
    simp only [List.append_assoc, List.cons_append] at h
    obtain ⟨rfl, hrest⟩ := p.unambiguous (stops_cons hc) (stops_cons hc) h
    obtain ⟨rfl, rfl⟩ := q.unambiguous hr hs (List.cons.inj hrest).2
    exact ⟨rfl, rfl⟩
  oneLine x := by
    simp only [List.mem_append, List.mem_cons, not_or]
    exact ⟨p.oneLine x.1, hline.symm, q.oneLine x.2⟩
  head x := by
    obtain ⟨d, hd, h⟩ := p.head x.1
    refine ⟨d, ?_, h⟩
    rw [Option.mem_def] at hd ⊢
    rw [List.head?_append, hd]
    rfl

/-- A value between two brackets. -/
def bracket (left right : Char) (hleft : left ≠ ']' ∧ left ≠ '}' ∧ left ≠ '\n')
    (hright : right.isDigit = false ∧ right ≠ '\n') : Printer α where
  text a := left :: p.text a ++ [right]
  unambiguous := by
    intro a b r s _ _ h
    simp only [List.cons_append, List.append_assoc, List.cons.injEq, true_and,
      List.nil_append] at h
    obtain ⟨hab, hrest⟩ := p.unambiguous (stops_cons hright.1) (stops_cons hright.1) h
    exact ⟨hab, (List.cons.inj hrest).2⟩
  oneLine a := by
    simp only [List.cons_append, List.mem_cons, List.mem_append, List.not_mem_nil, or_false, not_or]
    exact ⟨hleft.2.2.symm, p.oneLine a, hright.2.symm⟩
  head a := ⟨left, by simp, hleft.1, hleft.2.1⟩

def option (hnull : ∀ a, 'n' ∉ (p.text a).head?) : Printer (Option α) where
  text x := x.elim "null".toList p.text
  unambiguous := by
    have hne : ∀ a r s, "null".toList ++ r ≠ p.text a ++ s := by
      intro a r s h
      obtain ⟨c, l, hl⟩ := List.exists_cons_of_ne_nil (p.text_ne_nil a)
      rw [hl] at h
      refine hnull a ?_
      have hc : 'n' = c := (List.cons.inj h).1
      simp [hl, ← hc]
    intro a b r s hr hs h
    rcases a with _ | a <;> rcases b with _ | b
    · exact ⟨rfl, List.append_cancel_left h⟩
    · exact absurd h (hne b r s)
    · exact absurd h.symm (hne a s r)
    · obtain ⟨rfl, hrs⟩ := p.unambiguous hr hs h
      exact ⟨rfl, hrs⟩
  oneLine x := by
    cases x with
    | none =>
      change '\n' ∉ "null".toList
      decide
    | some a => exact p.oneLine a
  head x := by
    cases x with
    | none => exact ⟨'n', rfl, by decide, by decide⟩
    | some a => exact p.head a

/-! ### Lists -/

/-- The rest of a list after its first item, with the closing bracket. -/
def rest (close : Char) : List α → Text
  | [] => [close]
  | a :: l => ',' :: (p.text a ++ rest close l)

lemma stops_rest {close : Char} (hc : close.isDigit = false) (l : List α) (r : Text) :
    Stops (p.rest close l ++ r) := by
  cases l with
  | nil => exact stops_cons hc
  | cons a l => exact stops_cons (by decide)

lemma rest_unambiguous {close : Char} (hc : close.isDigit = false) (hcomma : close ≠ ',')
    {l m : List α} {r s : Text} (h : p.rest close l ++ r = p.rest close m ++ s) :
    l = m ∧ r = s := by
  induction l generalizing m with
  | nil =>
    cases m with
    | nil => exact ⟨rfl, (List.cons.inj h).2⟩
    | cons b m => exact absurd (List.cons.inj h).1 hcomma
  | cons a l ih =>
    cases m with
    | nil => exact absurd (List.cons.inj h).1.symm hcomma
    | cons b m =>
      simp only [rest, List.cons_append, List.append_assoc, List.cons.injEq, true_and] at h
      obtain ⟨rfl, hrest⟩ := p.unambiguous (p.stops_rest hc l r) (p.stops_rest hc m s) h
      obtain ⟨rfl, rfl⟩ := ih hrest
      exact ⟨rfl, rfl⟩

lemma newline_notMem_rest {close : Char} (hc : close ≠ '\n') (l : List α) :
    '\n' ∉ p.rest close l := by
  induction l with
  | nil => simpa [rest] using hc.symm
  | cons a l ih =>
    simp only [rest, List.mem_cons, List.mem_append, not_or]
    exact ⟨by decide, p.oneLine a, ih⟩

def listBody (close : Char) : List α → Text
  | [] => [close]
  | a :: l => p.text a ++ p.rest close l

/-- The items between two brackets, with commas between them. -/
def list (left close : Char) (hleft : left ≠ ']' ∧ left ≠ '}' ∧ left ≠ '\n')
    (hclose : close = ']' ∨ close = '}') : Printer (List α) where
  text l := left :: p.listBody close l
  unambiguous := by
    have hdigit : close.isDigit = false := by rcases hclose with rfl | rfl <;> decide
    have hcomma : close ≠ ',' := by rcases hclose with rfl | rfl <;> decide
    have hne : ∀ (a : α) (l : List α) (r s : Text),
        [close] ++ r ≠ p.text a ++ p.rest close l ++ s := by
      intro a l r s h
      obtain ⟨c, hc, h1, h2⟩ := p.head a
      obtain ⟨d, t, ht⟩ := List.exists_cons_of_ne_nil (p.text_ne_nil a)
      rw [ht] at h hc
      obtain rfl : d = c := by simpa using hc
      have hd : close = d := (List.cons.inj h).1
      rcases hclose with rfl | rfl
      · exact h1 hd.symm
      · exact h2 hd.symm
    intro a b r s _ _ h
    simp only [List.cons_append, List.cons.injEq, true_and] at h
    rcases a with _ | ⟨a, l⟩ <;> rcases b with _ | ⟨b, m⟩
    · exact ⟨rfl, List.append_cancel_left h⟩
    · exact absurd h (hne b m r s)
    · exact absurd h.symm (hne a l s r)
    · simp only [listBody, List.append_assoc] at h
      obtain ⟨rfl, hrest⟩ := p.unambiguous (p.stops_rest hdigit l r) (p.stops_rest hdigit m s) h
      obtain ⟨rfl, rfl⟩ := p.rest_unambiguous hdigit hcomma hrest
      exact ⟨rfl, rfl⟩
  oneLine l := by
    have hc : close ≠ '\n' := by rcases hclose with rfl | rfl <;> decide
    rw [List.mem_cons, not_or]
    refine ⟨hleft.2.2.symm, ?_⟩
    cases l with
    | nil => simpa [listBody] using hc.symm
    | cons a l =>
      simp only [listBody, List.mem_append, not_or]
      exact ⟨p.oneLine a, p.newline_notMem_rest hc l⟩
  head l := ⟨left, by simp, hleft.1, hleft.2.1⟩

/-! ### Objects -/

def array : Printer (List α) := p.list '[' ']' opening_array (.inl rfl)

def object : Printer α := p.bracket '{' '}' (by decide) (by decide)

/-- A field of an object. -/
def field (name : String) : Printer α :=
  p.after (str.text name ++ [':'])
    ⟨'"', by simp [str], by decide, by decide⟩ (by simp [str.oneLine name])

/-- The fields of two parts of an object. -/
def and (q : Printer β) : Printer (α × β) := p.pair q ',' (by decide) (by decide)

/-- The entries of a map as an object. -/
def entries : Printer (List (String × α)) :=
  (str.pair p ':' (by decide) (by decide)).list '{' '}' (by decide) (.inr rfl)

end Printer

/-! ### Bytes -/

def utf8 (t : Text) : List UInt8 := t.flatMap String.utf8EncodeChar

lemma utf8_injective : Function.Injective utf8 := by
  intro s t h
  have hbytes : s.utf8Encode = t.utf8Encode := congrArg List.toByteArray h
  rw [← String.toByteArray_ofList, ← String.toByteArray_ofList, String.toByteArray_inj] at hbytes
  exact String.ofList_injective hbytes

lemma newline_utf8EncodeChar {c : Char} (h : 10 ∈ String.utf8EncodeChar c) : c = '\n' := by
  have hbyte : ∀ n : ℕ, 128 ≤ n → n < 256 → UInt8.ofNat n ≠ 10 := by
    intro n h1 h2 he
    have := congrArg UInt8.toNat he
    simp [UInt8.toNat_ofNat'] at this
    omega
  unfold String.utf8EncodeChar at h
  have hv := c.val.toNat_lt
  dsimp only at h
  split_ifs at h with h1 h2 h3
  · have hmod : 10 = c.val.toNat % 256 := by
      have := congrArg UInt8.toNat (List.mem_singleton.mp h)
      rwa [UInt8.toNat_ofNat'] at this
    have he : c.val.toNat = 10 := by omega
    exact Char.ext (UInt32.toNat_inj.mp he)
  all_goals simp only [List.mem_cons, List.not_mem_nil, or_false] at h
  · rcases h with h | h <;> exact absurd h.symm (hbyte _ (by omega) (by omega))
  · rcases h with h | h | h <;> exact absurd h.symm (hbyte _ (by omega) (by omega))
  · rcases h with h | h | h | h <;> exact absurd h.symm (hbyte _ (by omega) (by omega))

lemma newline_notMem_utf8 {t : Text} (h : '\n' ∉ t) : 10 ∉ utf8 t := by
  unfold utf8
  rw [List.mem_flatMap]
  rintro ⟨c, hc, hb⟩
  exact h (newline_utf8EncodeChar hb ▸ hc)

end Netband.Json

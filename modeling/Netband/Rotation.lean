import Netband.Publishing
import Netband.Tails

/-!
A journal on a directory, against a journal on one file: the segments hold the batches that the one
file would, each whole in one segment, with a new segment for a later day or for a segment that
would grow too long.
-/

namespace Netband.Rotation

open Netband.Time Netband.Effects Netband.Lines Netband.Journal Netband.Segments Netband.Tails
open Faulty

/-! ### Calls and days -/

abbrev Write := Batch × ℤ

section rules
variable {faults : Prop} {o : Output}

lemma meets_onFolder {α : Type} {c : Op α} {Q : α → Output → Prop}
    {E : JournalError → Output → Prop}
    (h : Meets faults o.folder c (fun a folder => Q a { o with folder })
      fun e folder => E e { o with folder }) : Meets faults o (onFolder c) Q E :=
  meets_zoom h

/-- A journal that has not failed notes whether it fails. -/
lemma meets_guarded {c : Faulty Output JournalError Unit} {Q : Unit → Output → Prop}
    {E : JournalError → Output → Prop} (hjournal : o.journal.poisoned = false)
    (h : Meets faults o c
      (fun a o' => Q a { o' with journal := { o'.journal with poisoned := false } })
      fun e o' => E e { o' with journal := { o'.journal with poisoned := true } }) :
    Meets faults o (guarded c) Q E := by
  refine meets_bind (meets_get (meets_bind (meets_ensure (fun _ => ?_) fun hp => ?_)))
  · intro io hio
    have hc := h io hio
    dsimp only
    rcases hr : c (io, o) with ⟨e | a, io', o'⟩
    · rw [hr] at hc
      exact hc
    · rw [hr] at hc
      exact hc
  · exact absurd hjournal hp

end rules

/-- The last day that a journal has seen: that of its opening or of a batch. -/
def Watermark (opened : ℤ) (writes : List Write) (date : ℤ) : Prop :=
  ∀ t, date < t ↔ dateNaive opened < t ∧ ∀ e ∈ writes, e.1 ≠ [] → dateNaive e.2 < t

lemma Watermark.empty {opened date : ℤ} {writes : List Write} {w : Write}
    (h : Watermark opened writes date) (hw : w.1 = []) :
    Watermark opened (writes ++ [w]) date := by
  intro t
  rw [h t]
  simp [or_imp, forall_and, hw]

lemma Watermark.write {opened date : ℤ} {writes : List Write} {w : Write}
    (h : Watermark opened writes date) (hw : w.1 ≠ []) :
    Watermark opened (writes ++ [w]) (max date (dateNaive w.2)) := by
  intro t
  rw [max_lt_iff, h t]
  simp [or_imp, forall_and, hw, and_assoc]

section crates
variable [Crates]

/-! ### Layouts -/

/-- Append batches one after the other, each at its time. -/
def appendAll : List Write → Faulty Output JournalError Unit
  | [] => pure ()
  | w :: writes => do
    appendBatchAt w.1 w.2
    appendAll writes

/-- The bytes of a segment with some batches. -/
def text (group : List Batch) : Bytes := headerLine ++ group.flatMap encodeBatch

/-- The batch does not go to the segment with the current batches: its day is after the day of the
opening and of all batches before, or it would make a segment that has batches too long. -/
def Begins (limit : Option ℕ) (opened : ℤ) (earlier : List Write) (current : List Batch)
    (w : Write) : Prop :=
  (dateNaive opened < dateNaive w.2 ∧ ∀ e ∈ earlier, e.1 ≠ [] → dateNaive e.2 < dateNaive w.2) ∨
    current ≠ [] ∧ ∃ l ∈ limit, l < (text current).length + (encodeBatch w.1).length

/-- How batches are laid out over segments. -/
inductive Layout (limit : Option ℕ) (opened : ℤ) : List Write → List (List Batch) → List Batch →
    Prop
  | opened : Layout limit opened [] [] []
  | empty {writes groups current} {w : Write} (h : Layout limit opened writes groups current)
    (hw : w.1 = []) : Layout limit opened (writes ++ [w]) groups current
  | stays {writes groups current} {w : Write} (h : Layout limit opened writes groups current)
    (hw : w.1 ≠ []) (hb : ¬ Begins limit opened writes current w) :
    Layout limit opened (writes ++ [w]) groups (current ++ [w.1])
  | begins {writes groups current} {w : Write} (h : Layout limit opened writes groups current)
    (hw : w.1 ≠ []) (hb : Begins limit opened writes current w) :
    Layout limit opened (writes ++ [w]) (groups ++ [current]) [w.1]

/-- A batch begins a segment: it has rows, and its day is after the day of the opening and of all
batches before, or the current segment has a batch and would be longer than the limit. -/
def StartsSegment (limit : Option ℕ) (opened : ℤ) (earlier : List Write) (w : Write) (o : Output) :
    Prop :=
  w.1 ≠ [] ∧
    ((dateNaive opened < dateNaive w.2 ∧ ∀ e ∈ earlier, e.1 ≠ [] → dateNaive e.2 < dateNaive w.2) ∨
      o.folder.content o.journal.file ≠ headerLine ∧
        ∃ l ∈ limit, l < (o.folder.content o.journal.file).length + (encodeBatch w.1).length)

/-- A batch is written to a new segment if it begins one, and to the current one if not. -/
structure Rolls (limit : Option ℕ) (opened : ℤ) (earlier : List Write) (w : Write)
    (o o' : Output) : Prop where
  current : o.folder.segments.getLast? = some o.journal.file
  begins : StartsSegment limit opened earlier w o →
    o'.folder.segments = o.folder.segments ++ [o'.journal.file]
  stays : ¬ StartsSegment limit opened earlier w o →
    o'.folder.segments = o.folder.segments ∧ o'.journal.file = o.journal.file

section layouts
variable {limit : Option ℕ} {opened : ℤ} {writes : List Write} {groups : List (List Batch)}
  {current : List Batch}

/-- Every batch is in one segment, in their order. -/
lemma Layout.batches (h : Layout limit opened writes groups current) :
    (groups ++ [current]).flatten = (writes.map Prod.fst).filter (· ≠ []) := by
  induction h with
  | opened => rfl
  | empty h hw ih => simp [ih, hw]
  | stays h hw hb ih =>
    rw [List.map_append, List.filter_append, ← ih]
    simp [hw]
  | begins h hw hb ih =>
    rw [List.map_append, List.filter_append, ← ih]
    simp [hw]

lemma Layout.bytes (h : Layout limit opened writes groups current) :
    (groups ++ [current]).flatten.flatMap encodeBatch =
      writes.flatMap fun w => encodeBatch w.1 := by
  rw [h.batches]
  clear h
  induction writes with
  | nil => rfl
  | cons w writes ih =>
    by_cases hw : w.1 = []
    · simpa [hw, encodeBatch] using ih
    · simpa [hw] using ih

/-- The segments have no batches without rows. -/
lemma Layout.rows (h : Layout limit opened writes groups current) : ∀ b ∈ current, b ≠ [] := by
  intro b hb
  have hmem : b ∈ (groups ++ [current]).flatten := by simp [hb]
  rw [h.batches, List.mem_filter] at hmem
  exact of_decide_eq_true hmem.2

/-- A segment of two batches and more is within the limit. -/
lemma Layout.limited (h : Layout limit opened writes groups current) :
    ∀ g ∈ groups ++ [current], 2 ≤ g.length → ∀ l ∈ limit, (text g).length ≤ l := by
  induction h with
  | opened => simp
  | empty _ _ ih => exact ih
  | @stays writes groups current w h hw hb ih =>
    intro g hg hlen l hl
    rcases List.mem_append.mp hg with hg | hg
    · exact ih g (by simp [hg]) hlen l hl
    · obtain rfl := List.mem_singleton.mp hg
      rw [Begins, not_or, not_and] at hb
      have hcurrent : current ≠ [] := by
        rintro rfl
        simp at hlen
      have hle := not_lt.mp fun hlt => hb.2 ⟨hcurrent, l, hl, hlt⟩
      simpa [text, Nat.add_assoc] using hle
  | begins h hw hb ih =>
    intro g hg hlen l hl
    rcases List.mem_append.mp hg with hg | hg
    · exact ih g hg hlen l hl
    · obtain rfl := List.mem_singleton.mp hg
      simp at hlen

/-- Only the first segment may be without batches. -/
lemma Layout.nonempty (h : Layout limit opened writes groups current) :
    ∀ g ∈ (groups ++ [current]).tail, g ≠ [] := by
  induction h with
  | opened => simp
  | empty _ _ ih => exact ih
  | @stays writes groups current w h hw hb ih =>
    intro g hg
    cases groups with
    | nil => simp at hg
    | cons first groups =>
      simp only [List.cons_append, List.tail_cons, List.mem_append, List.mem_singleton] at hg ih
      rcases hg with hg | rfl
      · exact ih g (.inl hg)
      · simp
  | @begins writes groups current w h hw hb ih =>
    intro g hg
    rw [List.tail_append_of_ne_nil (by simp)] at hg
    rcases List.mem_append.mp hg with hg | hg
    · exact ih g hg
    · obtain rfl := List.mem_singleton.mp hg
      simp

end layouts

/-! ### Appending -/

/-- The segments of a journal on a directory: the current one, and those before it. -/
structure Holding (before files : List ℕ) (groups : List (List Batch)) (current : List Batch)
    (o : Output) : Prop where
  segments : o.folder.segments = before ++ files ++ [o.journal.file]
  contents : files.map o.folder.content = groups.map text
  content : o.folder.content o.journal.file = text current
  distinct : o.journal.file ∉ files
  there : ∀ f ∈ files ++ [o.journal.file], f < o.folder.inodes.length
  unmarked : ∀ f ∈ files ++ [o.journal.file], o.folder.entries[markerTempName]? ≠ some f
  bytes : o.journal.bytes = (text current).length
  hasEvents : o.journal.hasEvents = true ↔ current ≠ []
  healthy : o.journal.poisoned = false

lemma text_concat (group : List Batch) (batch : Batch) :
    text (group ++ [batch]) = text group ++ encodeBatch batch := by
  simp [text]

section holding
variable {before files : List ℕ} {groups : List (List Batch)} {current : List Batch} {o : Output}

/-- The current segment after a batch was written to it. -/
def written (o : Output) (batch : Batch) : Output where
  journal := { o.journal with
    bytes := o.journal.bytes + (encodeBatch batch).length
    hasEvents := true }
  folder := (o.folder.append o.journal.file (encodeBatch batch)).sync o.journal.file

lemma Holding.write (h : Holding before files groups current o) (batch : Batch) :
    Holding before files groups (current ++ [batch]) (written o batch) where
  segments := h.segments
  contents := by
    rw [← h.contents]
    refine List.map_congr_left fun f hf => ?_
    have hne : f ≠ o.journal.file := by
      rintro rfl
      exact h.distinct hf
    rw [written, Folder.content_sync, Folder.content_append_ne _ _ _ _ hne]
  content := by
    have hthere := h.there o.journal.file (by simp)
    rw [written, Folder.content_sync, Folder.content_append_self _ _ _ hthere, h.content,
      text_concat]
  distinct := h.distinct
  there f hf := by
    have hlt := h.there f hf
    simpa [written, Folder.sync, Folder.append] using hlt
  unmarked := h.unmarked
  bytes := by
    rw [written, text_concat, List.length_append, h.bytes]
  hasEvents := by simp [written]
  healthy := h.healthy

lemma Holding.last (h : Holding before files groups current o) :
    o.folder.segments.getLast? = some o.journal.file := by
  simp [h.segments]

lemma Holding.allContents (h : Holding before files groups current o) :
    (files ++ [o.journal.file]).map o.folder.content = (groups ++ [current]).map text := by
  rw [List.map_append, List.map_append, h.contents]
  simp [h.content]

/-- A new segment after the current one. -/
lemma Holding.next (h : Holding before files groups current o) {d : Folder} {file : ℕ}
    {path : String} (hm : Marked (o.folder.sync o.journal.file) d file path)
    (directory : Option Directory) : Holding before (files ++ [o.journal.file])
      (groups ++ [current]) []
      ⟨⟨file, path, directory, (d.content file).length, false, false⟩, d⟩ := by
  have hlength : (o.folder.sync o.journal.file).inodes.length = o.folder.inodes.length := by
    simp [Folder.sync]
  have hfresh := hm.fresh
  rw [hlength] at hfresh
  have hsame : ∀ f ∈ files ++ [o.journal.file], d.content f = o.folder.content f := by
    intro f hf
    rw [hm.content_old (by rw [hlength]; exact h.there f hf) (h.unmarked f hf),
      Folder.content_sync]
  exact {
    segments := by
      rw [hm.segments]
      change o.folder.segments ++ [file] = _
      rw [h.segments, List.append_assoc before]
    contents := by
      rw [List.map_append, List.map_append, ← h.contents]
      congr 1
      · exact List.map_congr_left fun f hf => hsame f (by simp [hf])
      · simp [hsame o.journal.file (by simp), h.content]
    content := by
      rw [hm.content_new]
      simp [text]
    distinct := fun hf => by
      have := h.there file hf
      omega
    there := fun f hf => by
      rcases List.mem_append.mp hf with hf | hf
      · have hle := hm.le_length
        rw [hlength] at hle
        exact (h.there f hf).trans_le hle
      · rw [List.mem_singleton.mp hf]
        exact hm.lt_length
    unmarked := fun f _ => by
      rw [hm.temp]
      simp
    bytes := by
      rw [hm.content_new]
      simp [text]
    hasEvents := by simp
    healthy := rfl }

end holding

lemma text_eq_headerLine {group : List Batch} (h : ∀ b ∈ group, b ≠ []) :
    text group = headerLine ↔ group = [] := by
  refine ⟨fun htext => ?_, fun hempty => by simp [text, hempty]⟩
  cases group with
  | nil => rfl
  | cons batch group =>
    cases batch with
    | nil => exact absurd rfl (h [] (by simp))
    | cons row batch =>
      have hlen := congrArg List.length htext
      simp [text, encodeBatch, encodeRow_eq] at hlen

/-- What begins a segment of the layout begins one of the directory. -/
lemma startsSegment_iff {limit : Option ℕ} {opened : ℤ} {before files : List ℕ}
    {writes : List Write} {groups : List (List Batch)} {current : List Batch} {o : Output}
    {w : Write} (hlayout : Layout limit opened writes groups current)
    (h : Holding before files groups current o) :
    StartsSegment limit opened writes w o ↔ w.1 ≠ [] ∧ Begins limit opened writes current w := by
  have htext := text_eq_headerLine hlayout.rows
  rw [StartsSegment, Begins, h.content, ne_eq (text current), htext]

/-- A journal on a directory after some batches. -/
structure Rotating (limit : Option ℕ) (opened : ℤ) (before : List ℕ) (writes : List Write)
    (o : Output) : Prop where
  holds : ∃ files groups current, Layout limit opened writes groups current ∧
    Holding before files groups current o
  directory : ∃ date, o.journal.directory = some ⟨date, limit⟩ ∧ Watermark opened writes date

/-- The choice of the code is that of the layout, as long as what is written fits a file. -/
lemma rotates_iff {limit : Option ℕ} {opened : ℤ} {before files : List ℕ} {writes : List Write}
    {groups : List (List Batch)} {current : List Batch} {o : Output} {date : ℤ} {w : Write}
    (h : Holding before files groups current o) (hdate : Watermark opened writes date)
    (hfits : rotates o.journal ⟨date, limit⟩ (encodeBatch w.1) w.2 = false →
      (text current).length + (encodeBatch w.1).length ≤ u64Max) :
    rotates o.journal ⟨date, limit⟩ (encodeBatch w.1) w.2 = true ↔
      Begins limit opened writes current w := by
  have hiff : rotates o.journal ⟨date, limit⟩ (encodeBatch w.1) w.2 = true ↔
      date < dateNaive w.2 ∨ current ≠ [] ∧ ∃ l ∈ limit,
        l < min ((text current).length + (encodeBatch w.1).length) u64Max := by
    rw [rotates, Bool.or_eq_true, Bool.and_eq_true, h.hasEvents, h.bytes, decide_eq_true_iff,
      Option.any_eq_true]
    simp
  rw [Begins, ← hdate]
  constructor
  · intro hr
    refine (hiff.mp hr).imp_right fun ⟨hne, l, hl, hlt⟩ => ⟨hne, l, hl, ?_⟩
    exact hlt.trans_le (min_le_left _ _)
  · intro hb
    by_contra hr
    have hfits := hfits (by simpa using hr)
    rw [hiff, min_eq_left hfits] at hr
    exact hr hb

section steps
variable {limit : Option ℕ} {opened : ℤ} {before : List ℕ} {writes : List Write} {o : Output}

lemma meets_writeBatch {batch : Batch} {Q : Unit → Output → Prop}
    (h : (o.folder.content o.journal.file).length + (encodeBatch batch).length ≤ u64Max →
      Q () { o with folder :=
        (o.folder.append o.journal.file (encodeBatch batch)).sync o.journal.file }) :
    Meets True o (writeBatch (encodeBatch batch)) Q fun _ _ => True := by
  refine meets_bind (meets_get (meets_bind (meets_onFolder ?_)))
  refine meets_writeAll (fun hfits => ?_) (fun _ _ => trivial) fun _ _ _ => trivial
  exact meets_onFolder (meets_syncData (h hfits) fun _ _ => trivial)

/-- **A batch**: one append keeps the layout. -/
lemma meets_append (h : Rotating limit opened before writes o) (w : Write) :
    Meets True o (append w.1 w.2)
      (fun _ o' => Rotating limit opened before (writes ++ [w]) o' ∧
        Rolls limit opened writes w o o')
      fun _ _ => True := by
  obtain ⟨⟨files, groups, current, hlayout, hholds⟩, date, hdirectory, hdate⟩ := h
  have hstarts := @startsSegment_iff _ limit opened before files writes groups current o w hlayout
    hholds
  refine meets_bind (meets_get ?_)
  split_ifs with hempty
  · exact meets_pure ⟨⟨⟨files, groups, current, hlayout.empty hempty, hholds⟩, date, hdirectory,
      hdate.empty hempty⟩, hholds.last, fun h => absurd hempty h.1, fun _ => ⟨rfl, rfl⟩⟩
  · rw [hdirectory]
    dsimp only
    by_cases hr : rotates o.journal ⟨date, limit⟩ (encodeBatch w.1) w.2 = true
    · rw [if_pos hr]
      have hbegins : Begins limit opened writes current w :=
        (rotates_iff hholds hdate fun hnot => by rw [hr] at hnot; cases hnot).mp hr
      refine meets_bind (meets_bind (meets_get (meets_bind (meets_onFolder ?_))))
      refine meets_syncData ?_ fun _ _ => trivial
      refine meets_bind (meets_onFolder ?_)
      refine meets_mono (createSegment_spec _ w.2) (fun r d' hm => ?_) fun _ _ _ => trivial
      refine meets_bind (meets_modify (meets_bind (meets_onFolder ?_)))
      refine meets_metadataLen (meets_modify ?_) fun _ _ => trivial
      refine meets_bind (meets_writeBatch fun _ => meets_modify ?_)
      refine ⟨⟨⟨files ++ [o.journal.file], groups ++ [current], [w.1],
        hlayout.begins hempty hbegins, ?_⟩, max date (dateNaive w.2), rfl, hdate.write hempty⟩,
        hholds.last, fun _ => hm.segments, fun h => absurd (hstarts.mpr ⟨hempty, hbegins⟩) h⟩
      have hnext := hholds.next hm (some ⟨max date (dateNaive w.2), limit⟩)
      have hhealthy := hholds.healthy
      have hwritten := hnext.write w.1
      rw [← hhealthy] at hwritten
      exact hwritten
    · rw [if_neg hr]
      refine meets_bind (meets_writeBatch fun hfits => meets_modify ?_)
      rw [hholds.content] at hfits
      have hstays : ¬ Begins limit opened writes current w := by
        rwa [← rotates_iff hholds hdate fun _ => hfits]
      have hle : dateNaive w.2 ≤ date := by
        by_contra hlt
        refine hr ?_
        simp [rotates, not_le.mp hlt]
      have hdate' := hdate.write hempty
      rw [max_eq_left hle] at hdate'
      exact ⟨⟨⟨files, groups, current ++ [w.1], hlayout.stays hempty hstays, hholds.write w.1⟩,
        date, hdirectory, hdate'⟩, hholds.last, fun h => absurd (hstarts.mp h).2 hstays,
        fun _ => ⟨rfl, rfl⟩⟩

lemma meets_appendBatchAt (h : Rotating limit opened before writes o) (w : Write) :
    Meets True o (appendBatchAt w.1 w.2)
      (fun _ o' => Rotating limit opened before (writes ++ [w]) o' ∧
        Rolls limit opened writes w o o')
      fun _ _ => True := by
  obtain ⟨files, groups, current, -, hholds⟩ := h.holds
  refine meets_guarded hholds.healthy (meets_mono (meets_append h w) (fun _ o' h' => ?_)
    fun _ _ _ => trivial)
  obtain ⟨⟨⟨files, groups, current, hlayout, hholds⟩, hdirectory⟩, hrolls⟩ := h'
  exact ⟨⟨⟨files, groups, current, hlayout, { hholds with healthy := rfl }⟩, hdirectory⟩,
    ⟨hrolls.current, hrolls.begins, hrolls.stays⟩⟩

/-- **All batches**: a run of appends keeps the layout. -/
lemma meets_appendAll (h : Rotating limit opened before writes o) (more : List Write) :
    Meets True o (appendAll more)
      (fun _ o' => Rotating limit opened before (writes ++ more) o') fun _ _ => True := by
  induction more generalizing writes o with
  | nil =>
    rw [List.append_nil]
    exact meets_pure h
  | cons w more ih =>
    refine meets_bind (meets_mono (meets_appendBatchAt h w) (fun _ o' h' => ?_) fun _ _ he => he)
    have hrest := ih h'.1
    rwa [List.append_assoc] at hrest

/-- A run through one of its batches. -/
lemma appendAll_split {earlier later : List Write} {w : Write} {x x' : List Io × Output}
    (h : appendAll (earlier ++ w :: later) x = (.ok (), x')) : ∃ x₁ x₂,
      appendAll earlier x = (.ok (), x₁) ∧ appendBatchAt w.1 w.2 x₁ = (.ok (), x₂) := by
  induction earlier generalizing x with
  | nil =>
    obtain ⟨_, x₂, hw, -⟩ := ok_of_bind h
    exact ⟨x, x₂, rfl, hw⟩
  | cons v earlier ih =>
    obtain ⟨_, x₀, hv, hrest⟩ := ok_of_bind h
    obtain ⟨x₁, x₂, hearlier, hw⟩ := ih hrest
    refine ⟨x₁, x₂, ?_, hw⟩
    change Faulty.bind _ _ x = _
    rw [Faulty.bind, hv]
    exact hearlier

end steps

/-! ### Opening -/

lemma meets_openDirectory (d : Folder) (limit : Option ℕ) (now : ℤ) :
    Meets True d (openDirectory limit now)
      (fun j d' => Rotating limit now d.segments [] ⟨j, d'⟩) fun _ _ => True := by
  have hfail : True → ∀ e : JournalError, True := fun _ _ => trivial
  -- whatever recovery does, the segments stay
  have hrecover : ∀ {d' : Folder}, d'.segments = d.segments → Meets True d' recoverDirectory
      (fun _ d'' => d''.segments = d.segments) fun _ _ => True := by
    intro d' h
    refine meets_recoverDirectory (fun _ => h) (fun name file r _ _ => ?_) (fun _ => trivial)
      (fun _ _ _ _ _ _ _ => trivial) (fun _ _ _ _ _ _ => trivial) fun _ _ _ _ _ _ => trivial
    cases r <;> exact h
  refine meets_bind (meets_regularOrMissing ?_ hfail)
  refine meets_opened (fun d' hd' _ => ?_) hfail hfail
  have hsame : d'.segments = d.segments := by rcases hd' with rfl | rfl <;> rfl
  refine meets_bind (meets_inspect ?_ hfail)
  refine meets_bind (meets_mono (hrecover hsame) (fun _ d₁ h₁ => ?_) fun _ _ he => he)
  refine meets_bind (meets_mono (createSegment_spec d₁ now) (fun r d₂ hm => ?_)
    fun _ _ _ => trivial)
  refine meets_bind (meets_metadataLen (meets_pure ?_) hfail)
  refine ⟨⟨[], [], [], .opened, ?_⟩, dateNaive now, rfl, ?_⟩
  · exact {
      segments := by
        change d₂.segments = d.segments ++ [] ++ [r.1]
        rw [hm.segments, h₁, List.append_nil]
      contents := rfl
      content := by
        change d₂.content r.1 = _
        rw [hm.content_new]
        simp [text]
      distinct := by simp
      there := fun f hf => by
        obtain rfl : f = r.1 := by simpa using hf
        exact hm.lt_length
      unmarked := fun f _ => by
        rw [hm.temp]
        simp
      bytes := by
        change (d₂.content r.1).length = _
        rw [hm.content_new]
        simp [text]
      hasEvents := by simp
      healthy := rfl }
  · intro t
    simp

lemma rotating_of_runs {limit : Option ℕ} {now : ℤ} {d d₀ : Folder} {io io' io₁ io₂ : List Io}
    {j : Journal} {writes : List Write} {o : Output}
    (hopen : openAt .directory limit now (io, d) = (.ok j, io', d₀))
    (hrun : appendAll writes (io₁, ⟨j, d₀⟩) = (.ok (), io₂, o)) :
    Rotating limit now d.segments writes o := by
  have hopened : Rotating limit now d.segments [] ⟨j, d₀⟩ := by
    have hmeets : Meets True d (openAt .directory limit now)
        (fun j d' => Rotating limit now d.segments [] ⟨j, d'⟩) fun _ _ => True :=
      meets_bind (meets_ensure (fun _ => meets_openDirectory d limit now) fun _ => trivial)
    have hends := hmeets io (.inr trivial)
    rw [hopen] at hends
    exact hends.2
  have hends := meets_appendAll hopened writes io₁ (.inr trivial)
  rw [hrun] at hends
  exact hends.2

/-! ### One file -/

/-- A journal on one file after some batches. -/
structure Growing (before : Bytes) (writes : List Write) (o : Output) : Prop where
  content : o.folder.content o.journal.file = before ++ writes.flatMap fun w => encodeBatch w.1
  there : o.journal.file < o.folder.inodes.length
  directory : o.journal.directory = none
  healthy : o.journal.poisoned = false

section growing
variable {before : Bytes} {writes : List Write} {o : Output}

lemma meets_appendFile (h : Growing before writes o) (w : Write) :
    Meets True o (appendBatchAt w.1 w.2)
      (fun _ o' => Growing before (writes ++ [w]) o') fun _ _ => True := by
  refine meets_guarded h.healthy (meets_bind (meets_get ?_))
  split_ifs with hempty
  · refine meets_pure ⟨?_, h.there, h.directory, rfl⟩
    simpa [hempty, encodeBatch] using h.content
  · rw [h.directory]
    refine meets_writeBatch fun _ => ⟨?_, ?_, h.directory, rfl⟩
    · change ((o.folder.append _ _).sync _).content _ = _
      rw [Folder.content_sync, Folder.content_append_self _ _ _ h.there, h.content]
      simp
    · change _ < ((o.folder.append _ _).sync _).inodes.length
      simpa [Folder.sync, Folder.append] using h.there

lemma meets_appendAllFile (h : Growing before writes o) (more : List Write) :
    Meets True o (appendAll more)
      (fun _ o' => Growing before (writes ++ more) o') fun _ _ => True := by
  induction more generalizing writes o with
  | nil =>
    rw [List.append_nil]
    exact meets_pure h
  | cons w more ih =>
    refine meets_bind (meets_mono (meets_appendFile h w) (fun _ o' h' => ?_) fun _ _ he => he)
    have hrest := ih h'
    rwa [List.append_assoc] at hrest

/-- A file that is not there yet gets the header. -/
lemma meets_openNew {path : String} {d : Folder} {limit : Option ℕ} {now : ℤ}
    (hnew : path ∉ d.entries) : Meets True d (openAt (.file path) limit now)
      (fun j d' => Growing headerLine [] ⟨j, d'⟩) fun _ _ => True := by
  have hfail : True → ∀ e : JournalError, True := fun _ _ => trivial
  refine meets_bind (meets_ensure (fun _ => ?_) fun _ => trivial)
  refine meets_bind (meets_bind (meets_openOrCreate (fun file hfile => ?_) (fun _ => ?_) hfail
    fun _ _ => hfail trivial))
  · rw [Std.ExtTreeMap.mem_iff_isSome_getElem?, hfile] at hnew
    exact absurd rfl hnew
  · refine meets_bind (meets_inspect (meets_bind (meets_metadataLen ?_ hfail)) hfail)
    have hempty : (d.create path).content d.inodes.length = [] := by
      rw [Folder.content_create, Folder.content_of_le _ _ le_rfl]
    have hthere : d.inodes.length < (d.create path).inodes.length := by simp
    rw [hempty, if_pos List.length_nil]
    generalize headerLine = line
    refine meets_bind (@meets_writeAll True _ _ _ line _ (fun _ => ?_) (fun _ _ => trivial)
      fun _ _ _ => trivial)
    refine meets_bind (meets_syncData (meets_bind (meets_inspect (meets_pure ?_) hfail)) hfail)
    refine meets_bind (meets_metadataLen (meets_pure ⟨?_, ?_, rfl, rfl⟩) hfail)
    · change (((d.create path).append _ _).sync _).content _ = _
      rw [Folder.content_sync, Folder.content_append_self _ _ _ hthere, hempty]
      simp
    · change _ < (((d.create path).append _ _).sync _).inodes.length
      simp [Folder.sync, Folder.append]

end growing

lemma growing_of_runs {path : String} {limit : Option ℕ} {now : ℤ} {d d₀ : Folder}
    {io io' io₁ io₂ : List Io} {j : Journal} {writes : List Write} {o : Output}
    (hnew : path ∉ d.entries) (hopen : openAt (.file path) limit now (io, d) = (.ok j, io', d₀))
    (hrun : appendAll writes (io₁, ⟨j, d₀⟩) = (.ok (), io₂, o)) :
    Growing headerLine writes o := by
  have hopened := @meets_openNew _ path d limit now hnew io (.inr trivial)
  rw [hopen] at hopened
  have hends := meets_appendAllFile hopened.2 writes io₁ (.inr trivial)
  rw [hrun] at hends
  exact hends.2

/-! ### Rotation -/

/-- **Rotation**: the same batches, appended to a journal on a directory and to a journal on a new
file. The segments of the first have, after their headers, what the file of the second has after
its header, with each batch whole in one segment: a new one is begun for a later day than all
before, or for a segment that has batches and would grow over the limit. -/
theorem rotation_layout {limit : Option ℕ} {now : ℤ} {d d₀ : Folder} {io io' io₁ io₂ : List Io}
    {j : Journal} {writes : List Write} {o : Output} {path : String} {now' : ℤ} {e e₀ : Folder}
    {ie ie' ie₁ ie₂ : List Io} {j' : Journal} {o' : Output}
    (hopen : openAt .directory limit now (io, d) = (.ok j, io', d₀))
    (hrun : appendAll writes (io₁, ⟨j, d₀⟩) = (.ok (), io₂, o)) (hnew : path ∉ e.entries)
    (hopen' : openAt (.file path) none now' (ie, e) = (.ok j', ie', e₀))
    (hrun' : appendAll writes (ie₁, ⟨j', e₀⟩) = (.ok (), ie₂, o')) :
    ∃ files groups current, Layout limit now writes groups current ∧
      o.folder.segments = d.segments ++ files ∧
      files.map o.folder.content = (groups ++ [current]).map text ∧
      o'.folder.content o'.journal.file =
        headerLine ++ (groups ++ [current]).flatMap fun group => group.flatMap encodeBatch := by
  obtain ⟨⟨files, groups, current, hlayout, hholds⟩, -⟩ := rotating_of_runs hopen hrun
  have hgrowing := growing_of_runs hnew hopen' hrun'
  refine ⟨files ++ [o.journal.file], groups, current, hlayout, ?_, ?_, ?_⟩
  · rw [hholds.segments, List.append_assoc]
  · exact hholds.allContents
  · rw [hgrowing.content, ← hlayout.bytes, ← List.flatMap_id, List.flatMap_assoc]
    rfl

/-- Open a journal and append batches, with calls that do not fail. -/
def runFrom (target : OutputTarget) (limit : Option ℕ) (d : Folder) (writes : List Write) :
    Except JournalError Output :=
  match openAt target limit 0 ([], d) with
  | (.ok j, _, d₀) =>
    match appendAll writes ([], ⟨j, d₀⟩) with
    | (.ok (), _, o) => .ok o
    | (.error e, _, _) => .error e
  | (.error e, _, _) => .error e

lemma of_runFrom {target : OutputTarget} {limit : Option ℕ} {d : Folder} {writes : List Write}
    (h : (runFrom target limit d writes).isOk = true) :
    ∃ j io d₀ io' o, openAt target limit 0 ([], d) = (.ok j, io, d₀) ∧
      appendAll writes ([], ⟨j, d₀⟩) = (.ok (), io', o) ∧
      runFrom target limit d writes = .ok o := by
  unfold runFrom at h ⊢
  rcases hopen : openAt target limit 0 ([], d) with ⟨_ | j, io, d₀⟩
  · rw [hopen] at h
    cases h
  · rw [hopen] at h
    dsimp only at h
    rcases hrun : appendAll writes ([], ⟨j, d₀⟩) with ⟨_ | _, io', o⟩
    · rw [hrun] at h
      cases h
    · refine ⟨j, io, d₀, io', o, rfl, hrun, ?_⟩
      dsimp only
      rw [hrun]

/-- A journal on a directory against one on a file that `appended` was written to. Each segment is
the header and whole batches, and the batches are those of the run; after their headers the segments
have the bytes of the file. A segment over the limit has one batch at most, and none but the first
is without batches. A batch begins a segment exactly if it has to. -/
structure Refines (limit : Option ℕ) (opened : ℤ) (writes : List Write) (start : List Io × Output)
    (before files : List ℕ) (groups : List (List Batch)) (o : Output) (appended : Bytes) :
    Prop where
  segments : o.folder.segments = before ++ files
  contents : files.map o.folder.content = groups.map text
  bytes : (files.flatMap fun f => (o.folder.content f).drop headerLine.length) = appended
  batches : groups.flatten = (writes.map Prod.fst).filter (· ≠ [])
  limited : ∀ l ∈ limit, ∀ group ∈ groups, l < (text group).length → group.length ≤ 1
  nonempty : ∀ group ∈ groups.tail, group ≠ []
  rolls : ∀ earlier w later, writes = earlier ++ w :: later → ∃ x₁ x₂,
    appendAll earlier start = (.ok (), x₁) ∧ appendBatchAt w.1 w.2 x₁ = (.ok (), x₂) ∧
      Rolls limit opened earlier w x₁.2 x₂.2

/-- **One journal**: for every limit, time of opening and sequence of batches, a journal on a
directory refines a journal on a file. -/
theorem directory_refines_file {limit : Option ℕ} {now : ℤ} {d d₀ : Folder}
    {io io' io₁ io₂ : List Io} {j : Journal} {writes : List Write} {o : Output} {path : String}
    {now' : ℤ} {e e₀ : Folder} {ie ie' ie₁ ie₂ : List Io} {j' : Journal} {o' : Output}
    (hopen : openAt .directory limit now (io, d) = (.ok j, io', d₀))
    (hrun : appendAll writes (io₁, ⟨j, d₀⟩) = (.ok (), io₂, o)) (hnew : path ∉ e.entries)
    (hopen' : openAt (.file path) none now' (ie, e) = (.ok j', ie', e₀))
    (hrun' : appendAll writes (ie₁, ⟨j', e₀⟩) = (.ok (), ie₂, o')) :
    ∃ files groups, Refines limit now writes (io₁, ⟨j, d₀⟩) d.segments files groups o
      ((o'.folder.content o'.journal.file).drop headerLine.length) := by
  obtain ⟨⟨files, groups, current, hlayout, hholds⟩, -⟩ := rotating_of_runs hopen hrun
  have hgrowing := growing_of_runs hnew hopen' hrun'
  have hcontents := hholds.allContents
  have htext : ∀ group, (text group).drop headerLine.length = group.flatMap encodeBatch :=
    fun group => List.drop_left
  refine ⟨files ++ [o.journal.file], groups ++ [current], ?_⟩
  exact {
    segments := by rw [hholds.segments, List.append_assoc]
    contents := hcontents
    bytes := by
      rw [hgrowing.content, List.drop_left, ← hlayout.bytes]
      have hflat := congrArg (List.flatMap fun c : Bytes => c.drop headerLine.length) hcontents
      rw [List.flatMap_map, List.flatMap_map] at hflat
      rw [hflat, ← List.flatMap_id, List.flatMap_assoc]
      exact List.flatMap_congr fun group _ => htext group
    batches := hlayout.batches
    limited := fun l hl group hgroup hlong => by
      by_contra hlen
      exact absurd (hlayout.limited group hgroup (by omega) l hl) (not_le.mpr hlong)
    nonempty := hlayout.nonempty
    rolls := fun earlier w later hsplit => by
      subst hsplit
      obtain ⟨x₁, x₂, hearlier, hw⟩ := appendAll_split hrun
      refine ⟨x₁, x₂, hearlier, hw, ?_⟩
      have hrotating := rotating_of_runs hopen hearlier
      have hends := meets_appendBatchAt hrotating w x₁.1 (.inr trivial)
      change Ends _ _ _ (appendBatchAt w.1 w.2 x₁) at hends
      rw [hw] at hends
      exact hends.2.2 }

end crates

/-- Two rows that fit a segment, and one that does not. -/
def threeRows : List Write := [([timeoutRow], 0), ([timeoutRow], 1), ([timeoutRow], 2)]

open scoped Standard in
theorem three_rows_rotated : ∃ o o' : Output, ∃ files groups current,
    Layout (some 1410) 0 threeRows groups current ∧ o.folder.segments = files ∧
      files.map o.folder.content = (groups ++ [current]).map text ∧
      o'.folder.content o'.journal.file =
        headerLine ++ (groups ++ [current]).flatMap fun group => group.flatMap encodeBatch := by
  obtain ⟨j, io, d₀, io₂, o, hopen, hrun, -⟩ :=
    @of_runFrom _ .directory (some 1410) {} threeRows (by decide +kernel)
  obtain ⟨j', ie, e₀, ie₂, o', hopen', hrun', -⟩ :=
    @of_runFrom _ (.file "events.csv") none {} threeRows (by decide +kernel)
  obtain ⟨files, groups, current, hlayout, hfiles, hcontents, hfile⟩ :=
    rotation_layout hopen hrun (by simp) hopen' hrun'
  exact ⟨o, o', files, groups, current, hlayout, hfiles, hcontents, hfile⟩

/-- A row, a batch without rows, and a row of the next day. -/
def twoDays : List Write :=
  [([timeoutRow], 0), ([], 86400000000000), ([timeoutRow], 86400000000000)]

open scoped Standard in
theorem two_days_refine : ∃ o o' : Output, ∃ start files groups,
    Refines none 0 twoDays start [] files groups o
      ((o'.folder.content o'.journal.file).drop headerLine.length) ∧
    o.folder.segments.length = 2 := by
  obtain ⟨j, io, d₀, io₂, o, hopen, hrun, hresult⟩ :=
    @of_runFrom _ .directory none {} twoDays (by decide +kernel)
  obtain ⟨j', ie, e₀, ie₂, o', hopen', hrun', -⟩ :=
    @of_runFrom _ (.file "events.csv") none {} twoDays (by decide +kernel)
  obtain ⟨files, groups, hrefines⟩ := directory_refines_file hopen hrun (by simp) hopen' hrun'
  have hsegments : (runFrom .directory none {} twoDays).toOption.map
      (fun o => o.folder.segments.length) = some 2 := by decide +kernel
  rw [hresult] at hsegments
  exact ⟨o, o', _, files, groups, hrefines, Option.some.inj hsegments⟩

end Netband.Rotation

import Netband.Shelves

/-!
A directory of segments under processes that are killed at any time: they open a journal, append to
it and fail in any call, and what was not synced may be lost. Every batch that was acknowledged
stays whole in one segment, and what else a segment has is the beginning of one batch that failed.

The names of files are not lost, a file that was cut short does not grow back, and the lock of the
directory lets one process write at a time.
-/

namespace Netband.Survival

open Netband.Time Netband.Effects Netband.Lines Netband.Csv Netband.Journal Netband.Segments
open Netband.Tails Netband.Rotation Faulty

/-! ### Appending -/

lemma update_id (d : Folder) (file : ℕ) : d.update file id = d := by
  unfold Folder.update
  congr 1
  exact List.modify_id _ _

section appending
variable [Crates] {d : Folder} {j : Journal} {o : Output} {share : ℕ → Share}
  {acknowledged failed : List Batch} {file : ℕ}

lemma Writing.resting (hw : Writing d share j) (h : Shelf d share acknowledged failed) :
    Resting d share := by
  have hshare : share j.file = ⟨(share j.file).batches, []⟩ := by
    rw [← hw.uncut]
  intro f hf i hi
  obtain ⟨i', hi', -, hrests⟩ := h.files f hf
  obtain rfl := Option.some.inj (hi.symm.trans hi')
  rcases hrests with hrests | hactive
  · exact hrests
  · obtain rfl := hactive.unique hw.active
    obtain rfl := Option.some.inj (hi.symm.trans hw.content)
    rw [hshare]
    exact Share.rests_text _

/-- The last share among all. -/
lemma Shelf.split (h : Shelf d share acknowledged failed) {before : List ℕ}
    (hlast : d.segments = before ++ [file]) (s : Share) :
    d.segments.flatMap (fun f => (Function.update share file s f).batches) =
      before.flatMap (fun f => (share f).batches) ++ s.batches ∧
    d.segments.map (fun f => (Function.update share file s f).cut) =
      before.map (fun f => (share f).cut) ++ [s.cut] := by
  have hnot : ∀ f ∈ before, f ≠ file := by
    rintro f hf rfl
    have hnodup := h.nodup
    rw [hlast] at hnodup
    exact List.disjoint_of_nodup_append hnodup hf (by simp)
  rw [hlast]
  constructor
  · rw [List.flatMap_append]
    congr 1
    · refine List.flatMap_congr fun f hf => ?_
      rw [Function.update_of_ne (hnot f hf)]
    · simp
  · rw [List.map_append]
    congr 1
    · refine List.map_congr_left fun f hf => ?_
      rw [Function.update_of_ne (hnot f hf)]
    · simp

/-- A batch is written to the last segment, in part. -/
lemma Shelf.cut (h : Shelf d share acknowledged failed) (hw : Writing d share j) {batch : Batch}
    {g : Inode → Inode} {p : Bytes} (hp : p <+: encodeBatch batch)
    (hg : ∀ i, (g i).content = i.content ++ p ∧ min i.content.length i.synced ≤ (g i).synced) :
    ∃ share', Shelf (d.update j.file g) share' acknowledged (failed ++ [batch]) := by
  obtain ⟨before, hlast⟩ := hw.last
  obtain ⟨hbatches, hcuts⟩ := h.split hlast ⟨(share j.file).batches, batch⟩
  obtain ⟨hold, hold'⟩ := h.split hlast (share j.file)
  rw [Function.update_eq_self] at hold hold'
  refine ⟨_, h.edit (s := ⟨(share j.file).batches, batch⟩) hw.active (fun i hi _ => ?_) ?_ ?_⟩
  · obtain rfl := Option.some.inj (hi.symm.trans hw.content)
    obtain ⟨hcontent, hsynced⟩ := hg ⟨text (share j.file).batches, _⟩
    exact ⟨p, hp, hcontent, by simpa using hsynced⟩
  · rw [hbatches, ← h.batches, hold]
  · have hsub := h.cuts
    rw [hold', hw.uncut] at hsub
    rw [hcuts, List.filter_append]
    refine List.Sublist.append (by simpa using hsub) (List.filter_sublist)

/-- A batch is written to the last segment and synced. -/
lemma Shelf.write (h : Shelf d share acknowledged failed) (hw : Writing d share j) {batch : Batch}
    {g : Inode → Inode} (hg : ∀ i, i.synced = i.content.length →
      g i = ⟨i.content ++ encodeBatch batch, (i.content ++ encodeBatch batch).length⟩) :
    ∃ share', Shelf (d.update j.file g) share' (acknowledged ++ [batch]) failed ∧
      ∀ j' : Journal, j'.file = j.file → j'.directory.isSome = true →
        Writing (d.update j.file g) share' j' := by
  obtain ⟨before, hlast⟩ := hw.last
  let s : Share := ⟨(share j.file).batches ++ [batch], []⟩
  obtain ⟨hbatches, hcuts⟩ := h.split hlast s
  obtain ⟨hold, hold'⟩ := h.split hlast (share j.file)
  rw [Function.update_eq_self] at hold hold'
  have hwritten : g ⟨text (share j.file).batches, (text (share j.file).batches).length⟩ =
      ⟨text s.batches, (text s.batches).length⟩ := by
    rw [hg _ rfl, ← text_concat]
  refine ⟨Function.update share j.file s, h.edit hw.active (fun i hi _ => ?_) ?_ ?_,
    fun j' hj' hdirectory => ?_⟩
  · obtain rfl := Option.some.inj (hi.symm.trans hw.content)
    rw [hwritten]
    exact (Share.rests_text s.batches).holds
  · rw [hbatches, ← h.batches, hold, List.append_assoc]
  · have hsub := h.cuts
    rw [hold', hw.uncut] at hsub
    rwa [hcuts]
  · obtain ⟨directory, hdirectory⟩ := Option.isSome_iff_exists.mp hdirectory
    exact {
      last := ⟨before, by rw [hj']; exact hlast⟩
      active := by
        rw [hj']
        exact h.active_update hw.active _ hw.active
      content := by
        rw [hj', Function.update_self, Folder.inodes_update, if_pos rfl, hw.content,
          Option.map_some, hwritten]
      uncut := by rw [hj', Function.update_self]
      directory := ⟨directory, hdirectory⟩ }

/-- The open journal with the shares of its directory, after an append that returned. -/
def Appended (acknowledged failed : List Batch) (o : Output) : Prop :=
  ∃ share, Shelf o.folder share acknowledged failed ∧ Writing o.folder share o.journal

def Shelved (acknowledged failed : List Batch) (d : Folder) : Prop :=
  ∃ share, Shelf d share acknowledged failed

lemma meets_writeBatch (h : Shelf o.folder share acknowledged failed)
    (hw : Writing o.folder share o.journal) (batch : Batch) :
    Meets True o (writeBatch (encodeBatch batch))
      (fun _ o' => o'.journal = o.journal ∧ ∃ share',
        Shelf o'.folder share' (acknowledged ++ [batch]) failed ∧
        ∀ j' : Journal, j'.file = o.journal.file → j'.directory.isSome = true →
          Writing o'.folder share' j')
      fun _ o' => Shelved acknowledged (failed ++ [batch]) o'.folder := by
  have hsame : Shelved acknowledged (failed ++ [batch]) o.folder :=
    ⟨share, { h with cuts := h.cuts.trans (List.sublist_append_left _ _) }⟩
  have hcut : ∀ k, Shelved acknowledged (failed ++ [batch])
      (o.folder.append o.journal.file ((encodeBatch batch).take k)) :=
    fun k => h.cut hw (List.take_prefix k _) fun i => ⟨rfl, min_le_right _ _⟩
  refine meets_bind (meets_get (meets_bind (meets_onFolder ?_)))
  refine meets_writeAll (fun _ => ?_) (fun _ _ => hsame) fun _ k _ => hcut k
  refine meets_onFolder (meets_syncData ⟨rfl, ?_⟩ fun _ _ => ?_)
  · rw [Folder.sync, Folder.append, update_update]
    exact h.write hw fun i _ => rfl
  · have hall := hcut (encodeBatch batch).length
    rwa [List.take_length] at hall

/-- **A batch**: it is acknowledged, or the beginning of it may be left. -/
lemma meets_append (h : Shelf o.folder share acknowledged failed)
    (hw : Writing o.folder share o.journal) (batch : Batch) (now : ℤ) :
    Meets True o (append batch now) (fun _ => Appended (acknowledged ++ [batch]) failed)
      fun _ o' => Shelved acknowledged (failed ++ [batch]) o'.folder := by
  have hfailed : ∀ {d : Folder} {share'}, Shelf d share' acknowledged failed →
      Shelved acknowledged (failed ++ [batch]) d := fun {d share'} h =>
    ⟨share', { h with cuts := h.cuts.trans (List.sublist_append_left _ _) }⟩
  have hwrite : ∀ {o' : Output} {share'}, Shelf o'.folder share' acknowledged failed →
      Writing o'.folder share' o'.journal → Meets True o' (do
        writeBatch (encodeBatch batch)
        edit fun j => { j with bytes := j.bytes + (encodeBatch batch).length, hasEvents := true })
      (fun _ => Appended (acknowledged ++ [batch]) failed)
      fun _ o' => Shelved acknowledged (failed ++ [batch]) o'.folder := by
    intro o' share' h hw
    refine meets_bind (meets_mono (meets_writeBatch h hw batch) (fun _ o₁ h₁ => ?_)
      fun _ _ he => he)
    obtain ⟨hjournal, share₁, h₁, hw₁⟩ := h₁
    obtain ⟨directory, hdirectory⟩ := hw.directory
    refine meets_modify ⟨share₁, h₁, hw₁ _ ?_ ?_⟩
    · rw [hjournal]
    · rw [hjournal, hdirectory]
      rfl
  refine meets_bind (meets_get ?_)
  obtain ⟨directory, hdirectory⟩ := hw.directory
  split_ifs with hempty
  · have hid : ∀ i : Inode, i.synced = i.content.length →
        id i = ⟨i.content ++ encodeBatch batch, (i.content ++ encodeBatch batch).length⟩ := by
      rintro ⟨content, synced⟩ hi
      obtain rfl : synced = content.length := hi
      simp [hempty, encodeBatch]
    obtain ⟨share', hwritten, hwriting⟩ := h.write hw hid
    rw [update_id] at hwritten hwriting
    exact meets_pure ⟨share', hwritten, hwriting _ rfl (by rw [hdirectory]; rfl)⟩
  · rw [hdirectory]
    dsimp only
    by_cases hr : rotates o.journal directory (encodeBatch batch) now = true
    · rw [if_pos hr]
      -- the old segment is synced, and so rests when the new one comes
      have hsynced : Shelf (o.folder.sync o.journal.file) share acknowledged failed :=
        h.edit_same hw.active fun i hi hholds => hholds.sync
      have hrest : Resting (o.folder.sync o.journal.file) share := by
        have hall := h.resting_edit (s := share o.journal.file) hw.active
          fun i hi => (hw.resting h _ (h.marks hw.active.choose_spec).2.1 i hi).sync
        rwa [Function.update_eq_self] at hall
      refine meets_bind (meets_bind (meets_get (meets_bind (meets_onFolder ?_))))
      refine meets_syncData ?_ fun _ _ => hfailed h
      refine meets_bind (meets_onFolder ?_)
      refine meets_mono (meets_create hsynced hrest now) (fun r d' hd => ?_)
        fun _ _ he => hfailed he
      obtain ⟨hshelf, hwriting⟩ := hd
      refine meets_bind (meets_modify (meets_bind (meets_onFolder ?_)))
      refine meets_metadataLen (meets_modify ?_) fun _ _ => hfailed hshelf
      exact hwrite hshelf (hwriting _ rfl _ rfl)
    · rw [if_neg hr]
      exact hwrite h hw

lemma meets_appendBatchAt (h : Appended acknowledged failed o)
    (hhealthy : o.journal.poisoned = false) (batch : Batch) (now : ℤ) :
    Meets True o (appendBatchAt batch now) (fun _ => Appended (acknowledged ++ [batch]) failed)
      fun _ o' => o'.journal.poisoned = true ∧
        Shelved acknowledged (failed ++ [batch]) o'.folder := by
  obtain ⟨share, h, hw⟩ := h
  refine meets_guarded hhealthy (meets_mono (meets_append h hw batch now) (fun _ o' h' => ?_)
    fun _ _ he => ⟨rfl, he⟩)
  obtain ⟨share', h', hw'⟩ := h'
  exact ⟨share', h', ⟨hw'.last, hw'.active, hw'.content, hw'.uncut, hw'.directory⟩⟩

/-- **A flush** changes nothing. -/
lemma meets_flush (h : Appended acknowledged failed o) (hhealthy : o.journal.poisoned = false) :
    Meets True o flush (fun _ => Appended acknowledged failed)
      fun _ o' => o'.journal.poisoned = true ∧ Shelved acknowledged failed o'.folder := by
  obtain ⟨share, h, hw⟩ := h
  refine meets_guarded hhealthy (meets_bind (meets_get (meets_onFolder (meets_syncData ?_
    fun _ _ => ⟨rfl, share, h⟩))))
  refine ⟨share, h.edit_same hw.active fun i hi hholds => hholds.sync, ?_⟩
  exact {
    last := hw.last
    active := h.active_update hw.active _ hw.active
    content := by
      rw [Folder.sync, Folder.inodes_update, if_pos rfl, hw.content]
      rfl
    uncut := hw.uncut
    directory := hw.directory }

end appending

/-! ### Crashes -/

/-- What a crash leaves of a directory, with so many bytes kept of each file. -/
def crash (kept : ℕ → ℕ) (d : Folder) : Folder := { d with
  inodes := d.inodes.mapIdx fun f i => crashed (kept f) i
  there := by simpa using d.there }

lemma inodes_crash (kept : ℕ → ℕ) (d : Folder) (f : ℕ) :
    (crash kept d).inodes[f]? = d.inodes[f]?.map (crashed (kept f)) := by
  simp [crash]

section crashes
variable [Crates] {d : Folder} {share : ℕ → Share} {acknowledged failed : List Batch}

lemma Shelf.active_crash (h : Shelf d share acknowledged failed) (kept : ℕ → ℕ) {f : ℕ}
    (hf : Active d f) : Active (crash kept d) f := by
  obtain ⟨name, hmarks⟩ := hf
  obtain ⟨hsegment, -, m, hm, -, htext, hfile⟩ := h.marks hmarks
  refine ⟨name, m, hm, ?_, hfile⟩
  rw [Folder.content, inodes_crash, htext, Option.map_some, crashed_of_synced le_rfl]
  exact hsegment.markedName_eq

/-- **A crash** takes nothing that was acknowledged. -/
lemma Shelf.crash (h : Shelf d share acknowledged failed) (kept : ℕ → ℕ) :
    Shelf (crash kept d) share acknowledged failed where
  files f hf := by
    obtain ⟨i, hi, hholds, hrests⟩ := h.files f hf
    refine ⟨crashed (kept f) i, by rw [inodes_crash, hi, Option.map_some], hholds.crash _, ?_⟩
    exact hrests.imp (fun hrests => hrests.crash _) (h.active_crash kept)
  unused := h.unused
  named := ⟨h.named.named, h.named.only, h.named.unique⟩
  nodup := h.nodup
  batches := h.batches
  cuts := h.cuts
  marker m hm := by
    obtain ⟨hnot, name, hsegment, htext, hfile⟩ := h.marker m hm
    refine ⟨hnot, name, hsegment, ?_, hfile⟩
    rw [inodes_crash, htext, Option.map_some, crashed_of_synced le_rfl]
  temp := h.temp

end crashes

/-! ### Runs -/

/-- What happens to a directory: a process opens a journal on it, writes a batch, flushes, ends, or
is killed. Each list says how the calls end. -/
inductive Event
  | opened (limit : Option ℕ) (now : ℤ) (io : List Io)
  | appended (batch : Batch) (now : ℤ) (io : List Io)
  | flushed (io : List Io)
  | closed
  | crashed (kept : ℕ → ℕ)

/-- A directory, the journal that is open on it, and what became of the batches so far. -/
structure Machine where
  folder : Folder := {}
  journal : Option Journal := none
  acknowledged : List Batch := []
  failed : List Batch := []

/-- A journal that has failed does nothing. -/
lemma guarded_of_poisoned (c : Faulty Output JournalError Unit) (io : List Io) {o : Output}
    (h : o.journal.poisoned = true) : ∃ e, guarded c (io, o) = (.error e, io, o) := by
  refine ⟨.io "journal failed; reopen and recover before writing again", ?_⟩
  change Faulty.bind (ensure (o.journal.poisoned = false) _) _ (io, o) = _
  rw [ensure, if_neg (by simp [h])]
  rfl

/-- A call that fails fails the journal. -/
lemma poisoned_of_failed (c : Faulty Output JournalError Unit) (x : List Io × Output)
    (h : (guarded c x).1.isOk = false) : (guarded c x).2.2.journal.poisoned = true := by
  obtain ⟨io, o⟩ := x
  cases hp : o.journal.poisoned with
  | true =>
    obtain ⟨e, hr⟩ := guarded_of_poisoned c io hp
    rw [hr]
    exact hp
  | false =>
    have hr : guarded c (io, o) = ((c (io, o)).1, (c (io, o)).2.1, { (c (io, o)).2.2 with
        journal := { (c (io, o)).2.2.journal with poisoned := !(c (io, o)).1.isOk } }) := by
      change Faulty.bind (ensure (o.journal.poisoned = false) _) _ (io, o) = _
      rw [ensure, if_pos hp]
      rfl
    rw [hr] at h ⊢
    simpa using h

section runs
variable [Crates]

def step (m : Machine) : Event → Machine
  | .opened limit now io =>
    -- the lock of an open journal keeps others out
    if m.journal.isSome then m
    else
      match openAt .directory limit now (io, m.folder) with
      | (.ok j, _, d) => { m with folder := d, journal := some j }
      | (.error _, _, d) => { m with folder := d }
  | .appended batch now io =>
    match m.journal with
    | none => m
    | some j =>
      match appendBatchAt batch now (io, ⟨j, m.folder⟩) with
      | (.ok (), _, o) => { m with
        folder := o.folder
        journal := some o.journal
        acknowledged := m.acknowledged ++ [batch] }
      | (.error _, _, o) => { m with
        folder := o.folder
        journal := some o.journal
        failed := m.failed ++ [batch] }
  | .flushed io =>
    match m.journal with
    | none => m
    | some j => { m with
      folder := (flush (io, ⟨j, m.folder⟩)).2.2.folder
      journal := some (flush (io, ⟨j, m.folder⟩)).2.2.journal }
  | .closed => { m with journal := none }
  | .crashed kept => { m with folder := crash kept m.folder, journal := none }

def run (events : List Event) : Machine := events.foldl step {}

/-- The directory has what was acknowledged, and a journal that has not failed writes after it. -/
structure Good (m : Machine) : Prop where
  shelved : Shelved m.acknowledged m.failed m.folder
  writing : ∀ j ∈ m.journal, j.poisoned = false → Appended m.acknowledged m.failed ⟨j, m.folder⟩

lemma Good.of_poisoned {m : Machine} (h : Shelved m.acknowledged m.failed m.folder)
    (hj : ∀ j ∈ m.journal, j.poisoned = true) : Good m where
  shelved := h
  writing j hmem hhealthy := by
    rw [hj j hmem] at hhealthy
    cases hhealthy

lemma Good.of_appended {m : Machine} {j : Journal} (hj : m.journal = some j)
    (h : Appended m.acknowledged m.failed ⟨j, m.folder⟩) : Good m where
  shelved := by
    obtain ⟨share, h, -⟩ := h
    exact ⟨share, h⟩
  writing j' hmem _ := by
    rw [hj] at hmem
    obtain rfl := Option.mem_some.mp hmem
    exact h

/-- A journal that has failed changes nothing. -/
lemma stays_of_poisoned {m : Machine} {j : Journal} (hj : m.journal = some j)
    (hp : j.poisoned = true) (batch : Batch) (now : ℤ) (io : List Io) :
    step m (.appended batch now io) = { m with failed := m.failed ++ [batch] } ∧
      step m (.flushed io) = m := by
  obtain ⟨e, hr⟩ := guarded_of_poisoned (append batch now) io (o := ⟨j, m.folder⟩) hp
  obtain ⟨e', hr'⟩ := guarded_of_poisoned (do
    let o ← get
    onFolder (syncData o.journal.file)) io (o := ⟨j, m.folder⟩) hp
  obtain ⟨folder, journal, acknowledged, failed⟩ := m
  obtain rfl : journal = some j := hj
  simp only [step, appendBatchAt, flush]
  rw [hr, hr']
  exact ⟨rfl, rfl⟩

section steps
variable {m : Machine}

lemma good_opened (h : Good m) (hnone : m.journal = none) (limit : Option ℕ) (now : ℤ)
    (io : List Io) : Good (step m (.opened limit now io)) := by
  obtain ⟨share, hshelf⟩ := h.shelved
  have hopen := meets_open hshelf limit now io (.inr trivial)
  simp only [step, hnone, Option.isSome_none]
  rcases hr : openAt .directory limit now (io, m.folder) with ⟨e | j, io', d⟩
  · rw [hr] at hopen
    exact .of_poisoned ⟨share, hopen⟩ (by simp)
  · rw [hr] at hopen
    exact .of_appended rfl ⟨share, hopen.2⟩

lemma good_appended (h : Good m) {j : Journal} (hj : m.journal = some j) (batch : Batch) (now : ℤ)
    (io : List Io) : Good (step m (.appended batch now io)) := by
  cases hp : j.poisoned with
  | true =>
    rw [(stays_of_poisoned hj hp batch now io).1]
    obtain ⟨share, hshelf⟩ := h.shelved
    refine .of_poisoned ⟨share, { hshelf with
      cuts := hshelf.cuts.trans (List.sublist_append_left _ _) }⟩ fun j' hj' => ?_
    obtain rfl := Option.some.inj (hj.symm.trans hj')
    exact hp
  | false =>
    simp only [step, hj]
    have happend := meets_appendBatchAt (h.writing j hj hp) hp batch now io (.inr trivial)
    rcases hr : appendBatchAt batch now (io, ⟨j, m.folder⟩) with ⟨e | _, io', o⟩
    · rw [hr] at happend
      refine .of_poisoned happend.2 fun j' hj' => ?_
      obtain rfl := Option.mem_some.mp hj'
      exact happend.1
    · rw [hr] at happend
      exact .of_appended rfl happend.2

lemma good_flushed (h : Good m) {j : Journal} (hj : m.journal = some j) (io : List Io) :
    Good (step m (.flushed io)) := by
  cases hp : j.poisoned with
  | true =>
    rwa [(stays_of_poisoned hj hp [] 0 io).2]
  | false =>
    simp only [step, hj]
    have hflush := meets_flush (h.writing j hj hp) hp io (.inr trivial)
    rcases hr : flush (io, ⟨j, m.folder⟩) with ⟨e | _, io', o⟩
    · rw [hr] at hflush
      refine .of_poisoned hflush.2 fun j' hj' => ?_
      obtain rfl := Option.mem_some.mp hj'
      exact hflush.1
    · rw [hr] at hflush
      exact .of_appended rfl hflush.2

lemma Good.step (h : Good m) (e : Event) : Good (step m e) := by
  cases e with
  | opened limit now io =>
    cases hj : m.journal with
    | none => exact good_opened h hj limit now io
    | some j => simpa [Survival.step, hj] using h
  | appended batch now io =>
    cases hj : m.journal with
    | none => simpa [Survival.step, hj] using h
    | some j => exact good_appended h hj batch now io
  | flushed io =>
    cases hj : m.journal with
    | none => simpa [Survival.step, hj] using h
    | some j => exact good_flushed h hj io
  | closed => exact .of_poisoned h.shelved (by simp [Survival.step])
  | crashed kept =>
    obtain ⟨share, hshelf⟩ := h.shelved
    exact .of_poisoned ⟨share, hshelf.crash kept⟩ (by simp [Survival.step])

end steps

lemma good_run (events : List Event) : Good (run events) := by
  induction events using List.reverseRecOn with
  | nil => exact .of_poisoned ⟨_, shelf_empty⟩ (by simp [run])
  | append_singleton events e ih =>
    rw [run, List.foldl_append]
    exact ih.step e

/-- What a directory has after a run: each acknowledged batch is whole in one segment, in order.
What else a segment has is the beginning of one batch that failed; only the segment that the marker
names, and only while no journal is open that has not failed, may end within a record. A call that
fails fails the journal, and a journal that has failed writes nothing more. -/
structure Survives (m : Machine) (share : ℕ → Share) : Prop where
  named : Named m.folder
  nodup : m.folder.segments.Nodup
  batches : m.folder.segments.flatMap (fun f => (share f).batches) = m.acknowledged
  cuts : ((m.folder.segments.map fun f => (share f).cut).filter (· ≠ [])).Sublist m.failed
  contents : ∀ f ∈ m.folder.segments, ∃ p, p <+: encodeBatch (share f).cut ∧
    m.folder.content f = text (share f).batches ++ p
  whole : ∀ f ∈ m.folder.segments,
    Recovered (share f).batches.flatten (share f).cut (m.folder.content f) ∨
      Active m.folder f ∧ ∀ j ∈ m.journal, j.poisoned = true
  fails : ∀ j ∈ m.journal, ∀ (batch : Batch) (now : ℤ) (io : List Io),
    ((appendBatchAt batch now (io, ⟨j, m.folder⟩)).1.isOk = false →
      (appendBatchAt batch now (io, ⟨j, m.folder⟩)).2.2.journal.poisoned = true) ∧
    ((flush (io, ⟨j, m.folder⟩)).1.isOk = false →
      (flush (io, ⟨j, m.folder⟩)).2.2.journal.poisoned = true)
  silent : ∀ j ∈ m.journal, j.poisoned = true → ∀ (batch : Batch) (now : ℤ) (io : List Io),
    (step m (.appended batch now io)).folder = m.folder ∧ (step m (.flushed io)).folder = m.folder

/-- **Survival**: whatever happens to a directory, it has what was acknowledged. -/
theorem acknowledged_survive (events : List Event) :
    ∃ share : ℕ → Share, Survives (run events) share := by
  have hgood := good_run events
  have hall : ∃ share, Shelf (run events).folder share (run events).acknowledged
      (run events).failed ∧ ((∃ j ∈ (run events).journal, j.poisoned = false) →
        Resting (run events).folder share) := by
    by_cases hj : ∃ j ∈ (run events).journal, j.poisoned = false
    · obtain ⟨j, hj, hhealthy⟩ := hj
      obtain ⟨share, hshelf, hw⟩ := hgood.writing j hj hhealthy
      exact ⟨share, hshelf, fun _ => hw.resting hshelf⟩
    · obtain ⟨share, hshelf⟩ := hgood.shelved
      exact ⟨share, hshelf, fun h => absurd h hj⟩
  obtain ⟨share, hshelf, hrest⟩ := hall
  have hfile : ∀ f ∈ (run events).folder.segments, ∃ i, (run events).folder.inodes[f]? = some i ∧
      (share f).Holds i ∧ ((share f).Rests i ∨ Active (run events).folder f) ∧
      (run events).folder.content f = i.content := by
    intro f hf
    obtain ⟨i, hi, hholds, hrests⟩ := hshelf.files f hf
    exact ⟨i, hi, hholds, hrests, by rw [Folder.content, hi]; rfl⟩
  exact ⟨share, {
    named := hshelf.named
    nodup := hshelf.nodup
    batches := hshelf.batches
    cuts := hshelf.cuts
    contents := fun f hf => by
      obtain ⟨i, -, ⟨p, hp, htext, -⟩, -, hcontent⟩ := hfile f hf
      exact ⟨p, hp, by rw [hcontent, htext]⟩
    whole := fun f hf => by
      obtain ⟨i, hi, -, hrests, hcontent⟩ := hfile f hf
      rw [hcontent]
      by_cases hj : ∃ j ∈ (run events).journal, j.poisoned = false
      · exact .inl (hrest hj f hf i hi).recovered
      · refine hrests.imp (fun hrests => hrests.recovered) fun hactive =>
          ⟨hactive, fun j hmem => ?_⟩
        by_contra hhealthy
        exact hj ⟨j, hmem, by simpa using hhealthy⟩
    fails := fun j _ batch now io =>
      ⟨poisoned_of_failed (append batch now) (io, ⟨j, (run events).folder⟩),
        poisoned_of_failed _ (io, ⟨j, (run events).folder⟩)⟩
    silent := fun j hj hp batch now io => by
      obtain ⟨happend, hflush⟩ := stays_of_poisoned hj hp batch now io
      rw [happend, hflush]
      exact ⟨rfl, rfl⟩ }⟩

end runs

/-- A process is killed within its second batch. -/
def interrupted : List Event :=
  [.opened none 0 [], .appended [timeoutRow] 1 [], .appended [timeoutRow] 2 [.failed 20],
   .crashed fun _ => 2000]

open scoped Standard in
theorem interrupted_survives : ∃ share, Survives (run interrupted) share ∧
    (run interrupted).acknowledged = [[timeoutRow]] ∧
    (run interrupted).failed = [[timeoutRow]] := by
  obtain ⟨share, h⟩ := acknowledged_survive interrupted
  exact ⟨share, h, by decide +kernel, by decide +kernel⟩

end Netband.Survival

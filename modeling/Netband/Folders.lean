import Netband.Segments
import Netband.Spans

/-!
What the calls on a directory do: to the contents of its files, and as steps of a computation.
-/

namespace Netband.Segments

open Netband.Time Netband.State Netband.Effects Netband.Lines Netband.Journal Faulty

lemma getElem?_insert_name (entries : BTreeMap String ℕ) (name n : String) (file : ℕ) :
    (entries.insert name file)[n]? = if n = name then some file else entries[n]? := by
  rw [Std.ExtTreeMap.getElem?_insert]
  by_cases h : n = name
  · simp [h]
  · rw [if_neg h, if_neg (by simpa [compare_eq_iff_eq] using Ne.symm h)]

lemma getElem?_erase_name (entries : BTreeMap String ℕ) (name n : String) :
    (entries.erase name)[n]? = if n = name then none else entries[n]? := by
  rw [Std.ExtTreeMap.getElem?_erase]
  by_cases h : n = name
  · simp [h]
  · rw [if_neg h, if_neg (by simpa [compare_eq_iff_eq] using Ne.symm h)]

namespace Folder

variable (d : Folder) (file other : ℕ) (bytes : Bytes) (name : String)

/-! ### Contents -/

lemma content_update (f : Inode → Inode) : (d.update file f).content other =
    if file = other then (d.inodes[other]?.map fun i => (f i).content).getD []
    else d.content other := by
  unfold content update
  rw [List.getElem?_modify]
  split_ifs with h
  · cases d.inodes[other]? <;> rfl
  · simp

lemma content_of_le (h : d.inodes.length ≤ file) : d.content file = [] := by
  simp [content, List.getElem?_eq_none h]

@[simp] lemma content_append_self (h : file < d.inodes.length) :
    (d.append file bytes).content file = d.content file ++ bytes := by
  rw [append, content_update, if_pos rfl]
  simp [content, h]

lemma content_append_ne (h : other ≠ file) :
    (d.append file bytes).content other = d.content other := by
  rw [append, content_update, if_neg h.symm]

@[simp] lemma content_sync : (d.sync file).content other = d.content other := by
  rw [sync, content_update]
  split_ifs with h
  · rfl
  · rfl

@[simp] lemma content_truncate_self (length : ℕ) :
    (d.truncate file length).content file = (d.content file).take length := by
  rw [truncate, content_update, if_pos rfl, content]
  cases d.inodes[file]? <;> simp

@[simp] lemma content_create : (d.create name).content other = d.content other := by
  unfold content create
  rcases lt_trichotomy other d.inodes.length with h | h | h
  · simp [List.getElem?_append_left h]
  · simp [h]
  · rw [List.getElem?_append_right h.le, List.getElem?_eq_none h.le]
    rw [List.getElem?_eq_none (by simp; omega)]

/-! ### Files and names -/

lemma inodes_update (f : Inode → Inode) : (d.update file f).inodes[other]? =
    if file = other then d.inodes[other]?.map f else d.inodes[other]? := by
  rw [update, List.getElem?_modify]
  split_ifs
  · rfl
  · simp

@[simp] lemma length_update (f : Inode → Inode) :
    (d.update file f).inodes.length = d.inodes.length := by
  simp [update]

@[simp] lemma entries_update (f : Inode → Inode) : (d.update file f).entries = d.entries := rfl
@[simp] lemma segments_update (f : Inode → Inode) : (d.update file f).segments = d.segments := rfl

@[simp] lemma length_create : (d.create name).inodes.length = d.inodes.length + 1 := by
  simp [create]

lemma inodes_create (h : other < d.inodes.length) :
    (d.create name).inodes[other]? = d.inodes[other]? := by
  rw [create, List.getElem?_append_left h]

lemma inodes_create_self : (d.create name).inodes[d.inodes.length]? = some {} := by
  simp [create]

lemma entries_create (n : String) : (d.create name).entries[n]? =
    if n = name then some d.inodes.length else d.entries[n]? :=
  getElem?_insert_name d.entries name n _

lemma entries_remove (n : String) :
    (d.remove name).entries[n]? = if n = name then none else d.entries[n]? :=
  getElem?_erase_name d.entries name n

variable {d file} in
lemma publish_eq (h : file < d.inodes.length) :
    (d.publish file name).inodes = d.inodes ∧
      (d.publish file name).segments = d.segments ++ [file] ∧
      ∀ n, (d.publish file name).entries[n]? = if n = name then some file else d.entries[n]? := by
  rw [publish, dif_pos h]
  exact ⟨rfl, rfl, fun n => getElem?_insert_name d.entries name n file⟩

variable {d file name} in
lemma rename_eq (h : d.entries[name]? = some file) (target : String) :
    (d.rename name target).inodes = d.inodes ∧ (d.rename name target).segments = d.segments ∧
      ∀ n, (d.rename name target).entries[n]? =
        if n = target then some file else if n = name then none else d.entries[n]? := by
  unfold rename
  split
  · rename_i found hfound
    obtain rfl : file = found := Option.some.inj (h.symm.trans hfound)
    refine ⟨rfl, rfl, fun n => ?_⟩
    rw [getElem?_insert_name, getElem?_erase_name]
  · rename_i hnone
    rw [h] at hnone
    cases hnone

end Folder

/-! ### Calls -/

section calls
variable {faults : Prop} {d : Folder} {file : ℕ} {name : String} {E : JournalError → Folder → Prop}

lemma meets_inspect {e : JournalError} {Q : Unit → Folder → Prop} (hok : Q () d)
    (herr : faults → ∀ e, E e d) : Meets faults d (inspect e) Q E := by
  refine meets_bind (meets_nextIo (meets_pure hok) fun hf k => ?_)
  exact meets_fail (herr hf e)

lemma meets_atomically {f : Folder → Folder} {e : JournalError} {Q : Unit → Folder → Prop}
    (hok : Q () (f d)) (hnot : faults → ∀ e, E e d) (herr : faults → ∀ e, E e (f d)) :
    Meets faults d (atomically f e) Q E := by
  refine meets_bind (meets_nextIo (meets_modify hok) fun hf k => ?_)
  cases k with
  | zero => exact meets_fail (hnot hf e)
  | succ k => exact meets_bind (meets_modify (meets_fail (herr hf e)))

lemma meets_require {α : Type} {o : Option α} {e : JournalError} {Q : α → Folder → Prop}
    (hok : ∀ a, o = some a → Q a d) (herr : o = none → E e d) :
    Meets faults d (ofExcept (require o e)) Q E := by
  cases o with
  | none => exact meets_ofExcept (by rintro a ⟨⟩) fun e he => by cases he; exact herr rfl
  | some a => exact meets_ofExcept (fun b hb => by cases hb; exact hok a rfl) (by rintro e ⟨⟩)

lemma meets_regularOrMissing {Q : Bool → Folder → Prop} (hok : Q (d.entries.contains name) d)
    (herr : faults → ∀ e, E e d) : Meets faults d (regularOrMissing name) Q E :=
  meets_bind (meets_inspect (meets_bind (meets_get (meets_pure hok))) herr)

lemma meets_openFile {Q : ℕ → Folder → Prop}
    (hok : ∀ file, d.entries[name]? = some file → Q file d)
    (hnone : d.entries[name]? = none → ∀ e, E e d) (herr : faults → ∀ e, E e d) :
    Meets faults d (openFile name) Q E :=
  meets_bind (meets_inspect (meets_bind (meets_get (meets_require hok fun h => hnone h _))) herr)

lemma meets_createNew {Q : ℕ → Folder → Prop}
    (hok : name ∉ d.entries → Q d.inodes.length (d.create name))
    (hthere : name ∈ d.entries → ∀ e, E e d) (herr : faults → ∀ e, E e d)
    (hlate : faults → name ∉ d.entries → ∀ e, E e (d.create name)) :
    Meets faults d (createNew name) Q E := by
  refine meets_bind (meets_get (meets_bind (meets_ensure (fun hnew => ?_)
    fun h => hthere (not_not.mp h) _)))
  exact meets_bind (meets_atomically (meets_pure (hok hnew)) herr fun hf => hlate hf hnew)

lemma meets_openOrCreate {Q : ℕ → Folder → Prop}
    (hopen : ∀ file, d.entries[name]? = some file → Q file d)
    (hcreate : name ∉ d.entries → Q d.inodes.length (d.create name))
    (herr : faults → ∀ e, E e d)
    (hlate : faults → name ∉ d.entries → ∀ e, E e (d.create name)) :
    Meets faults d (openOrCreate name) Q E := by
  refine meets_bind (meets_get ?_)
  split_ifs with h
  · refine meets_openFile hopen (fun hnone => ?_) herr
    rw [Std.ExtTreeMap.mem_iff_isSome_getElem?, hnone] at h
    cases h
  · exact meets_createNew hcreate (fun h' => absurd h' h) herr hlate

/-- What follows is the same, whether the file is new. -/
lemma meets_opened {α : Type} {k : ℕ → Op α} {Q : α → Folder → Prop}
    (h : ∀ d', d' = d ∨ d' = d.create name → ∀ x, Meets faults d' (k x) Q E)
    (herr : faults → ∀ e, E e d) (hlate : faults → ∀ e, E e (d.create name)) :
    Meets faults d (openOrCreate name >>= k) Q E :=
  meets_bind (meets_openOrCreate (fun x _ => h d (.inl rfl) x) (fun _ => h _ (.inr rfl) _) herr
    fun hf _ => hlate hf)

lemma meets_readContent {Q : Bytes → Folder → Prop} (hok : Q (d.content file) d)
    (herr : faults → ∀ e, E e d) : Meets faults d (readContent file) Q E :=
  meets_bind (meets_inspect (meets_bind (meets_get (meets_pure hok))) herr)

lemma meets_metadataLen {Q : ℕ → Folder → Prop} (hok : Q (d.content file).length d)
    (herr : faults → ∀ e, E e d) : Meets faults d (metadataLen file) Q E :=
  meets_bind (meets_readContent (meets_pure hok) herr)

lemma meets_writeAll {bytes : Bytes} {Q : Unit → Folder → Prop}
    (hok : (d.content file).length + bytes.length ≤ u64Max → Q () (d.append file bytes))
    (hlong : u64Max < (d.content file).length + bytes.length → ∀ e, E e d)
    (herr : faults → ∀ k e, E e (d.append file (bytes.take k))) :
    Meets faults d (writeAll file bytes) Q E := by
  refine meets_bind (meets_get (meets_bind (meets_ensure (fun hfits => ?_)
    fun h => hlong (not_le.mp h) _)))
  refine meets_bind (meets_nextIo (meets_modify (hok hfits)) fun hf k => ?_)
  exact meets_bind (meets_modify (meets_fail (herr hf k _)))

lemma meets_syncData {Q : Unit → Folder → Prop} (hok : Q () (d.sync file))
    (herr : faults → ∀ e, E e d) : Meets faults d (syncData file) Q E :=
  meets_bind (meets_inspect (meets_modify hok) herr)

lemma meets_hardLink {Q : Bool → Folder → Prop}
    (hfree : name ∉ d.entries → Q true (d.publish file name))
    (htaken : name ∈ d.entries → Q false d) (herr : faults → ∀ e, E e d)
    (hlate : faults → name ∉ d.entries → ∀ e, E e (d.publish file name)) :
    Meets faults d (hardLink file name) Q E := by
  refine meets_bind (meets_get ?_)
  split_ifs with h
  · exact meets_bind (meets_inspect (meets_pure (htaken h)) herr)
  · exact meets_bind (meets_atomically (meets_pure (hfree h)) herr fun hf => hlate hf h)

end calls

end Netband.Segments

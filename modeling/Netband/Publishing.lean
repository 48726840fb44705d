import Netband.Folders

/-!
How a new segment comes into its directory: a header is staged, linked under a free name, and the
marker is moved to it. At every point of this the segments from before are as they were.
-/

namespace Netband.Segments

open Netband.Time Netband.State Netband.Effects Netband.Lines Netband.Json Netband.Journal Faulty

/-! ### The staged file -/

/-- Only the staged file is new, and only its name differs. -/
structure Staged (d d' : Folder) : Prop where
  length : d.inodes.length ≤ d'.inodes.length
  files : ∀ f < d.inodes.length, d'.inodes[f]? = d.inodes[f]?
  segments : d'.segments = d.segments
  entries : ∀ n ≠ pendingName, d'.entries[n]? = d.entries[n]?

/-- A file for the marker, which is no segment. -/
def Apart (d : Folder) (file m : ℕ) : Prop :=
  d.entries[markerTempName]? = some m ∨ d.inodes.length ≤ m ∧ m ≠ file

section staged
variable {d d' : Folder} {file m : ℕ}

lemma Staged.refl (d : Folder) : Staged d d :=
  ⟨le_rfl, fun _ _ => rfl, rfl, fun _ _ => rfl⟩

lemma Staged.remove (h : Staged d d') : Staged d (d'.remove pendingName) where
  length := h.length
  files := h.files
  segments := h.segments
  entries n hn := by
    rw [Folder.entries_remove, if_neg hn]
    exact h.entries n hn

lemma Staged.create (h : Staged d d') : Staged d (d'.create pendingName) where
  length := by
    rw [Folder.length_create]
    exact h.length.trans (Nat.le_succ _)
  files f hf := by
    rw [Folder.inodes_create _ _ _ (hf.trans_le h.length)]
    exact h.files f hf
  segments := h.segments
  entries n hn := by
    rw [Folder.entries_create, if_neg hn]
    exact h.entries n hn

lemma Staged.update (h : Staged d d') (hfile : d.inodes.length ≤ file) (f : Inode → Inode) :
    Staged d (d'.update file f) where
  length := by
    rw [Folder.length_update]
    exact h.length
  files x hx := by
    rw [Folder.inodes_update, if_neg (by omega)]
    exact h.files x hx
  segments := h.segments
  entries := h.entries

lemma Apart.ne_file (h : Apart d file m) (hfile : d.inodes.length ≤ file) : m ≠ file := by
  rcases h with h | h
  · have := d.there _ _ h
    omega
  · exact h.2

lemma Apart.ne_old {f : ℕ} (h : Apart d file m) (hf : f < d.inodes.length)
    (ht : d.entries[markerTempName]? ≠ some f) : m ≠ f := by
  rintro rfl
  rcases h with h | h
  · exact ht h
  · omega

end staged

/-! ### Markers -/

def markerText (name : String) : Bytes := utf8 (name.toList ++ ['\n'])

/-- A name without a line feed at its end is read back from its marker. -/
lemma markedName_markerText {name : String} (h : name.toList.getLast? ≠ some '\n') :
    markedName (markerText name) = some name := by
  have hbytes : (markerText name).toByteArray = (name ++ "\n").toByteArray := by
    rw [markerText, utf8, ← String.utf8Encode_toList, String.toList_append]
    rfl
  have hdecoded : String.fromUTF8? (markerText name).toByteArray = some (name ++ "\n") := by
    rw [hbytes, String.fromUTF8?, dif_pos (name ++ "\n").isValidUTF8]
    rfl
  rw [markedName, hdecoded, Option.map_some, String.toList_append]
  change some (String.ofList ((name.toList ++ ['\n']).rdropWhile _)) = some name
  rw [List.rdropWhile_concat_pos _ _ _ (by decide), List.rdropWhile_eq_self_iff.mpr,
    String.ofList_toList]
  intro hne
  rw [List.getLast?_eq_some_getLast hne] at h
  simpa using h

/-! ### The phases of a new segment -/

variable [Crates]

def IsSegmentName (name : String) : Prop := ∃ now sequence, name = segmentName now sequence

lemma IsSegmentName.ne_hidden {name other : String} (h : IsSegmentName name)
    (hdot : other.toList.head? = some '.') : name ≠ other := by
  rintro rfl
  obtain ⟨now, sequence, rfl⟩ := h
  simp [segmentName, String.toList_append] at hdot

/-- A new segment has the header and a name. -/
structure Linked (d d' : Folder) (file : ℕ) (name : String) : Prop where
  fresh : d.inodes.length ≤ file
  files : ∀ f < d.inodes.length, d.entries[markerTempName]? ≠ some f →
    d'.inodes[f]? = d.inodes[f]?
  header : d'.inodes[file]? = some ⟨headerLine, headerLine.length⟩
  segments : d'.segments = d.segments ++ [file]
  isName : IsSegmentName name
  free : d.entries[name]? = none
  named : d'.entries[name]? = some file
  entries : ∀ n, n ≠ pendingName → n ≠ markerTempName → n ≠ activeName → n ≠ name →
    d'.entries[n]? = d.entries[n]?

/-- The marker is still the one from before. -/
structure Published (d d' : Folder) (file : ℕ) (name : String) : Prop
    extends Linked d d' file name where
  active : d'.entries[activeName]? = d.entries[activeName]?
  temp : ∀ m, d'.entries[markerTempName]? = some m → Apart d file m

lemma IsSegmentName.markedName_eq {name : String} (h : IsSegmentName name) :
    markedName (markerText name) = some name := by
  obtain ⟨now, sequence, rfl⟩ := h
  refine markedName_markerText ?_
  have hlast : ".csv".toList.getLast? = some 'v' := by decide
  rw [segmentName, String.toList_append, List.getLast?_append, hlast]
  simp

/-- The marker names the new segment. -/
structure Marked (d d' : Folder) (file : ℕ) (name : String) : Prop
    extends Linked d d' file name where
  temp : d'.entries[markerTempName]? = none
  active : ∃ m, d'.entries[activeName]? = some m ∧ Apart d file m ∧
    d'.inodes[m]? = some ⟨markerText name, (markerText name).length⟩

inductive Begun (d d' : Folder) : Prop
  | staged (h : Staged d d')
  | published (file : ℕ) (name : String) (h : Published d d' file name)
  | marked (file : ℕ) (name : String) (h : Marked d d' file name)

section phases
variable {d d' : Folder} {file m : ℕ} {name : String}

lemma Published.of_staged (h : Staged d d') (hfile : d.inodes.length ≤ file)
    (hheader : d'.inodes[file]? = some ⟨headerLine, headerLine.length⟩)
    (hname : IsSegmentName name) (hfree : d'.entries[name]? = none) :
    Published d (d'.publish file name) file name := by
  have hthere : file < d'.inodes.length := by
    by_contra hle
    rw [List.getElem?_eq_none (not_lt.mp hle)] at hheader
    cases hheader
  obtain ⟨hinodes, hsegments, hentries⟩ := Folder.publish_eq name hthere
  have hpending : name ≠ pendingName := hname.ne_hidden rfl
  have hactive : name ≠ activeName := hname.ne_hidden rfl
  have htemp : name ≠ markerTempName := hname.ne_hidden rfl
  exact {
    fresh := hfile
    files := fun f hf _ => by rw [hinodes, h.files f hf]
    header := by rw [hinodes, hheader]
    segments := by rw [hsegments, h.segments]
    isName := hname
    free := by rw [← h.entries name hpending, hfree]
    named := by rw [hentries, if_pos rfl]
    entries := fun n hn _ _ hne => by rw [hentries, if_neg hne, h.entries n hn]
    active := by rw [hentries, if_neg hactive.symm, h.entries _ (by decide)]
    temp := fun m hm => by
      rw [hentries, if_neg htemp.symm, h.entries _ (by decide)] at hm
      exact .inl hm }

lemma Published.remove (h : Published d d' file name) :
    Published d (d'.remove pendingName) file name where
  fresh := h.fresh
  files := h.files
  header := h.header
  segments := h.segments
  isName := h.isName
  free := h.free
  named := by
    rw [Folder.entries_remove, if_neg (h.isName.ne_hidden rfl)]
    exact h.named
  entries n hp ht ha hn := by
    rw [Folder.entries_remove, if_neg hp]
    exact h.entries n hp ht ha hn
  active := by
    rw [Folder.entries_remove, if_neg (by decide)]
    exact h.active
  temp m hm := by
    rw [Folder.entries_remove, if_neg (by decide)] at hm
    exact h.temp m hm

lemma Linked.lt_length (h : Linked d d' file name) : file < d'.inodes.length := by
  by_contra hle
  have hheader := h.header
  rw [List.getElem?_eq_none (not_lt.mp hle)] at hheader
  cases hheader

lemma Linked.content_old (h : Linked d d' file name) {f : ℕ} (hf : f < d.inodes.length)
    (ht : d.entries[markerTempName]? ≠ some f) : d'.content f = d.content f := by
  rw [Folder.content, h.files f hf ht, Folder.content]

lemma Linked.content_new (h : Linked d d' file name) : d'.content file = headerLine := by
  rw [Folder.content, h.header]
  rfl

lemma Linked.le_length (h : Linked d d' file name) : d.inodes.length ≤ d'.inodes.length :=
  (h.fresh.trans_lt h.lt_length).le

lemma Published.create (h : Published d d' file name) :
    Published d (d'.create markerTempName) file name where
  fresh := h.fresh
  files f hf ht := by
    rw [Folder.inodes_create _ _ _ (hf.trans (h.fresh.trans_lt h.lt_length))]
    exact h.files f hf ht
  header := by
    rw [Folder.inodes_create _ _ _ h.lt_length]
    exact h.header
  segments := h.segments
  isName := h.isName
  free := h.free
  named := by
    rw [Folder.entries_create, if_neg (h.isName.ne_hidden rfl)]
    exact h.named
  entries n hp ht ha hn := by
    rw [Folder.entries_create, if_neg ht]
    exact h.entries n hp ht ha hn
  active := by
    rw [Folder.entries_create, if_neg (by decide)]
    exact h.active
  temp m hm := by
    rw [Folder.entries_create, if_pos rfl] at hm
    obtain rfl : d'.inodes.length = m := Option.some.inj hm
    exact .inr ⟨(h.fresh.trans_lt h.lt_length).le, h.lt_length.ne'⟩

lemma Published.update (h : Published d d' file name)
    (hm : d'.entries[markerTempName]? = some m) (f : Inode → Inode) :
    Published d (d'.update m f) file name where
  fresh := h.fresh
  files x hx ht := by
    rw [Folder.inodes_update, if_neg ((h.temp m hm).ne_old hx ht)]
    exact h.files x hx ht
  header := by
    rw [Folder.inodes_update, if_neg ((h.temp m hm).ne_file h.fresh)]
    exact h.header
  segments := h.segments
  isName := h.isName
  free := h.free
  named := h.named
  entries := h.entries
  active := h.active
  temp := h.temp

lemma Marked.of_published (h : Published d d' file name)
    (hm : d'.entries[markerTempName]? = some m)
    (htext : d'.inodes[m]? = some ⟨markerText name, (markerText name).length⟩) :
    Marked d (d'.rename markerTempName activeName) file name := by
  obtain ⟨hinodes, hsegments, hentries⟩ := Folder.rename_eq hm activeName
  exact {
    fresh := h.fresh
    files := fun f hf ht => by rw [hinodes, h.files f hf ht]
    header := by rw [hinodes, h.header]
    segments := by rw [hsegments, h.segments]
    isName := h.isName
    free := h.free
    named := by
      rw [hentries, if_neg (h.isName.ne_hidden rfl), if_neg (h.isName.ne_hidden rfl), h.named]
    entries := fun n hp ht ha hn => by
      rw [hentries, if_neg ha, if_neg ht, h.entries n hp ht ha hn]
    temp := by
      rw [hentries, if_neg (by decide), if_pos rfl]
    active := by
      refine ⟨m, ?_, h.temp m hm, by rw [hinodes, htext]⟩
      rw [hentries, if_pos rfl] }

end phases

/-! ### Creating a segment -/

section spec
variable {d d₀ : Folder} {file : ℕ} {name : String}

lemma meets_removeStale (h : Staged d₀ d) : Meets True d removeStale
    (fun _ d' => Staged d₀ d') fun _ d' => Begun d₀ d' := by
  have hbegun : True → ∀ e : JournalError, Begun d₀ d := fun _ _ => .staged h
  refine meets_bind (meets_regularOrMissing ?_ hbegun)
  split_ifs
  · refine meets_bind (meets_openFile (fun file _ => ?_) (fun _ _ => .staged h) hbegun)
    refine meets_bind (meets_inspect ?_ hbegun)
    exact meets_atomically h.remove hbegun fun _ _ => .staged h.remove
  · exact meets_pure h

/-- What is written to a file that was staged. -/
lemma meets_writeStaged (h : Staged d₀ d) (hfile : d₀.inodes.length ≤ file)
    (hnew : d.inodes[file]? = some {}) (bytes : Bytes) :
    Meets True d (do writeAll file bytes; syncData file; return file)
      (fun x d' => Staged d₀ d' ∧ d₀.inodes.length ≤ x ∧
        d'.inodes[x]? = some ⟨bytes, bytes.length⟩) fun _ d' => Begun d₀ d' := by
  refine meets_bind (meets_writeAll (fun _ => ?_) (fun _ _ => .staged h)
    fun _ k _ => .staged (h.update hfile _))
  refine meets_bind (meets_syncData (meets_pure ⟨?_, hfile, ?_⟩)
    fun _ _ => .staged (h.update hfile _))
  · exact (h.update hfile _).update hfile _
  · rw [Folder.sync, Folder.inodes_update, if_pos rfl, Folder.append, Folder.inodes_update,
      if_pos rfl, hnew]
    rfl

lemma meets_stageHeader (h : Staged d₀ d) : Meets True d stageHeader
    (fun file d' => Staged d₀ d' ∧ d₀.inodes.length ≤ file ∧
      d'.inodes[file]? = some ⟨headerLine, headerLine.length⟩) fun _ d' => Begun d₀ d' := by
  refine meets_bind (meets_mono (meets_removeStale h) (fun _ d' h => ?_) fun _ _ he => he)
  have hbegun : True → ∀ e : JournalError, Begun d₀ d' := fun _ _ => .staged h
  have hcreated := h.create
  have hlate : True → ∀ e : JournalError, Begun d₀ (d'.create pendingName) :=
    fun _ _ => .staged hcreated
  refine meets_bind (meets_createNew (fun _ => ?_) (fun _ _ => .staged h) hbegun
    fun hf _ => hlate hf)
  refine meets_bind (meets_inspect ?_ hlate)
  generalize headerLine = line
  exact meets_writeStaged hcreated h.length (Folder.inodes_create_self d' pendingName) line

lemma meets_publishSegment (h : Staged d₀ d) (hfile : d₀.inodes.length ≤ file)
    (hheader : d.inodes[file]? = some ⟨headerLine, headerLine.length⟩) (now : ℤ)
    (rounds sequence : ℕ) : Meets True d (publishSegment file now rounds sequence)
      (fun name d' => Published d₀ d' file name) fun _ d' => Begun d₀ d' := by
  have hbegun : True → ∀ e : JournalError, Begun d₀ d := fun _ _ => .staged h
  induction rounds generalizing sequence with
  | zero => exact meets_fail (.staged h)
  | succ rounds ih =>
    have hpublished : segmentName now sequence ∉ d.entries →
        Published d₀ (d.publish file (segmentName now sequence)) file
          (segmentName now sequence) := by
      intro hfree
      refine .of_staged h hfile hheader ⟨now, sequence, rfl⟩ ?_
      rw [Std.ExtTreeMap.mem_iff_isSome_getElem?, Option.not_isSome_iff_eq_none] at hfree
      exact hfree
    refine meets_bind (meets_hardLink (fun hfree => ?_) (fun _ => ?_) hbegun
      fun _ hfree _ => .published _ _ (hpublished hfree))
    · exact meets_pure (hpublished hfree)
    · exact ih (sequence + 1)

lemma meets_writeMarker (h : Published d₀ d file name) : Meets True d (writeMarker name)
    (fun _ d' => Marked d₀ d' file name) fun _ d' => Begun d₀ d' := by
  have hbegun : ∀ {d'}, Published d₀ d' file name → True → ∀ e : JournalError, Begun d₀ d' :=
    fun h _ _ => .published _ _ h
  refine meets_bind (meets_regularOrMissing ?_ (hbegun h))
  -- the marker is written to the file of the temporary name, whether it is new or left over
  have hwrite : ∀ {d' : Folder} {m : ℕ}, Published d₀ d' file name →
      d'.entries[markerTempName]? = some m → Meets True d' (do
        lockFile markerTempName
        setLen m 0
        writeAll m (utf8 (name.toList ++ ['\n']))
        syncData m
        renameFile markerTempName activeName
        syncDirectory) (fun _ d' => Marked d₀ d' file name) fun _ d' => Begun d₀ d' := by
    intro d' m h hm
    have hthere := d'.there _ _ hm
    obtain ⟨i, hi⟩ : ∃ i, d'.inodes[m]? = some i := ⟨_, List.getElem?_eq_getElem hthere⟩
    have hcut := h.update hm fun i => { content := i.content.take 0, synced := min i.synced 0 }
    refine meets_bind (meets_inspect ?_ (hbegun h))
    refine meets_bind (meets_atomically ?_ (hbegun h) (hbegun hcut))
    refine meets_bind (meets_writeAll (fun _ => ?_) (fun _ _ => .published _ _ hcut)
      fun _ k _ => .published _ _ (hcut.update hm _))
    refine meets_bind (meets_syncData ?_ (hbegun (hcut.update hm _)))
    have hsynced := (hcut.update hm fun i =>
      { i with content := i.content ++ markerText name }).update hm fun i =>
        { i with synced := i.content.length }
    have hmarked := Marked.of_published hsynced hm (by
      rw [Folder.inodes_update, if_pos rfl, Folder.inodes_update, if_pos rfl,
        Folder.inodes_update, if_pos rfl, hi]
      rfl)
    refine meets_bind (meets_atomically ?_ (hbegun hsynced) fun _ _ => .marked _ _ hmarked)
    exact meets_inspect hmarked fun _ _ => .marked _ _ hmarked
  refine meets_bind (meets_openOrCreate (fun m hm => hwrite h hm) (fun _ => ?_) (hbegun h)
    fun _ _ => hbegun h.create trivial)
  refine hwrite h.create ?_
  rw [Folder.entries_create, if_pos rfl]

/-- **Creating a segment**: what is there when it returns, and whenever it fails. -/
theorem createSegment_spec (d : Folder) (now : ℤ) : Meets True d (createSegment now)
    (fun r d' => Marked d d' r.1 r.2) fun _ d' => Begun d d' := by
  refine meets_bind (meets_mono (meets_stageHeader (.refl d)) (fun file d' h => ?_)
    fun _ _ he => he)
  obtain ⟨hstaged, hfile, hheader⟩ := h
  refine meets_bind (meets_get (meets_bind (meets_mono
    (meets_publishSegment hstaged hfile hheader now _ 0) (fun name d' h => ?_) fun _ _ he => he)))
  have hbegun : True → ∀ e : JournalError, Begun d d' := fun _ _ => .published _ _ h
  have hremoved : True → ∀ e : JournalError, Begun d (d'.remove pendingName) :=
    fun _ _ => .published _ _ h.remove
  refine meets_bind (meets_atomically ?_ hbegun hremoved)
  refine meets_bind (meets_inspect ?_ hremoved)
  refine meets_bind (meets_mono (meets_writeMarker h.remove) (fun _ d' h => ?_) fun _ _ he => he)
  exact meets_pure h

end spec

end Netband.Segments

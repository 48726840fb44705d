import Netband.Rotation

/-!
What the segments of a directory have, as shares: batches that were acknowledged, and the beginning
of one that failed. New segments, recovery and a journal that opens leave the shares as they are,
at whatever point they fail.
-/

namespace Netband.Survival

open Netband.Time Netband.Effects Netband.Lines Netband.Csv Netband.Journal Netband.Segments
open Netband.Tails Netband.Rotation Faulty

/-! ### Shares -/

/-- What a segment has: batches that were acknowledged, and the beginning of one that failed. -/
structure Share where
  batches : List Batch := []
  cut : Batch := []

/-- What a crash keeps of a file: what was synced and, of what follows, a part. -/
def crashed (kept : ℕ) (i : Inode) : Inode :=
  ⟨i.content.take (max i.synced kept), (i.content.take (max i.synced kept)).length⟩

lemma crashed_of_synced {i : Inode} (h : i.content.length ≤ i.synced) (kept : ℕ) :
    crashed kept i = ⟨i.content, i.content.length⟩ := by
  rw [crashed, List.take_of_length_le (h.trans (le_max_left _ _))]

section crates
variable [Crates]

/-- The acknowledged batches are in the file, and synced. -/
def Share.Holds (s : Share) (i : Inode) : Prop :=
  ∃ p, p <+: encodeBatch s.cut ∧ i.content = text s.batches ++ p ∧
    (text s.batches).length ≤ i.synced

/-- The file was recovered, or nothing was cut in it. -/
structure Share.Rests (s : Share) (i : Inode) : Prop where
  holds : s.Holds i
  synced : i.content.length ≤ i.synced
  recovered : Recovered s.batches.flatten s.cut i.content

lemma text_eq (batches : List Batch) :
    text batches = headerLine ++ encodeBatch batches.flatten := by
  induction batches using List.reverseRecOn with
  | nil => simp [text, encodeBatch]
  | append_singleton batches batch ih =>
    rw [text_concat, ih, List.flatten_append, encodeBatch_append]
    simp

lemma recovered_text (batches : List Batch) (cut : Batch) :
    Recovered batches.flatten cut (text batches) := by
  obtain ⟨spans, hspans, hfields⟩ := exists_spans_rows batches.flatten
  rw [text_eq, hspans]
  refine recovered_of_spans (List.nil_prefix) (by simpa using hfields) blank_lf ?_
  rw [hspans]

lemma Share.rests_text (batches : List Batch) :
    (⟨batches, []⟩ : Share).Rests ⟨text batches, (text batches).length⟩ where
  holds := ⟨[], List.nil_prefix, by simp, le_rfl⟩
  synced := le_rfl
  recovered := recovered_text batches []

section shares
variable {s : Share} {i : Inode}

lemma Share.Holds.sync (h : s.Holds i) : s.Holds { i with synced := i.content.length } := by
  obtain ⟨p, hp, hcontent, -⟩ := h
  exact ⟨p, hp, hcontent, by simp [hcontent]⟩

lemma Share.Rests.sync (h : s.Rests i) : s.Rests { i with synced := i.content.length } where
  holds := h.holds.sync
  synced := le_rfl
  recovered := h.recovered

lemma Share.Holds.crash (h : s.Holds i) (kept : ℕ) : s.Holds (crashed kept i) := by
  obtain ⟨p, hp, hcontent, hsynced⟩ := h
  have htake : i.content.take (max i.synced kept) =
      text s.batches ++ p.take (max i.synced kept - (text s.batches).length) := by
    rw [hcontent, List.take_append, List.take_of_length_le (hsynced.trans (le_max_left _ _))]
  refine ⟨p.take (max i.synced kept - (text s.batches).length), ?_, htake, ?_⟩
  · exact (List.take_prefix _ p).trans hp
  · simp only [crashed, htake, List.length_append]
    omega

lemma Share.Rests.crash (h : s.Rests i) (kept : ℕ) : s.Rests (crashed kept i) := by
  rw [crashed_of_synced h.synced]
  exact h.sync

/-- Recovery makes a file rest, and cuts nothing that was acknowledged. -/
lemma Share.Holds.recovery {path : String} {r : Recovery} (h : s.Holds i)
    (hr : recovery path i.content = .ok r) : r ≠ .terminate ∧ ∃ p, p <+: encodeBatch s.cut ∧
      r.apply i.content = text s.batches ++ p ∧
      Recovered s.batches.flatten s.cut (r.apply i.content) := by
  obtain ⟨p, hp, hcontent, -⟩ := h
  rw [text_eq] at hcontent
  have hne : i.content ≠ [] := by
    rw [hcontent, headerLine_eq]
    simp
  have hlong : i.content.length ≠ csvHeader.length := by
    rw [hcontent, headerLine_eq]
    simp only [List.length_append, List.length_cons]
    omega
  have hopened : opened path i.content = .ok (r.apply i.content) := by
    rw [opened, if_neg hne, hr]
    rfl
  have hrecovered : Recovered s.batches.flatten s.cut (r.apply i.content) := by
    obtain ⟨htorn, hwhole⟩ := opened_cut path s.batches.flatten hp
    rw [← hcontent, hopened] at htorn hwhole
    by_cases ht : Torn p
    · cases htorn ht
    · obtain ⟨content, hcontent', hrecovered⟩ := hwhole ht
      rwa [Except.ok.inj hcontent']
  have hpre : r ≠ .terminate ∧ r.apply i.content <+: i.content := by
    cases r with
    | keep => exact ⟨by simp, List.prefix_refl _⟩
    | truncate length => exact ⟨by simp, List.take_prefix _ _⟩
    | terminate =>
      rw [recovery_of_line (line_of_recovery hr)] at hr
      exact absurd (length_of_terminate hr) hlong
  obtain ⟨q, hq⟩ := hrecovered.kept
  refine ⟨hpre.1, q, ?_, by rw [text_eq, hq], hrecovered⟩
  have hle := hpre.2
  rw [← hq, hcontent, List.prefix_append_right_inj] at hle
  exact hle.trans hp

end shares

end crates

/-! ### Shelves -/

/-- The marker names the file. -/
def Active (d : Folder) (file : ℕ) : Prop := ∃ name, Marks d name file

/-- What keeps the segments, the marker and all names that matter to them. -/
structure Quiet (d d' : Folder) : Prop where
  length : d.inodes.length ≤ d'.inodes.length
  files : ∀ f < d.inodes.length, d'.inodes[f]? = d.inodes[f]?
  segments : d'.segments = d.segments
  entries : ∀ n, n ≠ pendingName → n ≠ lockName → d'.entries[n]? = d.entries[n]?

lemma Quiet.of_staged {d d' : Folder} (h : Staged d d') : Quiet d d' :=
  ⟨h.length, h.files, h.segments, fun n hp _ => h.entries n hp⟩

lemma quiet_create (d : Folder) : Quiet d (d.create lockName) where
  length := by simp
  files f hf := Folder.inodes_create d f lockName hf
  segments := rfl
  entries n _ hn := by rw [Folder.entries_create, if_neg hn]

lemma update_update (d : Folder) (file : ℕ) (g g' : Inode → Inode) :
    (d.update file g).update file g' = d.update file (g' ∘ g) := by
  unfold Folder.update
  congr 1
  exact List.modify_modify_eq _ _ _ _

lemma sync_recoverIn (d : Folder) (file : ℕ) (r : Recovery) : (recoverIn file d r).sync file =
    d.update file fun i => ⟨r.apply i.content, (r.apply i.content).length⟩ := by
  cases r <;> simp only [recoverIn, Folder.sync, Folder.append, Folder.truncate, update_update] <;>
    rfl

section crates
variable [Crates]

/-- The segments are the files under the names of segments, and each has one such name. -/
structure Named (d : Folder) : Prop where
  named : ∀ f ∈ d.segments, ∃ name, IsSegmentName name ∧ d.entries[name]? = some f
  only : ∀ {name f}, IsSegmentName name → d.entries[name]? = some f → f ∈ d.segments
  unique : ∀ {name name' f}, IsSegmentName name → IsSegmentName name' →
    d.entries[name]? = some f → d.entries[name']? = some f → name = name'

/-- The segments of a directory with their shares. Only the segment that the marker names may end
in a batch that is cut. -/
structure Shelf (d : Folder) (share : ℕ → Share) (acknowledged failed : List Batch) : Prop where
  files : ∀ f ∈ d.segments, ∃ i, d.inodes[f]? = some i ∧ (share f).Holds i ∧
    ((share f).Rests i ∨ Active d f)
  unused : ∀ f ∉ d.segments, share f = {}
  named : Named d
  nodup : d.segments.Nodup
  batches : d.segments.flatMap (fun f => (share f).batches) = acknowledged
  cuts : ((d.segments.map fun f => (share f).cut).filter (· ≠ [])).Sublist failed
  marker : ∀ m, d.entries[activeName]? = some m → m ∉ d.segments ∧ ∃ name, IsSegmentName name ∧
    d.inodes[m]? = some ⟨markerText name, (markerText name).length⟩ ∧
    ∃ f ∈ d.segments, d.entries[name]? = some f
  temp : ∀ m, d.entries[markerTempName]? = some m → m ∉ d.segments ∧
    d.entries[activeName]? ≠ some m

/-- Nothing is cut. -/
def Resting (d : Folder) (share : ℕ → Share) : Prop :=
  ∀ f ∈ d.segments, ∀ i, d.inodes[f]? = some i → (share f).Rests i

lemma shelf_empty : Shelf {} (fun _ => {}) [] [] where
  files := by simp
  unused := by simp
  named := ⟨by simp, by simp, by simp⟩
  nodup := by simp
  batches := by simp
  cuts := by simp
  marker := by simp
  temp := by simp

section shelves
variable {d d' : Folder} {share : ℕ → Share} {acknowledged failed : List Batch} {file : ℕ}
  {name : String}

lemma Shelf.lt_length (h : Shelf d share acknowledged failed) {f : ℕ} (hf : f ∈ d.segments) :
    f < d.inodes.length := by
  obtain ⟨i, hi, -⟩ := h.files f hf
  exact (List.getElem?_eq_some_iff.mp hi).1

/-- The file that the marker names. -/
lemma Shelf.marks (h : Shelf d share acknowledged failed) (hm : Marks d name file) :
    IsSegmentName name ∧ file ∈ d.segments ∧ ∃ m, d.entries[activeName]? = some m ∧
      m ∉ d.segments ∧ d.inodes[m]? = some ⟨markerText name, (markerText name).length⟩ ∧
      d.entries[name]? = some file := by
  obtain ⟨m, hentry, hname, hfile⟩ := hm
  obtain ⟨hnot, name', hsegment, htext, f, hf, hf'⟩ := h.marker m hentry
  rw [Folder.content, htext] at hname
  change markedName (markerText name') = some name at hname
  rw [hsegment.markedName_eq] at hname
  obtain rfl := Option.some.inj hname
  obtain rfl := Option.some.inj (hfile.symm.trans hf')
  exact ⟨hsegment, hf, m, hentry, hnot, htext, hfile⟩

omit [Crates] in
lemma Active.unique {f g : ℕ} (hf : Active d f) (hg : Active d g) : f = g := by
  obtain ⟨_, m, hm, hname, hfile⟩ := hf
  obtain ⟨_, m', hm', hname', hfile'⟩ := hg
  obtain rfl := Option.some.inj (hm.symm.trans hm')
  obtain rfl := Option.some.inj (hname.symm.trans hname')
  exact Option.some.inj (hfile.symm.trans hfile')

lemma Shelf.resting_of_unmarked (h : Shelf d share acknowledged failed)
    (hnone : d.entries[activeName]? = none) : Resting d share := by
  intro f hf i hi
  obtain ⟨i', hi', -, hrests⟩ := h.files f hf
  obtain rfl := Option.some.inj (hi.symm.trans hi')
  refine hrests.resolve_right ?_
  rintro ⟨name, m, hm, -⟩
  rw [hnone] at hm
  cases hm

lemma Quiet.active (h : Quiet d d') {f : ℕ} (hsegment : IsSegmentName name)
    (hm : Marks d name f) : Marks d' name f := by
  obtain ⟨m, hm, hname, hfile⟩ := hm
  refine ⟨m, ?_, ?_, ?_⟩
  · rw [h.entries activeName (by decide) (by decide), hm]
  · rw [Folder.content, h.files m (d.there _ _ hm), ← Folder.content, hname]
  · rw [h.entries name (hsegment.ne_hidden rfl) (hsegment.ne_hidden rfl), hfile]

lemma Named.quiet (h : Named d) (hq : Quiet d d') : Named d' := by
  have hentries : ∀ {n}, IsSegmentName n → d'.entries[n]? = d.entries[n]? := fun hn =>
    hq.entries _ (hn.ne_hidden rfl) (hn.ne_hidden rfl)
  refine ⟨fun f hf => ?_, fun hn hf => ?_, fun hn hn' hf hf' => ?_⟩
  · rw [hq.segments] at hf
    obtain ⟨name, hn, hfile⟩ := h.named f hf
    exact ⟨name, hn, by rw [hentries hn, hfile]⟩
  · rw [hentries hn] at hf
    rw [hq.segments]
    exact h.only hn hf
  · rw [hentries hn] at hf
    rw [hentries hn'] at hf'
    exact h.unique hn hn' hf hf'

lemma Shelf.quiet (h : Shelf d share acknowledged failed) (hq : Quiet d d') :
    Shelf d' share acknowledged failed where
  files f hf := by
    rw [hq.segments] at hf
    obtain ⟨i, hi, hholds, hrests⟩ := h.files f hf
    refine ⟨i, by rw [hq.files f (h.lt_length hf), hi], hholds, hrests.imp_right ?_⟩
    rintro ⟨name, hm⟩
    exact ⟨name, hq.active (h.marks hm).1 hm⟩
  unused := by
    rw [hq.segments]
    exact h.unused
  named := h.named.quiet hq
  nodup := by
    rw [hq.segments]
    exact h.nodup
  batches := by
    rw [hq.segments]
    exact h.batches
  cuts := by
    rw [hq.segments]
    exact h.cuts
  marker m hm := by
    rw [hq.entries activeName (by decide) (by decide)] at hm
    obtain ⟨hnot, name, hsegment, htext, f, hf, hfile⟩ := h.marker m hm
    rw [hq.segments]
    refine ⟨hnot, name, hsegment, ?_, f, hf, ?_⟩
    · rw [hq.files m (d.there _ _ hm), htext]
    · rw [hq.entries name (hsegment.ne_hidden rfl) (hsegment.ne_hidden rfl), hfile]
  temp m hm := by
    rw [hq.entries markerTempName (by decide) (by decide)] at hm
    rw [hq.segments, hq.entries activeName (by decide) (by decide)]
    exact h.temp m hm

lemma Shelf.ne_temp (h : Shelf d share acknowledged failed) {f : ℕ} (hf : f ∈ d.segments) :
    d.entries[markerTempName]? ≠ some f := fun ht => (h.temp f ht).1 hf

lemma Shelf.resting_linked (h : Shelf d share acknowledged failed) (hrest : Resting d share)
    (hl : Linked d d' file name) : Resting d' share := by
  intro f hf i hi
  rw [hl.segments] at hf
  rcases List.mem_append.mp hf with hf | hf
  · rw [hl.files f (h.lt_length hf) (h.ne_temp hf)] at hi
    exact hrest f hf i hi
  · obtain rfl := List.mem_singleton.mp hf
    obtain rfl := Option.some.inj (hl.header.symm.trans hi)
    have hnew : f ∉ d.segments := fun hold => by
      have := h.lt_length hold
      have := hl.fresh
      omega
    have htext : text [] = headerLine := by simp [text]
    have hrests := Share.rests_text []
    rw [htext] at hrests
    rwa [h.unused f hnew]

lemma notMem_linked (hl : Linked d d' file name) {m : ℕ} (hm : m ∉ d.segments)
    (hne : m ≠ file) : m ∉ d'.segments := by
  rw [hl.segments]
  simp [hm, hne]

lemma Named.linked (h : Named d) (hl : Linked d d' file name) : Named d' := by
  have hentries : ∀ {n}, IsSegmentName n → n ≠ name → d'.entries[n]? = d.entries[n]? :=
    fun hn hne => hl.entries _ (hn.ne_hidden rfl) (hn.ne_hidden rfl) (hn.ne_hidden rfl) hne
  -- the file is new, so no other name leads to it
  have hnew : ∀ {n f}, IsSegmentName n → n ≠ name → d'.entries[n]? = some f → f ≠ file := by
    rintro n f hn hne hf rfl
    rw [hentries hn hne] at hf
    exact absurd (d.there n f hf) (not_lt.mpr hl.fresh)
  refine ⟨fun f hf => ?_, fun {n f} hn hf => ?_, fun {n n' f} hn hn' hf hf' => ?_⟩
  · rw [hl.segments] at hf
    rcases List.mem_append.mp hf with hf | hf
    · obtain ⟨n, hn, hfile⟩ := h.named f hf
      refine ⟨n, hn, ?_⟩
      rw [hentries hn, hfile]
      rintro rfl
      rw [hl.free] at hfile
      cases hfile
    · rw [List.mem_singleton.mp hf]
      exact ⟨name, hl.isName, hl.named⟩
  · rw [hl.segments]
    rcases eq_or_ne n name with rfl | hne
    · rw [Option.some.inj (hf.symm.trans hl.named)]
      simp
    · rw [hentries hn hne] at hf
      exact List.mem_append_left _ (h.only hn hf)
  · rcases eq_or_ne n name with hname | hne <;> rcases eq_or_ne n' name with hname' | hne'
    · rw [hname, hname']
    · rw [hname] at hf
      exact absurd (Option.some.inj (hf.symm.trans hl.named)) (hnew hn' hne' hf')
    · rw [hname'] at hf'
      exact absurd (Option.some.inj (hf'.symm.trans hl.named)) (hnew hn hne hf)
    · rw [hentries hn hne] at hf
      rw [hentries hn' hne'] at hf'
      exact h.unique hn hn' hf hf'

lemma Shelf.linked (h : Shelf d share acknowledged failed) (hrest : Resting d share)
    (hl : Linked d d' file name)
    (hmarker : ∀ m, d'.entries[activeName]? = some m → m ∉ d'.segments ∧ ∃ name,
      IsSegmentName name ∧ d'.inodes[m]? = some ⟨markerText name, (markerText name).length⟩ ∧
      ∃ f ∈ d'.segments, d'.entries[name]? = some f)
    (htemp : ∀ m, d'.entries[markerTempName]? = some m → m ∉ d'.segments ∧
      d'.entries[activeName]? ≠ some m) : Shelf d' share acknowledged failed := by
  have hnew : file ∉ d.segments := fun hold => by
    have := h.lt_length hold
    have := hl.fresh
    omega
  have hrest' := h.resting_linked hrest hl
  exact {
    files := fun f hf => by
      have hlt : f < d'.inodes.length := by
        rw [hl.segments] at hf
        rcases List.mem_append.mp hf with hf | hf
        · exact (h.lt_length hf).trans_le hl.le_length
        · rw [List.mem_singleton.mp hf]
          exact hl.lt_length
      have hi := List.getElem?_eq_getElem hlt
      have hrests := hrest' f hf _ hi
      exact ⟨_, hi, hrests.holds, .inl hrests⟩
    unused := fun f hf => by
      rw [hl.segments, List.mem_append, not_or] at hf
      exact h.unused f hf.1
    named := h.named.linked hl
    nodup := by
      rw [hl.segments, ← List.concat_eq_append]
      exact h.nodup.concat hnew
    batches := by
      rw [hl.segments, List.flatMap_append, h.batches]
      simp [h.unused file hnew]
    cuts := by
      have hcuts := h.cuts
      rw [hl.segments, List.map_append, List.filter_append]
      simpa [h.unused file hnew] using hcuts
    marker := hmarker
    temp := htemp }

lemma Shelf.published (h : Shelf d share acknowledged failed) (hrest : Resting d share)
    (hp : Published d d' file name) : Shelf d' share acknowledged failed := by
  refine h.linked hrest hp.toLinked (fun m hm => ?_) fun m hm => ?_
  · rw [hp.active] at hm
    have hlt := d.there _ _ hm
    have hfresh := hp.fresh
    obtain ⟨hnot, name', hsegment, htext, f, hf, hfile⟩ := h.marker m hm
    refine ⟨notMem_linked hp.toLinked hnot (by omega), name', hsegment, ?_, f, ?_, ?_⟩
    · rw [hp.files m hlt fun ht => (h.temp m ht).2 hm, htext]
    · rw [hp.segments]
      exact List.mem_append_left _ hf
    · rw [hp.entries name' (hsegment.ne_hidden rfl) (hsegment.ne_hidden rfl)
        (hsegment.ne_hidden rfl), hfile]
      rintro rfl
      rw [hp.free] at hfile
      cases hfile
  · rw [hp.active]
    rcases hp.temp m hm with ht | ⟨hle, hne⟩
    · have hlt := d.there _ _ ht
      have hfresh := hp.fresh
      exact ⟨notMem_linked hp.toLinked (h.temp m ht).1 (by omega), (h.temp m ht).2⟩
    · refine ⟨notMem_linked hp.toLinked (fun hf => ?_) hne, fun hactive => ?_⟩
      · exact absurd (h.lt_length hf) (not_lt.mpr hle)
      · exact absurd (d.there _ _ hactive) (not_lt.mpr hle)

lemma Shelf.marked (h : Shelf d share acknowledged failed) (hrest : Resting d share)
    (hm : Marked d d' file name) : Shelf d' share acknowledged failed := by
  refine h.linked hrest hm.toLinked (fun m hactive => ?_) fun m ht => ?_
  · obtain ⟨m', hentry, hapart, htext⟩ := hm.active
    obtain rfl := Option.some.inj (hactive.symm.trans hentry)
    have hnot : m ∉ d.segments := fun hf => hapart.ne_old (h.lt_length hf) (h.ne_temp hf) rfl
    refine ⟨notMem_linked hm.toLinked hnot (hapart.ne_file hm.fresh), name, hm.isName, htext,
      file, ?_, hm.named⟩
    rw [hm.segments]
    simp
  · rw [hm.temp] at ht
    cases ht

/-- **A new segment** leaves the shares as they are, at whatever point it fails. -/
lemma Shelf.begun (h : Shelf d share acknowledged failed) (hrest : Resting d share)
    (hb : Begun d d') : Shelf d' share acknowledged failed := by
  cases hb with
  | staged hs => exact h.quiet (.of_staged hs)
  | published file name hp => exact h.published hrest hp
  | marked file name hm => exact h.marked hrest hm

/-! ### The segment that the marker names -/

lemma Shelf.active_update (h : Shelf d share acknowledged failed) (hactive : Active d file)
    (g : Inode → Inode) {f : ℕ} (hf : Active d f) : Active (d.update file g) f := by
  obtain ⟨name, m, hm, hname, hfile⟩ := hf
  obtain ⟨name', hmarks⟩ := hactive
  have hne : file ≠ m := by
    rintro rfl
    exact (h.marker file hm).1 (h.marks hmarks).2.1
  refine ⟨name, m, hm, ?_, hfile⟩
  rw [Folder.content_update, if_neg hne, hname]

/-- An edit of the segment that the marker names. -/
lemma Shelf.edit (h : Shelf d share acknowledged failed) (hactive : Active d file)
    {g : Inode → Inode} {s : Share}
    (hs : ∀ i, d.inodes[file]? = some i → (share file).Holds i → s.Holds (g i))
    {acknowledged' failed' : List Batch}
    (hbatches : d.segments.flatMap (fun f => (Function.update share file s f).batches) =
      acknowledged')
    (hcuts : ((d.segments.map fun f => (Function.update share file s f).cut).filter
      (· ≠ [])).Sublist failed') :
    Shelf (d.update file g) (Function.update share file s) acknowledged' failed' := by
  obtain ⟨name, hmarks⟩ := hactive
  have hmem : file ∈ d.segments := (h.marks hmarks).2.1
  have hactive : Active d file := ⟨name, hmarks⟩
  exact {
    files := fun f hf => by
      rw [Folder.segments_update] at hf
      obtain ⟨i, hi, hholds, hrests⟩ := h.files f hf
      rcases eq_or_ne f file with rfl | hne
      · refine ⟨g i, by rw [Folder.inodes_update, if_pos rfl, hi, Option.map_some], ?_, ?_⟩
        · rw [Function.update_self]
          exact hs i hi hholds
        · exact .inr (h.active_update hactive g hactive)
      · rw [Function.update_of_ne hne]
        refine ⟨i, by rw [Folder.inodes_update, if_neg hne.symm, hi], hholds, ?_⟩
        exact hrests.imp_right (h.active_update hactive g)
    unused := fun f hf => by
      rw [Folder.segments_update] at hf
      rw [Function.update_of_ne (ne_of_mem_of_not_mem hmem hf).symm, h.unused f hf]
    named := ⟨h.named.named, h.named.only, h.named.unique⟩
    nodup := h.nodup
    batches := hbatches
    cuts := hcuts
    marker := fun m hm => by
      obtain ⟨hnot, name, hsegment, htext, hfile⟩ := h.marker m hm
      refine ⟨hnot, name, hsegment, ?_, hfile⟩
      rw [Folder.inodes_update, if_neg (ne_of_mem_of_not_mem hmem hnot), htext]
    temp := h.temp }

lemma Shelf.edit_same (h : Shelf d share acknowledged failed) (hactive : Active d file)
    {g : Inode → Inode}
    (hs : ∀ i, d.inodes[file]? = some i → (share file).Holds i → (share file).Holds (g i)) :
    Shelf (d.update file g) share acknowledged failed := by
  have hsame : Function.update share file (share file) = share := Function.update_eq_self file share
  have hedit : Shelf (d.update file g) (Function.update share file (share file)) acknowledged
      failed := h.edit hactive hs (by rw [hsame, h.batches]) (by rw [hsame]; exact h.cuts)
  rwa [hsame] at hedit

/-- When the segment that the marker names rests, all do. -/
lemma Shelf.resting_edit (h : Shelf d share acknowledged failed) (hactive : Active d file)
    {g : Inode → Inode} {s : Share} (hs : ∀ i, d.inodes[file]? = some i → s.Rests (g i)) :
    Resting (d.update file g) (Function.update share file s) := by
  intro f hf i hi
  rw [Folder.segments_update] at hf
  rw [Folder.inodes_update] at hi
  rcases eq_or_ne f file with rfl | hne
  · rw [if_pos rfl] at hi
    obtain ⟨i, hold, rfl⟩ := Option.map_eq_some_iff.mp hi
    rw [Function.update_self]
    exact hs i hold
  · rw [if_neg hne.symm] at hi
    obtain ⟨i', hi', -, hrests⟩ := h.files f hf
    obtain rfl := Option.some.inj (hi.symm.trans hi')
    rw [Function.update_of_ne hne]
    exact hrests.resolve_right fun ha => hne (ha.unique hactive)

end shelves

/-! ### Opening -/

section opening
variable {d d' : Folder} {share : ℕ → Share} {acknowledged failed : List Batch} {file : ℕ}
  {name : String}

/-- What recovery may do to the segment that the marker names. -/
lemma Shelf.recovered (h : Shelf d share acknowledged failed) (hm : Marks d name file)
    {r : Recovery} (hr : recovery name (d.content file) = .ok r) : r ≠ .terminate ∧
      ∀ i, d.inodes[file]? = some i → ∀ synced, min i.synced (r.apply i.content).length ≤ synced →
        (share file).Holds ⟨r.apply i.content, synced⟩ ∧
        ((r.apply i.content).length ≤ synced → (share file).Rests ⟨r.apply i.content, synced⟩) := by
  obtain ⟨i, hi, hholds, -⟩ := h.files file (h.marks hm).2.1
  have hcontent : d.content file = i.content := by rw [Folder.content, hi]; rfl
  rw [hcontent] at hr
  obtain ⟨hne, p, hp, happly, hrecovered⟩ := hholds.recovery hr
  refine ⟨hne, fun i' hi' synced hsynced => ?_⟩
  obtain rfl := Option.some.inj (hi.symm.trans hi')
  obtain ⟨-, -, -, hle⟩ := hholds
  have hle' : (text (share file).batches).length ≤ (r.apply i.content).length := by
    rw [happly, List.length_append]
    omega
  have hholds : (share file).Holds ⟨r.apply i.content, synced⟩ :=
    ⟨p, hp, happly, (le_min hle hle').trans hsynced⟩
  exact ⟨hholds, fun hlen => ⟨hholds, hlen, hrecovered⟩⟩

/-- **Recovery** leaves the shares as they are, at whatever point it fails. -/
lemma Shelf.meets_recover (h : Shelf d share acknowledged failed) : Meets True d recoverDirectory
    (fun _ d' => Shelf d' share acknowledged failed ∧ Resting d' share)
    fun _ d' => Shelf d' share acknowledged failed := by
  refine meets_recoverDirectory (fun hnone => ⟨h, h.resting_of_unmarked hnone⟩)
    (fun name file r hm hr => ?_) (fun _ => h) (fun name file hm hr => ?_)
    (fun name file hm length hr _ => ?_) fun name file r hm hr _ => ?_
  · obtain ⟨-, hfile⟩ := h.recovered hm hr
    rw [sync_recoverIn]
    refine ⟨h.edit_same ⟨name, hm⟩ fun i hi _ => ?_, ?_⟩
    · exact (hfile i hi _ (min_le_right _ _)).1
    · have hrest := h.resting_edit (s := share file) ⟨name, hm⟩
        (fun i hi => (hfile i hi _ (min_le_right _ _)).2 le_rfl)
      rwa [Function.update_eq_self] at hrest
  · exact absurd rfl (h.recovered hm hr).1
  · obtain ⟨-, hfile⟩ := h.recovered hm hr
    refine h.edit_same ⟨name, hm⟩ fun i hi _ => (hfile i hi _ ?_).1
    simp [Recovery.apply]
  · obtain ⟨hne, hfile⟩ := h.recovered hm hr
    cases r with
    | keep => exact h
    | terminate => exact absurd rfl hne
    | truncate length =>
      change Shelf ((d.update file _).update file _) share acknowledged failed
      rw [update_update]
      exact h.edit_same ⟨name, hm⟩ fun i hi _ => (hfile i hi _ (min_le_right _ _)).1

/-- A journal that has not failed: its segment is the last one, with nothing but the acknowledged
batches. -/
structure Writing (d : Folder) (share : ℕ → Share) (j : Journal) : Prop where
  last : ∃ before, d.segments = before ++ [j.file]
  active : Active d j.file
  content : d.inodes[j.file]? =
    some ⟨text (share j.file).batches, (text (share j.file).batches).length⟩
  uncut : (share j.file).cut = []
  directory : ∃ directory, j.directory = some directory

lemma Shelf.writing_marked (h : Shelf d share acknowledged failed) (hm : Marked d d' file name)
    {j : Journal} (hfile : j.file = file) {directory : Directory}
    (hdirectory : j.directory = some directory) : Writing d' share j := by
  have hunused : share file = {} := h.unused file fun hold => by
    have := h.lt_length hold
    have := hm.fresh
    omega
  subst hfile
  obtain ⟨m, hentry, -, htext⟩ := hm.active
  exact {
    last := ⟨d.segments, hm.segments⟩
    active := by
      refine ⟨name, m, hentry, ?_, hm.named⟩
      rw [Folder.content, htext]
      exact hm.isName.markedName_eq
    content := by
      have htext : text [] = headerLine := by simp [text]
      rw [hunused, hm.header, htext]
    uncut := by rw [hunused]
    directory := ⟨directory, hdirectory⟩ }

lemma meets_create (h : Shelf d share acknowledged failed) (hrest : Resting d share) (now : ℤ) :
    Meets True d (createSegment now)
      (fun r d' => Shelf d' share acknowledged failed ∧ ∀ j : Journal, j.file = r.1 →
        ∀ directory, j.directory = some directory → Writing d' share j)
      fun _ d' => Shelf d' share acknowledged failed := by
  refine meets_mono (createSegment_spec d now) (fun r d' hm => ?_) fun _ d' hb => ?_
  · exact ⟨h.marked hrest hm, fun j hj _ hd => h.writing_marked hm hj hd⟩
  · exact h.begun hrest hb

/-- **Opening** a directory. -/
lemma meets_open (h : Shelf d share acknowledged failed) (limit : Option ℕ) (now : ℤ) :
    Meets True d (openAt .directory limit now)
      (fun j d' => Shelf d' share acknowledged failed ∧ Writing d' share j)
      fun _ d' => Shelf d' share acknowledged failed := by
  have hbegin : True → ∀ e : JournalError, Shelf d share acknowledged failed := fun _ _ => h
  have hcreated := h.quiet (quiet_create d)
  refine meets_bind (meets_ensure (fun _ => ?_) fun _ => h)
  refine meets_bind (meets_regularOrMissing ?_ hbegin)
  refine meets_opened (fun d' hd' _ => ?_) hbegin fun _ _ => hcreated
  -- the lock file is none of the segments
  have h' : Shelf d' share acknowledged failed := by
    rcases hd' with rfl | rfl
    · exact h
    · exact hcreated
  refine meets_bind (meets_inspect ?_ fun _ _ => h')
  refine meets_bind (meets_mono h'.meets_recover (fun _ d₁ h₁ => ?_) fun _ _ he => he)
  obtain ⟨h₁, hrest⟩ := h₁
  refine meets_bind (meets_mono (meets_create h₁ hrest now) (fun r d₂ h₂ => ?_)
    fun _ _ he => he)
  obtain ⟨h₂, hwriting⟩ := h₂
  exact meets_bind (meets_metadataLen (meets_pure ⟨h₂, hwriting _ rfl _ rfl⟩) fun _ _ => h₂)

end opening

end crates

end Netband.Survival

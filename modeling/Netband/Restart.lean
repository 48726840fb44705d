import Netband.Encoding
import Netband.Survival

/-!
Directories that are opened after any run. Without failing calls a journal is opened unless the
segment of the marker ends with a line break within quotes, or its name has a year of five digits.
-/

namespace Netband.Survival

open Netband.Time Netband.State Netband.Encoding Netband.Effects Netband.Lines Netband.Csv
open Netband.Json Netband.Journal Netband.Segments Netband.Tails Netband.Rotation Faulty

/-! ### Names -/

variable [Crates] in
lemma segmentName_injective (now : ℤ) : Function.Injective (segmentName now) := by
  intro n m h
  have hlist := congrArg String.toList h
  simp only [segmentName, String.toList_append, List.append_assoc, List.append_cancel_left_eq,
    List.append_cancel_right_eq] at hlist
  have hdigits : (toString n).toList = (toString m).toList → n = m := by
    intro hd
    refine padded_injective 0 (String.toList_injective ?_)
    simpa [toList_padded] using hd
  split_ifs at hlist with hn hm hm
  · rw [hn, hm]
  · simp at hlist
  · simp at hlist
  · rw [String.toList_append, String.toList_append, List.append_cancel_left_eq] at hlist
    exact hdigits hlist

/-- A character of the names that a marker may have. -/
def allowed (c : Char) : Bool := c.isAlphanum || c = '-' || c = '.' || c = '_'

lemma allowed_of_isDigit {c : Char} (h : c.isDigit = true) : allowed c = true := by
  simp [allowed, Char.isAlphanum, h]

lemma all_allowed_padded (width n : ℕ) : (padded width n).toList.all allowed = true :=
  List.all_eq_true.mpr fun _ hc => allowed_of_isDigit (isDigit_padded hc)

variable [Crates] in
/-- A marker is read back, up to the year 9999. -/
lemma validName_segmentName (now : ℤ) (sequence : ℕ) :
    validName (segmentName now sequence) = true ↔ yearOf (dateNaive now) ≤ 9999 := by
  have hstart : (segmentName now sequence).startsWith "netband-" = true := by
    rw [String.startsWith_string_iff, segmentName, String.toList_append, String.toList_append,
      String.toList_append, List.append_assoc, List.append_assoc]
    exact List.prefix_append _ _
  have hend : (segmentName now sequence).endsWith ".csv" = true := by
    rw [String.endsWith_eq_endsWith_toSlice, String.Slice.endsWith_string_iff, segmentName,
      String.copy_toSlice, String.toList_append]
    exact List.suffix_append _ _
  have hsequence : (if sequence = 0 then "" else "-" ++ toString sequence).toList.all allowed =
      true := by
    split_ifs
    · rfl
    · have hminus : "-".toList.all allowed = true := by decide
      have hdigits := all_allowed_padded 0 sequence
      rw [String.toList_append, List.all_append, hminus]
      simpa [toList_padded] using hdigits
  have hstem : "netband-".toList.all allowed = true := by decide
  have hsuffix : ".csv".toList.all allowed = true := by decide
  have htime : (Crates.compactText now).toList.all allowed = true ↔
      yearOf (dateNaive now) ≤ 9999 := by
    constructor
    · intro hall
      by_contra hyear
      have hplus := List.all_eq_true.mp hall '+' (Crates.compactText_signed (by omega))
      exact absurd hplus (by decide)
    · intro hyear
      refine List.all_eq_true.mpr fun c hc => ?_
      rcases Crates.compactText_plain hyear c hc with h | rfl | rfl
      · simp [allowed, h]
      · decide
      · decide
  change (_ && _ && (segmentName now sequence).toList.all allowed) = true ↔ _
  rw [hstart, hend, segmentName]
  simp only [String.toList_append, List.all_append, hsequence, hstem, hsuffix, Bool.and_true,
    Bool.true_and]
  exact htime

/-- Among more names than there are entries, one is free. -/
lemma exists_free (entries : BTreeMap String ℕ) {name : ℕ → String}
    (hname : Function.Injective name) : ∃ i ≤ entries.size, name i ∉ entries := by
  by_contra hall
  push Not at hall
  have hsubset : (List.range (entries.size + 1)).map name ⊆ entries.keys := by
    intro n hn
    obtain ⟨i, hi, rfl⟩ := List.mem_map.mp hn
    rw [List.mem_range] at hi
    exact Std.ExtTreeMap.mem_keys.mpr (hall i (by omega))
  have hnodup : ((List.range (entries.size + 1)).map name).Nodup := List.nodup_range.map hname
  have hle := hnodup.length_le_of_subset hsubset
  rw [Std.ExtTreeMap.length_keys, List.length_map, List.length_range] at hle
  omega

/-! ### Calls that do not fail -/

/-- Without failing calls the computation returns, as `Q` says. -/
abbrev Succeeds {α : Type} (d : Folder) (c : Op α) (Q : α → Folder → Prop) : Prop :=
  Meets False d c Q fun _ _ => False

section calls
variable {d : Folder}

lemma not_contains_eq (d : Folder) (name : String) :
    d.entries.contains name = false ↔ d.entries[name]? = none := by
  rw [Std.ExtTreeMap.contains_eq_isSome_getElem?, Option.isSome_eq_false_iff,
    Option.isNone_iff_eq_none]

lemma succeeds_removeStale : Succeeds d removeStale fun _ d' =>
    pendingName ∉ d'.entries ∧ d'.entries.size ≤ d.entries.size := by
  refine meets_bind (meets_regularOrMissing ?_ fun hf => hf.elim)
  split_ifs with hstale
  · refine meets_bind (meets_openFile (fun x _ => ?_) (fun hnone => ?_) fun hf => hf.elim)
    · refine meets_bind (meets_inspect ?_ fun hf => hf.elim)
      refine meets_atomically ⟨?_, Std.ExtTreeMap.size_erase_le⟩ (fun hf => hf.elim)
        fun hf => hf.elim
      simp [Folder.remove]
    · rw [(not_contains_eq d pendingName).mpr hnone] at hstale
      cases hstale
  · refine meets_pure ⟨?_, le_rfl⟩
    rwa [Std.ExtTreeMap.contains_iff_mem] at hstale

lemma succeeds_writeMarker {name : String} (hfits : (markerText name).length ≤ u64Max) :
    Succeeds d (writeMarker name) fun _ _ => True := by
  have hwrite : ∀ {d' : Folder} {m : ℕ}, Succeeds d' (do
      lockFile markerTempName
      setLen m 0
      writeAll m (utf8 (name.toList ++ ['\n']))
      syncData m
      renameFile markerTempName activeName
      syncDirectory) fun _ _ => True := by
    intro d' m
    refine meets_bind (meets_inspect ?_ fun hf => hf.elim)
    refine meets_bind (meets_atomically ?_ (fun hf => hf.elim) fun hf => hf.elim)
    refine meets_bind (meets_writeAll (fun _ => ?_) (fun hlong => ?_) fun hf => hf.elim)
    · refine meets_bind (meets_syncData ?_ fun hf => hf.elim)
      refine meets_bind (meets_atomically ?_ (fun hf => hf.elim) fun hf => hf.elim)
      exact meets_inspect trivial fun hf => hf.elim
    · rw [Folder.content_truncate_self, List.take_zero, List.length_nil, Nat.zero_add] at hlong
      exact absurd hfits (not_le.mpr hlong)
  refine meets_bind (meets_regularOrMissing ?_ fun hf => hf.elim)
  exact meets_bind (meets_openOrCreate (fun _ _ => hwrite) (fun _ => hwrite) (fun hf => hf.elim)
    fun hf => hf.elim)

lemma entries_sync_recoverIn (d : Folder) (file : ℕ) (r : Recovery) :
    ((recoverIn file d r).sync file).entries = d.entries := by
  rw [sync_recoverIn, Folder.entries_update]

end calls

section succeeds
variable [Crates] {d : Folder} {file : ℕ}

lemma succeeds_stageHeader : Succeeds d stageHeader fun _ d' =>
    d'.entries.size ≤ d.entries.size + 1 := by
  refine meets_bind (meets_mono succeeds_removeStale (fun _ d₁ h₁ => ?_) fun _ _ he => he)
  refine meets_bind (meets_createNew (fun _ => ?_) (fun hthere => absurd hthere h₁.1)
    (fun hf => hf.elim) fun hf => hf.elim)
  refine meets_bind (meets_inspect ?_ fun hf => hf.elim)
  have hempty : (d₁.create pendingName).content d₁.inodes.length = [] := by
    rw [Folder.content_create, Folder.content_of_le _ _ le_rfl]
  have hfits := headerLine_fits
  generalize headerLine = line at hfits
  refine meets_bind (@meets_writeAll False _ _ _ line _ (fun _ => ?_) (fun hlong => ?_)
    fun hf => hf.elim)
  · refine meets_bind (meets_syncData (meets_pure ?_) fun hf => hf.elim)
    have hsize : (d₁.create pendingName).entries.size ≤ d₁.entries.size + 1 :=
      Std.ExtTreeMap.size_insert_le
    exact hsize.trans (Nat.succ_le_succ h₁.2)
  · rw [hempty, List.length_nil, Nat.zero_add] at hlong
    exact absurd hfits (not_le.mpr hlong)

/-- A free name is found before the rounds are over. -/
lemma succeeds_publishSegment (now : ℤ) {last : ℕ} (hfree : segmentName now last ∉ d.entries)
    (rounds sequence : ℕ) (hle : sequence ≤ last) (hlt : last < sequence + rounds) :
    Succeeds d (publishSegment file now rounds sequence) fun name _ =>
      ∃ k ≤ last, name = segmentName now k := by
  induction rounds generalizing sequence with
  | zero => omega
  | succ rounds ih =>
    refine meets_bind (meets_hardLink (fun _ => ?_) (fun htaken => ?_) (fun hf => hf.elim)
      fun hf => hf.elim)
    · exact meets_pure ⟨sequence, hle, rfl⟩
    · have hne : sequence ≠ last := by
        rintro rfl
        exact hfree htaken
      exact ih (sequence + 1) (by omega) (by omega)

/-- **A new segment** is made, whatever is in the directory. -/
lemma succeeds_createSegment {now : ℤ} (hfits : ∀ k ≤ d.entries.size + 1,
    (markerText (segmentName now k)).length ≤ u64Max) :
    Succeeds d (createSegment now) fun _ _ => True := by
  refine meets_bind (meets_mono succeeds_stageHeader (fun file d₁ hsize => ?_) fun _ _ he => he)
  obtain ⟨last, hlast, hfree⟩ := exists_free d₁.entries (segmentName_injective now)
  refine meets_bind (meets_get (meets_bind (meets_mono
    (succeeds_publishSegment now hfree _ 0 (Nat.zero_le _) (by omega)) (fun name d₂ hname => ?_)
    fun _ _ he => he)))
  obtain ⟨k, hk, rfl⟩ := hname
  refine meets_bind (meets_atomically ?_ (fun hf => hf.elim) fun hf => hf.elim)
  refine meets_bind (meets_inspect ?_ fun hf => hf.elim)
  refine meets_bind (meets_mono (succeeds_writeMarker (hfits k (by omega))) (fun _ d₃ _ => ?_)
    fun _ _ he => he)
  exact meets_pure trivial

end succeeds

/-! ### Directories that open -/

section crates
variable [Crates]

/-- The segment of the marker can be recovered. -/
def Recoverable (d : Folder) : Prop := ∀ name file, Marks d name file →
  (∃ now sequence, name = segmentName now sequence ∧ yearOf (dateNaive now) ≤ 9999) ∧
    ¬ Torn (d.content file)

section recovery
variable {d : Folder} {share : ℕ → Share} {acknowledged failed : List Batch} {file : ℕ}
  {name : String}

lemma Shelf.recovery_iff (h : Shelf d share acknowledged failed) (hm : Marks d name file) :
    (∃ r, recovery name (d.content file) = .ok r) ↔ ¬ Torn (d.content file) := by
  obtain ⟨i, hi, ⟨p, hp, hcontent, -⟩, -⟩ := h.files file (h.marks hm).2.1
  rw [Folder.content, hi]
  change (∃ r, recovery name i.content = .ok r) ↔ ¬ Torn i.content
  rw [text_eq] at hcontent
  have hne : i.content ≠ [] := by
    rw [hcontent, headerLine_eq]
    simp
  obtain ⟨htorn, hwhole⟩ := opened_cut name (share file).batches.flatten hp
  rw [← hcontent, opened, if_neg hne] at htorn hwhole
  rw [hcontent, torn_rows, ← hcontent]
  constructor
  · rintro ⟨r, hr⟩ ht
    have hopened := htorn ht
    rw [hr] at hopened
    cases hopened
  · intro ht
    obtain ⟨content, hopened, -⟩ := hwhole ht
    cases hr : recovery name i.content with
    | ok r => exact ⟨r, rfl⟩
    | error e =>
      rw [hr] at hopened
      cases hopened

lemma Shelf.recoverable_iff (h : Shelf d share acknowledged failed) (hm : Marks d name file) :
    Recoverable d ↔ validName name = true ∧ ¬ Torn (d.content file) := by
  constructor
  · intro hr
    obtain ⟨⟨now, sequence, rfl, hyear⟩, htorn⟩ := hr name file hm
    exact ⟨(validName_segmentName now sequence).mpr hyear, htorn⟩
  · rintro ⟨hvalid, htorn⟩ name' file' hm'
    obtain ⟨m, hentry, hname, hfile⟩ := hm
    obtain ⟨m', hentry', hname', hfile'⟩ := hm'
    obtain rfl := Option.some.inj (hentry.symm.trans hentry')
    obtain rfl := Option.some.inj (hname.symm.trans hname')
    obtain rfl := Option.some.inj (hfile.symm.trans hfile')
    obtain ⟨now, sequence, rfl⟩ := (h.marks ⟨m, hentry, hname, hfile⟩).1
    exact ⟨⟨now, sequence, rfl, (validName_segmentName now sequence).mp hvalid⟩, htorn⟩

/-- Recovery returns exactly if the segment of the marker can be recovered. -/
lemma Shelf.recovers_iff (h : Shelf d share acknowledged failed) :
    Meets False d recoverDirectory (fun _ d' => Recoverable d ∧ d'.entries = d.entries)
      fun _ _ => ¬ Recoverable d := by
  refine meets_bind (meets_regularOrMissing ?_ fun hf => hf.elim)
  split_ifs with hmarked
  · refine meets_bind (meets_openFile (fun m hm => ?_) (fun hnone => ?_) fun hf => hf.elim)
    · obtain ⟨-, name, hsegment, htext, file, -, hfile⟩ := h.marker m hm
      have hcontent : d.content m = markerText name := by
        rw [Folder.content, htext]
        rfl
      have hmarks : Marks d name file := ⟨m, hm, by rw [hcontent, hsegment.markedName_eq], hfile⟩
      have hiff := h.recoverable_iff hmarks
      have hthere : d.entries.contains name = true := by
        rw [Std.ExtTreeMap.contains_eq_isSome_getElem?, hfile]
        rfl
      refine meets_bind (meets_readContent ?_ fun hf => hf.elim)
      rw [hcontent, hsegment.markedName_eq]
      refine meets_bind (meets_require (fun name' hname => ?_) fun hnone => by cases hnone)
      obtain rfl := Option.some.inj hname
      refine meets_bind (meets_ensure (fun hvalid => ?_)
        fun hinvalid hr => hinvalid (hiff.mp hr).1)
      refine meets_bind (meets_regularOrMissing ?_ fun hf => hf.elim)
      refine meets_bind (meets_ensure (fun _ => ?_) fun hmissing => absurd hthere hmissing)
      refine meets_bind (meets_openFile (fun file' hfile' => ?_) (fun hnone => ?_)
        fun hf => hf.elim)
      · obtain rfl := Option.some.inj (hfile.symm.trans hfile')
        refine meets_bind (meets_inspect ?_ fun hf => hf.elim)
        refine meets_bind (meets_recoverFile (fun r hr => ?_) (fun e he hr => ?_)
          (fun hf => hf.elim) (fun hf => hf.elim) fun hf => hf.elim)
        · have htorn := (h.recovery_iff hmarks).mp ⟨r, hr⟩
          refine meets_syncData ⟨hiff.mpr ⟨hvalid, htorn⟩, ?_⟩ fun hf => hf.elim
          exact entries_sync_recoverIn d file r
        · obtain ⟨r, hok⟩ := (h.recovery_iff hmarks).mpr (hiff.mp hr).2
          rw [he] at hok
          cases hok
      · rw [hfile] at hnone
        cases hnone
    · rw [(not_contains_eq d activeName).mpr hnone] at hmarked
      cases hmarked
  · refine meets_pure ⟨?_, rfl⟩
    rintro name file ⟨m, hm, -⟩
    rw [Bool.not_eq_true, not_contains_eq, hm] at hmarked
    cases hmarked

lemma Shelf.recoverable_quiet {d' : Folder} (h : Shelf d share acknowledged failed)
    (hq : Quiet d d') : Recoverable d' ↔ Recoverable d := by
  have hmarks : ∀ name file, Marks d' name file ↔ Marks d name file := by
    intro name file
    refine ⟨fun hm => ?_, fun hm => hq.active (h.marks hm).1 hm⟩
    have hsegment := ((h.quiet hq).marks hm).1
    obtain ⟨m, hentry, hname, hfile⟩ := hm
    rw [hq.entries activeName (by decide) (by decide)] at hentry
    rw [hq.entries name (hsegment.ne_hidden rfl) (hsegment.ne_hidden rfl)] at hfile
    rw [Folder.content, hq.files m (d.there _ _ hentry), ← Folder.content] at hname
    exact ⟨m, hentry, hname, hfile⟩
  unfold Recoverable
  refine forall₂_congr fun name file => ?_
  rw [hmarks]
  refine imp_congr_right fun hm => ?_
  rw [Folder.content, hq.files file (h.lt_length (h.marks hm).2.1), ← Folder.content]

end recovery

/-- **Restart**: after any run that has left no journal open, a process that opens one without
failing calls gets it exactly if the segment of the marker can be recovered: it does not end with a
line break within quotes, and its name is of a year before 10000. -/
theorem reopens_iff {events : List Event} {limit : Option ℕ} {now : ℤ}
    (hnone : (run events).journal = none) (hlimit : limit ≠ some 0)
    (hfits : ∀ k ≤ (run events).folder.entries.size + 2,
      (markerText (segmentName now k)).length ≤ u64Max) :
    (step (run events) (.opened limit now [])).journal.isSome = true ↔
      Recoverable (run events).folder := by
  obtain ⟨share, hshelf⟩ := (good_run events).shelved
  generalize run events = m at hnone hfits hshelf ⊢
  have hopen : Meets False m.folder (openAt .directory limit now)
      (fun _ _ => Recoverable m.folder) fun _ _ => ¬ Recoverable m.folder := by
    refine meets_bind (meets_ensure (fun _ => ?_) fun hbad => absurd ?_ hbad)
    · refine meets_bind (meets_regularOrMissing ?_ fun hf => hf.elim)
      refine meets_opened (fun d hd _ => ?_) (fun hf => hf.elim) fun hf => hf.elim
      -- the lock file matters neither to the segments nor to the marker
      have hcreated := quiet_create m.folder
      have hsize : (m.folder.create lockName).entries.size ≤ m.folder.entries.size + 1 :=
        Std.ExtTreeMap.size_insert_le
      have hlocked : Shelf d share m.acknowledged m.failed ∧
          d.entries.size ≤ m.folder.entries.size + 1 ∧
          (Recoverable d ↔ Recoverable m.folder) := by
        rcases hd with rfl | rfl
        · exact ⟨hshelf, Nat.le_succ _, Iff.rfl⟩
        · exact ⟨hshelf.quiet hcreated, hsize, hshelf.recoverable_quiet hcreated⟩
      obtain ⟨h, hle, hiff⟩ := hlocked
      rw [← hiff]
      refine meets_bind (meets_inspect ?_ fun hf => hf.elim)
      refine meets_bind (meets_mono h.recovers_iff (fun _ d₁ h₁ => ?_) fun _ _ he => he)
      obtain ⟨hrecoverable, hentries⟩ := h₁
      have hcreate : Succeeds d₁ (createSegment now) fun _ _ => True := by
        refine succeeds_createSegment fun k hk => hfits k ?_
        rw [hentries] at hk
        omega
      refine meets_bind (meets_mono hcreate (fun r d₂ _ => ?_) fun _ _ he => he.elim)
      exact meets_bind (meets_metadataLen (meets_pure hrecoverable) fun hf => hf.elim)
    · simp [hlimit]
  have hends := hopen [] (.inl rfl)
  simp only [step, hnone, Option.isSome_none]
  rcases hr : openAt .directory limit now ([], m.folder) with ⟨e | j, io, d⟩
  · rw [hr] at hends
    exact iff_of_false (by simp) hends
  · rw [hr] at hends
    exact iff_of_true rfl hends.2

end crates

/-- A process is killed after its first batch. -/
def killed : List Event :=
  [.opened none 0 [], .appended [timeoutRow] 1 [], .crashed fun _ => 0]

open scoped Standard in
theorem killed_reopens : (step (run killed) (.opened none 2 [])).journal.isSome = true := by
  have hmarks : Marks (run killed).folder "netband-19700101T000000.000Z.csv" 1 :=
    ⟨2, by decide +kernel, by decide +kernel, by decide +kernel⟩
  obtain ⟨share, hshelf⟩ := (good_run killed).shelved
  have hrecoverable : Recoverable (run killed).folder :=
    (hshelf.recoverable_iff hmarks).mpr ⟨by decide +kernel, by decide +kernel⟩
  exact (reopens_iff rfl (by simp) (by decide +kernel)).mpr hrecoverable

end Netband.Survival

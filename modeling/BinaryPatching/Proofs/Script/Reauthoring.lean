import BinaryPatching.Proofs.FileTree.Resolution
import BinaryPatching.Proofs.Patch.Format
import BinaryPatching.Proofs.Script.OpenFiles

/-!
# `BinaryPatching.Proofs.Script.Reauthoring` — the record of a file that is opened again

When a file is opened, a fresh record takes the place of an older one in the store. Which record that is, is a question
of spelling: the fresh one has its path in the normal form, and goes in for all whose paths are spelled like that, but
for the case of letters. A record whose path leads to the same file in another spelling stays, and then the file has two.

## Contents
- `Destination.normalize_recordPath`: the path of a record is in the normal form.
- `Destination.freshRecord`: the record of a file without patches.
- `Refiled`, `Refiled.alone_of_isPlain`, `TargetVersion.refiled_replaceFile`: a fresh record, and when it is the only
  one for its file.
- `ScriptRun.openImage_eq_ok_iff`, `ScriptRun.refiled_openImage`: the record of a file that has been opened.
- `ScriptRun.exists_openImage_not_alone`: a file with two records.
-/

namespace BinaryPatching

open Text

/-! ## Paths of records -/

namespace Path

/-- A path in the normal form does not start with a separator. -/
theorem not_isSeparator_of_normalize {path : String} {c : Char} (h : (normalize path).toList.head? = some c) :
    isSeparator c = false := by
  rw [normalize, Text.toList_onChars, List.head?_map, Option.map_eq_some_iff] at h
  obtain ⟨b, hb, rfl⟩ := h
  have hnot := List.head?_dropWhile_not isSeparator path.toList
  rw [hb] at hnot
  rw [if_neg]
  · exact hnot
  · rintro rfl
    exact absurd hnot (by decide)

/-- That and having no separator `/` is what makes the normal form. -/
theorem normalize_eq_self {path : String} (hhead : ∀ c, path.toList.head? = some c → isSeparator c = false)
    (hslash : '/' ∉ path.toList) : normalize path = path := by
  have hdrop : path.toList.dropWhile isSeparator = path.toList := by
    cases hpath : path.toList with
    | nil => rfl
    | cons c rest =>
      have hc : isSeparator c = false := hhead c (by rw [hpath]; rfl)
      rw [List.dropWhile_cons_of_neg (by rw [hc]; exact Bool.false_ne_true)]
  have hmap : (path.toList.map fun c => if c = '/' then '\\' else c) = path.toList := by
    conv_rhs => rw [← List.map_id path.toList]
    refine List.map_congr_left fun c hc => if_neg ?_
    rintro rfl
    exact hslash hc
  apply String.toList_inj.1
  rw [normalize, Text.toList_onChars, hdrop, hmap]

end Path

/-- What is trimmed at the end keeps its start. -/
theorem head?_trimmed {isTrimmed : Char → Bool} {c : Char} (hc : isTrimmed c = false) (rest : List Char) :
    ((c :: rest).reverse.dropWhile isTrimmed).reverse.head? = some c := by
  rw [List.reverse_cons, List.dropWhile_append]
  split
  · rw [List.dropWhile_cons_of_neg (by rw [hc]; exact Bool.false_ne_true)]
    rfl
  · rw [List.reverse_append]
    rfl

/-- **The path of a record** is in the normal form. -/
theorem Destination.normalize_recordPath (d : Destination) (name : String) :
    Path.normalize (d.recordPath name) = d.recordPath name := by
  unfold recordPath
  dsimp only
  split
  · exact Path.normalize_normalize name
  · rename_i hdirectory
    have hclear := Path.slash_not_mem_normalize d.relativePath
    have hstart : ∀ c, (Path.normalize d.relativePath).toList.head? = some c → Path.isSeparator c = false :=
      fun c => Path.not_isSeparator_of_normalize
    cases hcs : (Path.normalize d.relativePath).toList with
    | nil => exact absurd (String.isEmpty_iff.2 (String.toList_eq_nil_iff.1 hcs)) hdirectory
    | cons c rest =>
      rw [hcs] at hclear hstart
      have hc : (c == '\\') = false := by
        refine beq_eq_false_iff_ne.2 ?_
        rintro rfl
        exact absurd (hstart _ rfl) (by decide)
      -- The directory loses separators at its end, and so it starts as before.
      have htrimmed := @head?_trimmed (· == '\\') c hc rest
      refine Path.normalize_eq_self (fun b hb => ?_) ?_
      · rw [String.toList_append, String.toList_append, Text.toList_onChars, hcs, List.append_assoc, List.head?_append,
          htrimmed, Option.some_or, Option.some.injEq] at hb
        exact hb ▸ hstart c rfl
      · rw [String.toList_append, String.toList_append, Text.toList_onChars, hcs, List.mem_append, List.mem_append]
        rintro ((hmem | hmem) | hmem)
        · rw [List.mem_reverse] at hmem
          exact hclear (List.mem_reverse.1 ((List.dropWhile_sublist _).subset hmem))
        · exact absurd hmem (by decide)
        · exact Path.slash_not_mem_normalize name hmem

/-! ## Fresh records -/

/-- The version at a destination, or a fresh one where it is missing. -/
def PatchStore.versionAt (store : PatchStore) (d : Destination) : TargetVersion :=
  (store.version? d.name d.version).getD ⟨d.version, []⟩

theorem PatchStore.version?_replaceFile (store : PatchStore) (d : Destination) (fresh : TargetFile) :
    (store.updateVersion d.name d.version (·.replaceFile fresh)).version? d.name d.version
      = some ((store.versionAt d).replaceFile fresh) := by
  have hname : ∀ v : TargetVersion, (v.replaceFile fresh).description = v.description := fun _ => rfl
  exact PatchStore.version?_updateVersion hname store

/-- **The version at the destination** once a file is opened. -/
theorem Session.version?_begin (s : Session) (d : Destination) (name path : String) (image : Image) (code : CodeMap) :
    (s.begin d (OpenFile.start name path image code)).store.version? d.name d.version
      = some ((s.store.versionAt d).replaceFile (TargetFile.new path (Bytes.sha1 image.data))) :=
  PatchStore.version?_replaceFile s.store d _

theorem OpenFile.path_start (name path : String) (image : Image) (code : CodeMap) :
    (start name path image code).path = path := rfl

/-- **The record of a file without patches**: the file is the same before and after. -/
def Destination.freshRecord (d : Destination) (name : String) (image : Image) : TargetFile :=
  ⟨d.recordPath name, Bytes.sha1 image.data, Bytes.sha1 image.data, [], []⟩

theorem Destination.new_recordPath (d : Destination) (name : String) (image : Image) :
    TargetFile.new (d.recordPath name) (Bytes.sha1 image.data) = d.freshRecord name image := by
  rw [TargetFile.new, d.normalize_recordPath, freshRecord]

/-- **A fresh record filed** among the files of a version. -/
structure Refiled (before after : List TargetFile) (fresh : TargetFile) : Prop where
  /-- It goes in for all whose paths are spelled like its own. -/
  files_eq : after = before.filter (fun g => !equalIgnoringCase g.path fresh.path) ++ [fresh]
  /-- It is the only one for its file exactly if all others had their paths spelled like that. -/
  alone_iff : ∀ root, after.filter (fun g => Path.leadAlike root g.path fresh.path) = [fresh] ↔
    ∀ g ∈ before, Path.leadAlike root g.path fresh.path = true → equalIgnoringCase g.path fresh.path = true

/-- **A fresh record is the only one for its file** among records with plain paths. -/
theorem Refiled.alone_of_isPlain {before after : List TargetFile} {fresh : TargetFile} (h : Refiled before after fresh)
    (hfresh : Path.IsPlain fresh.path) (hbefore : ∀ g ∈ before, Path.IsPlain g.path) (root : String) :
    after.filter (fun g => Path.leadAlike root g.path fresh.path) = [fresh] :=
  (h.alone_iff root).2 fun g hg halike => Path.equalIgnoringCase_of_leadAlike (hbefore g hg) hfresh halike

/-- **A record put in the place of an older one**, with its path in the normal form. -/
theorem TargetVersion.refiled_replaceFile (version : TargetVersion) {fresh : TargetFile}
    (hpath : Path.normalize fresh.path = fresh.path) :
    Refiled version.files (version.replaceFile fresh).files fresh := by
  have hfiles : (version.replaceFile fresh).files
      = version.files.filter (fun g => !equalIgnoringCase g.path fresh.path) ++ [fresh] := by
    unfold replaceFile TargetFile.isAt
    rw [hpath]
  refine ⟨hfiles, fun root => ?_⟩
  have hfresh : [fresh].filter (fun g => Path.leadAlike root g.path fresh.path) = [fresh] :=
    List.filter_eq_self.2 fun g hg => by rw [List.mem_singleton.1 hg, Path.leadAlike_refl]
  rw [hfiles, List.filter_append, hfresh, List.append_left_eq_self, List.filter_filter, List.filter_eq_nil_iff]
  refine forall₂_congr fun g _ => ?_
  rw [Bool.and_eq_true, Bool.not_eq_true', not_and, Bool.not_eq_false]

namespace ScriptRun

variable {config : Config} {r s : ScriptRun} {name : String} {image : Image}

/-- **An image is opened** once the file before it is closed, a destination is chosen, and its code is loaded. -/
theorem openImage_eq_ok_iff :
    r.openImage config name image = (.ok (), s) ↔ ∃ q d code files, r.closeFile config = (.ok (), q) ∧
      q.session.destination = some d ∧
      loadCode config image (d.recordPath name) (Bytes.hex (Bytes.sha1 image.data)) q.files = .ok (code, files) ∧
      s = { q with files, session := q.session.begin d (OpenFile.start name (d.recordPath name) image code) } := by
  unfold openImage Progress.andThen
  constructor
  · intro h
    split at h
    · cases h
    · rename_i q hclose
      dsimp only at h
      split at h
      · cases h
      · rename_i d hd
        split at h
        · cases h
        · rename_i code files hload
          cases h
          exact ⟨q, d, code, files, hclose, hd, hload, rfl⟩
  · rintro ⟨q, d, code, files, hclose, hd, hload, rfl⟩
    rw [hclose]
    dsimp only
    rw [hd]
    dsimp only
    rw [hload]

/-- **The record of a file that has been opened** is a fresh one, in the version at the destination. It goes in for the
    records of the version that are spelled like it. -/
theorem refiled_openImage (h : r.openImage config name image = (.ok (), s)) :
    ∃ d f version, s.session.destination = some d ∧ s.session.file = some f ∧ f.path = d.recordPath name ∧
      s.session.store.version? d.name d.version = some version ∧
      Refiled ((r.closeFile config).2.session.store.versionAt d).files version.files (d.freshRecord name image) := by
  obtain ⟨q, d, code, files, hclose, hd, _, rfl⟩ := openImage_eq_ok_iff.1 h
  refine ⟨d, _, _, hd, rfl, OpenFile.path_start _ _ _ _, q.session.version?_begin d _ _ _ _, ?_⟩
  rw [hclose, d.new_recordPath]
  exact TargetVersion.refiled_replaceFile _ (d.normalize_recordPath name)

/-- A store with the record of one file. -/
def storeWith (path : String) : PatchStore := ⟨[⟨"D", [⟨"1", [⟨path, Bytes.sha1 [0], Bytes.sha1 [0], [], []⟩]⟩]⟩]⟩

/-- Where the record is. -/
def recordPlace : Destination := ⟨"D", "1", "", ""⟩

/-- A run with that store, in which patches are filed there. -/
def reopening (path : String) : ScriptRun :=
  ⟨{ Session.start (storeWith path) with destination := some recordPlace }, ⟨[], []⟩, .failing .notConfigured⟩

/-- The file is opened in it. -/
theorem exists_openImage_reopening (path : String) :
    ∃ s, (reopening path).openImage .standard "efi/boot.efi" (.blank [0] 0) = (.ok (), s) ∧
      s.session.store.version? "D" "1" = some (((storeWith path).versionAt recordPlace).replaceFile
        (TargetFile.new (recordPlace.recordPath "efi/boot.efi") (Bytes.sha1 [0]))) :=
  ⟨_, openImage_eq_ok_iff.2 ⟨_, _, _, _, rfl, rfl, rfl, rfl⟩, Session.version?_begin _ recordPlace _ _ _ _⟩

/-- There the fresh record goes in for one that is spelled in capitals. -/
theorem refiled_openImage_reopening :
    ∃ s, (reopening "EFI\\BOOT.EFI").openImage .standard "efi/boot.efi" (.blank [0] 0) = (.ok (), s) ∧
      ∃ d f version, s.session.destination = some d ∧ s.session.file = some f ∧ f.path = d.recordPath "efi/boot.efi" ∧
        s.session.store.version? d.name d.version = some version ∧
        Refiled (((reopening "EFI\\BOOT.EFI").closeFile .standard).2.session.store.versionAt d).files version.files
          (d.freshRecord "efi/boot.efi" (.blank [0] 0)) := by
  obtain ⟨s, hopen, _⟩ := exists_openImage_reopening "EFI\\BOOT.EFI"
  exact ⟨s, hopen, refiled_openImage hopen⟩

/-- **Not every opened file has one record**: an older one has `/` in its path, and stays. -/
theorem exists_openImage_not_alone :
    ¬∀ (text : String) (store : PatchStore) (config : Config) (d : Destination) (files : FileTree)
      (assembler : Assembler) (name : String) (image : Image) (s : ScriptRun), PatchStore.parse text = .ok store →
      openImage config ⟨{ Session.start store with destination := some d }, files, assembler⟩ name image
        = (.ok (), s) →
      ∀ version, s.session.store.version? d.name d.version = some version → ∀ root,
        version.files.filter (fun g => Path.leadAlike root g.path (d.recordPath name)) = [d.freshRecord name image] := by
  intro h
  have hvalid : (storeWith "efi/boot.efi").validate = .ok () := by decide +kernel
  obtain ⟨s, hopen, hversion⟩ := exists_openImage_reopening "efi/boot.efi"
  have hone := h _ _ _ _ _ _ _ _ s (PatchStore.parse_write_of_valid hvalid) hopen _ hversion "root"
  exact absurd (congrArg List.length hone) (by decide +kernel)

end ScriptRun

end BinaryPatching

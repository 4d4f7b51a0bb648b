import CsdlAudit.Config.Save
import CsdlAudit.Proofs.Config.Layers
import CsdlAudit.Proofs.Directory.FileTree
import CsdlAudit.Proofs.Text.Pieces

/-!
# A saved configuration loads back

A configuration that is saved is written to a file, and loading it reads that file as one layer of
several. Three things decide whether it comes back:

* The file has to be found, so its name must say that it is a settings file
  (`namesSettings_of_ending`). A file called `.toml` has no ending and is not taken for one
  (`Config.load_save_no_stem`).
* It has to be read as what was written (`Config.read?_written`). Then it decides every setting,
  whatever the layers below say (`Config.load_of_file`).
* The layers below have to be readable. If there are no other settings files, what is found in the
  usual places can only be the saved file itself (`content?_of_settingsFile`).

Main statement: `Config.load_save`.
-/

namespace CsdlAudit

variable {tree : Tree} {vars : Variables} {path place file : String} {c : Config}

/-! ## Names of settings files -/

/-- **A name with more than its ending** says that a file is a settings file. -/
theorem namesSettings_of_ending (hending : ".toml".toList <:+ path.toList)
    (hname : (Tree.parts path).getLast? ≠ some ".toml") : namesSettings path = true := by
  obtain ⟨front, last, hparts⟩ := Tree.parts_of_ending (by decide) hending
  have hlast : last ≠ [] := by
    rintro rfl
    exact hname (by rw [hparts]; simp)
  have hlong : ∀ s : String, s.toList.length ≤ 1 → String.ofList (last ++ ".toml".toList) ≠ s := by
    rintro s hs rfl
    simp at hs
  have hkept : [String.ofList (last ++ ".toml".toList)].filter (fun p => p != "" && p != ".") =
      [String.ofList (last ++ ".toml".toList)] := by
    rw [List.filter_eq_self]
    intro p hp
    rw [List.mem_singleton.mp hp, Bool.and_eq_true, bne_iff_ne, bne_iff_ne]
    exact ⟨hlong "" (by decide), hlong "." (by decide)⟩
  have hplain :
      (Tree.plainParts path).getLast? = some (String.ofList (last ++ ".toml".toList)) := by
    rw [Tree.plainParts, hparts, List.filter_append, hkept, List.getLast?_concat]
  have hcut : Text.splitLast '.' (String.ofList (last ++ ".toml".toList)) =
      some (String.ofList last, "toml") :=
    Text.splitLast_eq_some (by simp) (by decide)
  rw [namesSettings, hplain, Option.getD_some, hcut]
  simpa using hlast

/-! ## Loading a file over readable layers -/

/-- The file at a path is read as named values. -/
def IsReadable (tree : Tree) (file : String) : Prop :=
  ∃ content fields, tree.content? file = some content ∧
    Toml.read? content.textReplacing = some fields

/-- A file that is read is laid over any settings. -/
theorem IsReadable.layFile (h : IsReadable tree file) (root : Setting) :
    ∃ settings, layFile tree root file = .ok settings := by
  obtain ⟨content, fields, hcontent, hread⟩ := h
  exact ⟨layValues (tidyPath file) root fields, by simp [CsdlAudit.layFile, hcontent, hread]⟩

/-- **Layers that are read leave settings.** -/
theorem foldlM_layIfThere {places : List String}
    (h : ∀ place ∈ places, ∀ file, settingsFile tree place = .ok file → IsReadable tree file)
    (root : Setting) : ∃ settings, places.foldlM (layIfThere tree) root = .ok settings := by
  induction places generalizing root with
  | nil => exact ⟨root, rfl⟩
  | cons place places ih =>
    obtain ⟨hplace, hplaces⟩ := List.forall_mem_cons.mp h
    obtain ⟨settings, hlay⟩ : ∃ settings, layIfThere tree root place = .ok settings := by
      cases hfile : settingsFile tree place with
      | error e => exact ⟨root, by simp [layIfThere, hfile]⟩
      | ok file =>
        obtain ⟨settings, hlay⟩ := (hplace file hfile).layFile root
        exact ⟨settings, by simp [layIfThere, hfile, hlay]⟩
    rw [List.foldlM_cons, hlay]
    exact ih hplaces settings

/-- No variable of the environment has a setting. -/
def NoSettingVariables (vars : Variables) : Prop :=
  ∀ v ∈ vars, Text.afterStart? variableStart (Text.lowercase v.1) = none

instance (vars : Variables) : Decidable (NoSettingVariables vars) :=
  inferInstanceAs (Decidable (∀ v ∈ vars, _))

theorem foldl_layVariable (h : NoSettingVariables vars) (root : Setting) :
    vars.foldl layVariable root = root := by
  induction vars with
  | nil => rfl
  | cons v vars ih =>
    obtain ⟨hv, hvars⟩ := List.forall_mem_cons.mp h
    rw [List.foldl_cons, layVariable, hv]
    exact ih hvars

namespace Config

/-- A file that is asked for is laid over the layers below it. -/
theorem load_some {settings : Setting}
    (h : (usualPlaces ++ (userPlace? tree vars).toList).foldlM (layIfThere tree) .empty =
      .ok settings) (path : String) :
    Config.load tree vars (some path) =
      settingsFile tree path >>= fun file => layFile tree settings file >>= fun settings =>
        (vars.foldl layVariable settings).config := by
  rw [Config.load, h]
  rfl

/-- **A settings file of a configuration decides what is loaded**, if the other settings files are
read and no variable has a setting. -/
theorem load_of_file {text : String} (hfile : settingsFile tree path = .ok path)
    (hcontent : tree.content? path = some (.text text)) (hwritten : c.written? = some text)
    (hothers : ∀ place ∈ usualPlaces ++ (userPlace? tree vars).toList, ∀ file,
      settingsFile tree place = .ok file → IsReadable tree file)
    (hvars : NoSettingVariables vars) :
    Config.load tree vars (some path) =
      .ok { c with validation :=
        { c.validation with maxConcurrency := max c.validation.maxConcurrency 1 } } := by
  obtain ⟨settings, hsettings⟩ := foldlM_layIfThere hothers .empty
  have hlay : layFile tree settings path =
      .ok (layValues (tidyPath path) settings (c.sections.map fun s => (s.1, .table s.2))) := by
    simp only [layFile, hcontent, FileContent.textReplacing, read?_written hwritten]
  rw [load_some hsettings, hfile]
  show (layFile tree settings path >>= fun settings => (vars.foldl layVariable settings).config) = _
  rw [hlay]
  show (vars.foldl layVariable _).config = _
  rw [foldl_layVariable hvars, config_layValues]

end Config

/-! ## Other settings files -/

/-- A settings file that is found is a file. -/
theorem isFile_of_settingsFile (h : settingsFile tree place = .ok file) :
    tree.isFile file = true := by
  unfold settingsFile at h
  split at h
  · next hplace =>
    split at h
    · cases h
      exact hplace
    · cases h
  · split at h
    · next found =>
      cases h
      exact (Option.filter_eq_some_iff.mp found).2
    · cases h

/-- **No settings file but the one at a path** is found where one is looked for. -/
def NoOtherSettings (tree : Tree) (vars : Variables) (path : String) : Prop :=
  ∀ place ∈ usualPlaces ++ (userPlace? tree vars).toList,
    ∀ file ∈ (settingsFile tree place).toOption, Tree.namesTo file = Tree.namesTo path

instance (tree : Tree) (vars : Variables) (path : String) :
    Decidable (NoOtherSettings tree vars path) :=
  inferInstanceAs (Decidable (∀ place ∈ _, ∀ file ∈ (settingsFile tree place).toOption, _))

section

variable {content : FileContent} (hwritable : tree.writeFault? path = none)

include hwritable

/-- What is found as another settings file after writing was found before. -/
theorem settingsFile_of_addFile
    (hfile : settingsFile (tree.addFile path content) place = .ok file)
    (hne : Tree.namesTo file ≠ Tree.namesTo path) : settingsFile tree place = .ok file := by
  have hisFile : tree.isFile file = true := by
    have h := isFile_of_settingsFile hfile
    rwa [Tree.isFile, Tree.content?_addFile_of_ne hwritable content hne] at h
  unfold settingsFile at hfile ⊢
  split at hfile
  · split at hfile
    · next hname =>
      cases hfile
      rw [if_pos hisFile, if_pos hname]
    · cases hfile
  · next hplace =>
    split at hfile
    · next found =>
      cases hfile
      have hbefore : ¬tree.isFile place = true := fun h =>
        hplace (Tree.isFile_addFile hwritable content h)
      have hending := (Option.filter_eq_some_iff.mp found).1
      rw [if_neg hbefore, Option.filter_eq_some_iff.mpr ⟨hending, hisFile⟩]
    · cases hfile

/-- A settings file of a user that is there after writing was there before, or is the written
one. -/
theorem userPlace?_of_addFile
    (hplace : place ∈ (userPlace? (tree.addFile path content) vars).toList) :
    place ∈ (userPlace? tree vars).toList ∨
      (tree.addFile path content).content? place = some content := by
  rw [Option.mem_toList] at hplace ⊢
  obtain ⟨hfolder, hthere⟩ := Option.filter_eq_some_iff.mp hplace
  by_cases hsame : Tree.namesTo place = Tree.namesTo path
  · exact .inr (Tree.content?_addFile_same hwritable hsame (Option.isSome_iff_ne_none.mp hthere))
  · have hkind := Tree.kindOf?_addFile hwritable content hsame
    have hbefore : (tree.at? place).isSome = true := by
      have h := congrArg Option.isSome hkind
      rw [Tree.kindOf?, Tree.kindOf?, Option.isSome_map, Option.isSome_map] at h
      exact h.symm.trans hthere
    exact .inl (Option.filter_eq_some_iff.mpr ⟨hfolder, hbefore⟩)

/-- **A settings file that is found after writing is the written one**, if there is no other. -/
theorem content?_of_settingsFile (hothers : NoOtherSettings tree vars path)
    (hplace : place ∈ usualPlaces ++ (userPlace? (tree.addFile path content) vars).toList)
    (hfile : settingsFile (tree.addFile path content) place = .ok file) :
    (tree.addFile path content).content? file = some content := by
  have hisFile := isFile_of_settingsFile hfile
  by_cases hsame : Tree.namesTo file = Tree.namesTo path
  · refine Tree.content?_addFile_same hwritable hsame fun hat => ?_
    rw [Tree.isFile, Tree.content?, hat] at hisFile
    cases hisFile
  · have hbefore := settingsFile_of_addFile hwritable hfile hsame
    have hnone : ∀ p ∈ usualPlaces ++ (userPlace? tree vars).toList, p ≠ place := by
      rintro p hp rfl
      exact hsame (hothers p hp file (by rw [hbefore]; rfl))
    rcases List.mem_append.mp hplace with husual | huser
    · exact absurd rfl (hnone place (List.mem_append_left _ husual))
    · rcases userPlace?_of_addFile hwritable huser with huser | hwritten
      · exact absurd rfl (hnone place (List.mem_append_right _ huser))
      · -- the place itself is the written file
        have hself : (tree.addFile path content).isFile place = true := by
          rw [Tree.isFile, hwritten]
          rfl
        rw [settingsFile, if_pos hself] at hfile
        split at hfile
        · cases hfile
          exact hwritten
        · cases hfile

/-- Where there are no other settings files, all that are found after saving are read. -/
theorem isReadable_of_addFile {text : String} (hwritten : c.written? = some text)
    (hothers : NoOtherSettings tree vars path) :
    ∀ place ∈ usualPlaces ++ (userPlace? (tree.addFile path (.text text)) vars).toList, ∀ file,
      settingsFile (tree.addFile path (.text text)) place = .ok file →
        IsReadable (tree.addFile path (.text text)) file := fun _ hplace _ hfile =>
  ⟨_, _, content?_of_settingsFile hwritable hothers hplace hfile, Config.read?_written hwritten⟩

end

/-! ## The round trip -/

namespace Config

/-- Where a file can be written, a configuration whose count can be stored is saved. -/
theorem save_eq (hfits : fitsInteger c.validation.maxConcurrency = true)
    (hwritable : tree.writeFault? path = none) : ∃ text, c.written? = some text ∧
      c.save tree path = .ok (text, tree.addFile path (.text text)) := by
  obtain ⟨text, hwritten⟩ : ∃ text, c.written? = some text := by
    unfold written?
    rw [if_pos hfits]
    exact ⟨_, rfl⟩
  exact ⟨text, hwritten, by rw [save, hwritten, saveText, hwritable]⟩

/-- **A saved configuration loads back**, but for a count of no files at a time, which becomes
one. -/
theorem load_save (hfits : fitsInteger c.validation.maxConcurrency = true)
    (hwritable : tree.writeFault? path = none) (hending : ".toml".toList <:+ path.toList)
    (hname : (Tree.parts path).getLast? ≠ some ".toml") (hothers : NoOtherSettings tree vars path)
    (hvars : NoSettingVariables vars) :
    ∃ text saved, c.save tree path = .ok (text, saved) ∧
      Config.load saved vars (some path) =
        .ok { c with validation :=
          { c.validation with maxConcurrency := max c.validation.maxConcurrency 1 } } := by
  obtain ⟨text, hwritten, hsave⟩ := save_eq hfits hwritable
  have hcontent := Tree.content?_addFile hwritable (.text text)
  have hfile : settingsFile (tree.addFile path (.text text)) path = .ok path := by
    rw [settingsFile, if_pos (by rw [Tree.isFile, hcontent]; rfl),
      if_pos (namesSettings_of_ending hending hname)]
  have hreadable := isReadable_of_addFile hwritable hwritten hothers
  exact ⟨text, _, hsave, load_of_file hfile hcontent hwritten hreadable hvars⟩

/-- A configuration with texts that are written in different ways. -/
def quotedTexts : Config where
  validation := ⟨0, "a\"b\\c'\n\x01\té", ["", "'''\"\"\"", "C:\\", "\n"]⟩
  conflicts := ⟨.conservative, false, true⟩
  graph := ⟨"'\"", false, true, false⟩

/-- Texts that are written in different ways come back from a folder that is left again. -/
theorem load_save_quoted :
    fitsInteger quotedTexts.validation.maxConcurrency = true ∧
      Tree.writeFault? (.folder [("conf", .empty)]) "conf/../saved.toml" = none ∧
      ".toml".toList <:+ "conf/../saved.toml".toList ∧
      (Tree.parts "conf/../saved.toml").getLast? ≠ some ".toml" ∧
      NoOtherSettings (.folder [("conf", .empty)]) [("HOME", "/home/u")] "conf/../saved.toml" ∧
      NoSettingVariables [("HOME", "/home/u")] ∧
      ∃ text saved,
        quotedTexts.save (.folder [("conf", .empty)]) "conf/../saved.toml" = .ok (text, saved) ∧
        Config.load saved [("HOME", "/home/u")] (some "conf/../saved.toml") =
          .ok { quotedTexts with
            validation := { quotedTexts.validation with maxConcurrency := 1 } } :=
  ⟨by decide, by decide, by decide, by decide, by decide, by decide,
    load_save (by decide) (by decide) (by decide) (by decide) (by decide) (by decide)⟩

/-- **A file called `.toml` is not taken for a settings file**: saving to it succeeds, and loading
it does not. -/
theorem load_save_no_stem :
    fitsInteger Config.standard.validation.maxConcurrency = true ∧
      Tree.empty.writeFault? ".toml" = none ∧ ".toml".toList <:+ ".toml".toList ∧
      NoOtherSettings .empty [] ".toml" ∧ NoSettingVariables [] ∧
      ∃ text saved, Config.standard.save .empty ".toml" = .ok (text, saved) ∧
        Config.load saved [] (some ".toml") = .error (.unknownFormat ".toml") := by
  have hwritable : Tree.empty.writeFault? ".toml" = none := by decide
  have hothers : NoOtherSettings .empty [] ".toml" := by decide
  refine ⟨by decide, hwritable, by decide, hothers, by decide, ?_⟩
  obtain ⟨text, hwritten, hsave⟩ := save_eq (c := .standard) (by decide) hwritable
  refine ⟨text, _, hsave, ?_⟩
  have hfile : settingsFile (Tree.empty.addFile ".toml" (.text text)) ".toml" =
      .error (.unknownFormat ".toml") := by
    rw [settingsFile, if_pos (by rw [Tree.isFile, Tree.content?_addFile hwritable]; rfl),
      if_neg (by decide)]
  obtain ⟨settings, hsettings⟩ :=
    foldlM_layIfThere (isReadable_of_addFile hwritable hwritten hothers) .empty
  rw [load_some hsettings, hfile]
  rfl

end Config

end CsdlAudit

import CsdlAudit.Config.Save
import CsdlAudit.Proofs.Toml.Number
import CsdlAudit.Proofs.Toml.Sections

/-!
# The settings file that is written

A written settings file has a line for the header of each section, a line for each setting – or
several, for a list of texts – and an empty line between sections. Line by line it says what the
sections of the configuration hold (`Config.says_lines`), so it is read as these
(`Config.read?_written`). Whatever characters the texts of a configuration have, none of them is
lost and none is taken for anything else.
-/

namespace CsdlAudit

open Toml

/-! ## Values -/

/-- A truth value as it is written is read as one. -/
theorem writes_writtenFlag (b : Bool) : Writes (writtenFlag b) (.bool b) := by
  cases b <;> exact writes_word (by decide) (List.all_eq_true.mp (by decide)) rfl

/-- A count as it is written is read as one, if it can be stored. -/
theorem writes_toDigits {n : Nat} (h : fitsInteger n = true) :
    Writes (Nat.toDigits 10 n) (.integer n) := by
  refine writes_word Nat.toDigits_ne_nil (fun c hc => ?_) (scalar?_toDigits h)
  have hdigit := Text.isDigit_of_mem_toDigits hc
  simp [isWordChar, Char.isAlphanum, hdigit]

/-- The tokens of an item in a list over several lines, up to its comma. -/
def itemTokens (s : String) : List Token :=
  [.lineBreak, .space, .space, .space, .space, textToken s]

/-- The tokens between the brackets of a list over several lines. -/
def listTokens (ss : List String) : List Token :=
  ss.flatMap (fun s => itemTokens s ++ [.comma]) ++ [.lineBreak]

theorem lexes_listTokens (ss : List String) :
    Lexes ('\n' :: ss.flatMap fun s => "    ".toList ++ writeText s ++ [',', '\n'])
      (listTokens ss) := by
  induction ss with
  | nil => exact lexes_nil.mark_cons rfl
  | cons s ss ih =>
    have hitem : Lexes (writeText s ++ ',' :: _) ([textToken s] ++ .comma :: _) :=
      (lexes_writeText s).append_mark rfl ih
    have hline : Lexes ('\n' :: ' ' :: ' ' :: ' ' :: ' ' :: _)
        (.lineBreak :: .space :: .space :: .space :: .space :: _) :=
      .mark_cons rfl (.mark_cons rfl (.mark_cons rfl (.mark_cons rfl (.mark_cons rfl hitem))))
    simpa [listTokens, itemTokens] using hline

theorem isFlat_of_mem_listTokens {ss : List String} {t : Token} (h : t ∈ listTokens ss) :
    t.isFlat = true := by
  simp only [listTokens, itemTokens, List.mem_append, List.mem_flatMap, List.mem_cons,
    List.not_mem_nil, or_false] at h
  rcases h with ⟨s, -, (rfl | rfl | rfl | rfl | rfl | rfl) | rfl⟩ | rfl <;> rfl

/-- Each item of a list over several lines is its text. -/
theorem items?_listTokens (ss : List String) :
    items? ((listTokens ss).map .token) = some (ss.map .text) := by
  have hpieces : (listTokens ss).map Piece.token =
      (ss.map fun s => (itemTokens s).map Piece.token).flatMap (· ++ [Piece.token .comma]) ++
        [Piece.token .lineBreak] := by
    simp [listTokens, List.map_flatMap, List.flatMap_map]
  have hcut : ((listTokens ss).map Piece.token).splitOnP (Piece.isToken .comma) =
      (ss.map fun s => (itemTokens s).map Piece.token) ++ [[Piece.token .lineBreak]] := by
    rw [hpieces]
    exact splitOnP_flatMap_concat rfl (by simp [itemTokens, textToken, Piece.isToken])
      (by simp [Piece.isToken])
  have hstrip : ∀ s,
      strip Piece.isWideGap ((itemTokens s).map .token) = [.token (textToken s)] := by
    intro s
    show strip _ ([Piece.token .lineBreak, .token .space, .token .space, .token .space,
      .token .space] ++ .token (textToken s) :: []) = _
    exact strip_between (by simp [Piece.isWideGap, Piece.isGap, Token.isGap]) rfl (by simp)
  have hparts : (ss.map fun s => (itemTokens s).map Piece.token).map (strip Piece.isWideGap) =
      ss.map fun s => [Piece.token (textToken s)] := by
    rw [List.map_map]
    exact List.map_congr_left fun s _ => hstrip s
  have hend : strip Piece.isWideGap [.token .lineBreak] = [] := rfl
  have hvalues :
      (ss.map fun s => [Piece.token (textToken s)]).mapM value? = some (ss.map .text) := by
    rw [List.mapM_map]
    exact List.mapM_pure
  rw [items?, hcut, List.map_append, hparts, List.map_singleton, hend]
  simpa using hvalues

/-- **A list of texts as it is written is read as one**, on one line or over several. -/
theorem writes_writtenList (ss : List String) : Writes (writtenList ss) (.list (ss.map .text)) := by
  match ss with
  | [] => exact writes_list List.not_mem_nil lexes_nil (by simp) rfl
  | [s] =>
    exact writes_list (return_notMem_writeText s) (lexes_writeText s)
      (by simp [textToken, Token.isFlat]) rfl
  | s :: s' :: ss =>
    refine writes_list ?_ (lexes_listTokens (s :: s' :: ss)) (fun t => isFlat_of_mem_listTokens)
      (items?_listTokens _)
    intro hmem
    simp [return_notMem_writeText] at hmem

/-! ## Lines -/

/-- The line that opens a section, and what it says. -/
def headerLine (name : String) : List Char × List Statement :=
  ('[' :: (name.toList ++ [']']), [.openTable [name]])

/-- The line of a setting, and what it says. -/
def valueLine (name : String) (written : List Char) (v : Value) : List Char × List Statement :=
  (name.toList ++ " = ".toList ++ written, [.assign [name] v])

/-- A setting as it is written: its name, the characters of its value, and the value. -/
abbrev WrittenSetting := String × List Char × Value

/-- The lines of a section. -/
def sectionLines (name : String) (settings : List WrittenSetting) :
    List (List Char × List Statement) :=
  headerLine name :: settings.map fun s => valueLine s.1 s.2.1 s.2.2

section

variable {name : String} {settings : List WrittenSetting}

/-- The lines of a section say what it holds. -/
theorem says_sectionLines (h : IsBare name)
    (hsettings : ∀ s ∈ settings, IsBare s.1 ∧ Writes s.2.1 s.2.2) :
    ∀ l ∈ sectionLines name settings, Says l.1 l.2 := by
  refine List.forall_mem_cons.mpr ⟨h.says_openTable, List.forall_mem_map.mpr fun s hs => ?_⟩
  obtain ⟨hbare, hwrites⟩ := hsettings s hs
  exact hwrites.says_assign hbare

/-- The characters of the lines of a section. -/
theorem flatMap_sectionLines (name : String) (settings : List WrittenSetting) :
    ((sectionLines name settings).flatMap fun l => l.1 ++ ['\n']) =
      settings.foldl (fun cs s => cs ++ settingLine s.1 s.2.1) ((headerLine name).1 ++ ['\n']) := by
  rw [List.foldl_append_eq_append, sectionLines, List.flatMap_cons, List.flatMap_map,
    List.flatMap_def]
  rfl

end

/-- The settings on files, as they are written. -/
def ValidationOptions.settings (o : ValidationOptions) : List WrittenSetting :=
  [("max_concurrency", Nat.toDigits 10 o.maxConcurrency, .integer o.maxConcurrency),
    ("file_pattern", writeText o.filePattern, .text o.filePattern),
    ("skip_prefixes", writtenList o.skipPrefixes, .list (o.skipPrefixes.map .text))]

/-- The settings on conflicts, as they are written. -/
def DetectOptions.settings (o : DetectOptions) : List WrittenSetting :=
  [("definition_policy", writeText o.policy.name, .text o.policy.name),
    ("detect_annotation_conflicts", writtenFlag o.annotations, .bool o.annotations),
    ("detect_alias_conflicts", writtenFlag o.aliases, .bool o.aliases)]

/-- The settings on the graph, as they are written. -/
def GraphOptions.settings (o : GraphOptions) : List WrittenSetting :=
  [("primitive_prefix", writeText o.primitiveStart, .text o.primitiveStart),
    ("detect_cycles", writtenFlag o.detectCycles, .bool o.detectCycles),
    ("report_missing_references", writtenFlag o.reportMissing, .bool o.reportMissing),
    ("suggest_similar", writtenFlag o.suggestSimilar, .bool o.suggestSimilar)]

namespace Config

variable {c : Config}

/-- **The sections of a configuration**, as they are written. -/
def writtenSections (c : Config) : List (String × List WrittenSetting) :=
  [("validation", c.validation.settings), ("conflicts", c.conflicts.settings),
    ("graph", c.graph.settings)]

/-- What the sections of a configuration hold. -/
def sections (c : Config) : List Section :=
  c.writtenSections.map fun s => (s.1, s.2.map fun f => (f.1, f.2.2))

/-- The lines of the settings file, with empty lines between the sections. -/
def lines (c : Config) : List (List Char × List Statement) :=
  sectionLines "validation" c.validation.settings ++
    ([], []) :: sectionLines "conflicts" c.conflicts.settings ++
    ([], []) :: sectionLines "graph" c.graph.settings

/-- Every setting has a bare name, and what is written writes its value. -/
theorem writes_settings (h : fitsInteger c.validation.maxConcurrency = true) :
    ∀ s ∈ c.writtenSections, IsBare s.1 ∧ ∀ f ∈ s.2, IsBare f.1 ∧ Writes f.2.1 f.2.2 := by
  simp only [writtenSections, ValidationOptions.settings, DetectOptions.settings,
    GraphOptions.settings, List.forall_mem_cons, List.not_mem_nil, false_imp_iff, implies_true,
    and_true]
  exact ⟨⟨by decide, ⟨by decide, writes_toDigits h⟩, ⟨by decide, writes_writeText _⟩, by decide,
      writes_writtenList _⟩,
    ⟨by decide, ⟨by decide, writes_writeText _⟩, ⟨by decide, writes_writtenFlag _⟩, by decide,
      writes_writtenFlag _⟩,
    by decide, ⟨by decide, writes_writeText _⟩, ⟨by decide, writes_writtenFlag _⟩,
      ⟨by decide, writes_writtenFlag _⟩, by decide, writes_writtenFlag _⟩

/-- **Every line says what it should**, if the count can be stored. -/
theorem says_lines (h : fitsInteger c.validation.maxConcurrency = true) :
    ∀ l ∈ c.lines, Says l.1 l.2 := by
  have hsection : ∀ s ∈ c.writtenSections, ∀ l ∈ sectionLines s.1 s.2, Says l.1 l.2 := by
    intro s hs
    obtain ⟨hname, hsettings⟩ := writes_settings h s hs
    exact says_sectionLines hname hsettings
  simp only [writtenSections, List.forall_mem_cons, List.not_mem_nil, false_imp_iff, implies_true,
    and_true] at hsection
  obtain ⟨hvalidation, hconflicts, hgraph⟩ := hsection
  simp only [lines, List.forall_mem_append, List.forall_mem_cons]
  exact ⟨⟨hvalidation, says_nil, hconflicts⟩, says_nil, hgraph⟩

/-- The characters of the settings file are those of its lines. -/
theorem flatMap_lines (c : Config) : (c.lines.flatMap fun l => l.1 ++ ['\n']) =
    c.validation.written ++ '\n' :: c.conflicts.written ++ '\n' :: c.graph.written := by
  have hvalidation : c.validation.written = _ :=
    (flatMap_sectionLines "validation" c.validation.settings).symm
  have hconflicts : c.conflicts.written = _ :=
    (flatMap_sectionLines "conflicts" c.conflicts.settings).symm
  have hgraph : c.graph.written = _ := (flatMap_sectionLines "graph" c.graph.settings).symm
  rw [hvalidation, hconflicts, hgraph, lines]
  simp only [List.flatMap_append, List.flatMap_cons, List.append_assoc, List.nil_append,
    List.singleton_append]

/-- **A settings file that is written is read as the sections of the configuration.** -/
theorem read?_written {text : String} (h : c.written? = some text) :
    read? text = some (c.sections.map fun s => (s.1, .table s.2)) := by
  unfold written? at h
  split at h
  · next hfits =>
    rw [← flatMap_lines] at h
    obtain rfl := Option.some.inj h
    refine read?_sections (says_lines hfits) rfl rfl ?_ ?_
    · show ["validation", "conflicts", "graph"].Nodup
      decide
    · simp [sections, writtenSections, ValidationOptions.settings, DetectOptions.settings,
        GraphOptions.settings]
  · cases h

end Config

end CsdlAudit

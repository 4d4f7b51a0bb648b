import CsdlAudit.Config.Decode
import CsdlAudit.Config.Load
import CsdlAudit.Proofs.Config.Written

/-!
# A settings file over other settings

When the sections of a settings file are laid over settings, each value of a section takes the place
of what had its name there, whatever that was (`member?_layFields`). So afterwards the sections hold
(`holds_layValues`), and a file that gives every setting of a configuration decides all of it: the
layers below it leave nothing behind that counts (`Config.config_layValues`).
-/

namespace CsdlAudit

/-! ## Names -/

/-- A name in lower case that is a path of its own. -/
def IsSettingName (name : String) : Prop :=
  name ≠ "" ∧ name.toList.all SettingPath.isNameChar = true ∧ Text.lowercase name = name

instance (name : String) : Decidable (IsSettingName name) := inferInstanceAs (Decidable (_ ∧ _))

/-- Such a name leads to the member of that name. -/
theorem IsSettingName.read?_eq {name : String} (h : IsSettingName name) :
    SettingPath.read? name = some ⟨name, []⟩ := by
  obtain ⟨hne, hchars, -⟩ := h
  rw [List.all_eq_true] at hchars
  have htake : name.toList.takeWhile SettingPath.isNameChar = name.toList :=
    List.takeWhile_eq_self_iff.mpr hchars
  have hdrop : name.toList.dropWhile SettingPath.isNameChar = [] :=
    List.dropWhile_eq_nil_iff.mpr hchars
  obtain ⟨c, cs, hcs⟩ := List.exists_cons_of_ne_nil (show name.toList ≠ [] by simpa using hne)
  rw [SettingPath.read?, htake, hdrop, SettingPath.steps?]
  simp only [hcs, List.isEmpty_nil, if_true, Option.map_some]
  rw [← hcs, String.ofList_toList]

namespace Setting

variable {root below above : Setting} {name : String} {fields : List (String × Setting)}

/-! ## Members -/

/-- Whether the setting is a table. -/
def isTable : Setting → Bool
  | .table .. => true
  | _ => false

theorem member?_setMember (s : Setting) (name : String) (v : Setting) (other : String) :
    (s.setMember name v).member? other = if other = name then some v else s.member? other := by
  unfold member? setMember
  show ((putField name v s.fields).find? _).map _ = _
  induction s.fields with
  | nil =>
    by_cases h : other = name
    · simp [putField, h]
    · simp [putField, h, Ne.symm h]
  | cons f fields ih =>
    rw [putField]
    by_cases hf : f.1 = name
    · by_cases h : other = name
      · simp [hf, h]
      · simp [hf, h, Ne.symm h]
    · by_cases h : f.1 = other
      · have hother : other ≠ name := fun e => hf (h.trans e)
        simp [h, hother]
      · simp [hf, h, ih]

/-! ## Laying settings -/

/-- A setting that is no table takes the place of a member. -/
theorem layMember_eq (h : above.isTable = false) (name : String) (below : Setting) :
    layMember name below above = below.setMember (Text.lowercase name) above := by
  cases above <;> first | rfl | cases h

theorem isTable_layMember (name : String) (below above : Setting) :
    (layMember name below above).isTable = true := by
  cases above <;> rfl

theorem isTable_layFields (h : below.isTable = true ∨ fields ≠ []) :
    (layFields below fields).isTable = true := by
  induction fields generalizing below with
  | nil => exact h.resolve_right fun h => h rfl
  | cons f fields ih => exact ih (.inl (isTable_layMember f.1 below f.2))

/-- Other members stay as they are. -/
theorem member?_layFields_of_ne (h : ∀ f ∈ fields, IsSettingName f.1 ∧ f.2.isTable = false)
    (hname : name ∉ fields.map Prod.fst) :
    (layFields below fields).member? name = below.member? name := by
  induction fields generalizing below with
  | nil => rfl
  | cons f fields ih =>
    obtain ⟨⟨hsetting, htable⟩, hfields⟩ := List.forall_mem_cons.mp h
    obtain ⟨hne, hname⟩ := not_or.mp (List.mem_cons.not.mp hname)
    rw [layFields, ih hfields hname, layMember_eq htable, hsetting.2.2, member?_setMember,
      if_neg hne]

/-- **Each setting that is laid is there afterwards.** -/
theorem member?_layFields (h : ∀ f ∈ fields, IsSettingName f.1 ∧ f.2.isTable = false)
    (hnodup : (fields.map Prod.fst).Nodup) :
    ∀ f ∈ fields, (layFields below fields).member? f.1 = some f.2 := by
  induction fields generalizing below with
  | nil => simp
  | cons f fields ih =>
    obtain ⟨⟨hsetting, htable⟩, hfields⟩ := List.forall_mem_cons.mp h
    obtain ⟨hnew, hnodup⟩ := List.nodup_cons.mp hnodup
    refine List.forall_mem_cons.mpr ⟨?_, ih hfields hnodup⟩
    rw [layFields, member?_layFields_of_ne hfields hnew, layMember_eq htable, hsetting.2.2,
      member?_setMember, if_pos rfl]

/-! ## Sections -/

/-- **A setting holds sections**: each is a table with the settings of the section. -/
def Holds (root : Setting) (sections : List (String × List (String × Setting))) : Prop :=
  ∀ s ∈ sections, ∃ t, root.member? s.1 = some t ∧ t.isTable = true ∧
    ∀ f ∈ s.2, t.member? f.1 = some f.2

/-- A section is laid over the member of its name. -/
theorem layKey_table (h : IsSettingName name) (root : Setting) (fields : List (String × Setting))
    (origin : Option String) : root.layKey name (.table fields origin) =
      root.setMember name (layFields ((root.member? name).getD empty) fields) := by
  rw [layKey, h.read?_eq]
  show layMember name root _ = _
  rw [layMember, h.2.2]

theorem ofFields_eq (origin : String) (fields : List (String × Toml.Value)) :
    ofFields origin fields = fields.map fun f => (f.1, ofValue origin f.2) := by
  induction fields with
  | nil => rfl
  | cons f fields ih => rw [ofFields, ih]; rfl

end Setting

open Setting

/-- The settings of sections of a settings file. -/
def settingsOf (origin : String) (sections : List Toml.Section) :
    List (String × List (String × Setting)) :=
  sections.map fun s => (s.1, s.2.map fun f => (f.1, ofValue origin f.2))

/-- A section of a settings file whose settings can be told apart: they have names of settings, each
once, and none is a table. -/
structure IsPlainSection (s : Toml.Section) : Prop where
  /-- The section has a name of a setting. -/
  name : IsSettingName s.1
  /-- It holds something. -/
  ne_nil : s.2 ≠ []
  /-- Its settings have names of settings, and none is a table. -/
  plain : ∀ f ∈ s.2, IsSettingName f.1 ∧ ∀ origin, (ofValue origin f.2).isTable = false
  /-- No name is given twice. -/
  nodup : (s.2.map Prod.fst).Nodup

variable {origin : String} {root : Setting} {sections : List Toml.Section}

/-- One more section is laid. -/
theorem layValues_cons (origin : String) (root : Setting) (s : Toml.Section)
    (sections : List Toml.Section) :
    layValues origin root ((s :: sections).map fun s => (s.1, .table s.2)) =
      layValues origin (root.layKey s.1 (.table (ofFields origin s.2) (some origin)))
        (sections.map fun s => (s.1, .table s.2)) := by
  rw [layValues, layValues, List.map_cons, List.foldl_cons, ofValue]

/-- A section that is not laid stays as it is. -/
theorem member?_layValues_of_ne {name : String} (h : ∀ s ∈ sections, IsSettingName s.1)
    (hname : name ∉ sections.map Prod.fst) :
    (layValues origin root (sections.map fun s => (s.1, .table s.2))).member? name =
      root.member? name := by
  induction sections generalizing root with
  | nil => rfl
  | cons s sections ih =>
    obtain ⟨hs, hsections⟩ := List.forall_mem_cons.mp h
    obtain ⟨hne, hname⟩ := not_or.mp (List.mem_cons.not.mp hname)
    rw [layValues_cons, ih hsections hname, layKey_table hs, member?_setMember, if_neg hne]

/-- **Sections that are laid hold afterwards**, whatever they are laid over. -/
theorem holds_layValues (h : ∀ s ∈ sections, IsPlainSection s)
    (hnodup : (sections.map Prod.fst).Nodup) :
    (layValues origin root (sections.map fun s => (s.1, .table s.2))).Holds
      (settingsOf origin sections) := by
  induction sections generalizing root with
  | nil => simp [Holds, settingsOf]
  | cons s sections ih =>
    obtain ⟨hs, hsections⟩ := List.forall_mem_cons.mp h
    obtain ⟨hnew, hnodup⟩ := List.nodup_cons.mp hnodup
    rw [layValues_cons]
    refine List.forall_mem_cons.mpr ⟨?_, ih hsections hnodup⟩
    have hplain : ∀ f ∈ ofFields origin s.2, IsSettingName f.1 ∧ f.2.isTable = false := by
      rw [ofFields_eq]
      exact List.forall_mem_map.mpr fun f hf => (hs.plain f hf).imp_right fun h => h origin
    have hnames : ((ofFields origin s.2).map Prod.fst).Nodup := by
      rw [ofFields_eq, List.map_map]
      exact hs.nodup
    have hne : ofFields origin s.2 ≠ [] := by
      rw [ofFields_eq]
      simpa using hs.ne_nil
    refine ⟨layFields ((root.member? s.1).getD empty) (ofFields origin s.2), ?_,
      isTable_layFields (.inr hne), ?_⟩
    · rw [member?_layValues_of_ne (fun s hs => (hsections s hs).name) hnew, layKey_table hs.name,
        member?_setMember, if_pos rfl]
    · show ∀ f ∈ s.2.map (fun f => (f.1, ofValue origin f.2)), _
      rw [← ofFields_eq]
      exact member?_layFields hplain hnames

/-- Where a section is laid there is a table. -/
theorem isTable_layValues (h : ∀ s ∈ sections, IsSettingName s.1)
    (hroot : root.isTable = true ∨ sections ≠ []) :
    (layValues origin root (sections.map fun s => (s.1, .table s.2))).isTable = true := by
  induction sections generalizing root with
  | nil => exact hroot.resolve_right fun h => h rfl
  | cons s sections ih =>
    obtain ⟨hs, hsections⟩ := List.forall_mem_cons.mp h
    rw [layValues_cons, layKey_table hs]
    exact ih hsections (.inl rfl)

/-! ## Taking the settings -/

namespace Setting

/-- **A setting that a section holds is taken.** -/
theorem take_eq {α : Type} {t s : Setting} {name : String} {a : α}
    (as : Setting → Except ConfigError α) (htable : t.isTable = true)
    (hmember : t.member? name = some s) (has : as s = .ok a) (place : Nat) (standard : α) :
    t.take name place standard as = .ok a := by
  have hcalled : t.member name place = some (name, s) := by
    cases t <;> first | (cases htable; done) | simp only [member, hmember, Option.map_some]
  rw [take, hcalled]
  show (as s).mapError _ = _
  rw [has]
  rfl

theorem asSection_eq {t : Setting} (h : t.isTable = true) (name : String) :
    t.asSection name = .ok () := by
  cases t <;> first | rfl | cases h

theorem wordsFrom_ofValues (origin : String) (place : Nat) (ss : List String) :
    wordsFrom place (ofValues origin (ss.map .text)) = .ok ss := by
  induction ss generalizing place with
  | nil => rfl
  | cons s ss ih =>
    rw [List.map_cons, ofValues, wordsFrom, ih]
    rfl

theorem policy_name (p : DefinitionPolicy) (origin : String) :
    (Setting.text p.name origin).policy = .ok p := by
  show policyNamed p.name = .ok p
  cases p <;> decide

section

variable {t : Setting} {origin : String} (htable : t.isTable = true)

include htable

/-- The settings on files are taken as they are given. -/
theorem validation_eq {o : ValidationOptions}
    (hcount : t.member? "max_concurrency" = some (.integer o.maxConcurrency origin))
    (hpattern : t.member? "file_pattern" = some (.text o.filePattern origin))
    (hskip : t.member? "skip_prefixes" =
      some (.list (ofValues origin (o.skipPrefixes.map .text)) (some origin))) :
    t.validation = .ok o := by
  have hcounted : (Setting.integer o.maxConcurrency origin).count = .ok o.maxConcurrency := by
    simp [count]
  rw [validation, asSection_eq htable]
  dsimp only
  rw [take_eq count htable hcount hcounted, take_eq words htable hpattern rfl,
    take_eq wordList htable hskip (wordsFrom_ofValues origin 0 o.skipPrefixes)]
  rfl

/-- The settings on conflicts are taken as they are given. -/
theorem conflicts_eq {o : DetectOptions}
    (hpolicy : t.member? "definition_policy" = some (.text o.policy.name origin))
    (hannotations : t.member? "detect_annotation_conflicts" = some (.bool o.annotations origin))
    (haliases : t.member? "detect_alias_conflicts" = some (.bool o.aliases origin)) :
    t.conflicts = .ok o := by
  rw [conflicts, asSection_eq htable]
  dsimp only
  rw [take_eq policy htable hpolicy (policy_name o.policy origin),
    take_eq flag htable hannotations rfl, take_eq flag htable haliases rfl]
  rfl

/-- The settings on the graph are taken as they are given. -/
theorem graph_eq {o : GraphOptions}
    (hprimitive : t.member? "primitive_prefix" = some (.text o.primitiveStart origin))
    (hcycles : t.member? "detect_cycles" = some (.bool o.detectCycles origin))
    (hmissing : t.member? "report_missing_references" = some (.bool o.reportMissing origin))
    (hsimilar : t.member? "suggest_similar" = some (.bool o.suggestSimilar origin)) :
    t.graph = .ok o := by
  rw [graph, asSection_eq htable]
  dsimp only
  rw [take_eq words htable hprimitive rfl, take_eq flag htable hcycles rfl,
    take_eq flag htable hmissing rfl, take_eq flag htable hsimilar rfl]
  rfl

end

end Setting

namespace Config

variable {c : Config}

/-- The names of the sections and of their settings. -/
def settingNames : List (String × List String) :=
  [("validation", ["max_concurrency", "file_pattern", "skip_prefixes"]),
    ("conflicts", ["definition_policy", "detect_annotation_conflicts", "detect_alias_conflicts"]),
    ("graph",
      ["primitive_prefix", "detect_cycles", "report_missing_references", "suggest_similar"])]

theorem names_sections (c : Config) :
    c.sections.map (fun s => (s.1, s.2.map Prod.fst)) = settingNames := rfl

theorem isSettingName_settingNames : ∀ s ∈ settingNames,
    IsSettingName s.1 ∧ s.2 ≠ [] ∧ (∀ name ∈ s.2, IsSettingName name) ∧ s.2.Nodup := by
  decide

/-- The sections of a configuration can be told apart. -/
theorem isPlainSection_of_mem_sections : ∀ s ∈ c.sections, IsPlainSection s := by
  intro s hs
  have hnames : (s.1, s.2.map Prod.fst) ∈ settingNames := by
    rw [← names_sections c]
    exact List.mem_map_of_mem hs
  obtain ⟨hname, hne, hsettings, hnodup⟩ := isSettingName_settingNames _ hnames
  have hvalues : ∀ s ∈ c.sections, ∀ f ∈ s.2, ∀ origin, (ofValue origin f.2).isTable = false := by
    simp only [sections, writtenSections, List.map_cons, List.map_nil, ValidationOptions.settings,
      DetectOptions.settings, GraphOptions.settings, List.forall_mem_cons, List.not_mem_nil,
      false_imp_iff, implies_true, and_true]
    exact ⟨⟨fun _ => rfl, fun _ => rfl, fun _ => rfl⟩, ⟨fun _ => rfl, fun _ => rfl, fun _ => rfl⟩,
      fun _ => rfl, fun _ => rfl, fun _ => rfl, fun _ => rfl⟩
  exact ⟨hname, by simpa using hne,
    fun f hf => ⟨hsettings f.1 (List.mem_map_of_mem hf), hvalues s hs f hf⟩, hnodup⟩

/-- **A settings file with the sections of a configuration decides all of it.** -/
theorem config_layValues (origin : String) (root : Setting) (c : Config) :
    (layValues origin root (c.sections.map fun s => (s.1, .table s.2))).config =
      .ok { c with validation :=
        { c.validation with maxConcurrency := max c.validation.maxConcurrency 1 } } := by
  have hplain := isPlainSection_of_mem_sections (c := c)
  have htable :
      (layValues origin root (c.sections.map fun s => (s.1, .table s.2))).isTable = true :=
    isTable_layValues (fun s hs => (hplain s hs).name) (.inr (by simp [sections, writtenSections]))
  have hnodup : (c.sections.map Prod.fst).Nodup := by
    show ["validation", "conflicts", "graph"].Nodup
    decide
  have hholds : Holds (layValues origin root _) _ := holds_layValues hplain hnodup
  generalize layValues origin root (c.sections.map fun s => (s.1, .table s.2)) = all at *
  simp only [settingsOf, sections, writtenSections, List.map_cons, List.map_nil,
    ValidationOptions.settings, DetectOptions.settings, GraphOptions.settings, Holds,
    List.forall_mem_cons, List.not_mem_nil, false_imp_iff, implies_true, and_true] at hholds
  obtain ⟨⟨v, hv, hvtable, hcount, hpattern, hskip⟩,
    ⟨d, hd, hdtable, hpolicy, hannotations, haliases⟩,
    ⟨g, hg, hgtable, hprimitive, hcycles, hmissing, hsimilar⟩⟩ := hholds
  rw [config, take_eq Setting.validation htable hv (validation_eq hvtable hcount hpattern hskip),
    take_eq Setting.conflicts htable hd (conflicts_eq hdtable hpolicy hannotations haliases),
    take_eq Setting.graph htable hg (graph_eq hgtable hprimitive hcycles hmissing hsimilar)]
  rfl

end Config

end CsdlAudit

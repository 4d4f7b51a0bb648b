import CsdlAudit.Proofs.Toml.Lines

/-!
# Sections of a settings file

A file of sections opens one table after the other and gives values to names in each. While it is
read, the open table is the last one. If no name is given twice, every table that is opened and
every value that is given comes behind the others (`next_openTable`, `next_assign`), so the file is
read as its sections in order (`read?_sections`).
-/

namespace CsdlAudit.Toml

/-- A table and the values that are given in it. -/
abbrev Section := String × List (String × Value)

namespace Section

/-- The statements of a section. -/
def statements (s : Section) : List Statement :=
  .openTable [s.1] :: s.2.map fun f => .assign [f.1] f.2

/-- The entry that a section grows, with some of its values. -/
def entry (name : String) (fields : List (String × Value)) : String × Item :=
  (name, .table false false (fields.map fun f => (f.1, .value f.2)))

end Section

variable {es : Entries} {name n : String} {fields : List (String × Value)} {sections : List Section}

/-! ## New names -/

/-- No entry has the name. -/
def Entries.Fresh (name : String) (es : Entries) : Prop := ∀ e ∈ es, e.1 ≠ name

open Entries

theorem item?_of_fresh (h : Fresh name es) : item? name es = none := by
  rw [item?, List.find?_eq_none.mpr fun e he => by simpa using h e he]
  rfl

theorem put_of_fresh (h : Fresh name es) (i : Item) : put name i es = es ++ [(name, i)] := by
  induction es with
  | nil => rfl
  | cons e es ih =>
    obtain ⟨he, hes⟩ := List.forall_mem_cons.mp h
    rw [put, if_neg he, ih hes]
    rfl

/-- The last entry is found if its name is new. -/
theorem item?_concat (h : Fresh name es) (i : Item) : item? name (es ++ [(name, i)]) = some i := by
  have hes : es.find? (fun e => e.1 == name) = none :=
    List.find?_eq_none.mpr fun e he => by simpa using h e he
  simp [item?, List.find?_append, hes]

theorem put_concat (h : Fresh name es) (i j : Item) :
    put name j (es ++ [(name, i)]) = es ++ [(name, j)] := by
  induction es with
  | nil => simp [put]
  | cons e es ih =>
    obtain ⟨he, hes⟩ := List.forall_mem_cons.mp h
    rw [List.cons_append, put, if_neg he, ih hes]
    rfl

/-! ## One statement -/

/-- **A table of a new name** comes behind the others and is open. -/
theorem next_openTable (h : Fresh name es) (current : List String) :
    Draft.next ⟨es, current⟩ (.openTable [name]) =
      some ⟨es ++ [Section.entry name []], [name]⟩ := by
  simp only [Draft.next, Draft.atParent, List.getLast?_singleton, List.dropLast_singleton, within,
    Entries.openTable, item?_of_fresh h, put_of_fresh h, Option.map_some]
  rfl

/-- **A value of a new name** comes behind the others of the open table. -/
theorem next_assign (h : Fresh name es) (hn : ∀ f ∈ fields, f.1 ≠ n) (v : Value) :
    Draft.next ⟨es ++ [Section.entry name fields], [name]⟩ (.assign [n] v) =
      some ⟨es ++ [Section.entry name (fields ++ [(n, v)])], [name]⟩ := by
  have hfresh : Fresh n (fields.map fun f => (f.1, Item.value f.2)) := List.forall_mem_map.mpr hn
  have hassign : assign [n] v false (fields.map fun f => (f.1, Item.value f.2)) =
      some ((fields ++ [(n, v)]).map fun f => (f.1, Item.value f.2)) := by
    simp [assign, within, give, item?_of_fresh hfresh, put_of_fresh hfresh]
  simp only [Draft.next, Section.entry, within, item?_concat h, Bool.false_and, hassign,
    Option.map_some, put_concat h, Bool.false_eq_true, if_false]

/-! ## All statements -/

/-- The values of a section come one behind the other. -/
theorem foldlM_assign (h : Fresh name es) :
    ∀ (fields more : List (String × Value)), ((fields ++ more).map Prod.fst).Nodup →
      (more.map fun f => Statement.assign [f.1] f.2).foldlM Draft.next
        ⟨es ++ [Section.entry name fields], [name]⟩ =
          some ⟨es ++ [Section.entry name (fields ++ more)], [name]⟩
  | fields, [], _ => by rw [List.append_nil]; rfl
  | fields, (n, v) :: more, hnodup => by
    have hassoc : fields ++ (n, v) :: more = fields ++ [(n, v)] ++ more := by simp
    have hn : ∀ f ∈ fields, f.1 ≠ n := by
      intro f hf heq
      rw [List.map_append, List.nodup_append] at hnodup
      exact hnodup.2.2 f.1 (List.mem_map_of_mem hf) n (by simp) heq
    rw [hassoc] at hnodup ⊢
    rw [List.map_cons, List.foldlM_cons, next_assign h hn]
    exact foldlM_assign h _ more hnodup

/-- **Sections come one behind the other.** -/
theorem foldlM_sections :
    ∀ {sections : List Section} (es : Entries) (current : List String),
      (es.map Prod.fst ++ sections.map Prod.fst).Nodup →
      (∀ s ∈ sections, (s.2.map Prod.fst).Nodup) →
      ∃ current', (sections.flatMap Section.statements).foldlM Draft.next ⟨es, current⟩ =
        some ⟨es ++ sections.map (fun s => Section.entry s.1 s.2), current'⟩
  | [], es, current, _, _ => ⟨current, by rw [List.map_nil, List.append_nil]; rfl⟩
  | (name, fields) :: sections, es, current, hnodup, hfields => by
    obtain ⟨hhere, hfields⟩ := List.forall_mem_cons.mp hfields
    have hfresh : Fresh name es := by
      intro e he heq
      rw [List.nodup_append] at hnodup
      exact hnodup.2.2 e.1 (List.mem_map_of_mem he) name (by simp) heq
    have hrest : ((es ++ [Section.entry name fields]).map Prod.fst ++
        sections.map Prod.fst).Nodup := by
      simpa [Section.entry] using hnodup
    obtain ⟨current', hcurrent⟩ := foldlM_sections _ [name] hrest hfields
    refine ⟨current', ?_⟩
    rw [List.flatMap_cons, Section.statements, List.cons_append, List.foldlM_cons,
      next_openTable hfresh, Option.bind_eq_bind, Option.bind_some, List.foldlM_append,
      foldlM_assign hfresh [] fields hhere, List.nil_append, Option.bind_eq_bind, Option.bind_some,
      hcurrent, List.append_assoc]
    rfl

/-! ## The whole file -/

/-- The named values of sections. -/
theorem fieldsOf_sections (sections : List Section) :
    fieldsOf (sections.map fun s => Section.entry s.1 s.2) =
      sections.map fun s => (s.1, .table s.2) := by
  have hvalues : ∀ fields : List (String × Value),
      fieldsOf (fields.map fun f => (f.1, .value f.2)) = fields := by
    intro fields
    induction fields with
    | nil => rfl
    | cons f fields ih => rw [List.map_cons, fieldsOf, ih, Item.toValue]
  induction sections with
  | nil => rfl
  | cons s sections ih =>
    rw [List.map_cons, Section.entry, fieldsOf, ih, Item.toValue, hvalues]
    rfl

/-- Without a carriage return no line break is changed. -/
theorem dropReturns_eq {cs : List Char} (h : '\r' ∉ cs) : dropReturns cs = cs := by
  induction cs with
  | nil => rfl
  | cons c cs ih =>
    obtain ⟨hc, hcs⟩ := not_or.mp (List.mem_cons.not.mp h)
    rw [dropReturns, ih hcs]
    rintro rest rfl
    exact absurd rfl hc

/-- **A file of sections is read as its sections.** -/
theorem read?_sections {lines : List (List Char × List Statement)} (h : ∀ l ∈ lines, Says l.1 l.2)
    (hmark : dropMark (lines.flatMap fun l => l.1 ++ ['\n']) = lines.flatMap fun l => l.1 ++ ['\n'])
    (hsections : lines.flatMap Prod.snd = sections.flatMap Section.statements)
    (hnames : (sections.map Prod.fst).Nodup) (hfields : ∀ s ∈ sections, (s.2.map Prod.fst).Nodup) :
    read? (String.ofList (lines.flatMap fun l => l.1 ++ ['\n'])) =
      some (sections.map fun s => (s.1, .table s.2)) := by
  have hreturn : '\r' ∉ lines.flatMap fun l => l.1 ++ ['\n'] := by
    rw [List.mem_flatMap]
    rintro ⟨l, hl, hmem⟩
    rcases List.mem_append.mp hmem with hmem | hmem
    · exact (h l hl).1 hmem
    · exact absurd (List.mem_singleton.mp hmem) (by decide)
  have hstatements := statementsOf?_lines h
  rw [statementsOf?, hsections] at hstatements
  obtain ⟨ts, hts, hrest⟩ := Option.bind_eq_some_iff.mp hstatements
  obtain ⟨ns, hns, hrest⟩ := Option.bind_eq_some_iff.mp hrest
  obtain ⟨current, hdraft⟩ := foldlM_sections [] [] hnames hfields
  simp only [read?, String.toList_ofList, hmark, dropReturns_eq hreturn, hts, hns, hrest, hdraft,
    Option.bind_eq_bind, Option.bind_some, List.nil_append, fieldsOf_sections]
  rfl

end CsdlAudit.Toml

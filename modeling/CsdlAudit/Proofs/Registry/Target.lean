import CsdlAudit.Proofs.Registry.Ingest
import CsdlAudit.Proofs.Text.Pieces
import CsdlAudit.Schema.Builder

/-!
# Where a target from outside leads

The annotations of an element are filed under the namespace of its block and its name, those of a
member under the name and the path of the member. A block may annotate the same place from outside,
by a target with the namespace in front. The target leads to the same place if the namespace is the
block's own; otherwise it does if the block's names do not stand in front of it with a dot and the
element's name has no dot (`splitTarget_eq_iff`). `outside_reaches_iff` says so of all that calls
file.

A block's name that stands in front of a longer namespace takes the target for the block's own
namespace, so the annotation is filed at another place: see `parted`.
-/

namespace CsdlAudit

/-! ## Places -/

/-- **The path of an element, or of a member of it.** -/
def memberPath (element : String) : Option String → String
  | none => element
  | some member => element ++ "/" ++ member

/-- The annotations of the element, or of a member of it. -/
def Definition.annotationsAt (d : Definition) : Option String → List Annotation
  | none => d.annotations
  | some member => (d.memberAnnotations.filter fun m => m.1 = member).flatMap Prod.snd

/-- **Annotations stand at the path of what they annotate**, in the namespace of the block. -/
theorem Definition.mem_placedAnnotations {d : Definition} {member : Option String} {a : Annotation}
    (h : a ∈ d.annotationsAt member) (namespaceName : String) :
    (namespaceName, memberPath d.elementName member, a) ∈ d.placedAnnotations namespaceName := by
  cases member with
  | none => exact List.mem_append_left _ (List.mem_map_of_mem h)
  | some member =>
    obtain ⟨m, hfiltered, ha⟩ := List.mem_flatMap.mp h
    obtain ⟨hm, hname⟩ := List.mem_filter.mp hfiltered
    obtain rfl : m.1 = member := of_decide_eq_true hname
    exact List.mem_append_right _ (List.mem_flatMap.mpr ⟨m, hm, List.mem_map_of_mem ha⟩)

/-! ## Targets of other namespaces -/

/-- A name stands in front of a target with a dot. -/
def StandsBefore (name target : String) : Prop := ∃ rest, target = name ++ "." ++ rest

theorem afterOwnName?_eq_some_iff {name target rest : String} :
    afterOwnName? name target = some rest ↔ target = name ++ "." ++ rest :=
  Text.afterStart?_eq_some_iff

theorem afterOwnName?_eq_none {name target : String} (h : ¬StandsBefore name target) :
    afterOwnName? name target = none :=
  Option.eq_none_iff_forall_ne_some.mpr fun rest e =>
    h ⟨rest, afterOwnName?_eq_some_iff.mp e⟩

/-- The place of a target as it is written: its namespace ends at the last dot before a slash. -/
def writtenPlace (target : String) : String × String :=
  let head := Text.beforeFirst '/' target
  match Text.splitLast '.' head with
  | some (front, last) =>
    (front, last ++ String.ofList (target.toList.drop head.toList.length))
  | none => ("", target)

theorem writtenPlace_of_some {target front last : String}
    (h : Text.splitLast '.' (Text.beforeFirst '/' target) = some (front, last)) :
    writtenPlace target = (front, last ++
      String.ofList (target.toList.drop (Text.beforeFirst '/' target).toList.length)) := by
  simp only [writtenPlace, h]

theorem writtenPlace_of_none {target : String}
    (h : Text.splitLast '.' (Text.beforeFirst '/' target) = none) :
    writtenPlace target = ("", target) := by
  simp only [writtenPlace, h]

theorem splitTarget_own (namespaceName rest : String) (aliasName : Option String) :
    splitTarget (namespaceName ++ "." ++ rest) namespaceName aliasName = (namespaceName, rest) := by
  rw [splitTarget, afterOwnName?_eq_some_iff.mpr rfl]

/-- A block's name in front of a target stands for the block's own namespace. -/
theorem splitTarget_fst {target namespaceName own : String} {aliasName : Option String}
    (hown : own ∈ namespaceName :: aliasName.toList) (h : StandsBefore own target) :
    (splitTarget target namespaceName aliasName).1 = namespaceName := by
  unfold splitTarget
  cases hfull : afterOwnName? namespaceName target with
  | some rest => rfl
  | none =>
    obtain ⟨rest, hrest⟩ := h
    have hfound := afterOwnName?_eq_some_iff.mpr hrest
    rcases List.mem_cons.mp hown with rfl | hown
    · rw [hfull] at hfound
      exact absurd hfound (Option.some_ne_none _).symm
    · rw [Option.mem_toList] at hown
      obtain rfl := Option.mem_def.mp hown
      rw [Option.bind_some, hfound]

/-- A target without a name of the block in front is read as it is written. -/
theorem splitTarget_eq_writtenPlace {target namespaceName : String} {aliasName : Option String}
    (h : ∀ own ∈ namespaceName :: aliasName.toList, ¬StandsBefore own target) :
    splitTarget target namespaceName aliasName = writtenPlace target := by
  have hfull := afterOwnName?_eq_none (h namespaceName List.mem_cons_self)
  have hshort : (aliasName.bind fun a => afterOwnName? a target) = none := by
    cases aliasName with
    | none => rfl
    | some a => exact afterOwnName?_eq_none (h a (List.mem_cons_of_mem _ List.mem_cons_self))
  cases hcut : Text.splitLast '.' (Text.beforeFirst '/' target) with
  | some pieces =>
    rw [writtenPlace_of_some hcut]
    simp only [splitTarget, hfull, hshort, hcut]
  | none =>
    rw [writtenPlace_of_none hcut]
    simp only [splitTarget, hfull, hshort, hcut]

/-! ## Targets as they are written -/

/-- What follows an element in a path. -/
def memberTail : Option String → List Char
  | none => []
  | some member => '/' :: member.toList

theorem toList_memberPath (element : String) (member : Option String) :
    (memberPath element member).toList = element.toList ++ memberTail member := by
  cases member with
  | none => exact (List.append_nil _).symm
  | some member =>
    show (element ++ "/" ++ member).toList = _
    rw [String.toList_append, String.toList_append, List.append_assoc]
    rfl

/-- A path with a member is cut at the first slash. -/
theorem takeWhile_append_memberTail {cs : List Char} (h : '/' ∉ cs) (member : Option String) :
    (cs ++ memberTail member).takeWhile (· != '/') = cs := by
  cases member with
  | none => rw [memberTail, List.append_nil, Text.takeWhile_ne_eq_self h]
  | some member => exact Text.takeWhile_ne_append_cons h member.toList

theorem slash_notMem_beforeFirst (target : String) :
    '/' ∉ (Text.beforeFirst '/' target).toList := by
  rw [Text.beforeFirst, String.toList_ofList]
  intro h
  exact absurd (List.mem_takeWhile_imp h) (by decide)

section Written

variable {namespaceName element : String} {member : Option String}

/-- The target up to its first slash, where neither the namespace nor the element has one. -/
theorem beforeFirst_slash (hspace : '/' ∉ namespaceName.toList) (hslash : '/' ∉ element.toList) :
    (Text.beforeFirst '/' (namespaceName ++ "." ++ memberPath element member)).toList =
      namespaceName.toList ++ '.' :: element.toList := by
  have hfree : '/' ∉ namespaceName.toList ++ '.' :: element.toList := by
    simp [hspace, hslash]
  rw [Text.beforeFirst, Text.toList_dotted, toList_memberPath, ← List.cons_append, ← List.append_assoc,
    takeWhile_append_memberTail hfree, String.toList_ofList]

/-- **A target as it is written** has its namespace and its path just when there is no slash in the
namespace and no dot in the element. -/
theorem writtenPlace_eq_iff (hslash : '/' ∉ element.toList) :
    writtenPlace (namespaceName ++ "." ++ memberPath element member) =
        (namespaceName, memberPath element member) ↔
      '/' ∉ namespaceName.toList ∧ '.' ∉ element.toList := by
  constructor
  · intro h
    cases hcut : Text.splitLast '.'
        (Text.beforeFirst '/' (namespaceName ++ "." ++ memberPath element member)) with
    | some pieces =>
      obtain ⟨hhead, hlast⟩ := Text.splitLast_eq_some_iff.mp hcut
      rw [writtenPlace_of_some hcut] at h
      have hfront : pieces.1 = namespaceName := congrArg Prod.fst h
      have hspace : '/' ∉ namespaceName.toList := by
        intro hmem
        refine slash_notMem_beforeFirst (namespaceName ++ "." ++ memberPath element member) ?_
        rw [hhead, hfront]
        exact List.mem_append_left _ hmem
      rw [hfront, beforeFirst_slash hspace hslash] at hhead
      rw [(List.cons.inj (List.append_cancel_left hhead)).2]
      exact ⟨hspace, hlast⟩
    | none =>
      -- the whole target is longer than the path
      rw [writtenPlace_of_none hcut] at h
      have hlength := congrArg String.length (congrArg Prod.snd h)
      have hdot : ".".length = 1 := rfl
      simp only [String.length_append, hdot] at hlength
      omega
  · rintro ⟨hspace, hdot⟩
    have hhead : (Text.beforeFirst '/' (namespaceName ++ "." ++ memberPath element member)).toList =
        namespaceName.toList ++ '.' :: element.toList := beforeFirst_slash hspace hslash
    have htail : (namespaceName ++ "." ++ memberPath element member).toList.drop
        (namespaceName.toList ++ '.' :: element.toList).length = memberTail member := by
      rw [Text.toList_dotted, toList_memberPath, ← List.cons_append, ← List.append_assoc,
        List.drop_left]
    rw [writtenPlace_of_some (Text.splitLast_eq_some hhead hdot), hhead, htail]
    refine Prod.ext rfl (String.toList_injective ?_)
    rw [String.toList_append, String.toList_ofList, toList_memberPath]

/-- **A target leads to the place that it names** just when its namespace is the block's own, or no
name of the block stands in front of it and it can be read as it is written. -/
theorem splitTarget_eq_iff {own : String} {aliasName : Option String}
    (hslash : '/' ∉ element.toList) :
    splitTarget (namespaceName ++ "." ++ memberPath element member) own aliasName =
        (namespaceName, memberPath element member) ↔
      own = namespaceName ∨
        (∀ name ∈ own :: aliasName.toList,
          ¬StandsBefore name (namespaceName ++ "." ++ memberPath element member)) ∧
        '/' ∉ namespaceName.toList ∧ '.' ∉ element.toList := by
  by_cases hfree : ∀ name ∈ own :: aliasName.toList,
      ¬StandsBefore name (namespaceName ++ "." ++ memberPath element member)
  · have hne : own ≠ namespaceName := by
      rintro rfl
      exact hfree own List.mem_cons_self ⟨_, rfl⟩
    rw [splitTarget_eq_writtenPlace hfree, writtenPlace_eq_iff hslash]
    exact ⟨fun h => Or.inr ⟨hfree, h⟩, fun h => (h.resolve_left hne).2⟩
  · constructor
    · intro h
      obtain ⟨name, hname⟩ := not_forall.mp hfree
      obtain ⟨hname, hstands⟩ := Classical.not_imp.mp hname
      rw [← splitTarget_fst hname (not_not.mp hstands), h]
      exact Or.inl rfl
    · rintro (rfl | ⟨h, -⟩)
      · exact splitTarget_own own _ aliasName
      · exact absurd h hfree

end Written

/-- In front of a path without dots, a name stands before the namespace or is the namespace. -/
theorem standsBefore_dotted_iff {name namespaceName path : String} (h : '.' ∉ path.toList) :
    StandsBefore name (namespaceName ++ "." ++ path) ↔
      name = namespaceName ∨ StandsBefore name namespaceName := by
  constructor
  · rintro ⟨rest, hrest⟩
    have hlist := congrArg String.toList hrest
    rw [Text.toList_dotted, Text.toList_dotted] at hlist
    rcases List.append_eq_append_iff.mp hlist with ⟨between, hname, hpath⟩ | ⟨between, hspace, hrest'⟩
    · cases between with
      | nil =>
        rw [List.append_nil] at hname
        exact Or.inl (String.toList_injective hname)
      | cons c between =>
        -- the dot behind the name would stand in the path
        obtain ⟨-, hpath⟩ := List.cons.inj hpath
        rw [hpath] at h
        exact absurd (List.mem_append_right _ List.mem_cons_self) h
    · cases between with
      | nil =>
        rw [List.append_nil] at hspace
        exact Or.inl (String.toList_injective hspace.symm)
      | cons c between =>
        obtain ⟨rfl, -⟩ := List.cons.inj hrest'
        refine Or.inr ⟨String.ofList between, String.toList_injective ?_⟩
        rw [hspace, Text.toList_dotted, String.toList_ofList]
  · rintro (rfl | ⟨rest, rfl⟩)
    · exact ⟨path, rfl⟩
    · exact ⟨rest ++ "." ++ path, by simp only [String.append_assoc]⟩

/-! ## What is filed at a place -/

/-- **An annotation of a block is filed** at its place under its term. -/
theorem Registry.mem_annotations_ofCalls {calls : List (String × Block)} {file : String} {b : Block}
    {namespaceName : String} {p : PlacedAnnotation} (hcall : (file, b) ∈ calls)
    (hown : b.schema.ownNamespace? = some namespaceName)
    (hp : p ∈ b.schema.placedAnnotations namespaceName) :
    ⟨p.2.2.valueText, file⟩ ∈
      (ofCalls calls).annotations.get ⟨p.1, p.2.1, p.2.2.termKey⟩ := by
  rw [annotations_ofCalls, Index.get_addAll]
  refine List.mem_append_right _ (List.mem_map.mpr
    ⟨(⟨p.1, p.2.1, p.2.2.termKey⟩, ⟨p.2.2.valueText, file⟩), List.mem_filter.mpr ⟨?_, ?_⟩, rfl⟩)
  · refine List.mem_flatMap.mpr ⟨(file, b), hcall, ?_⟩
    rw [annotationEntries, hown]
    exact List.mem_map_of_mem hp
  · exact decide_eq_true Std.ReflCmp.compare_self

/-- **Where a block files its annotations of an element** or member from outside, and where the
element's own block files them. -/
structure OutsideReaches (calls : List (String × Block)) (file : String) (b : SchemaBlock)
    (own namespaceName element : String) (member : Option String) (place : String × String) :
    Prop where
  /-- From outside they are filed at the place to which the target leads. -/
  outside : ∀ t ∈ b.externalAnnotations,
    t.target = namespaceName ++ "." ++ memberPath element member → ∀ a ∈ t.annotations,
      ⟨a.valueText, file⟩ ∈
        (Registry.ofCalls calls).annotations.get ⟨place.1, place.2, a.termKey⟩
  /-- A block of the namespace files its own at the path of the element or member. -/
  inline : ∀ call ∈ calls, call.2.schema.ownNamespace? = some namespaceName →
    ∀ d ∈ call.2.schema.definitions, d.elementName = element → ∀ a ∈ d.annotationsAt member,
      ⟨a.valueText, call.1⟩ ∈ (Registry.ofCalls calls).annotations.get
        ⟨namespaceName, memberPath element member, a.termKey⟩
  /-- The places are one just when the namespace is the block's own, or no name of the block stands
  in front of the target, the namespace has no slash and the element has no dot. -/
  same : place = (namespaceName, memberPath element member) ↔ own = namespaceName ∨
    (∀ name ∈ own :: b.aliasName.toList,
      ¬StandsBefore name (namespaceName ++ "." ++ memberPath element member)) ∧
    '/' ∉ namespaceName.toList ∧ '.' ∉ element.toList
  /-- For a path without dots, they are one just when the namespace is the block's own, or no name
  of the block is the namespace or stands in front of it, and the namespace has no slash. -/
  plain : '.' ∉ (memberPath element member).toList →
    (place = (namespaceName, memberPath element member) ↔ own = namespaceName ∨
      (∀ name ∈ own :: b.aliasName.toList,
        name ≠ namespaceName ∧ ¬StandsBefore name namespaceName) ∧
      '/' ∉ namespaceName.toList)

/-- **Where annotations from outside are filed**, in every registry and for every element whose name
has no slash. -/
theorem outsideReaches_ofCalls {calls : List (String × Block)} {file : String} {b : Block}
    {own namespaceName element : String} {member : Option String} (hcall : (file, b) ∈ calls)
    (hown : b.schema.ownNamespace? = some own) (hslash : '/' ∉ element.toList) :
    OutsideReaches calls file b.schema own namespaceName element member
      (splitTarget (namespaceName ++ "." ++ memberPath element member) own b.schema.aliasName) where
  outside := by
    intro t ht htarget a ha
    have hplaced : ((splitTarget t.target own b.schema.aliasName).1,
        (splitTarget t.target own b.schema.aliasName).2, a) ∈
          b.schema.placedAnnotations own :=
      List.mem_append_right _ (List.mem_flatMap.mpr ⟨t, ht, List.mem_map_of_mem ha⟩)
    rw [← htarget]
    exact Registry.mem_annotations_ofCalls hcall hown hplaced
  inline := by
    rintro call hcall hspace d hd rfl a ha
    have hplaced : (namespaceName, memberPath d.elementName member, a) ∈
        call.2.schema.placedAnnotations namespaceName :=
      List.mem_append_left _ (List.mem_flatMap.mpr ⟨d, hd, d.mem_placedAnnotations ha _⟩)
    exact Registry.mem_annotations_ofCalls hcall hspace hplaced
  same := splitTarget_eq_iff hslash
  plain := by
    intro hdot
    have helement : '.' ∉ element.toList := by
      intro hmem
      rw [toList_memberPath] at hdot
      exact hdot (List.mem_append_left _ hmem)
    rw [splitTarget_eq_iff hslash]
    simp only [standsBefore_dotted_iff hdot, not_or, helement, not_false_eq_true, and_true,
      ne_eq]

/-- A block that annotates its entity type and a property of it. -/
def annotating (namespaceName name : String) : SchemaBlock :=
  { SchemaBlock.bare (some namespaceName) none with
    entityTypes :=
      [{ StructuredType.named name with
        properties := [⟨"P", "Edm.String", true, none, none, [.of "T" "inner"]⟩]
        annotations := [.of "T" "one"] }] }

/-- A block that annotates from outside. -/
def annotatingOutside (namespaceName : String) (aliasName : Option String) (target : String) :
    SchemaBlock :=
  { SchemaBlock.bare (some namespaceName) aliasName with
    externalAnnotations := [⟨target, [.of "T" "two"]⟩] }

/-- Two files that annotate one property, the second one from outside. -/
def met : List (String × Block) :=
  [("a.xml", .fresh 0 (annotating "A.B" "X")),
    ("b.xml", .fresh 1 (annotatingOutside "C" (some "S") "A.B.X/P"))]

/-- **The annotation from outside stands by the inline one.** -/
theorem outsideReaches_met :
    OutsideReaches met "b.xml" (annotatingOutside "C" (some "S") "A.B.X/P") "C" "A.B" "X" (some "P")
        ("A.B", "X/P") ∧
      (Registry.ofCalls met).annotations.get ⟨"A.B", "X/P", "T"⟩ =
        [⟨"inner", "a.xml"⟩, ⟨"two", "b.xml"⟩] := by
  have hplace : splitTarget ("A.B" ++ "." ++ memberPath "X" (some "P")) "C" (some "S") =
      ("A.B", "X/P") := by decide +kernel
  have h : OutsideReaches met "b.xml" (annotatingOutside "C" (some "S") "A.B.X/P") "C" "A.B" "X"
      (some "P") (splitTarget ("A.B" ++ "." ++ memberPath "X" (some "P")) "C" (some "S")) :=
    outsideReaches_ofCalls (b := .fresh 1 (annotatingOutside "C" (some "S") "A.B.X/P"))
      (List.mem_cons_of_mem _ List.mem_cons_self) rfl (by decide)
  exact ⟨hplace ▸ h, by decide +kernel⟩

/-- Two files that annotate one entity type, the second one from outside; its namespace stands in
front of the first one's. -/
def parted : List (String × Block) :=
  [("a.xml", .fresh 0 (annotating "A.B" "X")),
    ("b.xml", .fresh 1 (annotatingOutside "A" none "A.B.X"))]

/-- Two files that annotate one function, the second one from outside; the type of the parameter
has a dot. -/
def partedFunction : List (String × Block) :=
  [("a.xml", .fresh 0 { SchemaBlock.bare (some "N") none with
      functions :=
        [{ (Operation.named "F").withParameter "p" "Edm.String" with
          annotations := [.of "T" "one"] }] }),
    ("b.xml", .fresh 1 (annotatingOutside "M" none "N.F(Edm.String)"))]

/-- **A target may miss the place that it names**: behind a name of the block that stands in front
of another namespace, and behind a dot among the parameters. -/
theorem outside_misses_inline :
    (Registry.ofCalls parted).annotations.toList =
        [(⟨"A", "B.X", "T"⟩, [⟨"two", "b.xml"⟩]), (⟨"A.B", "X", "T"⟩, [⟨"one", "a.xml"⟩]),
          (⟨"A.B", "X/P", "T"⟩, [⟨"inner", "a.xml"⟩])] ∧
      (Registry.ofCalls partedFunction).annotations.toList =
        [(⟨"N", "F(Edm.String)", "T"⟩, [⟨"one", "a.xml"⟩]),
          (⟨"N.F(Edm", "String)", "T"⟩, [⟨"two", "b.xml"⟩])] := by
  decide +kernel

end CsdlAudit

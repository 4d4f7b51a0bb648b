import Mathlib.Computability.Language
import CsdlAudit.Proofs.Text.Blank
import CsdlAudit.Proofs.TypeReference

/-!
# The grammar of type references

Which texts are type references is said here by a grammar that knows nothing of the reading. Names
form a language: `TypeGrammar.dottedIdentifiers` is a name and any number of further ones, each
behind a dot. A reference is *written with* a text (`TypeGrammar.WrittenWith`) if the text is all of
it but for blanks, or all that stands in a collection on one line; and what a name means depends on
its dots and on the short names alone (`TypeGrammar.Means`).

The reader follows this grammar on every text (`TypeReader.readsByGrammar`): it finds an element just
where a dotted identifier is written, finds a primitive type just where the text begins as those do,
and refuses every other text for the first reason that applies. The order in which it trims, takes
off the wrapper and tests beginnings does not show.
-/

namespace CsdlAudit

open Computability

namespace TypeGrammar

/-! ## Names as a language -/

/-- The texts of one character of a kind. -/
def single (p : Char → Bool) : Language Char := {cs | ∃ c, p c = true ∧ cs = [c]}

/-- **Identifiers**: a letter or an underscore, and then letters, underscores and digits. -/
def identifiers : Language Char := single startsName * (single continuesName)∗

/-- The dot alone. -/
def dot : Language Char := {['.']}

/-- **Dotted identifiers**: an identifier, and any number of identifiers that each follow a dot. -/
def dottedIdentifiers : Language Char := identifiers * (dot * identifiers)∗

/-- Any number of characters of a kind. -/
theorem mem_kstar_single {p : Char → Bool} {cs : List Char} :
    cs ∈ (single p)∗ ↔ ∀ c ∈ cs, p c = true := by
  rw [Language.mem_kstar]
  constructor
  · rintro ⟨words, rfl, hwords⟩ c hc
    obtain ⟨word, hword, hc⟩ := List.mem_flatten.mp hc
    obtain ⟨d, hd, rfl⟩ := hwords word hword
    rw [List.mem_singleton.mp hc]
    exact hd
  · intro h
    refine ⟨cs.map ([·]), ?_, fun word hword => ?_⟩
    · rw [← List.flatMap_def, List.flatMap_singleton']
    · obtain ⟨c, hc, rfl⟩ := List.mem_map.mp hword
      exact ⟨c, h c hc, rfl⟩

theorem mem_identifiers_iff {s : String} : s.toList ∈ identifiers ↔ isIdentifier s = true := by
  unfold identifiers isIdentifier
  rw [Language.mem_mul]
  constructor
  · rintro ⟨_, ⟨c, hc, rfl⟩, rest, hrest, hs⟩
    rw [← hs, List.singleton_append]
    exact Bool.and_eq_true_iff.mpr ⟨hc, List.all_eq_true.mpr (mem_kstar_single.mp hrest)⟩
  · intro h
    cases hs : s.toList with
    | nil =>
      rw [hs] at h
      exact absurd h Bool.false_ne_true
    | cons c rest =>
      rw [hs] at h
      obtain ⟨hc, hrest⟩ := Bool.and_eq_true_iff.mp h
      exact ⟨[c], ⟨c, hc, rfl⟩, rest, mem_kstar_single.mpr (List.all_eq_true.mp hrest), rfl⟩

/-- What follows the first word is a list of words with a separator in front of each. -/
theorem mem_kstar_behind {a : Char} {l : Language Char} {cs : List Char} :
    cs ∈ (({[a]} : Language Char) * l)∗ ↔
      ∃ words : List (List Char), (∀ w ∈ words, w ∈ l) ∧ cs = words.flatMap (a :: ·) := by
  rw [Language.mem_kstar]
  constructor
  · rintro ⟨pieces, rfl, hpieces⟩
    induction pieces with
    | nil => exact ⟨[], fun _ h => absurd h List.not_mem_nil, rfl⟩
    | cons piece pieces ih =>
      obtain ⟨hpiece, hrest⟩ := List.forall_mem_cons.mp hpieces
      obtain ⟨words, hwords, hflat⟩ := ih hrest
      obtain ⟨_, rfl, word, hword, rfl⟩ := Language.mem_mul.mp hpiece
      refine ⟨word :: words, List.forall_mem_cons.mpr ⟨hword, hwords⟩, ?_⟩
      rw [List.flatten_cons, hflat, List.flatMap_cons, List.singleton_append]
  · rintro ⟨words, hwords, rfl⟩
    refine ⟨words.map (a :: ·), List.flatMap_def, fun piece hpiece => ?_⟩
    obtain ⟨word, hword, rfl⟩ := List.mem_map.mp hpiece
    exact Language.mem_mul.mpr ⟨[a], rfl, word, hwords word hword, rfl⟩

/-- Words with a separator between them. -/
theorem intercalate_eq (a : Char) (word : List Char) (words : List (List Char)) :
    [a].intercalate (word :: words) = word ++ words.flatMap (a :: ·) := by
  induction words generalizing word with
  | nil => simp
  | cons next words ih =>
    rw [List.intercalate_cons_cons, ih, List.flatMap_cons]
    simp

/-- **Words of a language with separators between them** are told by their pieces, if no word has
the separator. -/
theorem mem_separated_iff {a : Char} {l : Language Char} (hl : ∀ w ∈ l, a ∉ w) {cs : List Char} :
    cs ∈ l * (({[a]} : Language Char) * l)∗ ↔ ∀ piece ∈ cs.splitOn a, piece ∈ l := by
  rw [Language.mem_mul]
  constructor
  · rintro ⟨word, hword, tail, htail, rfl⟩
    obtain ⟨words, hwords, rfl⟩ := mem_kstar_behind.mp htail
    have hall : ∀ w ∈ word :: words, w ∈ l := List.forall_mem_cons.mpr ⟨hword, hwords⟩
    rw [← intercalate_eq, List.splitOn_intercalate a (fun w hw => hl w (hall w hw))
      (List.cons_ne_nil _ _)]
    exact hall
  · intro h
    obtain ⟨word, words, hsplit⟩ := List.exists_cons_of_ne_nil (List.splitOn_ne_nil a cs)
    rw [hsplit] at h
    obtain ⟨hword, hwords⟩ := List.forall_mem_cons.mp h
    refine ⟨word, hword, _, mem_kstar_behind.mpr ⟨words, hwords, rfl⟩, ?_⟩
    rw [← intercalate_eq, ← hsplit, List.intercalate_splitOn]

/-- **A qualified name is a dotted identifier.** -/
theorem mem_dottedIdentifiers_iff {s : String} :
    s.toList ∈ dottedIdentifiers ↔ isQualifiedName s = true := by
  have hdot : ∀ w ∈ identifiers, '.' ∉ w := fun w hw => by
    have hword : isIdentifier (String.ofList w) = true :=
      mem_identifiers_iff.mp (by rwa [String.toList_ofList])
    simpa using dot_notMem_of_isIdentifier hword
  rw [dottedIdentifiers, dot, mem_separated_iff hdot, isQualifiedName, List.all_eq_true]
  refine ⟨fun h piece hpiece => ?_, fun h piece hpiece => ?_⟩
  · obtain ⟨cs, hcs, rfl⟩ := List.mem_map.mp hpiece
    exact mem_identifiers_iff.mp (by rw [String.toList_ofList]; exact h cs hcs)
  · have hname := h (String.ofList piece) (List.mem_map_of_mem hpiece)
    rwa [← mem_identifiers_iff, String.toList_ofList] at hname

/-! ## What is written in a reference -/

/-- The text begins with another one. -/
def Begins (start s : String) : Prop := ∃ rest, s = start ++ rest

/-- **A collection on one line** takes the whole reference but for blanks. -/
structure Collects (reference content : String) : Prop where
  /-- The wrapper stands around the content. -/
  core : Text.IsCore reference (collectionStart ++ content ++ ")")
  /-- The content is on one line. -/
  oneLine : '\n' ∉ content.toList

/-- **A reference is written with a text**: the text is all of it but for blanks, or all that stands
in a collection but for blanks. -/
def WrittenWith (reference text : String) : Prop :=
  Text.IsCore reference text ∨ ∃ content, Collects reference content ∧ Text.IsCore content text

/-- **The element type of a reference**: it is written with the text, which is neither empty nor the
beginning of a collection itself. -/
structure ElementType (reference text : String) : Prop where
  /-- The text stands in the reference. -/
  written : WrittenWith reference text
  /-- There is something. -/
  ne_empty : text ≠ ""
  /-- It is no collection, open or closed. -/
  single : ¬Begins collectionStart text

/-- **Why a reference has no element type.** -/
inductive Misshapen (reference : String) : TypeFault → Prop
  /-- It is blank. -/
  | blank : Text.IsCore reference "" → Misshapen reference .blank
  /-- It is a collection of nothing. -/
  | blankCollection {content : String} : Collects reference content → Text.IsCore content "" →
      Misshapen reference .blankCollection
  /-- It is a collection of what begins as a collection. -/
  | nestedCollection {content inner : String} : Collects reference content →
      Text.IsCore content inner → Begins collectionStart inner →
      Misshapen reference .nestedCollection
  /-- It begins as a collection, and nothing closes it at the end of the line. -/
  | openCollection {rest : String} : Text.IsCore reference (collectionStart ++ rest) →
      (∀ content, Collects reference content → False) → Misshapen reference .openCollection

theorem beginsWith_iff_begins {start s : String} :
    Text.beginsWith start s = true ↔ Begins start s :=
  Text.beginsWith_iff

/-- What a collection holds. -/
theorem collectionContent?_eq_some_iff {s content : String} :
    collectionContent? s = some content ↔
      s = collectionStart ++ content ++ ")" ∧ '\n' ∉ content.toList := by
  unfold collectionContent?
  constructor
  · intro h
    split at h
    · exact absurd h (Option.some_ne_none _).symm
    · next tail htail =>
      obtain ⟨⟨hlast, hline⟩, hcontent⟩ := Option.ite_none_right_eq_some.mp h
      have hs := Text.dropStart?_eq_some_iff.mp htail
      obtain rfl := Option.some.inj hcontent
      rw [String.toList_ofList]
      refine ⟨String.toList_injective ?_, hline⟩
      rw [String.toList_append, String.toList_append, String.toList_ofList, List.append_assoc, hs]
      exact congrArg (collectionStart.toList ++ ·) (List.dropLast_append_getLast? ')' hlast).symm
  · rintro ⟨rfl, hline⟩
    have htail : Text.dropStart? collectionStart.toList (collectionStart ++ content ++ ")").toList =
        some (content.toList ++ [')']) := by
      rw [Text.dropStart?_eq_some_iff, String.toList_append, String.toList_append,
        List.append_assoc]
      rfl
    rw [htail]
    simp only [List.getLast?_concat, List.dropLast_concat, String.ofList_toList, hline,
      not_false_eq_true, and_self, if_true]

theorem collects_iff {reference content : String} :
    Collects reference content ↔ collectionContent? (Text.trim reference) = some content := by
  rw [collectionContent?_eq_some_iff, Text.trim_eq_iff]
  exact ⟨fun h => ⟨h.core, h.oneLine⟩, fun h => ⟨h.1, h.2⟩⟩

/-- Either end of a collection is no blank, and it begins as one. -/
theorem Collects.begins {reference content : String} (h : Collects reference content) :
    Begins collectionStart (Text.trim reference) :=
  ⟨content ++ ")", by rw [Text.trim_eq_iff.mpr h.core, String.append_assoc]⟩

theorem ne_empty_of_begins {s : String} (h : Begins collectionStart s) : s ≠ "" := by
  rintro rfl
  obtain ⟨rest, hrest⟩ := h
  exact absurd (congrArg String.toList hrest) (by simp [collectionStart])

/-- **An element type is read.** -/
theorem ElementType.elementType_eq {reference text : String} (h : ElementType reference text) :
    elementType reference = .ok text := by
  have hsingle : Text.beginsWith collectionStart text = false :=
    Bool.eq_false_iff.mpr fun hb => h.single (beginsWith_iff_begins.mp hb)
  obtain hcore | ⟨content, hcontent, hcore⟩ := h.written
  · obtain rfl := Text.trim_eq_iff.mpr hcore
    have hnone : collectionContent? (Text.trim reference) = none :=
      Option.eq_none_iff_forall_ne_some.mpr fun content hsome =>
        h.single (collects_iff.mpr hsome).begins
    simp [elementType, h.ne_empty, hnone, hsingle]
  · obtain rfl := Text.trim_eq_iff.mpr hcore
    simp [elementType, ne_empty_of_begins hcontent.begins, collects_iff.mp hcontent, h.ne_empty,
      hsingle]

/-- **A misshapen reference is refused** for its reason. -/
theorem Misshapen.elementType_eq {reference : String} {fault : TypeFault}
    (h : Misshapen reference fault) : elementType reference = .error fault := by
  cases h with
  | blank hcore =>
    rw [elementType, Text.trim_eq_iff.mpr hcore]
    rfl
  | @blankCollection content hcontent hcore =>
    simp [elementType, ne_empty_of_begins hcontent.begins, collects_iff.mp hcontent,
      Text.trim_eq_iff.mpr hcore]
  | @nestedCollection content inner hcontent hcore hbegins =>
    simp [elementType, ne_empty_of_begins hcontent.begins, collects_iff.mp hcontent,
      Text.trim_eq_iff.mpr hcore, ne_empty_of_begins hbegins, beginsWith_iff_begins.mpr hbegins]
  | @openCollection rest hcore hopen =>
    have htrim := Text.trim_eq_iff.mpr hcore
    have hbegins : Begins collectionStart (Text.trim reference) := ⟨rest, htrim⟩
    have hnone : collectionContent? (Text.trim reference) = none :=
      Option.eq_none_iff_forall_ne_some.mpr fun content hsome =>
        hopen content (collects_iff.mpr hsome)
    simp [elementType, ne_empty_of_begins hbegins, hnone, beginsWith_iff_begins.mpr hbegins]

/-- **A reference has an element type or is misshapen.** -/
theorem exists_elementType_or_misshapen (reference : String) :
    (∃ text, ElementType reference text) ∨ ∃ fault, Misshapen reference fault := by
  by_cases hempty : Text.trim reference = ""
  · exact .inr ⟨_, .blank (Text.trim_eq_iff.mp hempty)⟩
  by_cases hcollects : ∃ content, Collects reference content
  · obtain ⟨content, hcontent⟩ := hcollects
    have hcore := Text.isCore_trim content
    by_cases hblank : Text.trim content = ""
    · exact .inr ⟨_, .blankCollection hcontent (hblank ▸ hcore)⟩
    by_cases hnested : Begins collectionStart (Text.trim content)
    · exact .inr ⟨_, .nestedCollection hcontent hcore hnested⟩
    · exact .inl ⟨_, .inr ⟨content, hcontent, hcore⟩, hblank, hnested⟩
  · have hcore := Text.isCore_trim reference
    by_cases hopen : Begins collectionStart (Text.trim reference)
    · obtain ⟨rest, hrest⟩ := hopen
      exact .inr ⟨_, .openCollection (hrest ▸ hcore) fun content h => hcollects ⟨content, h⟩⟩
    · exact .inl ⟨_, .inl hcore, hempty, hopen⟩

/-- A dotted identifier is an element type wherever it is written. -/
theorem elementType_of_dotted {reference name : String} (hname : name.toList ∈ dottedIdentifiers)
    (h : WrittenWith reference name) : ElementType reference name := by
  have hqualified := mem_dottedIdentifiers_iff.mp hname
  refine ⟨h, ne_empty_of_isQualifiedName hqualified, fun ⟨rest, hrest⟩ => ?_⟩
  -- the wrapper of a collection has a bracket
  refine bracket_notMem_of_isQualifiedName hqualified ?_
  rw [hrest, String.toList_append]
  exact List.mem_append_left _ (by decide)

/-! ## What a name means -/

/-- **What a dotted name means** in a namespace, with given short names. -/
inductive Means (namespaceName : String) (aliases : Aliases) : (name id : String) → Prop
  /-- A name without a dot is one of the namespace. -/
  | plain {name : String} : '.' ∉ name.toList →
      Means namespaceName aliases name (namespaceName ++ "." ++ name)
  /-- One name behind a short name is one of the namespace that the short name stands for. -/
  | short {head rest target : String} : '.' ∉ head.toList → '.' ∉ rest.toList →
      aliases.get? head = some target →
      Means namespaceName aliases (head ++ "." ++ rest) (target ++ "." ++ rest)
  /-- One name behind what is no short name is taken as it stands. -/
  | unknown {head rest : String} : '.' ∉ head.toList → '.' ∉ rest.toList →
      aliases.get? head = none →
      Means namespaceName aliases (head ++ "." ++ rest) (head ++ "." ++ rest)
  /-- A name with two dots or more is taken as it stands. -/
  | long {head rest : String} : '.' ∉ head.toList → '.' ∈ rest.toList →
      Means namespaceName aliases (head ++ "." ++ rest) (head ++ "." ++ rest)

/-- **A name is qualified to what it means.** -/
theorem Means.qualify_eq {namespaceName name id : String} {aliases : Aliases}
    (h : Means namespaceName aliases name id) :
    TypeReader.qualify namespaceName aliases name = id := by
  cases h with
  | plain hdot => exact TypeReader.qualify_plain hdot ..
  | short hhead hrest htarget =>
    rw [TypeReader.qualify_dotted hrest, if_neg hhead, htarget]
    rfl
  | unknown hhead hrest hnone =>
    rw [TypeReader.qualify_dotted hrest, if_neg hhead, hnone]
    rfl
  | @long head rest hhead hrest =>
    have hcut : Text.splitFirst '.' (head ++ "." ++ rest) = some (head, rest) :=
      Text.splitFirst_eq_some (Text.toList_dotted head rest) hhead
    rw [TypeReader.qualify, hcut]
    exact if_pos (List.contains_iff_mem.mpr hrest)

/-- Every name means something. -/
theorem means_qualify (namespaceName : String) (aliases : Aliases) (name : String) :
    Means namespaceName aliases name (TypeReader.qualify namespaceName aliases name) := by
  have hmeans : ∃ id, Means namespaceName aliases name id := by
    by_cases hdot : '.' ∈ name.toList
    · obtain ⟨before, after, hname, hbefore⟩ := List.eq_append_cons_of_mem hdot
      obtain rfl : name = String.ofList before ++ "." ++ String.ofList after := by
        refine String.toList_injective ?_
        rw [Text.toList_dotted, String.toList_ofList, String.toList_ofList, hname]
      have hhead : '.' ∉ (String.ofList before).toList := by rwa [String.toList_ofList]
      by_cases hrest : '.' ∈ (String.ofList after).toList
      · exact ⟨_, .long hhead hrest⟩
      · cases hget : aliases.get? (String.ofList before) with
        | none => exact ⟨_, .unknown hhead hrest hget⟩
        | some target => exact ⟨_, .short hhead hrest hget⟩
    · exact ⟨_, .plain hdot⟩
  obtain ⟨id, hid⟩ := hmeans
  rw [hid.qualify_eq]
  exact hid

/-! ## Reading a reference -/

section Reading

variable (r : TypeReader) (reference : String)

/-- **A reference names an element**: a dotted identifier is written in it, which is not that of a
primitive type. -/
structure Names (name : String) : Prop where
  /-- It is a dotted identifier. -/
  dotted : name.toList ∈ dottedIdentifiers
  /-- It stands in the reference. -/
  written : WrittenWith reference name
  /-- It is not the name of a primitive type. -/
  not_primitive : ¬Begins r.primitiveStart name

/-- **A reference names a primitive type**: its element type begins as those do, whatever follows. -/
structure NamesPrimitive (text : String) : Prop where
  /-- It stands in the reference. -/
  elementType : ElementType reference text
  /-- It begins as the names of primitive types do. -/
  primitive : Begins r.primitiveStart text

/-- **Why a reference is refused**: it has no element type, or one that is neither primitive nor a
dotted identifier. -/
inductive Refused : TypeFault → Prop
  /-- There is no element type. -/
  | misshapen {fault : TypeFault} : Misshapen reference fault → Refused fault
  /-- The element type is no name. -/
  | notQualified {text : String} : ElementType reference text → ¬Begins r.primitiveStart text →
      text.toList ∉ dottedIdentifiers → Refused .notQualified

/-- **What the grammar answers** for a reference, in a namespace and with given short names. -/
inductive Answer (namespaceName : String) (aliases : Aliases) : Except TypeFault Referent → Prop
  /-- An element is meant by its name. -/
  | element {name id : String} : Names r reference name → Means namespaceName aliases name id →
      Answer namespaceName aliases (.ok (.element id))
  /-- A primitive type is meant. -/
  | primitive {text : String} : NamesPrimitive r reference text →
      Answer namespaceName aliases (.ok .primitive)
  /-- Nothing is meant. -/
  | refused {fault : TypeFault} : Refused r reference fault →
      Answer namespaceName aliases (.error fault)

/-- **A reference is read by the grammar**, in a namespace and with given short names. -/
structure ReadsByGrammar (namespaceName : String) (aliases : Aliases) : Prop where
  /-- It is read as an element just when it names one, and the element is what the name means. -/
  element_iff : ∀ id, r.resolve reference namespaceName aliases = .ok (.element id) ↔
    ∃ name, Names r reference name ∧ Means namespaceName aliases name id
  /-- It is read as primitive just when it names a primitive type. -/
  primitive_iff : r.resolve reference namespaceName aliases = .ok .primitive ↔
    ∃ text, NamesPrimitive r reference text
  /-- It is refused in every other case. -/
  refused_iff : (∃ fault, r.resolve reference namespaceName aliases = .error fault) ↔
    (∀ name, ¬Names r reference name) ∧ ∀ text, ¬NamesPrimitive r reference text
  /-- The fault says why. -/
  fault_iff : ∀ fault, r.resolve reference namespaceName aliases = .error fault ↔
    Refused r reference fault
  /-- Blanks around it make no difference. -/
  surrounded : ∀ front back, Text.AllBlank front → Text.AllBlank back →
    r.resolve (front ++ reference ++ back) namespaceName aliases =
      r.resolve reference namespaceName aliases
  /-- The wrapper of a collection and the blanks in it make no difference. -/
  wrapped : ∀ name, name.toList ∈ dottedIdentifiers → WrittenWith reference name →
    r.resolve reference namespaceName aliases = r.resolve name namespaceName aliases

end Reading

end TypeGrammar

namespace TypeReader

open TypeGrammar

variable {r : TypeReader} {reference text : String} {namespaceName : String} {aliases : Aliases}

theorem isPrimitive_iff {name : String} :
    r.isPrimitive name = true ↔ Begins r.primitiveStart name :=
  beginsWith_iff_begins

theorem resolve_of_elementType (h : ElementType reference text)
    (hprimitive : ¬Begins r.primitiveStart text) : r.resolve reference namespaceName aliases =
      if isQualifiedName text then .ok (.element (qualify namespaceName aliases text))
      else .error .notQualified := by
  rw [resolve, h.elementType_eq]
  exact if_neg fun hp => hprimitive (isPrimitive_iff.mp hp)

/-- **What the grammar answers is read.** -/
theorem resolve_of_answer {answer : Except TypeFault Referent}
    (h : Answer r reference namespaceName aliases answer) :
    r.resolve reference namespaceName aliases = answer := by
  cases h with
  | element hname hmeans =>
    rw [resolve_of_elementType (elementType_of_dotted hname.dotted hname.written)
      hname.not_primitive, if_pos (mem_dottedIdentifiers_iff.mp hname.dotted), hmeans.qualify_eq]
  | primitive htext =>
    rw [resolve, htext.elementType.elementType_eq]
    exact if_pos (isPrimitive_iff.mpr htext.primitive)
  | refused hfault =>
    cases hfault with
    | misshapen hshape => rw [resolve, hshape.elementType_eq]
    | notQualified htext hprimitive hdotted =>
      rw [resolve_of_elementType htext hprimitive,
        if_neg fun hq => hdotted (mem_dottedIdentifiers_iff.mpr hq)]

/-- **The grammar answers every reference.** -/
theorem exists_answer (r : TypeReader) (reference namespaceName : String) (aliases : Aliases) :
    ∃ answer, Answer r reference namespaceName aliases answer := by
  obtain ⟨text, htext⟩ | ⟨fault, hfault⟩ := exists_elementType_or_misshapen reference
  · by_cases hprimitive : Begins r.primitiveStart text
    · exact ⟨_, .primitive ⟨htext, hprimitive⟩⟩
    by_cases hdotted : text.toList ∈ dottedIdentifiers
    · exact ⟨_, .element ⟨hdotted, htext.written, hprimitive⟩ (means_qualify ..)⟩
    · exact ⟨_, .refused (.notQualified htext hprimitive hdotted)⟩
  · exact ⟨_, .refused (.misshapen hfault)⟩

theorem resolve_eq_iff {answer : Except TypeFault Referent} :
    r.resolve reference namespaceName aliases = answer ↔
      Answer r reference namespaceName aliases answer := by
  refine ⟨fun h => ?_, resolve_of_answer⟩
  obtain ⟨answer', hanswer⟩ := exists_answer r reference namespaceName aliases
  rwa [← h, resolve_of_answer hanswer]

/-- **Every text is read by the grammar.** -/
theorem readsByGrammar (r : TypeReader) (reference namespaceName : String) (aliases : Aliases) :
    ReadsByGrammar r reference namespaceName aliases where
  element_iff := by
    intro id
    rw [resolve_eq_iff]
    constructor
    · intro h
      cases h with
      | element hname hmeans => exact ⟨_, hname, hmeans⟩
    · rintro ⟨name, hname, hmeans⟩
      exact .element hname hmeans
  primitive_iff := by
    rw [resolve_eq_iff]
    constructor
    · intro h
      cases h with
      | primitive htext => exact ⟨_, htext⟩
    · rintro ⟨text, htext⟩
      exact .primitive htext
  refused_iff := by
    constructor
    · rintro ⟨fault, h⟩
      refine ⟨fun name hname => ?_, fun text htext => ?_⟩
      · rw [resolve_of_answer (.element hname (means_qualify ..))] at h
        exact absurd h (by simp)
      · rw [resolve_of_answer (.primitive htext)] at h
        exact absurd h (by simp)
    · rintro ⟨hnames, hprimitive⟩
      obtain ⟨answer, hanswer⟩ := exists_answer r reference namespaceName aliases
      cases hanswer with
      | element hname _ => exact absurd hname (hnames _)
      | primitive htext => exact absurd htext (hprimitive _)
      | refused hfault => exact ⟨_, resolve_of_answer (.refused hfault)⟩
  fault_iff := by
    intro fault
    rw [resolve_eq_iff]
    constructor
    · intro h
      cases h with
      | refused hfault => exact hfault
    · exact .refused
  surrounded := by
    intro front back hfront hback
    have htype : elementType (front ++ reference ++ back) = elementType reference := by
      rw [elementType, elementType, Text.trim_surrounded hfront hback]
    rw [resolve, resolve, htype]
  wrapped := by
    intro name hname h
    have hself : elementType name = .ok name :=
      elementType_eq_ok (mem_dottedIdentifiers_iff.mp hname)
    rw [resolve, resolve, (elementType_of_dotted hname h).elementType_eq, hself]

end TypeReader

end CsdlAudit

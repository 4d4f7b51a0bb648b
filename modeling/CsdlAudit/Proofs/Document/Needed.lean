import CsdlAudit.Document.Check
import CsdlAudit.Document.OpenElement
import CsdlAudit.Proofs.Ascending

/-!
# What elements need

Which attributes an element needs is written down twice. The checker has a table of them
(`neededAttributes`), and the reader asks for them one by one as it opens the element
(`Opened.ofTag`). The two agree: the reader fails only for want of an attribute that the table has
(`Opened.lacks_of_ofTag_eq_error`). So where the checker finds nothing lacking, the reader opens the
element (`exists_opened`).
-/

namespace CsdlAudit.Document

/-! ## The attributes of a tag -/

namespace Attributes

variable {as as' : Attributes} {name : String}

/-- The value of an attribute that is there. -/
def value (as : Attributes) (name : String) : String := (as.get? name).getD ""

theorem isSome_get?_iff : (as.get? name).isSome = true ↔ ∃ e ∈ as.entries, e.1 = name := by
  simp only [get?, Option.isSome_map, List.find?_isSome, beq_iff_eq]

/-- Setting an attribute gives it a value and takes none from the others. -/
theorem isSome_get?_set_iff {key value : String} :
    ((as.set key value).get? name).isSome = true ↔
      key = name ∨ (as.get? name).isSome = true := by
  rw [isSome_get?_iff, isSome_get?_iff]
  constructor
  · rintro ⟨e, he, hname⟩
    rcases List.mem_append.mp he with he | he
    · exact .inr ⟨e, (List.mem_filter.mp he).1, hname⟩
    · rw [List.mem_singleton.mp he] at hname
      exact .inl hname
  · rintro (hname | ⟨e, he, hname⟩)
    · exact ⟨(key, value), List.mem_append_right _ (List.mem_singleton.mpr rfl), hname⟩
    · by_cases hkey : key = name
      · exact ⟨(key, value), List.mem_append_right _ (List.mem_singleton.mpr rfl), hkey⟩
      · refine ⟨e, List.mem_append_left _ (List.mem_filter.mpr ⟨he, ?_⟩), hname⟩
        rw [hname, bne_iff_ne]
        exact Ne.symm hkey

theorem isSome_get?_addAll {written : List Markup.Attribute} (h : as.addAll written = .ok as') :
    (as'.get? name).isSome = true ↔
      (as.get? name).isSome = true ∨ ∃ a ∈ written, a.localKey = name := by
  induction written generalizing as with
  | nil =>
    cases h
    simp only [List.not_mem_nil, false_and, exists_false, or_false]
  | cons a rest ih =>
    unfold addAll at h
    split at h
    · rw [ih h, isSome_get?_set_iff, or_assoc, or_left_comm]
      simp only [List.mem_cons, exists_eq_or_imp]
    · cases h

theorem addAll_eq_error {written : List Markup.Attribute} {error : DocumentError}
    (h : as.addAll written = .error error) :
    ∃ a ∈ written, ∃ fault, Markup.expand a.raw = .error fault ∧ error = .reference fault := by
  induction written generalizing as with
  | nil => cases h
  | cons a rest ih =>
    unfold addAll at h
    split at h
    · obtain ⟨b, hb, hfault⟩ := ih h
      exact ⟨b, List.mem_cons_of_mem a hb, hfault⟩
    · next fault hexpand =>
      cases h
      exact ⟨a, List.mem_cons_self, fault, hexpand, rfl⟩

/-- **The attributes of a tag are those that it writes**, and none is written badly. -/
theorem ofTag_eq_ok {tag : Markup.Tag} (h : ofTag tag = .ok as) : tag.attributes.fault = none ∧
    ∀ name, (as.get? name).isSome = true ↔
      ∃ a ∈ tag.attributes.attributes, a.localKey = name := by
  unfold ofTag at h
  split at h
  · cases h
  · next as' hall =>
    split at h
    · cases h
    · next hfault =>
      cases h
      refine ⟨hfault, fun name => (isSome_get?_addAll hall).trans (or_iff_right ?_)⟩
      exact Bool.false_ne_true

/-- **A tag is not read for two reasons**: an attribute is badly written, or has a value that cannot
be expanded. -/
theorem ofTag_eq_error {tag : Markup.Tag} {error : DocumentError} (h : ofTag tag = .error error) :
    (∃ fault, tag.attributes.fault = some fault ∧ error = .malformed fault) ∨
      ∃ a ∈ tag.attributes.attributes, ∃ fault,
        Markup.expand a.raw = .error fault ∧ error = .reference fault := by
  unfold ofTag at h
  split at h
  · next error' hall =>
    cases h
    exact .inr (addAll_eq_error hall)
  · split at h
    · next fault hfault =>
      cases h
      exact .inl ⟨fault, hfault, rfl⟩
    · cases h

end Attributes

/-! ## What an element lacks -/

/-- **What an element needs is its line in the table**, which has one line for each. -/
theorem neededBy?_eq_some_iff {element : String} {needed : List String} :
    neededBy? element = some needed ↔ (element, needed) ∈ neededAttributes := by
  have hnodup : (neededAttributes.map Prod.fst).Nodup := by decide +kernel
  rw [neededBy?, Option.map_eq_some_iff]
  constructor
  · rintro ⟨entry, hentry, rfl⟩
    obtain ⟨hmem, rfl⟩ := (find?_key_eq_some_iff hnodup).mp hentry
    exact hmem
  · exact fun h => ⟨(element, needed), (find?_key_eq_some_iff hnodup).mpr ⟨h, rfl⟩, rfl⟩

/-- **Nothing is lacking** when the attributes of an element that needs some can be read and have
all of them. -/
theorem lacking_eq_nil_iff {tag : Markup.Tag} : lacking tag = [] ↔
    ∀ needed, (tag.localName, needed) ∈ neededAttributes → tag.attributes.fault = none ∧
      ∀ name ∈ needed, ∃ a ∈ tag.attributes.attributes, a.localKey = name := by
  simp only [← neededBy?_eq_some_iff]
  unfold lacking
  split
  · next hnone => simp only [hnone, reduceCtorEq, false_implies, implies_true]
  · next needed hneeded =>
    simp only [hneeded, Option.some.injEq, forall_eq']
    split
    · next fault hfault => simp only [hfault, List.cons_ne_nil, reduceCtorEq, false_and]
    · next hfault =>
      simp only [hfault, true_and, List.map_eq_nil_iff, List.filter_eq_nil_iff,
        Bool.not_eq_true', Bool.not_eq_false, List.any_eq_true, beq_iff_eq]

/-! ## Opening an element -/

/-- An element lacks an attribute that it needs, and the error says which. -/
def Lacks (as : Attributes) (element : String) (error : DocumentError) : Prop :=
  ∃ name ∈ (neededBy? element).getD [], as.get? name = none ∧ error = .missing element name

section Opening

variable {as : Attributes} {element name : String} {error : DocumentError} {α : Type}

/-- What begins with asking for an attribute fails for want of it, or goes on with its value. -/
theorem lacks_or_of_need {f : String → Except DocumentError α}
    (h : as.need element name >>= f = .error error)
    (hname : name ∈ (neededBy? element).getD []) :
    Lacks as element error ∨ ∃ value, f value = .error error := by
  unfold Attributes.need at h
  split at h
  · next value _ => exact .inr ⟨value, h⟩
  · next hnone =>
    cases h
    exact .inl ⟨name, hname, hnone, rfl⟩

theorem lacks_of_one {f : String → α} (h : (do return f (← as.need element name)) = .error error)
    (hname : name ∈ (neededBy? element).getD []) : Lacks as element error := by
  rcases lacks_or_of_need h hname with hlacks | ⟨value, hvalue⟩
  · exact hlacks
  · cases hvalue

theorem lacks_of_two {other : String} {f : String → String → α}
    (h : (do return f (← as.need element name) (← as.need element other)) = .error error)
    (hname : name ∈ (neededBy? element).getD []) (hother : other ∈ (neededBy? element).getD []) :
    Lacks as element error := by
  rcases lacks_or_of_need h hname with hlacks | ⟨value, hvalue⟩
  · exact hlacks
  · exact lacks_of_one hvalue hother

/-- **An element that is not opened lacks an attribute of the table.** -/
theorem Opened.lacks_of_ofTag_eq_error (h : Opened.ofTag element as = .error error) :
    Lacks as element error := by
  unfold Opened.ofTag at h
  -- an element asks for two attributes, for one, or for none
  split at h
  all_goals first
    | exact lacks_of_two h (by decide) (by decide)
    | exact lacks_of_one h (by decide)
    | cases h

/-- What begins with asking for an attribute succeeds with its value. -/
theorem ok_of_need {f : String → Except DocumentError α} {a : α}
    (h : as.need element name >>= f = .ok a) : f (as.value name) = .ok a := by
  unfold Attributes.need at h
  unfold Attributes.value
  split at h
  · next value hvalue =>
    rw [hvalue]
    exact h
  · cases h

theorem eq_of_one {f : String → α} {a : α}
    (h : (do return f (← as.need element name)) = .ok a) : a = f (as.value name) := by
  have hvalue := ok_of_need h
  exact (Except.ok.inj hvalue).symm

theorem eq_of_two {other : String} {f : String → String → α} {a : α}
    (h : (do return f (← as.need element name) (← as.need element other)) = .ok a) :
    a = f (as.value name) (as.value other) := by
  have hvalue := ok_of_need h
  exact eq_of_one hvalue

/-- An element that has all attributes that it needs is opened. -/
theorem exists_opened_of_isSome
    (h : ∀ name ∈ (neededBy? element).getD [], (as.get? name).isSome = true) :
    ∃ opened, Opened.ofTag element as = .ok opened := by
  cases hopened : Opened.ofTag element as with
  | ok opened => exact ⟨opened, rfl⟩
  | error error =>
    obtain ⟨name, hname, hnone, -⟩ := Opened.lacks_of_ofTag_eq_error hopened
    have hsome := h name hname
    rw [hnone] at hsome
    exact absurd hsome Bool.false_ne_true

/-- **Where nothing is lacking, the element is opened**, and a block has a namespace. -/
theorem exists_opened {tag : Markup.Tag} (hlacking : lacking tag = [])
    (hattributes : Attributes.ofTag tag = .ok as) :
    (∃ opened, Opened.ofTag tag.localName as = .ok opened) ∧
      (tag.localName = "Schema" → (as.get? "Namespace").isSome = true) := by
  have hneeded : ∀ name ∈ (neededBy? tag.localName).getD [], (as.get? name).isSome = true := by
    intro name hname
    cases hneeded : neededBy? tag.localName with
    | none =>
      rw [hneeded] at hname
      exact absurd hname List.not_mem_nil
    | some needed =>
      rw [hneeded] at hname
      have hpresent := (lacking_eq_nil_iff.mp hlacking needed (neededBy?_eq_some_iff.mp hneeded)).2 name
        hname
      exact ((Attributes.ofTag_eq_ok hattributes).2 name).mpr hpresent
  exact ⟨exists_opened_of_isSome hneeded, fun hschema => hneeded "Namespace" (hschema ▸ by decide)⟩

end Opening

end CsdlAudit.Document

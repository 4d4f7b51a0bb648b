import CsdlAudit.Proofs.Text.Pieces
import CsdlAudit.TypeReference

/-!
# Names as type references

A character that a name may go on with is not blank, and is neither a dot nor a bracket
(`separate_of_continuesName`). So a qualified name stands for itself as a type reference: nothing is
trimmed off and there is no collection in it (`elementType_eq_ok`), and what it means is what its
qualification gives, unless it is primitive (`TypeReader.resolve_eq_qualify`).

A name behind a namespace is read by the first dot of the whole: if the namespace has a dot itself,
the text is taken literally; otherwise the namespace may be a short name of another one
(`TypeReader.qualify_dotted`).
-/

namespace CsdlAudit

/-! ## Characters of names -/

/-- The code points of the blank characters. -/
def Text.blankCodes : List Nat :=
  List.range' 9 5 ++ [0x20, 0x85, 0xA0, 0x1680] ++ List.range' 0x2000 11 ++
    [0x2028, 0x2029, 0x202F, 0x205F, 0x3000]

theorem Text.toNat_mem_blankCodes {c : Char} (h : isBlank c = true) : c.toNat ∈ blankCodes := by
  simp only [isBlank, Bool.or_eq_true, Bool.and_eq_true, decide_eq_true_eq] at h
  simp only [blankCodes, List.mem_append, List.mem_range'_1, List.mem_cons, List.not_mem_nil,
    or_false]
  omega

/-- The code points of the blank characters, of the opening bracket and of the dot. -/
def separatorCodes : List Nat := Text.blankCodes ++ ['('.toNat, '.'.toNat]

/-- No separator is in a table of characters that names are made of. -/
theorem not_continues_of_mem_separatorCodes : ∀ n ∈ separatorCodes,
    n ≠ '_'.toNat ∧ Text.letterRanges.hasCode n = false ∧
      Text.decimalDigitRanges.hasCode n = false := by
  decide +kernel

theorem notMem_separatorCodes {c : Char} (h : continuesName c = true) :
    c.toNat ∉ separatorCodes := by
  intro hmem
  obtain ⟨hunderscore, hletter, hdigit⟩ := not_continues_of_mem_separatorCodes _ hmem
  have hne : c ≠ '_' := fun e => hunderscore (congrArg Char.toNat e)
  simp [continuesName, startsName, Text.isLetter, Text.isDecimalDigit, hne, hletter, hdigit] at h

/-- **What a name goes on with is no separator.** -/
theorem separate_of_continuesName {c : Char} (h : continuesName c = true) :
    Text.isBlank c = false ∧ c ≠ '(' ∧ c ≠ '.' := by
  have hnot := notMem_separatorCodes h
  refine ⟨Bool.eq_false_iff.mpr fun hblank => ?_, ?_, ?_⟩
  · exact hnot (List.mem_append_left _ (Text.toNat_mem_blankCodes hblank))
  · rintro rfl
    exact hnot (by decide)
  · rintro rfl
    exact hnot (by decide)

/-! ## Identifiers and qualified names -/

theorem continuesName_of_isIdentifier {s : String} (h : isIdentifier s = true) :
    ∀ c ∈ s.toList, continuesName c = true := by
  unfold isIdentifier at h
  cases hs : s.toList with
  | nil => exact fun c hc => absurd hc List.not_mem_nil
  | cons first rest =>
    rw [hs, Bool.and_eq_true, List.all_eq_true] at h
    intro c hc
    rcases List.mem_cons.mp hc with rfl | hc
    · rw [continuesName, h.1, Bool.true_or]
    · exact h.2 c hc

/-- An identifier has no dot. -/
theorem dot_notMem_of_isIdentifier {s : String} (h : isIdentifier s = true) : '.' ∉ s.toList :=
  fun hc => (separate_of_continuesName (continuesName_of_isIdentifier h _ hc)).2.2 rfl

theorem isQualifiedName_of_isIdentifier {s : String} (h : isIdentifier s = true) :
    isQualifiedName s = true := by
  rw [isQualifiedName, Text.splitAll, List.splitOn_eq_singleton (dot_notMem_of_isIdentifier h)]
  simpa using h

theorem isQualifiedName_dotted (s t : String) :
    isQualifiedName (s ++ "." ++ t) = (isQualifiedName s && isQualifiedName t) := by
  simp only [isQualifiedName, Text.splitAll, Text.toList_dotted, List.splitOn_append_cons_self,
    List.map_append, List.all_append]

/-- An identifier behind a qualified name makes a qualified name. -/
theorem isQualifiedName_append {front name : String} (hfront : isQualifiedName front = true)
    (hname : isIdentifier name = true) : isQualifiedName (front ++ "." ++ name) = true := by
  rw [isQualifiedName_dotted, hfront, isQualifiedName_of_isIdentifier hname, Bool.and_self]

/-- A character is a separator or belongs to a piece. -/
theorem exists_mem_splitOn {a c : Char} {cs : List Char} (h : c ∈ cs) (hne : c ≠ a) :
    ∃ piece ∈ cs.splitOn a, c ∈ piece := by
  induction cs with
  | nil => exact absurd h List.not_mem_nil
  | cons x cs ih =>
    rw [List.splitOn_cons_eq_if_modifyHead]
    obtain ⟨first, rest, hsplit⟩ := List.exists_cons_of_ne_nil (List.splitOn_ne_nil a cs)
    rw [hsplit] at ih ⊢
    rcases List.mem_cons.mp h with rfl | h
    · rw [if_neg (by simpa using hne)]
      exact ⟨c :: first, List.mem_cons_self, List.mem_cons_self⟩
    · obtain ⟨piece, hpiece, hc⟩ := ih h
      split
      · exact ⟨piece, List.mem_cons_of_mem _ hpiece, hc⟩
      · -- the new character stands in front of the first piece
        rcases List.mem_cons.mp hpiece with rfl | hpiece
        · exact ⟨x :: piece, List.mem_cons_self, List.mem_cons_of_mem _ hc⟩
        · exact ⟨piece, List.mem_cons_of_mem _ hpiece, hc⟩

/-- Identifiers that are joined by a separator have it and characters of names only. -/
theorem eq_or_continuesName {a : Char} {s : String}
    (h : (Text.splitAll a s).all isIdentifier = true) :
    ∀ c ∈ s.toList, c = a ∨ continuesName c = true := by
  intro c hc
  by_cases hne : c = a
  · exact Or.inl hne
  · obtain ⟨piece, hpiece, hmem⟩ := exists_mem_splitOn hc hne
    have hident : isIdentifier (String.ofList piece) = true :=
      List.all_eq_true.mp h _ (List.mem_map_of_mem hpiece)
    exact Or.inr (continuesName_of_isIdentifier hident c (by rwa [String.toList_ofList]))

/-- **A qualified name has dots and characters of names only.** -/
theorem eq_dot_or_continuesName {s : String} (h : isQualifiedName s = true) :
    ∀ c ∈ s.toList, c = '.' ∨ continuesName c = true :=
  eq_or_continuesName h

theorem not_isBlank_of_isQualifiedName {s : String} (h : isQualifiedName s = true) :
    ∀ c ∈ s.toList, Text.isBlank c = false := by
  intro c hc
  rcases eq_dot_or_continuesName h c hc with rfl | hname
  · decide
  · exact (separate_of_continuesName hname).1

theorem bracket_notMem_of_isQualifiedName {s : String} (h : isQualifiedName s = true) :
    '(' ∉ s.toList := by
  intro hc
  rcases eq_dot_or_continuesName h _ hc with hdot | hname
  · exact absurd hdot (by decide)
  · exact (separate_of_continuesName hname).2.1 rfl

theorem ne_empty_of_isQualifiedName {s : String} (h : isQualifiedName s = true) : s ≠ "" := by
  rintro rfl
  exact absurd h (by decide)

/-! ## Reading a qualified name -/

/-- Nothing is trimmed off a text without blanks. -/
theorem Text.trim_eq_self {s : String} (h : ∀ c ∈ s.toList, isBlank c = false) : trim s = s := by
  have hkeep : ∀ cs : List Char, (∀ c ∈ cs, isBlank c = false) → cs.dropWhile isBlank = cs := by
    intro cs hcs
    cases cs with
    | nil => rfl
    | cons c cs => rw [List.dropWhile_cons, hcs c List.mem_cons_self, if_neg Bool.false_ne_true]
  rw [trim, dropEndWhile, hkeep _ h, hkeep _ fun c hc => h c (List.mem_reverse.mp hc),
    List.reverse_reverse, String.ofList_toList]

/-- **A qualified name as a type reference is the name itself.** -/
theorem elementType_eq_ok {s : String} (h : isQualifiedName s = true) :
    elementType s = .ok s := by
  -- the wrapper of a collection has a bracket
  have hstart : ∀ rest : List Char, s.toList ≠ collectionStart.toList ++ rest := by
    intro rest e
    refine bracket_notMem_of_isQualifiedName h ?_
    rw [e]
    exact List.mem_append_left _ (by decide)
  have hcontent : collectionContent? s = none := by
    rw [collectionContent?, Text.dropStart?_eq_none hstart]
  have hopen : Text.beginsWith collectionStart s = false := by
    rw [Text.beginsWith, Text.dropStart?_eq_none hstart]
    rfl
  simp [elementType, Text.trim_eq_self (not_isBlank_of_isQualifiedName h),
    ne_empty_of_isQualifiedName h, hcontent, hopen]

namespace TypeReader

/-- An identifier is not primitive where the names of primitive types begin with a dotted text. -/
theorem isPrimitive_eq_false {r : TypeReader} {name : String} (hname : isIdentifier name = true)
    (hstart : '.' ∈ r.primitiveStart.toList) : r.isPrimitive name = false := by
  rw [← Bool.not_eq_true, isPrimitive, Text.beginsWith_iff]
  rintro ⟨rest, rfl⟩
  refine dot_notMem_of_isIdentifier hname ?_
  rw [String.toList_append]
  exact List.mem_append_left _ hstart

/-- **What a qualified name means**, unless it is primitive. -/
theorem resolve_eq_qualify {r : TypeReader} {name : String} (h : isQualifiedName name = true)
    (hprimitive : r.isPrimitive name = false) (namespaceName : String) (aliases : Aliases) :
    r.resolve name namespaceName aliases = .ok (.element (qualify namespaceName aliases name)) := by
  simp only [resolve, elementType_eq_ok h, hprimitive, h, if_true, Bool.false_eq_true, if_false]

/-- A plain name is one of the namespace in which it stands. -/
theorem qualify_plain {name : String} (h : '.' ∉ name.toList) (namespaceName : String)
    (aliases : Aliases) : qualify namespaceName aliases name = namespaceName ++ "." ++ name := by
  rw [qualify, Text.splitFirst_eq_none h]

/-- **A plain name behind a namespace** is literal if the namespace has a dot; otherwise the
namespace may be a short name. -/
theorem qualify_dotted {name : String} (h : '.' ∉ name.toList) (namespaceName front : String)
    (aliases : Aliases) : qualify namespaceName aliases (front ++ "." ++ name) =
      (if '.' ∈ front.toList then front else (aliases.get? front).getD front) ++ "." ++ name := by
  by_cases hdot : '.' ∈ front.toList
  · -- the first dot is one of the namespace, so another one follows it
    obtain ⟨before, after, hfront, hbefore⟩ := List.eq_append_cons_of_mem hdot
    have hcut : Text.splitFirst '.' (front ++ "." ++ name) =
        some (String.ofList before, String.ofList (after ++ '.' :: name.toList)) := by
      refine Text.splitFirst_eq_some ?_ (by rwa [String.toList_ofList])
      rw [Text.toList_dotted, hfront, String.toList_ofList, String.toList_ofList, List.append_assoc]
      rfl
    have hrest : Text.holds '.' (String.ofList (after ++ '.' :: name.toList)) = true := by
      rw [Text.holds, String.toList_ofList, List.contains_iff_mem]
      exact List.mem_append_right _ List.mem_cons_self
    rw [qualify, hcut, if_pos hdot]
    exact if_pos hrest
  · have hcut : Text.splitFirst '.' (front ++ "." ++ name) = some (front, name) :=
      Text.splitFirst_eq_some (Text.toList_dotted front name) hdot
    have hrest : ¬Text.holds '.' name = true := fun hh => h (List.contains_iff_mem.mp hh)
    rw [qualify, hcut, if_neg hdot]
    dsimp only
    rw [if_neg hrest]
    cases aliases.get? front <;> rfl

end TypeReader

end CsdlAudit

import Mathlib.Data.List.Nodup
import CsdlAudit.Markup.Event

/-!
# Writing what is read back

A text is written with references in place of the characters that have names (`escape`), and an
attribute as its key with the value in double quotes (`Attribute.written`). What is written so is
read back: the references expand to the text (`expand_escape`), a tag ends behind its attributes
(`SelfContained.cutTag`), and its attributes are those that were written
(`readAttributes_written`).
-/

namespace CsdlAudit.Markup

/-! ## References -/

/-- A character as it is written: by its name, if it has one. -/
def escapeChar (c : Char) : List Char :=
  match namedCharacters.find? fun n => n.2 == c with
  | some n => '&' :: (n.1.toList ++ [';'])
  | none => [c]

/-- **The text with references in place of the characters that have names.** -/
def escape (s : String) : String := String.ofList (s.toList.flatMap escapeChar)

@[simp] theorem toList_escape (s : String) : (escape s).toList = s.toList.flatMap escapeChar :=
  String.toList_ofList

/-- A character is written by its name, or it has none and stands for itself. -/
theorem escapeChar_cases (c : Char) :
    (∃ name, (name, c) ∈ namedCharacters ∧ escapeChar c = '&' :: (name.toList ++ [';'])) ∨
      (∀ name, (name, c) ∉ namedCharacters) ∧ escapeChar c = [c] := by
  unfold escapeChar
  cases hfind : namedCharacters.find? fun n => n.2 == c with
  | some n =>
    have hc : n.2 = c := by simpa using List.find?_some hfind
    exact .inl ⟨n.1, hc ▸ List.mem_of_find?_eq_some hfind, rfl⟩
  | none =>
    refine .inr ⟨fun name hmem => ?_, rfl⟩
    simpa using List.find?_eq_none.mp hfind _ hmem

/-- A name stands for its character, and has none of the characters that end it. -/
theorem referencedCharacter_of_mem {n : String × Char} (h : n ∈ namedCharacters)
    (start stop : Nat) : referencedCharacter start stop n.1.toList = .ok n.2 ∧
      ∀ d ∈ n.1.toList, (d != '&' && d != ';') = true := by
  simp only [namedCharacters, List.mem_cons, List.not_mem_nil, or_false] at h
  rcases h with rfl | rfl | rfl | rfl | rfl <;> exact ⟨rfl, List.all_eq_true.mp (by decide)⟩

/-- A reference by name is expanded. -/
theorem expandFrom_name {n : String × Char} (h : n ∈ namedCharacters) (total position : Nat)
    (rest : List Char) : ∃ position',
    expandFrom total position ('&' :: (n.1.toList ++ ';' :: rest)) =
      (expandFrom total position' rest).map (n.2 :: ·) := by
  have hname := (referencedCharacter_of_mem h 0 0).2
  have htake : (n.1.toList ++ ';' :: rest).takeWhile (fun d => d != '&' && d != ';') =
      n.1.toList := by
    rw [List.takeWhile_append_of_pos hname]
    simp
  have hdrop : (n.1.toList ++ ';' :: rest).dropWhile (fun d => d != '&' && d != ';') =
      ';' :: rest := by
    rw [List.dropWhile_append_of_pos hname]
    simp
  refine ⟨position + 1 + byteCount n.1.toList + 1, ?_⟩
  rw [expandFrom, if_pos rfl]
  dsimp only
  split
  · next rest' hrest =>
    obtain rfl := (List.cons.inj (hdrop.symm.trans hrest)).2
    rw [htake, (referencedCharacter_of_mem h _ _).1]
    cases expandFrom total (position + 1 + byteCount n.1.toList + 1) rest <;> rfl
  · next hend => exact absurd hdrop (hend rest)

theorem expandFrom_escape (total position : Nat) (cs : List Char) :
    expandFrom total position (cs.flatMap escapeChar) = .ok cs := by
  induction cs generalizing position with
  | nil => rw [List.flatMap_nil, expandFrom]
  | cons c cs ih =>
    rw [List.flatMap_cons]
    rcases escapeChar_cases c with ⟨name, hname, hc⟩ | ⟨hplain, hc⟩
    · obtain ⟨position', hexpand⟩ := expandFrom_name hname total position (cs.flatMap escapeChar)
      rw [hc, List.cons_append, List.append_assoc, List.singleton_append, hexpand, ih]
      rfl
    · have hne : c ≠ '&' := fun heq => hplain "amp" (heq ▸ by decide)
      rw [hc, List.singleton_append, expandFrom, if_neg hne, ih]
      rfl

/-- **A text that is written is read back.** -/
theorem expand_escape (s : String) : expand (escape s) = .ok s := by
  rw [expand, toList_escape, expandFrom_escape]
  exact congrArg Except.ok String.ofList_toList

/-- No name and no end of a reference has a character that has a name itself. -/
theorem not_mem_reference : ∀ n ∈ namedCharacters, ∀ m ∈ namedCharacters, m.2 ≠ '&' →
    m.2 ∉ '&' :: (n.1.toList ++ [';']) := by decide +kernel

/-- **A character with a name is not written as itself.** -/
theorem not_mem_escape {n : String × Char} (h : n ∈ namedCharacters) (hne : n.2 ≠ '&')
    (s : String) : n.2 ∉ (escape s).toList := by
  intro hmem
  rw [toList_escape] at hmem
  obtain ⟨c, -, hc⟩ := List.mem_flatMap.mp hmem
  rcases escapeChar_cases c with ⟨name, hname, hwritten⟩ | ⟨hplain, hwritten⟩
  · rw [hwritten] at hc
    exact not_mem_reference _ hname n h hne hc
  · rw [hwritten, List.mem_singleton] at hc
    exact hplain n.1 (hc ▸ h)

/-- **Neither end is white space.** -/
structure Trimmed (cs : List Char) : Prop where
  /-- The first character, if there is one. -/
  first : ∀ c, cs.head? = some c → isSpace c = false
  /-- The last character. -/
  last : ∀ c, cs.getLast? = some c → isSpace c = false

instance (cs : List Char) : Decidable (Trimmed cs) :=
  decidable_of_iff (cs.head?.all (!isSpace ·) = true ∧ cs.getLast?.all (!isSpace ·) = true) (by
    simp only [Option.all_eq_true, Bool.not_eq_true']
    exact ⟨fun ⟨h, h'⟩ => ⟨h, h'⟩, fun ⟨h, h'⟩ => ⟨h, h'⟩⟩)

/-- A reference is no white space at either end. -/
theorem trimmed_escapeChar {c : Char} (hc : isSpace c = false) : Trimmed (escapeChar c) := by
  rcases escapeChar_cases c with ⟨name, -, hwritten⟩ | ⟨-, hwritten⟩
  · have hboth : escapeChar c = ('&' :: name.toList) ++ [';'] := hwritten
    refine ⟨fun d hd => ?_, fun d hd => ?_⟩
    · rw [hwritten, List.head?_cons] at hd
      exact Option.some.inj hd ▸ by decide
    · rw [hboth, List.getLast?_concat] at hd
      exact Option.some.inj hd ▸ by decide
  · rw [hwritten]
    exact ⟨fun d hd => Option.some.inj hd ▸ hc, fun d hd => Option.some.inj hd ▸ hc⟩

theorem escapeChar_ne_nil (c : Char) : escapeChar c ≠ [] := by
  rcases escapeChar_cases c with ⟨name, -, hwritten⟩ | ⟨-, hwritten⟩ <;> simp [hwritten]

/-- Nothing is written as nothing, and no text else. -/
theorem escape_eq_nil_iff {s : String} : (escape s).toList = [] ↔ s = "" := by
  rw [toList_escape, List.flatMap_eq_nil_iff, ← String.toList_eq_nil_iff]
  exact ⟨fun h => List.eq_nil_iff_forall_not_mem.mpr fun c hc => escapeChar_ne_nil c (h c hc),
    fun h c hc => absurd (h ▸ hc) List.not_mem_nil⟩

/-- **A text without white space at its ends is written without it.** -/
theorem trimmed_escape {s : String} (h : Trimmed s.toList) : Trimmed (escape s).toList := by
  rw [toList_escape]
  refine ⟨fun d hd => ?_, fun d hd => ?_⟩
  · cases hs : s.toList with
    | nil =>
      rw [hs] at hd
      cases hd
    | cons c cs =>
      rw [hs, List.flatMap_cons, List.head?_append_of_ne_nil _ (escapeChar_ne_nil c)] at hd
      exact (trimmed_escapeChar (h.first c (by rw [hs]; rfl))).first d hd
  · rcases List.eq_nil_or_concat s.toList with hs | ⟨cs, c, hs⟩
    · rw [hs] at hd
      cases hd
    · rw [hs, List.concat_eq_append, List.flatMap_append, List.flatMap_singleton,
        List.getLast?_append_of_ne_nil _ (escapeChar_ne_nil c)] at hd
      exact (trimmed_escapeChar (h.last c (by rw [hs, List.concat_eq_append,
        List.getLast?_concat]))).last d hd

/-! ## Tags -/

/-- **Characters that a tag does not end within**, and behind which no quote is open. -/
def SelfContained (cs : List Char) : Prop :=
  ∀ rest, cutTag none (cs ++ rest) = (cs ++ (cutTag none rest).1, (cutTag none rest).2)

namespace SelfContained

variable {cs ds : List Char}

theorem nil : SelfContained [] := fun _ => rfl

theorem append (hcs : SelfContained cs) (hds : SelfContained ds) : SelfContained (cs ++ ds) := by
  intro rest
  rw [List.append_assoc, hcs, hds, List.append_assoc]

theorem flatMap {α : Type} {as : List α} {f : α → List Char}
    (h : ∀ a ∈ as, SelfContained (f a)) : SelfContained (as.flatMap f) := by
  induction as with
  | nil => exact nil
  | cons a as ih =>
    rw [List.flatMap_cons]
    exact (h a List.mem_cons_self).append (ih fun b hb => h b (List.mem_cons_of_mem a hb))

/-- Characters that mean nothing to a tag. -/
theorem of_plain (h : ∀ c ∈ cs, c ≠ '>' ∧ c ≠ '"' ∧ c ≠ '\'') : SelfContained cs := by
  intro rest
  induction cs with
  | nil => rfl
  | cons c cs ih =>
    obtain ⟨hend, hdouble, hsingle⟩ := h c List.mem_cons_self
    rw [List.cons_append, cutTag, if_neg fun hc => hend hc.2]
    simp only [hdouble, hsingle, or_self, if_false, List.cons_append,
      ih fun d hd => h d (List.mem_cons_of_mem c hd)]

/-- A value in its quotes. -/
theorem quoted {raw : List Char} (h : '"' ∉ raw) : SelfContained ('"' :: (raw ++ ['"'])) := by
  have hinside : ∀ rest, cutTag (some '"') (raw ++ '"' :: rest) =
      (raw ++ '"' :: (cutTag none rest).1, (cutTag none rest).2) := by
    intro rest
    induction raw with
    | nil => simp [cutTag]
    | cons c raw ih =>
      rw [List.mem_cons, not_or] at h
      obtain ⟨hc, hraw⟩ := h
      rw [List.cons_append, cutTag, if_neg fun hnone => absurd hnone.1 (Option.some_ne_none _)]
      simp [Ne.symm hc, ih hraw]
  intro rest
  rw [List.cons_append, List.append_assoc, List.singleton_append, cutTag,
    if_neg fun hend => absurd hend.2 (by decide)]
  simp [hinside]

/-- **The tag ends behind what it contains.** -/
theorem cutTag (h : SelfContained cs) (rest : List Char) :
    Markup.cutTag none (cs ++ '>' :: rest) = (cs, some rest) := by
  rw [h, Markup.cutTag, if_pos ⟨rfl, rfl⟩, List.append_nil]

end SelfContained

/-! ## Attributes -/

theorem cutAt_append {stop : Char} {cs : List Char} (h : stop ∉ cs) (rest : List Char) :
    cutAt stop (cs ++ stop :: rest) = (cs, some rest) := by
  induction cs with
  | nil => simp [cutAt]
  | cons c cs ih =>
    rw [List.mem_cons, not_or] at h
    rw [List.cons_append, cutAt, if_neg (Ne.symm h.1), ih h.2]

/-- **An attribute as it is written**: behind a space, with its value in double quotes. -/
def Attribute.written (a : Attribute) : List Char :=
  ' ' :: (a.key.toList ++ '=' :: '"' :: (a.raw.toList ++ ['"']))

/-- The characters that mean something to a tag. -/
def marks : List Char := ['=', '>', '"', '\'', '/', '!', '?']

/-- A character of a name: it is no space and no mark. -/
def isNameChar (c : Char) : Bool := !isAsciiSpace c && !marks.contains c

theorem isAsciiSpace_eq_false {c : Char} (h : isNameChar c = true) : isAsciiSpace c = false := by
  rw [isNameChar, Bool.and_eq_true, Bool.not_eq_true'] at h
  exact h.1

theorem isSpace_eq_false {c : Char} (h : isNameChar c = true) : isSpace c = false :=
  (Bool.or_eq_false_iff.mp (isAsciiSpace_eq_false h)).1

theorem ne_mark {c mark : Char} (h : isNameChar c = true) (hmark : mark ∈ marks) : c ≠ mark := by
  rintro rfl
  rw [isNameChar, List.contains_iff_mem.mpr hmark, Bool.not_true, Bool.and_false] at h
  cases h

/-- **An attribute that can be written**: the key is a name, and its value has no double quote. -/
structure Attribute.Writable (a : Attribute) : Prop where
  /-- There is a key. -/
  nonempty : a.key.toList ≠ []
  /-- It has the characters of a name. -/
  name : ∀ c ∈ a.key.toList, isNameChar c = true
  /-- The value does not end in between. -/
  value : '"' ∉ a.raw.toList

/-- A written attribute is read, and reading goes on behind it. -/
theorem readAttributes_cons {a : Attribute} (h : a.Writable) {seen : List (String × Nat)}
    (hnew : ∀ k ∈ seen, k.1 ≠ a.key) (position : Nat) (rest : List Char) :
    ∃ keyAt position', readAttributes seen position (a.written ++ rest) =
      (readAttributes (seen ++ [(a.key, keyAt)]) position' rest).cons a := by
  obtain ⟨first, tail, hkey⟩ := List.exists_cons_of_ne_nil h.nonempty
  have hname := hkey ▸ h.name
  have hfirst : isSpace first = false := isSpace_eq_false (hname first List.mem_cons_self)
  have hpass : ∀ c ∈ tail, (!(decide (c = '=') || isSpace c)) = true := by
    intro c hc
    have hc := hname c (List.mem_cons_of_mem first hc)
    simp [isSpace_eq_false hc, ne_mark hc (by decide : '=' ∈ marks)]
  obtain ⟨behind, hbehind⟩ : ∃ cs, cs = '=' :: '"' :: (a.raw.toList ++ '"' :: rest) := ⟨_, rfl⟩
  have hwritten : a.written ++ rest = ' ' :: first :: (tail ++ behind) := by
    simp [Attribute.written, hkey, hbehind]
  -- what each part of reading an attribute finds
  have hstart : (skipSpace position (a.written ++ rest)).2 = first :: (tail ++ behind) := by
    rw [hwritten, skipSpace, List.dropWhile_cons_of_pos (by decide),
      List.dropWhile_cons_of_neg (by simp [hfirst])]
  have htail : (tail ++ behind).takeWhile (fun c => !(decide (c = '=') || isSpace c)) = tail := by
    rw [List.takeWhile_append_of_pos hpass, hbehind]
    simp
  have hequals : ∀ position, (skipSpace position behind).2 = behind := by
    intro position
    rw [hbehind]
    rfl
  have hquote : ∀ position, (skipSpace position ('"' :: (a.raw.toList ++ '"' :: rest))).2 =
      '"' :: (a.raw.toList ++ '"' :: rest) := fun _ => rfl
  have hcut : cutAt '"' (a.raw.toList ++ '"' :: rest) = (a.raw.toList, some rest) :=
    cutAt_append h.value rest
  have hfresh : seen.find? (fun k => k.1 == a.key) = none := by
    simpa using hnew
  have hofList : String.ofList (first :: tail) = a.key := by
    rw [← hkey, String.ofList_toList]
  rw [readAttributes]
  split
  · next hnil => exact absurd (hstart.symm.trans hnil) (List.cons_ne_nil _ _)
  · next first' afterFirst heq =>
    obtain ⟨rfl, rfl⟩ := List.cons.inj (hstart.symm.trans heq)
    dsimp only
    split
    · next afterEquals heq =>
      rw [htail, List.drop_left, hequals, hbehind] at heq
      obtain rfl := (List.cons.inj heq).2
      split
      · next earlier hearlier =>
        rw [htail, hofList, hfresh] at hearlier
        cases hearlier
      · split
        · next hnil => exact absurd ((hquote _).symm.trans hnil) (List.cons_ne_nil _ _)
        · next quote afterQuote heq =>
          obtain ⟨rfl, rfl⟩ := List.cons.inj ((hquote _).symm.trans heq)
          rw [if_pos (.inl rfl)]
          split
          · next hnone =>
            rw [hcut] at hnone
            cases hnone
          · next rest' hrest =>
            rw [hcut] at hrest
            obtain rfl := Option.some.inj hrest
            simp only [htail, hofList, hcut, String.ofList_toList]
            exact ⟨_, _, rfl⟩
    · next hother =>
      rw [htail, List.drop_left, hequals] at hother
      exact absurd hbehind (hother _)

/-- **Written attributes are read back**, if no key stands twice. -/
theorem readAttributes_written {as : List Attribute} (h : ∀ a ∈ as, a.Writable)
    (hnodup : (as.map (·.key)).Nodup) {seen : List (String × Nat)}
    (hnew : ∀ a ∈ as, ∀ k ∈ seen, k.1 ≠ a.key) (position : Nat) :
    readAttributes seen position (as.flatMap Attribute.written) = ⟨as, none⟩ := by
  induction as generalizing seen position with
  | nil =>
    rw [List.flatMap_nil, readAttributes]
    rfl
  | cons a as ih =>
    obtain ⟨ha, hnodup⟩ := List.nodup_cons.mp hnodup
    obtain ⟨keyAt, position', hread⟩ := readAttributes_cons (h a List.mem_cons_self)
      (hnew a List.mem_cons_self) position (as.flatMap Attribute.written)
    have hrest : ∀ b ∈ as, ∀ k ∈ seen ++ [(a.key, keyAt)], k.1 ≠ b.key := by
      intro b hb k hk
      rcases List.mem_append.mp hk with hk | hk
      · exact hnew b (List.mem_cons_of_mem a hb) k hk
      · rw [List.mem_singleton.mp hk]
        exact fun heq => ha (List.mem_map.mpr ⟨b, hb, heq.symm⟩)
    rw [List.flatMap_cons, hread, ih (fun b hb => h b (List.mem_cons_of_mem a hb)) hnodup hrest]
    rfl

/-! ## Tags with attributes -/

/-- What stands in a written tag. -/
def tagContent (name : String) (as : List Attribute) : List Char :=
  name.toList ++ as.flatMap Attribute.written

/-- The tag as it is read. -/
def tagWith (name : String) (as : List Attribute) : Tag :=
  ⟨name, String.ofList (as.flatMap Attribute.written)⟩

/-- **A tag that can be written.** -/
structure WritableTag (name : String) (as : List Attribute) : Prop where
  /-- The element has a name. -/
  nonempty : name.toList ≠ []
  /-- It has the characters of a name. -/
  name : ∀ c ∈ name.toList, isNameChar c = true
  /-- The attributes can be written. -/
  attributes : ∀ a ∈ as, a.Writable
  /-- No key stands twice. -/
  nodup : (as.map (·.key)).Nodup

/-- What is behind the name of a tag begins with a space. -/
theorem dropWhile_flatMap_written (as : List Attribute) :
    (as.flatMap Attribute.written).dropWhile (fun c => !isSpace c) =
      as.flatMap Attribute.written := by
  cases as with
  | nil => rfl
  | cons a as =>
    rw [List.flatMap_cons, Attribute.written, List.cons_append]
    exact List.dropWhile_cons_of_neg (by decide)

namespace WritableTag

variable {name : String} {as : List Attribute}

theorem selfContained (h : WritableTag name as) : SelfContained (tagContent name as) := by
  have hname : ∀ {cs : List Char}, (∀ c ∈ cs, isNameChar c = true) → SelfContained cs :=
    fun hcs => .of_plain fun c hc =>
      have hmark : ∀ mark ∈ marks, c ≠ mark := fun _ => ne_mark (hcs c hc)
      ⟨hmark '>' (by decide), hmark '"' (by decide), hmark '\'' (by decide)⟩
  refine (hname h.name).append (.flatMap fun a ha => ?_)
  have hwritten : a.written = [' '] ++ a.key.toList ++ ['='] ++ '"' :: (a.raw.toList ++ ['"']) := by
    simp [Attribute.written]
  rw [hwritten]
  exact (((SelfContained.of_plain (by simp)).append (hname (h.attributes a ha).name)).append
    (.of_plain (by simp))).append (.quoted (h.attributes a ha).value)

theorem tagOf (h : WritableTag name as) : tagOf (tagContent name as) = tagWith name as := by
  have hname : ∀ c ∈ name.toList, (!isSpace c) = true := fun c hc => by
    rw [isSpace_eq_false (h.name c hc), Bool.not_false]
  have hbehind := dropWhile_flatMap_written as
  have htake : (as.flatMap Attribute.written).takeWhile (fun c => !isSpace c) = [] := by
    have hboth := List.takeWhile_append_dropWhile (p := fun c => !isSpace c)
      (l := as.flatMap Attribute.written)
    rw [hbehind] at hboth
    exact List.append_left_eq_self.mp hboth
  rw [Markup.tagOf, tagContent, List.takeWhile_append_of_pos hname,
    List.dropWhile_append_of_pos hname, hbehind, htake, List.append_nil, String.ofList_toList,
    tagWith]

/-- **The attributes of a written tag are read back.** -/
theorem attributes_tagWith (h : WritableTag name as) :
    (tagWith name as).attributes = ⟨as, none⟩ := by
  rw [Tag.attributes, tagWith, String.toList_ofList]
  exact readAttributes_written h.attributes h.nodup (fun _ _ _ hk => absurd hk List.not_mem_nil) _

/-- A written tag does not end as one without content does. -/
theorem getLast?_tagContent (h : WritableTag name as) :
    (tagContent name as).getLast? ≠ some '/' := by
  intro hlast
  rcases List.eq_nil_or_concat as with rfl | ⟨front, a, rfl⟩
  · rw [tagContent, List.flatMap_nil, List.append_nil] at hlast
    exact ne_mark (h.name '/' (List.mem_of_getLast? hlast)) (by decide) rfl
  · have hquote : tagContent name (front.concat a) = (name.toList ++
        (front.flatMap Attribute.written ++ ' ' :: (a.key.toList ++ '=' :: '"' :: a.raw.toList))) ++
          ['"'] := by
      simp [tagContent, Attribute.written]
    rw [hquote, List.getLast?_concat] at hlast
    exact absurd hlast (by decide)

/-- A written tag begins as no other markup does. -/
theorem exists_tagContent_eq_cons (h : WritableTag name as) :
    ∃ first rest, tagContent name as = first :: rest ∧ isNameChar first = true := by
  obtain ⟨first, rest, hname⟩ := List.exists_cons_of_ne_nil h.nonempty
  refine ⟨first, rest ++ as.flatMap Attribute.written, ?_, ?_⟩
  · rw [tagContent, hname, List.cons_append]
  · exact h.name first (hname ▸ List.mem_cons_self)

end WritableTag

end CsdlAudit.Markup

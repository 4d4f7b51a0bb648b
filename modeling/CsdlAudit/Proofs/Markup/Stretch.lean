import CsdlAudit.Proofs.Markup.Written

/-!
# Reading a document stretch by stretch

How many bytes lie behind a cursor matters to the position of a fault and to nothing else
(`readFrom_alike`). Apart from that a cursor is a `Spot`: whether a `<` has been read, and which
elements are open.

A stretch of characters *leads* from one spot to another when reading it yields certain events,
whatever stands behind it (`Leads`). Stretches follow one another (`Leads.trans`), and each written
piece of markup is one: text up to the next tag (`leads_text`), a tag (`leads_opening`,
`leads_empty`), and the closing tag of the innermost open element (`leads_closing`).
-/

namespace CsdlAudit.Markup

/-! ## Reading from another offset -/

/-- **Two steps are alike**: they yield the same at the same spot. -/
def Step.Alike {size : Nat} : Step size → Step size → Prop
  | .done, .done => True
  | .stop fault _, .stop fault' _ => fault = fault'
  | .next event cursor rest _, .next event' cursor' rest' _ =>
    event = event' ∧ rest = rest' ∧ cursor.inTag = cursor'.inTag ∧ cursor.opened = cursor'.opened
  | _, _ => False

namespace Step.Alike

variable {size : Nat} {s : Step size}

theorem eq_done (h : Alike .done s) : s = .done := by
  cases s with
  | done => rfl
  | _ => exact h.elim

theorem eq_stop {fault : Fault} {position : Nat} (h : Alike (.stop fault position) s) :
    ∃ position', s = .stop fault position' := by
  cases s with
  | stop fault' position' =>
    cases h
    exact ⟨position', rfl⟩
  | _ => exact h.elim

theorem eq_next {e : Option Event} {c : Cursor} {rest : List Char} {shorter : rest.length < size}
    (h : Alike (.next e c rest shorter) s) :
    ∃ o, s = .next e ⟨o, c.inTag, c.opened⟩ rest shorter := by
  cases s with
  | next e' c' rest' shorter' =>
    obtain ⟨rfl, rfl, hinTag, hopened⟩ := h
    exact ⟨c'.offset, by rw [hinTag, hopened]⟩
  | _ => exact h.elim

end Step.Alike

section Alike

variable (inTag : Bool) (opened : List String) (o o' : Nat) (cs : List Char)

theorem alike_stepBang :
    (stepBang ⟨o, inTag, opened⟩ cs).Alike (stepBang ⟨o', inTag, opened⟩ cs) := by
  unfold stepBang
  cases cs with
  | nil => rfl
  | cons c tail =>
    dsimp only
    split
    · rfl
    · split
      · rfl
      · split
        · rfl
        · exact ⟨rfl, rfl, rfl, rfl⟩

theorem alike_stepClosing :
    (stepClosing ⟨o, inTag, opened⟩ cs).Alike (stepClosing ⟨o', inTag, opened⟩ cs) := by
  unfold stepClosing
  cases opened with
  | nil => rfl
  | cons expected outer =>
    dsimp only
    split
    · exact ⟨rfl, rfl, rfl, rfl⟩
    · rfl

theorem alike_stepDeclaration :
    (stepDeclaration ⟨o, inTag, opened⟩ cs).Alike (stepDeclaration ⟨o', inTag, opened⟩ cs) := by
  unfold stepDeclaration
  dsimp only
  split
  · exact ⟨rfl, rfl, rfl, rfl⟩
  · rfl

theorem alike_stepTag (nonempty : cs ≠ []) :
    (stepTag ⟨o, inTag, opened⟩ cs nonempty).Alike (stepTag ⟨o', inTag, opened⟩ cs nonempty) := by
  unfold stepTag
  split <;> exact ⟨rfl, rfl, rfl, rfl⟩

theorem alike_stepText :
    (stepText ⟨o, inTag, opened⟩ cs).Alike (stepText ⟨o', inTag, opened⟩ cs) := by
  unfold stepText
  split
  · trivial
  · dsimp only
    split
    · exact ⟨rfl, rfl, rfl, rfl⟩
    · exact ⟨rfl, rfl, rfl, rfl⟩

theorem alike_step : (step ⟨o, inTag, opened⟩ cs).Alike (step ⟨o', inTag, opened⟩ cs) := by
  unfold step
  dsimp only
  split
  · unfold stepInTag
    split
    · trivial
    · exact alike_stepBang inTag opened o o' _
    · exact alike_stepClosing inTag opened o o' _
    · exact alike_stepDeclaration inTag opened o o' _
    · exact alike_stepTag inTag opened o o' _ _
  · exact alike_stepText inTag opened o o' cs

end Alike

/-- **Two readings are alike**: they have the same events and the same fault, wherever that is. -/
structure Reading.Alike (r r' : Reading) : Prop where
  /-- The events are the same. -/
  events : r.events = r'.events
  /-- The faults are the same, or there are none. -/
  fault : r.fault.map Prod.fst = r'.fault.map Prod.fst

theorem Reading.Alike.cons {r r' : Reading} (h : r.Alike r') (e : Option Event) :
    (r.cons e).Alike (r'.cons e) :=
  ⟨congrArg (e.toList ++ ·) h.events, h.fault⟩

/-- **Where a document is read from** shows in the position of a fault alone. -/
theorem readFrom_alike (c : Cursor) (cs : List Char) (o : Nat) :
    (readFrom c cs).Alike (readFrom ⟨o, c.inTag, c.opened⟩ cs) := by
  -- the two readings take the same steps, and only where they stand differs from step to step
  fun_induction readFrom c cs generalizing o with
  | case1 c cs h =>
    have hdone := (h ▸ alike_step c.inTag c.opened c.offset o cs :).eq_done
    rw [readFrom, hdone]
    exact ⟨rfl, rfl⟩
  | case2 c cs fault position h =>
    obtain ⟨position', hstop⟩ := (h ▸ alike_step c.inTag c.opened c.offset o cs :).eq_stop
    rw [readFrom, hstop]
    exact ⟨rfl, rfl⟩
  | case3 c cs e c' rest shorter h ih =>
    obtain ⟨o', hnext⟩ := (h ▸ alike_step c.inTag c.opened c.offset o cs :).eq_next
    have hread : readFrom ⟨o, c.inTag, c.opened⟩ cs =
        (readFrom ⟨o', c'.inTag, c'.opened⟩ rest).cons e := by
      rw [readFrom, hnext]
    exact hread ▸ (ih o').cons e

/-! ## Stretches -/

/-- **Where reading stands**, but for the bytes that lie behind. -/
structure Spot where
  /-- Whether the next character stands behind a `<`. -/
  inTag : Bool
  /-- The names of the open elements, innermost first. -/
  opened : List String
deriving DecidableEq, Repr

/-- The cursor with so many bytes behind it. -/
def Spot.cursor (p : Spot) (offset : Nat) : Cursor := ⟨offset, p.inTag, p.opened⟩

/-- The reading behind further events. -/
def Reading.behind (events : List Event) (r : Reading) : Reading := ⟨events ++ r.events, r.fault⟩

/-- **A stretch leads from one spot to another**: reading it yields the events and goes on there,
whatever stands behind it. -/
def Leads (p : Spot) (stretch : List Char) (events : List Event) (q : Spot) : Prop :=
  ∀ offset, ∃ offset', ∀ rest, readFrom (p.cursor offset) (stretch ++ rest) =
    (readFrom (q.cursor offset') rest).behind events

namespace Leads

variable {p q r : Spot} {cs ds : List Char} {es fs : List Event}

/-- **One stretch behind another.** -/
theorem trans (h : Leads p cs es q) (h' : Leads q ds fs r) :
    Leads p (cs ++ ds) (es ++ fs) r := by
  intro offset
  obtain ⟨offset₁, hfirst⟩ := h offset
  obtain ⟨offset₂, hsecond⟩ := h' offset₁
  refine ⟨offset₂, fun rest => ?_⟩
  rw [List.append_assoc, hfirst, hsecond, Reading.behind, Reading.behind, Reading.behind,
    List.append_assoc]

/-- A stretch that one step reads. -/
theorem of_step {e : Option Event} (h : ∀ offset, ∃ offset', ∀ rest, ∃ shorter,
    step (p.cursor offset) (cs ++ rest) = .next e (q.cursor offset') rest shorter) :
    Leads p cs e.toList q := by
  intro offset
  obtain ⟨offset', hstep⟩ := h offset
  refine ⟨offset', fun rest => ?_⟩
  obtain ⟨shorter, hstep⟩ := hstep rest
  rw [readFrom, hstep]
  rfl

end Leads

/-! ## Written markup -/

section Pieces

variable {opened : List String}

/-- **A text between two tags**: none, if there is only white space. -/
def textEvents (t : List Char) : List Event := if t = [] then [] else [.text (String.ofList t)]

theorem dropSpaceAtEnd_append {t space : List Char} (hspace : ∀ c ∈ space, isSpace c = true)
    (hlast : ∀ c, t.getLast? = some c → isSpace c = false) : dropSpaceAtEnd (t ++ space) = t := by
  have hback : ∀ c ∈ space.reverse, isSpace c = true := fun c hc =>
    hspace c (List.mem_reverse.mp hc)
  rw [dropSpaceAtEnd, List.reverse_append, List.dropWhile_append_of_pos hback]
  cases hreverse : t.reverse with
  | nil => exact (List.reverse_eq_nil_iff.mp hreverse).symm
  | cons c cs =>
    have hc : isSpace c = false := hlast c (by rw [← List.head?_reverse, hreverse]; rfl)
    rw [List.dropWhile_cons_of_neg (by simp [hc]), ← hreverse, List.reverse_reverse]

theorem length_lt_of_dropWhile {cs rest : List Char} {c : Char}
    (h : cs.dropWhile isSpace = c :: rest) : rest.length < cs.length := by
  have hle := length_dropWhile_le (p := isSpace) cs
  rw [h] at hle
  exact hle

/-- White space before a tag is passed over. -/
theorem stepText_space {cs rest : List Char} (h : cs.dropWhile isSpace = '<' :: rest)
    (cursor : Cursor) : ∃ shorter, stepText cursor cs = .next none
      ⟨cursor.offset + byteCount (cs.takeWhile isSpace) + 1, true, cursor.opened⟩ rest shorter := by
  rw [stepText]
  split
  · next hnil => cases hnil.symm.trans h
  · next c rest' hcons =>
    obtain ⟨rfl, rfl⟩ := List.cons.inj (hcons.symm.trans h)
    exact ⟨length_lt_of_dropWhile h, rfl⟩

/-- A text before a tag is read without the white space around it. -/
theorem stepText_text {cs tail t rest : List Char} {c : Char}
    (h : cs.dropWhile isSpace = c :: tail) (hc : c ≠ '<')
    (hcut : cutAt '<' tail = (t, some rest)) (cursor : Cursor) :
    ∃ shorter, stepText cursor cs = .next (some (.text (String.ofList (dropSpaceAtEnd (c :: t)))))
      ⟨cursor.offset + byteCount (cs.takeWhile isSpace) + c.utf8Size + (byteCount t + 1), true,
        cursor.opened⟩ rest shorter := by
  rw [stepText]
  split
  · next hnil => cases hnil.symm.trans h
  · next c' tail' hcons =>
    obtain ⟨rfl, rfl⟩ := List.cons.inj (hcons.symm.trans h)
    have hlength : rest.length < cs.length :=
      Nat.lt_trans (length_lt_of_cutAt (congrArg Prod.snd hcut)) (length_lt_of_dropWhile h)
    simp only [if_neg hc, hcut, afterCut]
    exact ⟨hlength, trivial⟩

/-- **White space leads to the next tag**, and is no event. -/
theorem leads_space {space : List Char} (hspace : ∀ c ∈ space, isSpace c = true) :
    Leads ⟨false, opened⟩ (space ++ ['<']) [] ⟨true, opened⟩ := by
  refine Leads.of_step (e := none) fun offset => ⟨offset + byteCount space + 1, fun rest => ?_⟩
  have htake : (space ++ '<' :: rest).takeWhile isSpace = space := by
    rw [List.takeWhile_append_of_pos hspace, List.takeWhile_cons_of_neg (by decide),
      List.append_nil]
  have hdrop : (space ++ '<' :: rest).dropWhile isSpace = '<' :: rest := by
    rw [List.dropWhile_append_of_pos hspace, List.dropWhile_cons_of_neg (by decide)]
  obtain ⟨shorter, hstep⟩ := stepText_space hdrop ⟨offset, false, opened⟩
  rw [htake] at hstep
  rw [List.append_assoc, List.singleton_append]
  exact ⟨shorter, hstep⟩

/-- **Text leads to the next tag**, without the white space around it. -/
theorem leads_text {before t after : List Char} (hbefore : ∀ c ∈ before, isSpace c = true)
    (hafter : ∀ c ∈ after, isSpace c = true) (ht : '<' ∉ t) (htrimmed : Trimmed t) :
    Leads ⟨false, opened⟩ (before ++ t ++ after ++ ['<']) (textEvents t) ⟨true, opened⟩ := by
  -- blank text is passed over without an event, so the empty text is read by another step
  cases t with
  | nil =>
    rw [List.append_nil]
    exact leads_space fun c hc => (List.mem_append.mp hc).elim (hbefore c) (hafter c)
  | cons c t =>
    have hc : isSpace c = false := htrimmed.first c rfl
    rw [List.mem_cons, not_or] at ht
    refine Leads.of_step (e := some (.text (String.ofList (c :: t)))) fun offset =>
      ⟨offset + byteCount before + c.utf8Size + (byteCount (t ++ after) + 1), fun rest => ?_⟩
    have htext : before ++ (c :: t) ++ after ++ ['<'] ++ rest =
        before ++ c :: ((t ++ after) ++ '<' :: rest) := by
      simp
    have htake : (before ++ c :: ((t ++ after) ++ '<' :: rest)).takeWhile isSpace = before := by
      rw [List.takeWhile_append_of_pos hbefore, List.takeWhile_cons_of_neg (by simp [hc]),
        List.append_nil]
    have hdrop : (before ++ c :: ((t ++ after) ++ '<' :: rest)).dropWhile isSpace =
        c :: ((t ++ after) ++ '<' :: rest) := by
      rw [List.dropWhile_append_of_pos hbefore, List.dropWhile_cons_of_neg (by simp [hc])]
    have hcut : cutAt '<' ((t ++ after) ++ '<' :: rest) = (t ++ after, some rest) := by
      refine cutAt_append (fun hmem => ?_) rest
      rcases List.mem_append.mp hmem with hmem | hmem
      · exact ht.2 hmem
      · exact absurd (hafter '<' hmem) (by decide)
    obtain ⟨shorter, hstep⟩ := stepText_text hdrop (Ne.symm ht.1) hcut ⟨offset, false, opened⟩
    have hend : dropSpaceAtEnd (c :: (t ++ after)) = c :: t :=
      dropSpaceAtEnd_append hafter htrimmed.last
    rw [htake, hend] at hstep
    rw [htext]
    exact ⟨shorter, hstep⟩

theorem step_inTag (opened : List String) (offset : Nat) (cs : List Char) :
    step (Spot.cursor ⟨true, opened⟩ offset) cs = stepInTag ⟨offset, true, opened⟩ cs :=
  if_pos rfl

/-- What begins with a slash is a closing tag. -/
theorem stepInTag_eq_stepClosing (cursor : Cursor) (cs : List Char) :
    stepInTag cursor ('/' :: cs) = stepClosing cursor cs := by
  rw [stepInTag]

/-- What begins as a name does is a tag. -/
theorem stepInTag_eq_stepTag {first : Char} (h : isNameChar first = true) (cursor : Cursor)
    (cs : List Char) : stepInTag cursor (first :: cs) =
      stepTag cursor (first :: cs) (List.cons_ne_nil first cs) := by
  rw [stepInTag] <;> exact ne_mark h (by decide)

/-- **What a tag contains leads behind its end.** -/
theorem leads_tag {content : List Char} (h : SelfContained content)
    (hfirst : ∃ first rest, content = first :: rest ∧ isNameChar first = true) :
    Leads ⟨true, opened⟩ (content ++ ['>']) [tagEvent content]
      ⟨false, openedAfter opened (tagEvent content)⟩ := by
  obtain ⟨first, tail, hcontent, hname⟩ := hfirst
  refine Leads.of_step (e := some (tagEvent content)) fun offset =>
    ⟨offset + byteCount content + 1, fun rest => ?_⟩
  rw [List.append_assoc, List.singleton_append]
  subst hcontent
  have hcut : cutTag none (first :: (tail ++ '>' :: rest)) = (first :: tail, some rest) :=
    h.cutTag rest
  have hstep : step (Spot.cursor ⟨true, opened⟩ offset) (first :: tail ++ '>' :: rest) =
      stepTag ⟨offset, true, opened⟩ (first :: (tail ++ '>' :: rest)) (List.cons_ne_nil _ _) :=
    (step_inTag _ _ _).trans (stepInTag_eq_stepTag hname _ _)
  rw [hstep, stepTag]
  split
  · next rest' hrest =>
    obtain rfl : rest = rest' := Option.some.inj ((congrArg Prod.snd hcut).symm.trans hrest)
    simp only [hcut]
    exact ⟨length_lt_of_cutTag hrest, rfl⟩
  · next hnone => cases (congrArg Prod.snd hcut).symm.trans hnone

/-- **A tag leads into its element.** -/
theorem leads_opening {name : String} {as : List Attribute} (h : WritableTag name as) :
    Leads ⟨true, opened⟩ (tagContent name as ++ ['>']) [.opening (tagWith name as)]
      ⟨false, name :: opened⟩ := by
  have hevent : tagEvent (tagContent name as) = .opening (tagWith name as) := by
    rw [tagEvent, if_neg h.getLast?_tagContent, h.tagOf]
  have hleads := @leads_tag opened _ h.selfContained h.exists_tagContent_eq_cons
  rw [hevent] at hleads
  exact hleads

/-- **A tag of an element without content leads past it.** -/
theorem leads_empty {name : String} {as : List Attribute} (h : WritableTag name as) :
    Leads ⟨true, opened⟩ (tagContent name as ++ ['/', '>']) [.empty (tagWith name as)]
      ⟨false, opened⟩ := by
  have hevent : tagEvent (tagContent name as ++ ['/']) = .empty (tagWith name as) := by
    rw [tagEvent, if_pos List.getLast?_concat, List.dropLast_concat, h.tagOf]
  obtain ⟨first, rest, hcontent, hname⟩ := h.exists_tagContent_eq_cons
  have hslash : SelfContained ['/'] := .of_plain (by simp)
  have hleads := @leads_tag opened _ (h.selfContained.append hslash)
    ⟨first, rest ++ ['/'], by rw [hcontent, List.cons_append], hname⟩
  rw [hevent, List.append_assoc] at hleads
  exact hleads

/-- A name is the name in a closing tag. -/
theorem closingName_eq_self {name : List Char} (hne : name ≠ [])
    (hname : ∀ c ∈ name, isAsciiSpace c = false) : closingName name = name := by
  obtain ⟨front, last, rfl⟩ := List.eq_nil_or_concat name |>.resolve_left hne
  have hlast : isAsciiSpace last = false := hname last (by simp)
  rw [closingName, if_neg (by simp [hlast]), List.concat_eq_append, List.reverse_concat,
    List.dropWhile_cons_of_neg (by simp [hlast]), List.reverse_cons, List.reverse_reverse]

/-- **The closing tag of the innermost open element leads out of it.** -/
theorem leads_closing {name : String} (h : WritableTag name []) :
    Leads ⟨true, name :: opened⟩ ('/' :: (name.toList ++ ['>'])) [.closing] ⟨false, opened⟩ := by
  have hend : '>' ∉ name.toList := fun hmem => ne_mark (h.name '>' hmem) (by decide) rfl
  have hclosing : String.ofList (closingName name.toList) = name := by
    rw [closingName_eq_self h.nonempty fun c hc => isAsciiSpace_eq_false (h.name c hc),
      String.ofList_toList]
  refine Leads.of_step (e := some .closing) fun offset =>
    ⟨offset + 1 + (byteCount name.toList + 1), fun rest => ?_⟩
  have hstep : step (Spot.cursor ⟨true, name :: opened⟩ offset)
      ('/' :: (name.toList ++ ['>']) ++ rest) =
        stepClosing ⟨offset, true, name :: opened⟩ (name.toList ++ ['>'] ++ rest) :=
    (step_inTag _ _ _).trans (stepInTag_eq_stepClosing _ _)
  have hcut : cutAt '>' (name.toList ++ ['>'] ++ rest) = (name.toList, some rest) := by
    rw [List.append_assoc]
    exact cutAt_append hend rest
  rw [hstep, stepClosing]
  simp only [hcut, hclosing, afterCut, if_true]
  refine ⟨?_, rfl⟩
  simp only [List.length_append, List.length_cons]
  omega

end Pieces

end CsdlAudit.Markup

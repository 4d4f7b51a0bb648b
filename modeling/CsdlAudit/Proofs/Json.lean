import CsdlAudit.Json

/-!
# What a pretty text tells

A value without numbers can be told from its pretty text, and so can the place where its text ends:
two texts that go on differently behind two such values are equal only if the values are
(`Json.Wordy.eq_of_append`). So values with one pretty text are one value
(`Json.Wordy.eq_of_pretty_eq`).

This is shown from the characters up. No escaped form of a character is the beginning of another
(`escapeChar_eq_of_isPrefix`), and none begins with a quote, so a text between quotes ends at the
first quote that no backslash announces (`eq_of_quote_append`). Behind an item of a list stands a
comma if another one follows, and a line break otherwise (`eq_of_pieces`).

Numbers are left out because they do not tell where they end, and because the whole number `5` has
the text of the decimal `5` without places.
-/

namespace CsdlAudit.Json

/-! ## Characters between quotes -/

/-- The characters that do not stand for themselves between quotes. -/
def escapedChars : List Char := '"' :: '\\' :: (List.range 0x20).map Char.ofNat

theorem toNat_ofNat_lt : ∀ n < 0x20, (Char.ofNat n).toNat < 0x20 := by decide

theorem mem_escapedChars {c : Char} : c ∈ escapedChars ↔ c = '"' ∨ c = '\\' ∨ c.toNat < 0x20 := by
  simp only [escapedChars, List.mem_cons, List.mem_map, List.mem_range]
  refine or_congr Iff.rfl (or_congr Iff.rfl ⟨?_, fun h => ⟨c.toNat, h, c.ofNat_toNat⟩⟩)
  rintro ⟨n, hn, rfl⟩
  exact toNat_ofNat_lt n hn

/-- Any other character stands for itself. -/
theorem escapeChar_of_notMem {c : Char} (h : c ∉ escapedChars) : escapeChar c = [c] := by
  rw [mem_escapedChars, not_or, not_or] at h
  obtain ⟨hquote, hslash, hcontrol⟩ := h
  have hne : ∀ d : Char, d.toNat < 0x20 → c ≠ d := fun d hd e => hcontrol (e ▸ hd)
  have hcode : ∀ n, n < 0x20 → c.toNat ≠ n := fun n hn e => hcontrol (e ▸ hn)
  simp only [escapeChar, hquote, hslash, hcontrol, hcode 0x08 (by decide), hcode 0x0C (by decide),
    hne '\n' (by decide), hne '\r' (by decide), hne '\t' (by decide), if_false]

theorem head?_escapeChar_of_mem : ∀ c ∈ escapedChars, (escapeChar c).head? = some '\\' := by
  have hall : escapedChars.all (fun c => decide ((escapeChar c).head? = some '\\')) = true := by
    decide +kernel
  exact fun c hc => of_decide_eq_true (List.all_eq_true.mp hall c hc)

theorem escapeChar_eq_of_mem : ∀ c ∈ escapedChars, ∀ d ∈ escapedChars,
    escapeChar c <+: escapeChar d → c = d := by
  have hall : escapedChars.all (fun c => escapedChars.all fun d =>
      decide (escapeChar c <+: escapeChar d → c = d)) = true := by
    decide +kernel
  exact fun c hc d hd =>
    of_decide_eq_true (List.all_eq_true.mp (List.all_eq_true.mp hall c hc) d hd)

/-- The first character of an escaped form is a backslash, or the character itself. -/
theorem head?_escapeChar (c : Char) :
    (escapeChar c).head? = some (if c ∈ escapedChars then '\\' else c) := by
  by_cases hc : c ∈ escapedChars
  · rw [if_pos hc, head?_escapeChar_of_mem c hc]
  · rw [if_neg hc, escapeChar_of_notMem hc, List.head?_cons]

/-- What follows an escaped form does not change its first character. -/
theorem head?_escapeChar_append (c : Char) (r : List Char) :
    (escapeChar c ++ r).head? = some (if c ∈ escapedChars then '\\' else c) := by
  rw [List.head?_append, head?_escapeChar, Option.some_or]

theorem quote_ne_head?_escapeChar (c : Char) (r : List Char) :
    some '"' ≠ (escapeChar c ++ r).head? := by
  rw [head?_escapeChar_append]
  intro h
  by_cases hc : c ∈ escapedChars
  · rw [if_pos hc] at h
    exact absurd h (by decide)
  · rw [if_neg hc] at h
    exact hc (mem_escapedChars.mpr (.inl (Option.some.inj h).symm))

/-- **No escaped form is the beginning of another.** -/
theorem escapeChar_eq_of_isPrefix {c d : Char} (h : escapeChar c <+: escapeChar d) : c = d := by
  have hslash : '\\' ∈ escapedChars := mem_escapedChars.mpr (.inr (.inl rfl))
  have hhead : (if c ∈ escapedChars then '\\' else c) = if d ∈ escapedChars then '\\' else d := by
    obtain ⟨r, hr⟩ := h
    rw [← Option.some.injEq, ← head?_escapeChar_append c r, hr, head?_escapeChar]
  by_cases hc : c ∈ escapedChars
  · by_cases hd : d ∈ escapedChars
    · exact escapeChar_eq_of_mem c hc d hd h
    · rw [if_pos hc, if_neg hd] at hhead
      exact absurd (hhead ▸ hslash) hd
  · by_cases hd : d ∈ escapedChars
    · rw [if_neg hc, if_pos hd] at hhead
      exact absurd (hhead ▸ hslash) hc
    · rwa [if_neg hc, if_neg hd] at hhead

theorem eq_of_escapeChar_append {c d : Char} {r s : List Char}
    (h : escapeChar c ++ r = escapeChar d ++ s) : c = d ∧ r = s := by
  have hcd : c = d :=
    (List.prefix_or_prefix_of_prefix (List.prefix_append _ r) (h ▸ List.prefix_append _ s)).elim
      escapeChar_eq_of_isPrefix fun hdc => (escapeChar_eq_of_isPrefix hdc).symm
  subst hcd
  exact ⟨rfl, List.append_cancel_left h⟩

/-! ## Texts between quotes -/

theorem eq_of_escaped_append {cs ds r s : List Char}
    (h : cs.flatMap escapeChar ++ '"' :: r = ds.flatMap escapeChar ++ '"' :: s) :
    cs = ds ∧ r = s := by
  induction cs generalizing ds with
  | nil =>
    cases ds with
    | nil => exact ⟨rfl, List.tail_eq_of_cons_eq h⟩
    | cons d ds =>
      rw [List.flatMap_cons, List.append_assoc] at h
      exact absurd (congrArg List.head? h) (quote_ne_head?_escapeChar d _)
  | cons c cs ih =>
    cases ds with
    | nil =>
      rw [List.flatMap_cons, List.append_assoc] at h
      exact absurd (congrArg List.head? h).symm (quote_ne_head?_escapeChar c _)
    | cons d ds =>
      rw [List.flatMap_cons, List.flatMap_cons, List.append_assoc, List.append_assoc] at h
      obtain ⟨rfl, hrest⟩ := eq_of_escapeChar_append h
      obtain ⟨rfl, hrs⟩ := ih hrest
      exact ⟨rfl, hrs⟩

/-- **A quoted text tells the text and where it ends.** -/
theorem eq_of_quote_append {s t : String} {r u : List Char} (h : quote s ++ r = quote t ++ u) :
    s = t ∧ r = u := by
  simp only [quote, List.cons_append, List.append_assoc, List.nil_append, List.cons.injEq,
    true_and] at h
  obtain ⟨hst, hru⟩ := eq_of_escaped_append h
  exact ⟨String.toList_injective hst, hru⟩

/-! ## Pieces on lines of their own -/

section Pieces

variable {α : Type} {piece : α → List Char} {level : Nat} {closing : Char}

/-- What stands behind the first piece: each further piece behind a comma, then the bracket. -/
def behindPiece (closing : Char) (level : Nat) (pieces : List (List Char)) : List Char :=
  pieces.flatMap (fun p => ',' :: (lineBreak (level + 1) ++ p)) ++ (lineBreak level ++ [closing])

theorem separate_cons (separator p : List Char) (pieces : List (List Char)) :
    separate separator (p :: pieces) = p ++ pieces.flatMap (separator ++ ·) := by
  induction pieces generalizing p with
  | nil => exact (List.append_nil p).symm
  | cons q pieces ih =>
    rw [separate, ih, List.flatMap_cons, List.append_assoc, List.append_assoc]
    exact List.cons_ne_nil q pieces

theorem enclose_cons (opening closing : Char) (level : Nat) (p : List Char)
    (pieces : List (List Char)) : enclose opening closing level (p :: pieces) =
      opening :: (lineBreak (level + 1) ++ (p ++ behindPiece closing level pieces)) := by
  rw [enclose, separate_cons, behindPiece]
  · simp only [List.append_assoc, List.cons_append]
  · exact List.cons_ne_nil p pieces

/-- A comma announces a further piece, and a line break the bracket. -/
theorem eq_of_behindPiece {as bs : List α} {r s : List Char}
    (hpiece : ∀ a ∈ as, ∀ b ∈ bs, ∀ r s, piece a ++ r = piece b ++ s → a = b ∧ r = s)
    (h : behindPiece closing level (as.map piece) ++ r =
      behindPiece closing level (bs.map piece) ++ s) : as = bs ∧ r = s := by
  have hbreak : some ',' ≠ some '\n' := by decide
  induction as generalizing bs with
  | nil =>
    cases bs with
    | nil => exact ⟨rfl, List.append_cancel_left h⟩
    | cons b bs => exact absurd (congrArg List.head? h).symm hbreak
  | cons a as ih =>
    cases bs with
    | nil => exact absurd (congrArg List.head? h) hbreak
    | cons b bs =>
      simp only [behindPiece, List.map_cons, List.flatMap_cons, List.cons_append,
        List.append_assoc, List.cons.injEq, List.append_cancel_left_eq, true_and] at h
      obtain ⟨rfl, hrest⟩ := hpiece a List.mem_cons_self b List.mem_cons_self _ _ h
      have htail : behindPiece closing level (as.map piece) ++ r =
          behindPiece closing level (bs.map piece) ++ s := by
        simpa only [behindPiece, List.append_assoc, List.cons_append] using hrest
      obtain ⟨rfl, hrs⟩ := ih (fun x hx y hy =>
        hpiece x (List.mem_cons_of_mem _ hx) y (List.mem_cons_of_mem _ hy)) htail
      exact ⟨rfl, hrs⟩

/-- **Pieces between brackets tell what they are pieces of**, if each of them does. -/
theorem eq_of_pieces {opening : Char} {as bs : List α} {r s : List Char}
    (hclosing : closing ≠ '\n')
    (hpiece : ∀ a ∈ as, ∀ b ∈ bs, ∀ r s, piece a ++ r = piece b ++ s → a = b ∧ r = s)
    (h : enclose opening closing level (as.map piece) ++ r =
      enclose opening closing level (bs.map piece) ++ s) : as = bs ∧ r = s := by
  -- no piece stands between the brackets when the closing one comes at once
  have hbreak : some closing ≠ some '\n' := fun e => hclosing (Option.some.inj e)
  cases as with
  | nil =>
    cases bs with
    | nil => exact ⟨rfl, List.append_cancel_left h⟩
    | cons b bs =>
      rw [List.map_cons, enclose_cons] at h
      exact absurd (congrArg List.head? (List.tail_eq_of_cons_eq h)) hbreak
  | cons a as =>
    cases bs with
    | nil =>
      rw [List.map_cons, enclose_cons] at h
      exact absurd (congrArg List.head? (List.tail_eq_of_cons_eq h)).symm hbreak
    | cons b bs =>
      simp only [List.map_cons, enclose_cons, List.cons_append, List.append_assoc,
        List.cons.injEq, List.append_cancel_left_eq, true_and] at h
      obtain ⟨rfl, hrest⟩ := hpiece a List.mem_cons_self b List.mem_cons_self _ _ h
      obtain ⟨rfl, hrs⟩ := eq_of_behindPiece (fun x hx y hy =>
        hpiece x (List.mem_cons_of_mem _ hx) y (List.mem_cons_of_mem _ hy)) hrest
      exact ⟨rfl, hrs⟩

end Pieces

/-! ## Values -/

theorem prettyItems_eq_map (level : Nat) (items : List Json) :
    prettyItems level items = items.map (prettyChars level) := by
  induction items with
  | nil => rfl
  | cons v items ih => rw [prettyItems, ih, List.map_cons]

/-- A field with its value. -/
def prettyField (level : Nat) (f : String × Json) : List Char :=
  quote f.1 ++ ':' :: ' ' :: prettyChars level f.2

theorem prettyFields_eq_map (level : Nat) (fields : List (String × Json)) :
    prettyFields level fields = fields.map (prettyField level) := by
  induction fields with
  | nil => rfl
  | cons f fields ih => rw [prettyFields, ih, List.map_cons, prettyField]

/-- A field tells its name, and its value if the value's text does. -/
theorem eq_of_prettyField_append {level : Nat} {f g : String × Json} {r s : List Char}
    (hvalue : ∀ r s, prettyChars level f.2 ++ r = prettyChars level g.2 ++ s →
      f.2 = g.2 ∧ r = s)
    (h : prettyField level f ++ r = prettyField level g ++ s) : f = g ∧ r = s := by
  rw [prettyField, prettyField, List.append_assoc, List.append_assoc] at h
  obtain ⟨hname, hrest⟩ := eq_of_quote_append h
  obtain ⟨hfg, hrs⟩ := hvalue r s (List.tail_eq_of_cons_eq (List.tail_eq_of_cons_eq hrest))
  exact ⟨Prod.ext hname hfg, hrs⟩

/-- **A value without numbers.** -/
inductive Wordy : Json → Prop
  /-- The value `null`. -/
  | null : Wordy .null
  /-- A truth value. -/
  | bool (b : Bool) : Wordy (.bool b)
  /-- A text. -/
  | text (s : String) : Wordy (.text s)
  /-- Values without numbers. -/
  | list {items : List Json} (h : ∀ v ∈ items, Wordy v) : Wordy (.list items)
  /-- Fields with values without numbers. -/
  | object {fields : List (String × Json)} (h : ∀ f ∈ fields, Wordy f.2) : Wordy (.object fields)

namespace Wordy

/-- The character with which a text begins: there is one for each kind of value. -/
def firstChar : Json → Char
  | .null => 'n'
  | .bool true => 't'
  | .bool false => 'f'
  | .text _ => '"'
  | .list _ => '['
  | .object _ => '\x7b'
  | .integer _ | .decimal _ _ => '0'

theorem head?_enclose (opening closing : Char) (level : Nat) (pieces : List (List Char))
    (r : List Char) : (enclose opening closing level pieces ++ r).head? = some opening := by
  cases pieces <;> rfl

theorem head?_prettyChars {v : Json} (h : v.Wordy) (level : Nat) (r : List Char) :
    (prettyChars level v ++ r).head? = some (firstChar v) := by
  cases h with
  | null => rfl
  | bool b => cases b <;> rfl
  | text s => rfl
  | list _ => exact head?_enclose ..
  | object _ => exact head?_enclose ..

/-- Values whose texts begin alike are of one kind. -/
theorem firstChar_eq {v w : Json} (hv : v.Wordy) (hw : w.Wordy) {level : Nat} {r s : List Char}
    (h : prettyChars level v ++ r = prettyChars level w ++ s) : firstChar v = firstChar w := by
  rw [← Option.some.injEq, ← head?_prettyChars hv level r, h, head?_prettyChars hw level s]

/-- **A pretty text tells the value and where it ends.** -/
theorem eq_of_append {v w : Json} (hv : v.Wordy) (hw : w.Wordy) {level : Nat} {r s : List Char}
    (h : prettyChars level v ++ r = prettyChars level w ++ s) : v = w ∧ r = s := by
  have hfirst := firstChar_eq hv hw h
  induction hv generalizing w level r s with
  | null =>
    cases hw with
    | null => exact ⟨rfl, List.append_cancel_left h⟩
    | bool b => cases b <;> exact absurd hfirst (by decide)
    | text | list | object => exact absurd hfirst (by simp [firstChar])
  | bool b =>
    cases hw with
    | bool b' =>
      cases b <;> cases b' <;>
        first
          | exact ⟨rfl, List.append_cancel_left h⟩
          | exact absurd hfirst (by decide)
    | null | text | list | object => cases b <;> exact absurd hfirst (by simp [firstChar])
  | text t =>
    cases hw with
    | text t' =>
      obtain ⟨rfl, hrs⟩ := eq_of_quote_append h
      exact ⟨rfl, hrs⟩
    | bool b => cases b <;> exact absurd hfirst (by simp [firstChar])
    | null | list | object => exact absurd hfirst (by simp [firstChar])
  | @list items hitems ih =>
    cases hw with
    | @list items' hitems' =>
      rw [prettyChars, prettyChars, prettyItems_eq_map, prettyItems_eq_map] at h
      obtain ⟨rfl, hrs⟩ := eq_of_pieces (by decide) (fun a ha b hb _ _ hab =>
        ih a ha (hitems' b hb) hab (firstChar_eq (hitems a ha) (hitems' b hb) hab)) h
      exact ⟨rfl, hrs⟩
    | bool b => cases b <;> exact absurd hfirst (by simp [firstChar])
    | null | text | object => exact absurd hfirst (by simp [firstChar])
  | @object fields hfields ih =>
    cases hw with
    | @object fields' hfields' =>
      rw [prettyChars, prettyChars, prettyFields_eq_map, prettyFields_eq_map] at h
      obtain ⟨rfl, hrs⟩ := eq_of_pieces (by decide) (fun f hf g hg _ _ hfg =>
        eq_of_prettyField_append (fun _ _ hvw => ih f hf (hfields' g hg) hvw
          (firstChar_eq (hfields f hf) (hfields' g hg) hvw)) hfg) h
      exact ⟨rfl, hrs⟩
    | bool b => cases b <;> exact absurd hfirst (by simp [firstChar])
    | null | text | list => exact absurd hfirst (by simp [firstChar])

/-- **Values with one pretty text are one value.** -/
theorem eq_of_pretty_eq {v w : Json} (hv : v.Wordy) (hw : w.Wordy) (h : v.pretty = w.pretty) :
    v = w := by
  have hchars : prettyChars 0 v = prettyChars 0 w := by
    simpa only [pretty, String.toList_ofList] using congrArg String.toList h
  exact (eq_of_append hv hw (congrArg (· ++ []) hchars)).1

end Wordy

end CsdlAudit.Json

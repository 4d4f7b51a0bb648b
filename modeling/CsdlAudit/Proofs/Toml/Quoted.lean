import Mathlib.Data.List.Basic
import CsdlAudit.Toml.Text

/-!
# What stands between quotes is read back

A text is written in one of four ways, and what its reader has to be told is where it ends. On one
line this is the first quote, since the text has none or has them escaped. A block ends with three
quotes, and the text may have quotes of its own right before them: the reader counts up to five, so
what matters is that never more than two of them stand in a row (`blockQuote_of_lead`). Which way is
taken only decides what the text must not contain.

Main statements: `readText?_writeText`, whatever the text, if no quote follows the closing ones; and
`toNat_of_mem_writeText`, which says by their numbers which characters are never written as they are.
-/

namespace CsdlAudit.Toml

/-! ## Quotes in a block -/

section Quotes

variable {mark : Char} {rest : List Char}

/-- How many quotes a text begins with. -/
def leadOf (mark : Char) (cs : List Char) : Nat := (cs.takeWhile (· == mark)).length

theorem leadOf_cons_self (mark : Char) (cs : List Char) :
    leadOf mark (mark :: cs) = leadOf mark cs + 1 := by
  simp [leadOf]

theorem leadOf_cons_of_ne {c : Char} (h : c ≠ mark) (cs : List Char) :
    leadOf mark (c :: cs) = 0 := by
  simp [leadOf, h]

theorem not_isPrefix_of_head? (h : rest.head? ≠ some mark) (more : List Char) :
    ¬mark :: more <+: rest := by
  rintro ⟨tail, rfl⟩
  exact h rfl

/-- Three quotes that no other follows end a block. -/
theorem blockQuote_marks (h : rest.head? ≠ some mark) :
    blockQuote mark (mark :: mark :: rest) = .ends rest := by
  simp [blockQuote, List.replicate, not_isPrefix_of_head? h, h]

/-- **A quote of the text is told from the closing ones** if at most one more of the text stands
right behind it. -/
theorem blockQuote_of_lead (hrest : rest.head? ≠ some mark) {body : List Char}
    (h : leadOf mark body ≤ 1) :
    blockQuote mark (body ++ mark :: mark :: mark :: rest) = .inside := by
  match body with
  | [] => simp [blockQuote, List.replicate, not_isPrefix_of_head? hrest]
  | [c] =>
    by_cases hc : c = mark
    · simp [blockQuote, List.replicate, hc, not_isPrefix_of_head? hrest]
    · simp [blockQuote, hc]
  | c :: d :: body =>
    -- the first two are not both quotes
    have hne : ¬(c = mark ∧ d = mark) := by
      rintro ⟨rfl, rfl⟩
      rw [leadOf_cons_self, leadOf_cons_self] at h
      omega
    simp [blockQuote, hne]

end Quotes

/-! ## Between double quotes -/

section Basic

variable {block : Bool} {c : Char} {cs rest : List Char}

/-- A letter behind a backslash is read as the character that it stands for. -/
theorem readBasic_letter {e : Char} (he : letterEscape? e = some c) (block : Bool)
    (rest : List Char) :
    readBasic block false ('\\' :: e :: rest) = push? (some c) (readBasic block false rest) := by
  have hnone : ∀ d ∈ [' ', '\t', '\n', 'u', 'U'], letterEscape? d = none := by
    simp [letterEscape?]
  have hne : ∀ d ∈ [' ', '\t', '\n', 'u', 'U'], e ≠ d := by
    rintro d hd rfl
    exact Option.some_ne_none c (he.symm.trans (hnone e hd))
  simp only [List.forall_mem_cons] at hne
  obtain ⟨hspace, htab, hbreak, hu, hU, -⟩ := hne
  rw [readBasic]
  · simp [endsLine, isGap, hspace, htab, hbreak, he]
  · exact fun _ _ _ _ _ h => absurd h hu
  · exact fun _ _ _ _ _ _ _ _ _ h => absurd h hU

/-- A character that may stand in the text is read as itself. -/
theorem readBasic_plain (hquote : c ≠ '"') (hslash : c ≠ '\\')
    (hplain : (isPlain c || (block && c == '\n')) = true) (rest : List Char) :
    readBasic block false (c :: rest) = push? (some c) (readBasic block false rest) := by
  rw [readBasic.eq_def]
  simp only [Bool.false_and, Bool.false_eq_true, if_false, if_neg hquote, if_neg hslash,
    if_pos hplain]

/-- A quote ends a text on one line. -/
theorem readBasic_end (rest : List Char) :
    readBasic false false ('"' :: rest) = some ([], rest) := by
  rw [readBasic.eq_def]
  simp

/-- Three quotes that no other follows end a block. -/
theorem readBasic_blockEnd (h : rest.head? ≠ some '"') :
    readBasic true false ('"' :: '"' :: '"' :: rest) = some ([], rest) := by
  rw [readBasic.eq_def]
  simp [blockQuote_marks h]

/-- A quote that belongs to the text of a block is read as itself. -/
theorem readBasic_quote (h : blockQuote '"' rest = .inside) :
    readBasic true false ('"' :: rest) = push? (some '"') (readBasic true false rest) := by
  rw [readBasic.eq_def]
  simp [h]

theorem toNat_lt_of_isControl (h : isControl c = true) : c.toNat < 0x80 := by
  simp only [isControl, Bool.or_eq_true, Bool.and_eq_true, decide_eq_true_eq, beq_iff_eq] at h
  omega

/-- The number of a control character has two hexadecimal digits. -/
theorem codeEscape?_upperHexDigit (h : isControl c = true) :
    codeEscape? ['0', '0', upperHexDigit (c.toNat / 16), upperHexDigit (c.toNat % 16)] =
      some c := by
  have hall : ∀ n < 0x80, codeEscape? ['0', '0', upperHexDigit (n / 16), upperHexDigit (n % 16)] =
      some (Char.ofNat n) := by decide +kernel
  rw [hall c.toNat (toNat_lt_of_isControl h), Char.ofNat_toNat]

theorem eq_ofNat_of_toNat {n : Nat} (h : c.toNat = n) : c = Char.ofNat n :=
  h ▸ (Char.ofNat_toNat c).symm

/-- **A character is read as it was written.** -/
theorem readBasic_escapedChar (block : Bool) (hc : c ≠ '"') (rest : List Char) :
    readBasic block false (escapedChar block c ++ rest) =
      push? (some c) (readBasic block false rest) := by
  unfold escapedChar
  split
  · next h => exact eq_ofNat_of_toNat h ▸ readBasic_letter rfl block rest
  split
  · next h => subst h; exact readBasic_letter rfl block rest
  split
  · next h =>
    subst h
    split
    · next hblock => exact readBasic_plain hc (by decide) (by simp [hblock]) rest
    · exact readBasic_letter rfl block rest
  split
  · next h => exact eq_ofNat_of_toNat h ▸ readBasic_letter rfl block rest
  split
  · next h => subst h; exact readBasic_letter rfl block rest
  split
  · next h => subst h; exact readBasic_letter rfl block rest
  next hbreak _ _ hslash =>
  split
  · next h =>
    simp only [List.cons_append, List.nil_append]
    rw [readBasic]
    simp [endsLine, isGap, codeEscape?_upperHexDigit h]
  · next h => exact readBasic_plain hc hslash (by simp [isPlain, h, hbreak]) rest

/-- What is written for a character other than a quote does not begin with one. -/
theorem leadOf_escapedChar (block : Bool) (hc : c ≠ '"') (rest : List Char) :
    leadOf '"' (escapedChar block c ++ rest) = 0 := by
  unfold escapedChar
  repeat' split
  all_goals exact leadOf_cons_of_ne (by first | decide | exact hc) _

/-- In a block at most two quotes stand in a row, on one line there is none. -/
theorem leadOf_escapedText (block : Bool) (run : Nat) (cs : List Char) :
    leadOf '"' (escapedText block run cs) ≤ (if block then 2 else 0) - run := by
  induction cs generalizing run with
  | nil => exact Nat.zero_le _
  | cons c cs ih =>
    rw [escapedText]
    by_cases hc : c = '"'
    · rw [if_pos hc]
      by_cases hrun : run < if block then 2 else 0
      · have hlater := ih (run + 1)
        rw [if_pos hrun, leadOf_cons_self]
        omega
      · rw [if_neg hrun, leadOf_cons_of_ne (by decide)]
        exact Nat.zero_le _
    · rw [if_neg hc, leadOf_escapedChar block hc]
      exact Nat.zero_le _

/-- **A text is read up to the quotes that close it.** -/
theorem readBasic_escapedText (block : Bool) (hrest : rest.head? ≠ some '"') (run : Nat)
    (cs : List Char) :
    readBasic block false
        (escapedText block run cs ++ (List.replicate (if block then 3 else 1) '"' ++ rest)) =
      some (cs, rest) := by
  induction cs generalizing run with
  | nil =>
    cases block with
    | false => exact readBasic_end rest
    | true => exact readBasic_blockEnd hrest
  | cons c cs ih =>
    rw [escapedText]
    by_cases hc : c = '"'
    · subst hc
      rw [if_pos rfl]
      by_cases hrun : run < if block then 2 else 0
      · -- a quote that is not escaped stands in a block
        obtain rfl : block = true := by
          by_contra hblock
          simp [hblock] at hrun
        have hlead : leadOf '"' (escapedText true (run + 1) cs) ≤ 1 :=
          Nat.le_trans (leadOf_escapedText true (run + 1) cs) (by rw [if_pos rfl]; omega)
        rw [if_pos hrun]
        exact (readBasic_quote (blockQuote_of_lead hrest hlead)).trans
          (congrArg (push? (some '"')) (ih (run + 1)))
      · rw [if_neg hrun, List.cons_append, List.cons_append, readBasic_letter rfl, ih 0]
        rfl
    · rw [if_neg hc, List.append_assoc, readBasic_escapedChar block hc, ih 0]
      rfl

end Basic

/-! ## Between single quotes -/

section Literal

variable {cs rest : List Char}

/-- The quotes at the front are a run. -/
theorem run_add_leadOf_le (mark : Char) (run : Nat) (cs : List Char) :
    run + leadOf mark cs ≤ longestRun mark run cs := by
  induction cs generalizing run with
  | nil => exact Nat.le_refl _
  | cons c cs ih =>
    rw [longestRun]
    split
    · next hc =>
      have hlater := ih (run + 1)
      rw [hc, leadOf_cons_self]
      omega
    · next hc =>
      rw [leadOf_cons_of_ne hc]
      exact Nat.le_max_left _ _

/-- A text without a run of a character does not have it. -/
theorem notMem_of_longestRun {mark : Char} (h : longestRun mark 0 cs = 0) : mark ∉ cs := by
  induction cs with
  | nil => exact List.not_mem_nil
  | cons c cs ih =>
    rw [longestRun] at h
    split at h
    · have hrun := run_add_leadOf_le mark (0 + 1) cs
      omega
    · next hc =>
      rw [List.mem_cons, not_or]
      exact ⟨fun e => hc e.symm, ih (by omega)⟩

/-- **A text on one line is read up to the quote that closes it.** -/
theorem readLiteral_line (hplain : ∀ c ∈ cs, isPlain c = true) (hquote : '\'' ∉ cs)
    (rest : List Char) : readLiteral false (cs ++ '\'' :: rest) = some (cs, rest) := by
  induction cs with
  | nil => simp [readLiteral]
  | cons c cs ih =>
    obtain ⟨hc, hcs⟩ := List.forall_mem_cons.mp hplain
    obtain ⟨hne, hquote⟩ := not_or.mp (List.mem_cons.not.mp hquote)
    rw [List.cons_append, readLiteral, if_neg fun e => hne e.symm, if_pos (by simp [hc]),
      ih hcs hquote]
    rfl

/-- **A block is read up to the quotes that close it.** -/
theorem readLiteral_block (hcontrol : ∀ c ∈ cs, isControl c = false) {run : Nat}
    (hrun : longestRun '\'' run cs ≤ 2) (hrest : rest.head? ≠ some '\'') :
    readLiteral true (cs ++ '\'' :: '\'' :: '\'' :: rest) = some (cs, rest) := by
  induction cs generalizing run with
  | nil => simp [readLiteral, blockQuote_marks hrest]
  | cons c cs ih =>
    obtain ⟨hc, hcs⟩ := List.forall_mem_cons.mp hcontrol
    rw [longestRun] at hrun
    rw [List.cons_append, readLiteral]
    by_cases hmark : c = '\''
    · rw [if_pos hmark] at hrun
      have hlead := run_add_leadOf_le '\'' (run + 1) cs
      have hshort : leadOf '\'' cs ≤ 1 := by omega
      have hinside := blockQuote_of_lead hrest hshort
      rw [if_pos hmark, if_pos rfl, hinside, ih hcs hrun]
      rfl
    · rw [if_neg hmark] at hrun
      have hplain : (isPlain c || (true && c == '\n')) = true := by
        by_cases hbreak : c = '\n' <;> simp [isPlain, hc, hbreak]
      rw [if_neg hmark, if_pos hplain, ih hcs (Nat.le_trans (Nat.le_max_right _ _) hrun)]
      rfl

end Literal

/-! ## All four ways -/

/-- **A text may be written in a way**: between single quotes it has no control character, on one
line neither line breaks nor quotes, and in a block at most two quotes in a row. -/
def Quoting.Suits (q : Quoting) (cs : List Char) : Prop :=
  q.literal = true → (∀ c ∈ cs, isControl c = false) ∧
    if q.block then longestRun '\'' 0 cs ≤ 2 else '\n' ∉ cs ∧ '\'' ∉ cs

theorem suits_quotingOf (cs : List Char) : (quotingOf cs).Suits cs := by
  have hcontrol : cs.any isControl = false → ∀ c ∈ cs, isControl c = false := by
    simp [List.any_eq_false]
  unfold quotingOf
  dsimp only
  split
  · nofun
  split
  · next h =>
    simp only [Bool.and_eq_true, Bool.not_eq_true', beq_iff_eq] at h
    obtain ⟨⟨hcoded, hbroken⟩, hrun⟩ := h
    have hbreak : '\n' ∉ cs := by simpa using hbroken
    exact fun _ => ⟨hcontrol hcoded, hbreak, notMem_of_longestRun hrun⟩
  split
  · nofun
  split
  · next h =>
    simp only [Bool.and_eq_true, Bool.not_eq_true', decide_eq_true_eq] at h
    exact fun _ => ⟨hcontrol h.1, h.2⟩
  · nofun

section All

variable {q : Quoting} {cs rest : List Char}

/-- What stands between the quotes. -/
def Quoting.bodyOf (q : Quoting) (cs : List Char) : List Char :=
  if q.literal then cs else escapedText q.block 0 cs

/-- The quotes behind the first one. -/
def Quoting.furtherMarks (q : Quoting) : List Char :=
  List.replicate (if q.block then 2 else 0) q.mark

/-- A line break behind the opening quotes of a block keeps the first one of the text. -/
def Quoting.opening (q : Quoting) (cs : List Char) : List Char :=
  if q.block && cs.contains '\n' then ['\n'] else []

theorem writeTextAs_eq (q : Quoting) (cs : List Char) :
    writeTextAs q cs =
      q.mark ::
        (q.furtherMarks ++ (q.opening cs ++ (q.bodyOf cs ++ q.mark :: q.furtherMarks))) := by
  obtain ⟨literal, block⟩ := q
  cases block <;> simp [writeTextAs, Quoting.furtherMarks, Quoting.opening, Quoting.bodyOf,
    List.replicate]

theorem plain_of_mem_escapedChar {block : Bool} {c x : Char} (h : x ∈ escapedChar block c) :
    isPlain x = true ∨ x = '\n' ∧ c = '\n' := by
  have hdigit : ∀ n < 16, isPlain (upperHexDigit n) = true := by decide
  unfold escapedChar at h
  split at h
  · exact Or.inl (List.all_eq_true.mp (by decide) x h)
  split at h
  · exact Or.inl (List.all_eq_true.mp (by decide) x h)
  split at h
  · next hc =>
    split at h
    · exact Or.inr ⟨List.mem_singleton.mp h, hc⟩
    · exact Or.inl (List.all_eq_true.mp (by decide) x h)
  split at h
  · exact Or.inl (List.all_eq_true.mp (by decide) x h)
  split at h
  · exact Or.inl (List.all_eq_true.mp (by decide) x h)
  split at h
  · exact Or.inl (List.all_eq_true.mp (by decide) x h)
  next hbreak _ _ _ =>
  split at h
  · next hcontrol =>
    have hlt := toNat_lt_of_isControl hcontrol
    simp only [List.mem_cons, List.not_mem_nil, or_false] at h
    rcases h with rfl | rfl | rfl | rfl | rfl | rfl
    · exact Or.inl (by decide)
    · exact Or.inl (by decide)
    · exact Or.inl (by decide)
    · exact Or.inl (by decide)
    · exact Or.inl (hdigit _ (by omega))
    · exact Or.inl (hdigit _ (by omega))
  · next hcontrol =>
    obtain rfl := List.mem_singleton.mp h
    exact Or.inl (by simp [isPlain, hcontrol, hbreak])

/-- Only plain characters are written between double quotes, and the line breaks of a block. -/
theorem plain_of_mem_escapedText {block : Bool} {x : Char} {run : Nat}
    (h : x ∈ escapedText block run cs) : isPlain x = true ∨ x = '\n' ∧ '\n' ∈ cs := by
  induction cs generalizing run with
  | nil => exact absurd h List.not_mem_nil
  | cons c cs ih =>
    have hlater : ∀ run, x ∈ escapedText block run cs →
        isPlain x = true ∨ x = '\n' ∧ '\n' ∈ c :: cs :=
      fun _ hx => (ih hx).imp_right fun ⟨e, hn⟩ => ⟨e, List.mem_cons_of_mem c hn⟩
    rw [escapedText] at h
    by_cases hc : c = '"'
    · rw [if_pos hc] at h
      by_cases hrun : run < if block then 2 else 0
      · rw [if_pos hrun] at h
        rcases List.mem_cons.mp h with rfl | h
        · exact Or.inl (by decide)
        · exact hlater _ h
      · rw [if_neg hrun] at h
        rcases List.mem_cons.mp h with rfl | h
        · exact Or.inl (by decide)
        · rcases List.mem_cons.mp h with rfl | h
          · exact Or.inl (by decide)
          · exact hlater _ h
    · rw [if_neg hc] at h
      rcases List.mem_append.mp h with h | h
      · exact (plain_of_mem_escapedChar h).imp_right fun ⟨e, hc⟩ => ⟨e, hc ▸ List.mem_cons_self⟩
      · exact hlater _ h

/-- The text does not begin with a line break that it does not have. -/
theorem lineBreak_notMem_bodyOf (h : '\n' ∉ cs) (q : Quoting) : '\n' ∉ q.bodyOf cs := by
  unfold Quoting.bodyOf
  split
  · exact h
  · exact fun hmem => (plain_of_mem_escapedText hmem).elim (by decide) fun hn => h hn.2

/-- On one line no quote stands between the quotes without an escape. -/
theorem leadOf_bodyOf (hsuits : q.Suits cs) (hblock : q.block = false) :
    leadOf q.mark (q.bodyOf cs) = 0 := by
  unfold Quoting.bodyOf Quoting.mark
  cases hliteral : q.literal with
  | false =>
    rw [hblock]
    exact Nat.le_zero.mp (leadOf_escapedText false 0 cs)
  | true =>
    have hquote : '\'' ∉ cs := by
      have hline := (hsuits hliteral).2
      rw [hblock] at hline
      exact hline.2
    cases cs with
    | nil => rfl
    | cons c cs =>
      refine leadOf_cons_of_ne ?_ _
      rintro rfl
      exact hquote List.mem_cons_self

/-- **The way in which a text is quoted is told by what follows the first quote.** -/
theorem openQuoting_eq (hsuits : q.Suits cs) (hrest : rest.head? ≠ some q.mark) :
    openQuoting q.mark
      (q.furtherMarks ++ (q.opening cs ++ (q.bodyOf cs ++ q.mark :: (q.furtherMarks ++ rest)))) =
        q := by
  have hliteral : (q.mark == '\'') = q.literal := by
    unfold Quoting.mark
    cases q.literal <;> rfl
  have hblock : decide (List.replicate 2 q.mark <+:
      q.furtherMarks ++ (q.opening cs ++ (q.bodyOf cs ++ q.mark :: (q.furtherMarks ++ rest)))) =
      q.block := by
    cases hblock : q.block with
    | true =>
      have hmarks : q.furtherMarks = List.replicate 2 q.mark := by
        rw [Quoting.furtherMarks, hblock, if_pos rfl]
      rw [hmarks]
      exact decide_eq_true (List.prefix_append _ _)
    | false =>
      have hmarks : q.furtherMarks = [] := by
        rw [Quoting.furtherMarks, hblock]
        rfl
      have hopening : q.opening cs = [] := by
        rw [Quoting.opening, hblock]
        rfl
      have hlead := leadOf_bodyOf hsuits hblock
      rw [hmarks, hopening, decide_eq_false_iff_not]
      show ¬[q.mark, q.mark] <+: q.bodyOf cs ++ q.mark :: rest
      cases hbody : q.bodyOf cs with
      | nil =>
        rw [List.nil_append, List.cons_prefix_cons, and_iff_right rfl]
        exact not_isPrefix_of_head? hrest []
      | cons c body =>
        refine not_isPrefix_of_head? (fun hhead => ?_) _
        obtain rfl : c = q.mark := Option.some.inj hhead
        rw [hbody, leadOf_cons_self] at hlead
        exact Nat.succ_ne_zero _ hlead
  rw [openQuoting, hliteral, hblock]

/-- The opening quotes are skipped. -/
theorem dropMarks_eq (q : Quoting) (tail : List Char) :
    (if q.block then (q.furtherMarks ++ tail).drop 2 else q.furtherMarks ++ tail) = tail := by
  cases hblock : q.block <;> simp [Quoting.furtherMarks, hblock, List.replicate]

theorem mark_ne_lineBreak (q : Quoting) : q.mark ≠ '\n' := by
  unfold Quoting.mark
  cases q.literal <;> decide

/-- The line break behind the opening quotes is skipped, and none of the text is. -/
theorem dropOpening_eq (q : Quoting) (cs tail : List Char) :
    (if (q.block &&
          (q.opening cs ++ (q.bodyOf cs ++ q.mark :: tail)).head? == some '\n') = true then
        (q.opening cs ++ (q.bodyOf cs ++ q.mark :: tail)).drop 1
      else q.opening cs ++ (q.bodyOf cs ++ q.mark :: tail)) = q.bodyOf cs ++ q.mark :: tail := by
  cases hblock : q.block with
  | false => simp [Quoting.opening, hblock]
  | true =>
    by_cases hbreak : '\n' ∈ cs
    · simp [Quoting.opening, hblock, hbreak]
    · have hhead : (q.bodyOf cs ++ q.mark :: tail).head? ≠ some '\n' := by
        have hbody := lineBreak_notMem_bodyOf hbreak q
        cases hcs : q.bodyOf cs with
        | nil => exact fun h => mark_ne_lineBreak q (Option.some.inj h)
        | cons c body =>
          intro h
          obtain rfl : c = '\n' := Option.some.inj h
          exact hbody (hcs ▸ List.mem_cons_self)
      have hopening : q.opening cs = [] := by simp [Quoting.opening, hbreak]
      rw [hopening, List.nil_append, Bool.true_and, if_neg fun h => hhead (beq_iff_eq.mp h)]

/-- **A text is read behind its opening quotes.** -/
theorem readTextAs_eq (hsuits : q.Suits cs) (hrest : rest.head? ≠ some q.mark) :
    readTextAs q (q.opening cs ++ (q.bodyOf cs ++ q.mark :: (q.furtherMarks ++ rest))) =
      some (cs, rest) := by
  rw [readTextAs, dropOpening_eq]
  obtain ⟨literal, block⟩ := q
  cases literal with
  | false =>
    have hread := readBasic_escapedText block hrest 0 cs
    cases block <;> exact hread
  | true =>
    obtain ⟨hcontrol, hline⟩ := hsuits rfl
    cases block with
    | false =>
      have hplain : ∀ c ∈ cs, isPlain c = true := by
        intro c hc
        have hbreak : c ≠ '\n' := fun e => hline.1 (e ▸ hc)
        simp [isPlain, hcontrol c hc, hbreak]
      exact readLiteral_line hplain hline.2 rest
    | true => exact readLiteral_block hcontrol hline hrest

end All

/-- The quote that a text begins and ends with. -/
def markOf (s : String) : Char := (quotingOf s.toList).mark

/-- What stands behind the first quote of a text. -/
def behindMark (s : String) : List Char :=
  let q := quotingOf s.toList
  q.furtherMarks ++ (q.opening s.toList ++ (q.bodyOf s.toList ++ q.mark :: q.furtherMarks))

theorem writeText_eq (s : String) : writeText s = markOf s :: behindMark s := writeTextAs_eq _ _

/-- **What was written between quotes is read back**, whatever the text, and the rest is left. -/
theorem readText?_writeText (s : String) {rest : List Char} (h : rest.head? ≠ some (markOf s)) :
    readText? (markOf s) (behindMark s ++ rest) =
      some ((quotingOf s.toList).block, s, rest) := by
  have hsuits := suits_quotingOf s.toList
  unfold markOf at h ⊢
  unfold behindMark
  generalize quotingOf s.toList = q at *
  have hdrop := dropMarks_eq q
    (q.opening s.toList ++ (q.bodyOf s.toList ++ q.mark :: (q.furtherMarks ++ rest)))
  rw [List.append_assoc, List.append_assoc, List.append_assoc, List.cons_append, readText?,
    openQuoting_eq hsuits h, hdrop, readTextAs_eq hsuits h, Option.map_some, String.ofList_toList]

/-- A text is written with plain characters and line breaks only. -/
theorem plain_of_mem_writeText {s : String} {x : Char} (h : x ∈ writeText s) :
    isPlain x = true ∨ x = '\n' := by
  have hsuits := suits_quotingOf s.toList
  rw [writeText_eq, markOf, behindMark] at h
  generalize quotingOf s.toList = q at *
  have hmark : isPlain q.mark = true := by
    unfold Quoting.mark
    cases q.literal <;> decide
  have hmarks : ∀ y ∈ q.furtherMarks, isPlain y = true := by
    intro y hy
    rw [List.eq_of_mem_replicate hy]
    exact hmark
  have hbody : x ∈ q.bodyOf s.toList → isPlain x = true ∨ x = '\n' := by
    unfold Quoting.bodyOf
    split
    · next hliteral =>
      intro hx
      by_cases hbreak : x = '\n'
      · exact Or.inr hbreak
      · exact Or.inl (by simp [isPlain, (hsuits hliteral).1 x hx, hbreak])
    · exact fun hx => (plain_of_mem_escapedText hx).imp_right And.left
  have hopening : ∀ y ∈ q.opening s.toList, y = '\n' := by
    unfold Quoting.opening
    split <;> simp
  simp only [List.mem_cons, List.mem_append] at h
  rcases h with rfl | h | h | h | rfl | h
  · exact Or.inl hmark
  · exact Or.inl (hmarks x h)
  · exact Or.inr (hopening x h)
  · exact hbody h
  · exact Or.inl hmark
  · exact Or.inl (hmarks x h)

/-- **No control character stands in a written text** but for tabs and line breaks, whatever the
text: all others are escaped. These are the characters that no string of a settings file may hold. -/
theorem toNat_of_mem_writeText {s : String} {x : Char} (h : x ∈ writeText s) :
    (0x20 ≤ x.toNat ∧ x.toNat ≠ 0x7F) ∨ x = '\t' ∨ x = '\n' := by
  rcases plain_of_mem_writeText h with hplain | hbreak
  · by_cases htab : x = '\t'
    · exact Or.inr (Or.inl htab)
    · simp only [isPlain, isControl, Bool.and_eq_true, Bool.not_eq_true', Bool.or_eq_false_iff,
        bne_iff_ne, beq_eq_false_iff_ne, Bool.and_eq_false_iff, decide_eq_false_iff_not,
        Nat.not_lt] at hplain
      obtain ⟨⟨hlow, hdelete⟩, hbreak⟩ := hplain
      refine Or.inl ⟨?_, hdelete⟩
      rcases hlow with (hlow | htab') | hbreak'
      · exact hlow
      · exact absurd htab' (by simp [htab])
      · exact absurd hbreak' (by simp [hbreak])
  · exact Or.inr (Or.inr hbreak)

end CsdlAudit.Toml

import CsdlAudit.Proofs.Toml.Tokens
import CsdlAudit.Toml.Document

/-!
# Lines of a settings file

A settings file that is written has one statement in a line, or none: the name of a table between
brackets, or a name, `=` and a value. Here characters are followed through all that reads a line.
`Writes` says that they are read as a value and `Says` that they are read as the statements of a
line. Both only hold of characters that may stand in front of any others, so values make up lines
(`Writes.says_assign`) and lines make up a file (`statements?_lines`).
-/

namespace CsdlAudit.Toml

variable {α : Type} {cs ds : List Char} {ts us : List Token} {ns ms : List Node}

/-! ## Cutting and stripping -/

/-- Pieces that end in a separator are told by it. -/
theorem splitOnP_flatMap_concat {p : α → Bool} {c : α} {pieces : List (List α)} {last : List α}
    (hc : p c = true) (hpieces : ∀ x ∈ pieces, ∀ a ∈ x, p a = false)
    (hlast : ∀ a ∈ last, p a = false) :
    (pieces.flatMap (· ++ [c]) ++ last).splitOnP p = pieces ++ [last] := by
  induction pieces with
  | nil => exact List.splitOnP_eq_singleton hlast
  | cons x pieces ih =>
    obtain ⟨hx, hpieces⟩ := List.forall_mem_cons.mp hpieces
    rw [List.flatMap_cons, List.append_assoc, List.append_assoc, List.singleton_append,
      List.splitOnP_append_cons_of_forall_mem hx c hc, ih hpieces]
    rfl

/-- What stands between gaps is left. -/
theorem strip_between {gap : α → Bool} {before after : List α} {a : α}
    (hbefore : ∀ x ∈ before, gap x = true) (ha : gap a = false)
    (hafter : ∀ x ∈ after, gap x = true) :
    strip gap (before ++ a :: after) = [a] := by
  have hfront : (before ++ a :: after).dropWhile gap = a :: after := by
    rw [List.dropWhile_append_of_pos hbefore, List.dropWhile_cons_of_neg (by simp [ha])]
  have hback : (a :: after).reverse.dropWhile gap = [a] := by
    rw [List.reverse_cons, List.dropWhile_append_of_pos (by simpa using hafter),
      List.dropWhile_cons_of_neg (by simp [ha])]
  rw [strip, hfront, hback]
  rfl

/-- What neither begins nor ends with a gap is left as it is. -/
theorem strip_ends {gap : α → Bool} {a b : α} (ha : gap a = false) (hb : gap b = false)
    (xs : List α) : strip gap (a :: xs ++ [b]) = a :: xs ++ [b] := by
  have hfront : (a :: xs ++ [b]).dropWhile gap = a :: xs ++ [b] :=
    List.dropWhile_cons_of_neg (by simp [ha])
  have hback : (a :: xs ++ [b]).reverse.dropWhile gap = (a :: xs ++ [b]).reverse := by
    rw [List.reverse_append, List.reverse_singleton, List.singleton_append,
      List.dropWhile_cons_of_neg (by simp [hb])]
  rw [strip, hfront, hback, List.reverse_reverse]

/-! ## Brackets -/

/-- Whether the token is no bracket. -/
def Token.isFlat : Token → Bool
  | .openList | .closeList | .openTable | .closeTable => false
  | _ => true

/-- **Tokens are paired as nodes** outside of brackets. -/
def Pairs (ts : List Token) (ns : List Node) : Prop :=
  ∀ here us, pair [] here (ts ++ us) = pair [] (ns.reverse ++ here) us

theorem pairs_nil : Pairs [] [] := fun _ _ => rfl

theorem Pairs.append (hts : Pairs ts ns) (hus : Pairs us ms) : Pairs (ts ++ us) (ns ++ ms) := by
  intro here more
  rw [List.append_assoc, hts, hus, List.reverse_append, List.append_assoc]

/-- The nodes of all the tokens. -/
theorem Pairs.pair_eq (h : Pairs ts ns) : pair [] [] ts = some ns := by
  have hend := h [] []
  rw [List.append_nil, List.append_nil] at hend
  rw [hend, pair]
  simp

theorem pair_cons {t : Token} (h : t.isFlat = true) (outside : List (Token × List Node))
    (here : List Node) (us : List Token) :
    pair outside here (t :: us) = pair outside (.token t :: here) us := by
  cases t <;> first | exact absurd h (by decide) | simp only [pair]

/-- Tokens without brackets stay as they are, in brackets and outside. -/
theorem pair_flat (outside : List (Token × List Node)) (here : List Node)
    (h : ∀ t ∈ ts, t.isFlat = true) (us : List Token) :
    pair outside here (ts ++ us) = pair outside ((ts.map Node.token).reverse ++ here) us := by
  induction ts generalizing here with
  | nil => rfl
  | cons t ts ih =>
    obtain ⟨ht, hts⟩ := List.forall_mem_cons.mp h
    rw [List.cons_append, pair_cons ht, ih _ hts]
    simp

theorem pairs_flat (h : ∀ t ∈ ts, t.isFlat = true) : Pairs ts (ts.map .token) :=
  fun here us => pair_flat [] here h us

/-- A list of tokens without brackets. -/
theorem pairs_list (h : ∀ t ∈ ts, t.isFlat = true) :
    Pairs (.openList :: ts ++ [.closeList]) [.list (ts.map .token)] := by
  intro here us
  have hopen : pair [] here (.openList :: (ts ++ .closeList :: us)) =
      pair [(.openList, here)] [] (ts ++ .closeList :: us) := by
    simp [pair, nesting]
  have hclose : pair [(.openList, here)] ((ts.map Node.token).reverse) (.closeList :: us) =
      pair [] (.list (ts.map .token) :: here) us := by
    simp [pair]
  rw [List.append_assoc, List.cons_append, List.singleton_append, hopen, pair_flat _ _ h,
    List.append_nil, hclose]
  rfl

/-- The pieces of tokens. -/
theorem pieces?_tokens (ts : List Token) : pieces? (ts.map .token) = some (ts.map .token) := by
  induction ts with
  | nil => rfl
  | cons t ts ih => rw [List.map_cons, pieces?, Node.piece?, ih]; rfl

/-! ## Values -/

/-- **Characters write a value**: they are one node, and its piece stands for the value. -/
def Writes (cs : List Char) (v : Value) : Prop :=
  '\r' ∉ cs ∧ ∃ ts n p, Lexes cs ts ∧ Pairs ts [n] ∧ n.isGap = false ∧ n.isLineBreak = false ∧
    n.piece? = some p ∧ p.isGap = false ∧ value? [p] = some v

/-- A token that is a value. -/
theorem writes_token {t : Token} {v : Value} (hreturn : '\r' ∉ cs) (hlexes : Lexes cs [t])
    (hflat : t.isFlat = true) (hgap : t.isGap = false) (hbreak : t ≠ .lineBreak)
    (hvalue : value? [.token t] = some v) : Writes cs v := by
  have hpairs : Pairs [t] [.token t] := pairs_flat (by simpa using hflat)
  have hline : Node.isLineBreak (.token t) = false := by
    cases t <;> first | rfl | exact absurd rfl hbreak
  exact ⟨hreturn, [t], .token t, .token t, hlexes, hpairs, hgap, hline, by rw [Node.piece?], hgap,
    hvalue⟩

/-- **A word** writes the value without quotes that its characters are. -/
theorem writes_word {v : Value} (hne : cs ≠ []) (h : ∀ c ∈ cs, isWordChar c = true)
    (hvalue : scalar? cs = some v) : Writes cs v := by
  have hreturn : '\r' ∉ cs := fun hmem => absurd (h _ hmem) (by decide)
  refine writes_token hreturn (lexes_word hne h) rfl rfl (by simp) ?_
  rw [value?, scalarChars?, scalarChars?]
  · simpa using hvalue
  all_goals simp

/-- A carriage return is never written as it is. -/
theorem return_notMem_writeText (s : String) : '\r' ∉ writeText s := fun h =>
  (plain_of_mem_writeText h).elim (fun h => absurd h (by decide)) fun h => absurd h (by decide)

/-- **A text** between quotes. -/
theorem writes_writeText (s : String) : Writes (writeText s) (.text s) :=
  writes_token (return_notMem_writeText s) (lexes_writeText s) rfl rfl (by simp [textToken]) rfl

/-- **A list** whose items have no brackets. -/
theorem writes_list {vs : List Value} (hreturn : '\r' ∉ cs) (hlexes : Lexes cs ts)
    (hflat : ∀ t ∈ ts, t.isFlat = true) (hitems : items? (ts.map .token) = some vs) :
    Writes ('[' :: (cs ++ [']'])) (.list vs) := by
  have hclose : Lexes (cs ++ ']' :: []) (ts ++ .closeList :: []) :=
    hlexes.append_mark rfl lexes_nil
  refine ⟨by simp [hreturn], _, .list (ts.map .token), .value (.list vs), hclose.mark_cons rfl,
    pairs_list hflat, rfl, rfl, ?_, rfl, rfl⟩
  rw [Node.piece?, pieces?_tokens, Option.bind_some, hitems]
  rfl

/-! ## Statements -/

/-- **Characters say the statements** of a line: one, or none if there is nothing but gaps. -/
def Says (cs : List Char) (statements : List Statement) : Prop :=
  '\r' ∉ cs ∧ ∃ ts ns, Lexes cs ts ∧ Pairs ts ns ∧ (∀ n ∈ ns, n.isLineBreak = false) ∧
    ([strip Node.isGap ns].filter (fun l => !l.isEmpty)).mapM statement? = some statements

/-- An empty line says nothing. -/
theorem says_nil : Says [] [] :=
  ⟨List.not_mem_nil, [], [], lexes_nil, pairs_nil, by simp, rfl⟩

/-- A name that needs no quotes. -/
def IsBare (name : String) : Prop :=
  name ≠ "" ∧ name.toList.all (fun c => isWordChar c && c != '+' && c != ':') = true

instance (name : String) : Decidable (IsBare name) := inferInstanceAs (Decidable (_ ∧ _))

variable {name : String}

/-- A bare name is a word without the characters that stand in no name. -/
theorem IsBare.of_mem (h : IsBare name) {c : Char} (hc : c ∈ name.toList) :
    isWordChar c = true ∧ c ≠ '+' ∧ c ≠ ':' := by
  simpa [and_assoc] using List.all_eq_true.mp h.2 c hc

theorem IsBare.lexes (h : IsBare name) : Lexes name.toList [.word name.toList] :=
  lexes_word (by simpa using h.1) fun _ hc => (h.of_mem hc).1

theorem IsBare.return_notMem (h : IsBare name) : '\r' ∉ name.toList :=
  fun hmem => absurd (h.of_mem hmem).1 (by decide)

/-- A bare name with gaps behind it is a path of one name. -/
theorem IsBare.path? (h : IsBare name) {gaps : List Piece}
    (hgaps : ∀ p ∈ gaps, p.isGap = true ∧ p.isToken .dot = false) :
    path? (.token (.word name.toList) :: gaps) = some [name] := by
  have hdot : ∀ p ∈ Piece.token (.word name.toList) :: gaps, p.isToken .dot = false :=
    List.forall_mem_cons.mpr ⟨rfl, fun p hp => (hgaps p hp).2⟩
  have hstrip : strip Piece.isGap ([] ++ .token (.word name.toList) :: gaps) = _ :=
    strip_between (by simp) rfl fun p hp => (hgaps p hp).1
  have hname : name? [.token (.word name.toList)] = some name := by
    rw [name?, if_pos, String.ofList_toList]
    rw [List.all_eq_true]
    intro c hc
    simp [(h.of_mem hc).2.1, (h.of_mem hc).2.2]
  rw [List.nil_append] at hstrip
  rw [Toml.path?, List.splitOnP_eq_singleton hdot, List.mapM_cons, hstrip, hname]
  rfl

/-- **A name between brackets** opens a table. -/
theorem IsBare.says_openTable (h : IsBare name) :
    Says ('[' :: (name.toList ++ [']'])) [.openTable [name]] := by
  have hclose : Lexes (name.toList ++ ']' :: []) ([.word name.toList] ++ .closeList :: []) :=
    h.lexes.append_mark rfl lexes_nil
  have hpairs : Pairs (.openList :: [.word name.toList] ++ [.closeList])
      [.list [.token (.word name.toList)]] := pairs_list (by simp [Token.isFlat])
  refine ⟨by simp [h.return_notMem], _, _, hclose.mark_cons rfl, hpairs,
    by simp [Node.isLineBreak], ?_⟩
  have hpath : Toml.path? [.token (.word name.toList)] = some [name] := h.path? (by simp)
  have hstatement : statement? [.list [.token (.word name.toList)]] = some (.openTable [name]) := by
    simp [statement?, Node.token?, hpath]
  have hstrip : strip Node.isGap [.list [.token (.word name.toList)]] =
      [.list [.token (.word name.toList)]] := rfl
  rw [hstrip]
  simp [hstatement]

/-- A bare name, `=` and the piece of a value give the value to the name. -/
theorem IsBare.assignment? (h : IsBare name) {p : Piece} {v : Value} (hgap : p.isGap = false)
    (hvalue : value? [p] = some v) :
    assignment? [.token (.word name.toList), .token .space, .token .equals, .token .space, p] =
      some ([name], v) := by
  have hword : Piece.isToken .equals (.token (.word name.toList)) = false := rfl
  have hequals : Piece.isToken .equals (.token .equals) = true := rfl
  have hspace : Piece.isToken .equals (.token .space) = false := rfl
  have hpath : Toml.path? [.token (.word name.toList), .token .space] = some [name] :=
    h.path? (by simp [Piece.isGap, Token.isGap, Piece.isToken])
  have hstrip : strip Piece.isGap ([.token .space] ++ p :: []) = [p] :=
    strip_between (by simp [Piece.isGap, Token.isGap]) hgap (by simp)
  rw [List.singleton_append] at hstrip
  simp [Toml.assignment?, hword, hequals, hspace, hpath, hstrip, hvalue]

/-- **A name, `=` and what writes a value** give the value to the name. -/
theorem Writes.says_assign {v : Value} (hv : Writes cs v) (h : IsBare name) :
    Says (name.toList ++ " = ".toList ++ cs) [.assign [name] v] := by
  obtain ⟨hreturn, ts, n, p, hlexes, hpairs, hgap, hbreak, hpiece, hpgap, hvalue⟩ := hv
  have hbehind : Lexes ('=' :: ' ' :: cs) (.equals :: .space :: ts) :=
    (hlexes.mark_cons rfl).mark_cons rfl
  have hall : Lexes (name.toList ++ " = ".toList ++ cs)
      ([.word name.toList] ++ .space :: .equals :: .space :: ts) := by
    rw [List.append_assoc]
    exact h.lexes.append_mark rfl hbehind
  have hfront : Pairs [.word name.toList, .space, .equals, .space] _ :=
    pairs_flat (by simp [Token.isFlat])
  refine ⟨?_, _, _, hall, hfront.append hpairs, ?_, ?_⟩
  · simp [h.return_notMem, hreturn]
  · rintro m (_ | ⟨_, _ | ⟨_, _ | ⟨_, _ | ⟨_, _ | ⟨_, hm⟩⟩⟩⟩⟩)
    · rfl
    · rfl
    · rfl
    · rfl
    · exact hbreak
    · cases hm
  · have hpieces : pieces? [.token (.word name.toList), .token .space, .token .equals,
        .token .space, n] =
        some [.token (.word name.toList), .token .space, .token .equals, .token .space, p] := by
      simp [pieces?, Node.piece?, hpiece]
    have hstatement : statement? [.token (.word name.toList), .token .space, .token .equals,
        .token .space, n] = some (.assign [name] v) := by
      simp only [statement?, hpieces, Option.bind_some, h.assignment? hpgap hvalue, Option.map_some]
    have hstrip : strip Node.isGap ([.token (.word name.toList), .token .space, .token .equals,
        .token .space] ++ [n]) = _ := strip_ends rfl hgap _
    show ([strip Node.isGap ([.token (.word name.toList), .token .space, .token .equals,
      .token .space] ++ [n])].filter _).mapM statement? = _
    rw [hstrip]
    simp [hstatement]

/-! ## Files -/

/-- The statements of a whole text. -/
def statementsOf? (cs : List Char) : Option (List Statement) :=
  (tokens? cs).bind fun ts => (pair [] [] ts).bind statements?

/-- Lines with their ends are read together as nodes, which the ends of lines cut into those of the
lines. -/
theorem nodes_lines {lines : List (List Char × List Statement)} (h : ∀ l ∈ lines, Says l.1 l.2) :
    ∃ (ts : List Token) (pieces : List (List Node)),
      Lexes (lines.flatMap (fun l => l.1 ++ ['\n'])) ts ∧
      Pairs ts (pieces.flatMap (· ++ [.token .lineBreak])) ∧
      (∀ piece ∈ pieces, ∀ n ∈ piece, n.isLineBreak = false) ∧
      ((pieces.map (strip Node.isGap)).filter (fun l => !l.isEmpty)).mapM statement? =
        some (lines.flatMap Prod.snd) := by
  induction lines with
  | nil => exact ⟨[], [], lexes_nil, pairs_nil, by simp, rfl⟩
  | cons l lines ih =>
    obtain ⟨hl, hlines⟩ := List.forall_mem_cons.mp h
    obtain ⟨-, ts, ns, hlexes, hpairs, hbreak, hsays⟩ := hl
    obtain ⟨us, pieces, hlexes', hpairs', hbreak', hsays'⟩ := ih hlines
    refine ⟨ts ++ .lineBreak :: us, ns :: pieces, ?_, ?_,
      List.forall_mem_cons.mpr ⟨hbreak, hbreak'⟩, ?_⟩
    · rw [List.flatMap_cons, List.append_assoc]
      exact hlexes.append_mark rfl hlexes'
    · have hend : Pairs [.lineBreak] [.token .lineBreak] := pairs_flat (by simp [Token.isFlat])
      rw [List.flatMap_cons, List.append_assoc]
      exact hpairs.append (hend.append hpairs')
    · rw [List.map_cons, ← List.singleton_append, List.filter_append, List.mapM_append, hsays,
        hsays']
      rfl

/-- **A file is read line by line.** -/
theorem statementsOf?_lines {lines : List (List Char × List Statement)}
    (h : ∀ l ∈ lines, Says l.1 l.2) :
    statementsOf? (lines.flatMap (fun l => l.1 ++ ['\n'])) = some (lines.flatMap Prod.snd) := by
  obtain ⟨ts, pieces, hlexes, hpairs, hbreak, hsays⟩ := nodes_lines h
  have htokens : tokens? (lines.flatMap (fun l => l.1 ++ ['\n'])) = some ts := by
    have hend := hlexes [] fenced_nil
    rw [List.append_nil, tokens?] at hend
    simpa using hend
  have hcut : (pieces.flatMap (· ++ [Node.token .lineBreak]) ++ []).splitOnP Node.isLineBreak =
      pieces ++ [[]] := splitOnP_flatMap_concat rfl hbreak (by simp)
  rw [List.append_nil] at hcut
  rw [statementsOf?, htokens, Option.bind_some, hpairs.pair_eq, Option.bind_some, statements?, hcut,
    List.map_append, List.filter_append, List.mapM_append, hsays]
  simp [strip]

end CsdlAudit.Toml

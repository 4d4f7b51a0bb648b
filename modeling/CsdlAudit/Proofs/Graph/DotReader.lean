import CsdlAudit.Graph.Drawing
import CsdlAudit.Proofs.Text.Pieces

/-!
# Reading the DOT language

Statements for nodes and edges are read in three steps. Characters become tokens: quoted texts,
words and marks, with blanks between them (`Dot.run`). Tokens are cut into statements at the
semicolons. A statement is an id, or two of them with an arrow between, and a list of attributes
(`Dot.statement?`). What stands between quotes is decoded by the inverse of the escaping of ids
(`Dot.unescape_eq_some_iff`).

The reader of characters is a machine that takes one character at a time, so a text is read piece by
piece (`Dot.run_append`). An escaped text between quotes is one token, whatever it is made of:
neither a quote nor a backslash in it closes it (`Dot.lexes_quoteDot`).
-/

namespace CsdlAudit.Dot

/-! ## Escapes -/

/-- The text that is escaped as the given one. -/
def unescapeChars : List Char → Option (List Char)
  | [] => some []
  | '\\' :: c :: cs => if c = '\\' ∨ c = '"' then (unescapeChars cs).map (c :: ·) else none
  | c :: cs => if c = '\\' ∨ c = '"' then none else (unescapeChars cs).map (c :: ·)

/-- **The id that is quoted as the given text**, if there is one. -/
def unescape (s : String) : Option String := (unescapeChars s.toList).map String.ofList

theorem unescapeChars_escape (cs : List Char) :
    unescapeChars (cs.flatMap escapeDotChar) = some cs := by
  induction cs with
  | nil => rfl
  | cons c cs ih =>
    rw [List.flatMap_cons, escapeDotChar]
    by_cases hbackslash : c = '\\'
    · subst hbackslash
      simp [unescapeChars, ih]
    · by_cases hquote : c = '"'
      · subst hquote
        simp [unescapeChars, ih]
      · simp [unescapeChars, hbackslash, hquote, ih]

theorem eq_of_unescapeChars {cs ds : List Char} (h : unescapeChars ds = some cs) :
    ds = cs.flatMap escapeDotChar := by
  fun_induction unescapeChars ds generalizing cs with
  | case1 =>
    obtain rfl := Option.some.inj h
    rfl
  | case2 c ds hc ih =>
    obtain ⟨cs, hcs, rfl⟩ := Option.map_eq_some_iff.mp h
    rw [List.flatMap_cons, ← ih hcs]
    rcases hc with rfl | rfl <;> rfl
  | case3 => exact absurd h (Option.some_ne_none _).symm
  | case4 => exact absurd h (Option.some_ne_none _).symm
  | case5 c ds _ hc ih =>
    obtain ⟨cs, hcs, rfl⟩ := Option.map_eq_some_iff.mp h
    obtain ⟨hbackslash, hquote⟩ := not_or.mp hc
    rw [List.flatMap_cons, ← ih hcs, escapeDotChar, if_neg hbackslash, if_neg hquote]
    rfl

/-- **Decoding is the inverse of escaping.** -/
theorem unescape_eq_some_iff {s t : String} : unescape t = some s ↔ t = escapeDot s := by
  rw [unescape, Option.map_eq_some_iff]
  constructor
  · rintro ⟨cs, hcs, rfl⟩
    refine String.toList_injective ?_
    rw [escapeDot, String.toList_ofList, String.toList_ofList]
    exact eq_of_unescapeChars hcs
  · rintro rfl
    refine ⟨s.toList, ?_, String.ofList_toList⟩
    rw [escapeDot, String.toList_ofList]
    exact unescapeChars_escape s.toList

@[simp] theorem unescape_escapeDot (s : String) : unescape (escapeDot s) = some s :=
  unescape_eq_some_iff.mpr rfl

/-! ## Tokens -/

/-- **What statements are made of.** -/
inductive Token where
  /-- What stands between quotes, escapes left as they are. -/
  | quoted (text : String)
  /-- A word. -/
  | word (text : String)
  /-- The arrow of an edge. -/
  | arrow
  /-- The beginning of a list of attributes. -/
  | opening
  /-- The end of a list of attributes. -/
  | closing
  /-- What stands between an attribute and its value. -/
  | equals
  /-- What stands between attributes. -/
  | comma
  /-- The end of a statement. -/
  | semicolon
  /-- The end of a graph. -/
  | ending
deriving DecidableEq, Repr

/-- Where the reader of characters is. -/
inductive Mode where
  /-- Between tokens. -/
  | between
  /-- In a word, behind the given characters. -/
  | word (text : List Char)
  /-- Between quotes, behind the given characters. -/
  | quoted (text : List Char)
  /-- Between quotes, behind a backslash that is the last of the given characters. -/
  | escaped (text : List Char)
  /-- Behind the first character of an arrow. -/
  | dash
deriving DecidableEq, Repr

/-- The mark that is one character. -/
def mark? : Char → Option Token
  | '[' => some .opening
  | ']' => some .closing
  | '=' => some .equals
  | ',' => some .comma
  | ';' => some .semicolon
  | '\x7d' => some .ending
  | _ => none

/-- What a character begins. -/
def start (c : Char) : Option (List Token × Mode) :=
  if c = ' ' ∨ c = '\n' then some ([], .between)
  else if c = '"' then some ([], .quoted [])
  else if c = '-' then some ([], .dash)
  else if c.isAlphanum then some ([], .word [c])
  else (mark? c).map fun t => ([t], .between)

/-- **One character is read**: the tokens that it completes, and where the reader is then. -/
def step : Mode → Char → Option (List Token × Mode)
  | .between, c => start c
  | .word text, c =>
    if c.isAlphanum then some ([], .word (text ++ [c]))
    else (start c).map fun p => (.word (String.ofList text) :: p.1, p.2)
  | .quoted text, c =>
    if c = '"' then some ([.quoted (String.ofList text)], .between)
    else if c = '\\' then some ([], .escaped (text ++ [c]))
    else some ([], .quoted (text ++ [c]))
  | .escaped text, c => some ([], .quoted (text ++ [c]))
  | .dash, c => if c = '>' then some ([.arrow], .between) else none

/-- **Characters are read** one after the other. -/
def run (m : Mode) : List Char → Option (List Token × Mode)
  | [] => some ([], m)
  | c :: cs => (step m c).bind fun p => (run p.2 cs).map fun q => (p.1 ++ q.1, q.2)

/-- **A text is read piece by piece.** -/
theorem run_append (m : Mode) (cs ds : List Char) : run m (cs ++ ds) =
    (run m cs).bind fun p => (run p.2 ds).map fun q => (p.1 ++ q.1, q.2) := by
  induction cs generalizing m with
  | nil => simp [run]
  | cons c cs ih =>
    rw [List.cons_append, run, run]
    cases step m c with
    | none => rfl
    | some p =>
      rw [Option.bind_some, Option.bind_some, ih]
      cases run p.2 cs with
      | none => rfl
      | some q => simp [Function.comp_def]

/-- **A text is read as tokens**, from between tokens to between tokens. -/
def Lexes (s : String) (ts : List Token) : Prop := run .between s.toList = some (ts, .between)

instance (s : String) (ts : List Token) : Decidable (Lexes s ts) :=
  inferInstanceAs (Decidable (_ = _))

theorem Lexes.append {s t : String} {ts us : List Token} (hs : Lexes s ts) (ht : Lexes t us) :
    Lexes (s ++ t) (ts ++ us) := by
  rw [Lexes] at *
  rw [String.toList_append, run_append, hs, Option.bind_some, ht]
  rfl

theorem Lexes.join {α : Type} {text : α → String} {tokens : α → List Token}
    (h : ∀ a, Lexes (text a) (tokens a)) (as : List α) :
    Lexes (String.join (as.map text)) (as.flatMap tokens) := by
  induction as with
  | nil => rfl
  | cons a as ih =>
    have hjoin : String.join ((a :: as).map text) = text a ++ String.join (as.map text) :=
      String.toList_injective (by simp [String.toList_join])
    rw [hjoin, List.flatMap_cons]
    exact (h a).append ih

/-- Between quotes an escaped text is read to the closing quote and no less. -/
theorem run_escaped (read cs : List Char) :
    run (.quoted read) (cs.flatMap escapeDotChar ++ ['"']) =
      some ([.quoted (String.ofList (read ++ cs.flatMap escapeDotChar))], .between) := by
  induction cs generalizing read with
  | nil => simp [run, step]
  | cons c cs ih =>
    rw [List.flatMap_cons, List.append_assoc, escapeDotChar]
    by_cases hbackslash : c = '\\'
    · subst hbackslash
      simp [run, step, ih]
    · by_cases hquote : c = '"'
      · subst hquote
        simp [run, step, ih]
      · simp [run, step, hbackslash, hquote, ih]

/-- **An id between quotes is one token**, whatever characters it has. -/
theorem lexes_quoteDot (s : String) : Lexes (quoteDot s) [.quoted (escapeDot s)] := by
  have hchars : (quoteDot s).toList = '"' :: (s.toList.flatMap escapeDotChar ++ ['"']) := by
    simp [quoteDot, escapeDot]
  rw [Lexes, hchars, run]
  show (some ([], Mode.quoted [])).bind _ = _
  rw [Option.bind_some, run_escaped]
  rfl

/-! ## Statements -/

/-- **A statement** with its attributes, names and values. -/
inductive Statement where
  /-- There is a node. -/
  | node (id : String) (attributes : List (String × String))
  /-- There is an edge. -/
  | edge (source target : String) (attributes : List (String × String))
deriving DecidableEq, Repr

/-- The text that a token stands for. -/
def Token.text? : Token → Option String
  | .quoted text => unescape text
  | .word text => some text
  | _ => none

/-- The attributes up to the end of their list. -/
def attributes? : List Token → Option (List (String × String))
  | [.word name, .equals, value, .closing] => value.text?.map fun text => [(name, text)]
  | .word name :: .equals :: value :: .comma :: rest =>
    value.text?.bind fun text => (attributes? rest).map ((name, text) :: ·)
  | _ => none

/-- The statement that tokens make up. -/
def statement? : List Token → Option Statement
  | .quoted id :: .opening :: rest =>
    (unescape id).bind fun id => (attributes? rest).map (.node id)
  | .quoted source :: .arrow :: .quoted target :: .opening :: rest =>
    (unescape source).bind fun source => (unescape target).bind fun target =>
      (attributes? rest).map (.edge source target)
  | _ => none

/-- The statements that tokens make up, each with a semicolon behind it, up to the end of the
graph. -/
def statements? (ts : List Token) : Option (List Statement) :=
  let pieces := ts.splitOn .semicolon
  if pieces.getLast? = some [.ending] then pieces.dropLast.mapM statement? else none

/-- **The statements of a drawing** behind its header. -/
def read (s : String) : Option (List Statement) :=
  (Text.afterStart? Graph.drawingHeader s).bind fun body =>
    match run .between body.toList with
    | some (ts, .between) => statements? ts
    | _ => none

/-- Pieces that end in a separator are told by it. -/
theorem splitOn_flatMap_concat {α : Type} [DecidableEq α] {c : α} {pieces : List (List α)}
    {last : List α} (hpieces : ∀ p ∈ pieces, c ∉ p) (hlast : c ∉ last) :
    (pieces.flatMap (· ++ [c]) ++ last).splitOn c = pieces ++ [last] := by
  induction pieces with
  | nil => exact List.splitOn_eq_singleton hlast
  | cons p pieces ih =>
    obtain ⟨hp, hpieces⟩ := List.forall_mem_cons.mp hpieces
    rw [List.flatMap_cons, List.append_assoc, List.append_assoc, List.singleton_append,
      List.splitOn_append_cons_self, List.splitOn_eq_singleton hp, ih hpieces]
    rfl

/-- **Statements are read one by one.** -/
theorem statements?_eq_mapM {pieces : List (List Token)} (h : ∀ p ∈ pieces, .semicolon ∉ p) :
    statements? (pieces.flatMap (· ++ [.semicolon]) ++ [.ending]) = pieces.mapM statement? := by
  rw [statements?, splitOn_flatMap_concat h (by decide)]
  simp

theorem mapM_statement? {α : Type} {tokens : α → List Token} {statement : α → Statement}
    (h : ∀ a, statement? (tokens a) = some (statement a)) (as : List α) :
    (as.map tokens).mapM statement? = some (as.map statement) := by
  induction as with
  | nil => rfl
  | cons a as ih => simp [List.mapM_cons, h, ih]

end CsdlAudit.Dot

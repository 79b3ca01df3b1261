/-
  File:      Nullgate/Lib/Shell.lean
  Subject:   HOW A POSIX SHELL READS A SCRIPT: token recognition, quotes, simple commands.

  The reader goes character by character: blanks and newlines end a word, quotes and the backslash
  take the meaning of what follows away, a comment runs to the end of its line. What a quote leaves
  unread (an expansion, an unterminated quote, a NUL) is not modelled and gives no tokens.

  * `Mode`, `next`, `lex` -- the reader, and the tokens of a text;
  * `commands` -- the simple commands of a script, as their words behind quote removal;
  * `lex_single`, `lex_escape`: what stands between single quotes or behind a backslash is literal;
  * `commands_line`: one line of quoted words is one simple command.
-/
import Mathlib.Data.List.Basic

namespace Nullgate.Lib.Shell

/-! ## 1. Tokens -/

/-- A character of a word, and whether it was quoted. -/
structure Glyph where
  char : Char
  quoted : Bool
  deriving DecidableEq

inductive Token where
  | word (w : List Glyph)
  /-- a control or redirection operator, character by character -/
  | operator (c : Char)
  | newline
  deriving DecidableEq

/-- Where the reader is; `w` is the word so far, if there is one. -/
inductive Mode where
  | plain (w : Option (List Glyph))
  /-- behind a backslash -/
  | escape (w : Option (List Glyph))
  /-- between single quotes -/
  | single (w : List Glyph)
  /-- between double quotes -/
  | double (w : List Glyph)
  /-- behind a backslash between double quotes -/
  | doubleEscape (w : List Glyph)
  | comment
  deriving DecidableEq

/-- The word that ends here. -/
def ended : Option (List Glyph) → List Token
  | some w => [.word w]
  | none => []

/-- The word with one more character. -/
def grown (w : Option (List Glyph)) (c : Char) (quoted : Bool) : List Glyph :=
  w.getD [] ++ [⟨c, quoted⟩]

def operators : List Char := ['&', '|', ';', '<', '>', '(', ')']

/-- An unquoted character. -/
def nextPlain (w : Option (List Glyph)) (c : Char) : Option (List Token × Mode) :=
  if c = '\n' then some (ended w ++ [.newline], .plain none)
  else if c = ' ' ∨ c = '\t' then some (ended w, .plain none)
  else if c ∈ operators then some (ended w ++ [.operator c], .plain none)
  else if c = '#' ∧ w = none then some ([], .comment)
  else if c = '\'' then some ([], .single (w.getD []))
  else if c = '"' then some ([], .double (w.getD []))
  else if c = '\\' then some ([], .escape w)
  -- a parameter expansion, a command substitution
  else if c = '$' ∨ c = '`' then none
  else some ([], .plain (some (grown w c false)))

/-- **One character**: the tokens it ends, and where the reader is then. -/
def next (m : Mode) (c : Char) : Option (List Token × Mode) :=
  if c = Char.ofNat 0 then none
  else match m with
    | .plain w => nextPlain w c
    -- a backslash and a newline are no characters at all
    | .escape w => some ([], .plain (if c = '\n' then w else some (grown w c true)))
    | .single w => some ([], if c = '\'' then .plain (some w) else .single (grown (some w) c true))
    | .double w =>
      if c = '"' then some ([], .plain (some w))
      else if c = '\\' then some ([], .doubleEscape w)
      else if c = '$' ∨ c = '`' then none
      else some ([], .double (grown (some w) c true))
    | .doubleEscape w =>
      if c = '\n' then some ([], .double w)
      else if c ∈ ['$', '`', '"', '\\'] then some ([], .double (grown (some w) c true))
      else some ([], .double (w ++ [⟨'\\', true⟩, ⟨c, true⟩]))
    | .comment => some (if c = '\n' then ([.newline], .plain none) else ([], .comment))

/-- The tokens of a text, from where the reader is. -/
def lex : Mode → List Char → Option (List Token)
  | .plain w, [] => some (ended w)
  | .comment, [] => some []
  | _, [] => none
  | m, c :: s =>
    match next m c with
    | some (tokens, m') => (lex m' s).map (tokens ++ ·)
    | none => none

/-! ## 2. Commands -/

/-- Not the beginning of a pathname or tilde expansion, or of an assignment. -/
def Glyph.Plain (g : Glyph) : Prop := g.quoted = true ∨ g.char ∉ ['*', '?', '[', '~', '=']

instance Glyph.decidablePlain (g : Glyph) : Decidable g.Plain :=
  inferInstanceAs (Decidable (_ ∨ _))

/-- The words that are no command names unless quoted. -/
def reserved : List String :=
  ["if", "then", "else", "elif", "fi", "do", "done", "case", "esac", "while", "until", "for", "in",
    "\x7b", "\x7d", "!"]

/-- An unquoted reserved word. -/
def isReserved (w : List Glyph) : Bool :=
  w.all (!·.quoted) && reserved.contains (String.ofList (w.map Glyph.char))

/-- The words of a line, if it has no operator. -/
def wordsOf : List Token → Option (List (List Glyph))
  | [] => some []
  | .word w :: line => (wordsOf line).map (w :: ·)
  | _ :: _ => none

/-- **A simple command**: plain words, the first of them not reserved, with their quotes removed. -/
def simpleCommand (line : List Token) : Option (List (List Char)) :=
  match wordsOf line with
  | some words =>
    if (∀ w ∈ words, ∀ g ∈ w, g.Plain) ∧ (words.head?.map isReserved).getD false = false then
      some (words.map fun w => w.map Glyph.char)
    else none
  | none => none

/-- **The simple commands of a script**, line by line. -/
def commands (script : List Char) : Option (List (List (List Char))) :=
  match lex (.plain none) script with
  | some tokens => ((tokens.splitOn .newline).filter (· ≠ [])).mapM simpleCommand
  | none => none

/-! ## 3. What is quoted -/

variable {w : Option (List Glyph)} {v : List Glyph} {s rest : List Char}

/-- A text, quoted. -/
def quotedWord (s : List Char) : List Glyph := s.map fun c => ⟨c, true⟩

theorem lex_cons {m m' : Mode} {c : Char} {tokens : List Token} (h : next m c = some (tokens, m')) :
    lex m (c :: s) = (lex m' s).map (tokens ++ ·) := by
  cases m <;> rw [lex, h]

/-- One character that ends nothing. -/
theorem lex_cons_nil {m m' : Mode} {c : Char} (h : next m c = some ([], m')) :
    lex m (c :: s) = lex m' s := by
  rw [lex_cons h]
  cases lex m' s <;> rfl

/-- **Between single quotes everything is literal.** -/
theorem lex_single (hnul : Char.ofNat 0 ∉ s) (hquote : '\'' ∉ s) :
    lex (.single v) (s ++ rest) = lex (.single (v ++ quotedWord s)) rest := by
  induction s generalizing v with
  | nil => rw [quotedWord, List.map_nil, List.append_nil, List.nil_append]
  | cons c s ih =>
    rw [List.mem_cons, not_or] at hnul hquote
    have hnext : next (.single v) c = some ([], .single (v ++ [⟨c, true⟩])) := by
      rw [next, if_neg (Ne.symm hnul.1)]
      simp only [if_neg (Ne.symm hquote.1)]
      rfl
    rw [List.cons_append, lex_cons_nil hnext, ih hnul.2 hquote.2, List.append_assoc]
    rfl

/-- A single quote opens a quoted text, -/
theorem next_open (w : Option (List Glyph)) :
    next (.plain w) '\'' = some ([], .single (w.getD [])) := by
  cases w <;> rfl

/-- and closes it. -/
theorem next_close (v : List Glyph) : next (.single v) '\'' = some ([], .plain (some v)) := rfl

/-- **Behind a backslash a character is literal.** -/
theorem lex_escape {c : Char} (hnul : c ≠ Char.ofNat 0) (hnewline : c ≠ '\n') :
    lex (.plain w) ('\\' :: c :: rest) = lex (.plain (some (grown w c true))) rest := by
  have hback : next (.plain w) '\\' = some ([], .escape w) := by cases w <;> rfl
  have hnext : next (.escape w) c = some ([], .plain (some (grown w c true))) := by
    rw [next, if_neg hnul]
    simp only [if_neg hnewline]
  rw [lex_cons_nil hback, lex_cons_nil hnext]

/-- A blank ends a word. -/
theorem lex_blank : lex (.plain (some v)) (' ' :: rest) =
    (lex (.plain none) rest).map (.word v :: ·) := by
  have hnext : next (.plain (some v)) ' ' = some ([.word v], .plain none) := rfl
  exact lex_cons hnext

/-- A comment on the first line. -/
theorem lex_comment (hnul : Char.ofNat 0 ∉ s) (hline : '\n' ∉ s) :
    lex .comment (s ++ '\n' :: rest) = (lex (.plain none) rest).map (.newline :: ·) := by
  induction s with
  | nil =>
    have hnext : next .comment '\n' = some ([.newline], .plain none) := rfl
    exact lex_cons hnext
  | cons c s ih =>
    rw [List.mem_cons, not_or] at hnul hline
    have hnext : next .comment c = some ([], .comment) := by
      rw [next, if_neg (Ne.symm hnul.1)]
      simp only [if_neg (Ne.symm hline.1)]
    rw [List.cons_append, lex_cons_nil hnext, ih hnul.2 hline.2]

/-! ## 4. One line -/

theorem wordsOf_words (words : List (List Glyph)) : wordsOf (words.map .word) = some words := by
  induction words with
  | nil => rfl
  | cons w words ih => rw [List.map_cons, wordsOf, ih, Option.map_some]

theorem char_quotedWord (s : List Char) : (quotedWord s).map Glyph.char = s := by
  rw [quotedWord, List.map_map]
  exact List.map_id s

/-- A quoted word is no reserved word, as the empty word is none. -/
theorem isReserved_quotedWord (s : List Char) : isReserved (quotedWord s) = false := by
  cases s with
  | nil => decide
  | cons c s => rfl

/-- **Quoted words are one simple command**, whatever they are. -/
theorem simpleCommand_quoted (words : List (List Char)) :
    simpleCommand ((words.map quotedWord).map .word) = some words := by
  rw [simpleCommand, wordsOf_words]
  dsimp only
  rw [if_pos, List.map_map]
  · congr 1
    exact (List.map_congr_left fun s _ => char_quotedWord s).trans (List.map_id words)
  · refine ⟨fun w hw g hg => ?_, ?_⟩
    · obtain ⟨s, -, rfl⟩ := List.mem_map.mp hw
      obtain ⟨c, -, rfl⟩ := List.mem_map.mp hg
      exact Or.inl rfl
    · cases words with
      | nil => rfl
      | cons s words => exact isReserved_quotedWord s

/-- **A script with one line of quoted words**, behind an empty one. -/
theorem commands_line {script : List Char} {words : List (List Char)} (hne : words ≠ [])
    (hlex : lex (.plain none) script =
      some (.newline :: (words.map quotedWord).map .word ++ [.newline])) :
    commands script = some [words] := by
  have hsplit : (Token.newline :: (words.map quotedWord).map Token.word ++
      [Token.newline]).splitOn Token.newline = [[], (words.map quotedWord).map .word, []] := by
    have hjoin : Token.newline :: (words.map quotedWord).map Token.word ++ [Token.newline] =
        [Token.newline].intercalate [[], (words.map quotedWord).map .word, []] := by
      simp [List.intercalate]
    rw [hjoin]
    refine List.splitOn_intercalate _ ?_ ?_
    · intro l hl hmem
      rcases List.mem_cons.mp hl with rfl | hl
      · cases hmem
      rcases List.mem_cons.mp hl with rfl | hl
      · obtain ⟨w, -, hw⟩ := List.mem_map.mp hmem
        cases hw
      rw [List.mem_singleton.mp hl] at hmem
      cases hmem
    · exact List.cons_ne_nil _ _
  have hline : (words.map quotedWord).map Token.word ≠ [] := by
    simpa using hne
  rw [commands, hlex]
  dsimp only
  rw [hsplit, List.filter_cons_of_neg (by simp), List.filter_cons_of_pos (by simpa using hline),
    List.filter_cons_of_neg (by simp), List.filter_nil]
  simp only [List.mapM_cons, List.mapM_nil, simpleCommand_quoted]
  rfl

end Nullgate.Lib.Shell

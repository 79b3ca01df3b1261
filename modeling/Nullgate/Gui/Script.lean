/-
  File:      Nullgate/Gui/Script.lean
  Subject:   THE TERMINAL SCRIPT (`spawn_in_terminal` on macOS): the one place where text reaches
             a shell.

  * `shQuote`, `script` -- a token between single quotes, and the script of an argv;
  * `lex_shQuote`: the shell reads a quoted token as that token;
  * `tokenize_commandLine`: words between double quotes are split into themselves;
  * **`script_is_one_command`**: the script is one simple command, the argv; and with `tokenize`
    in front a list of words comes back.
-/
import Nullgate.Gui.Actions
import Nullgate.Lib.Shell

namespace Nullgate

open Nullgate.Lib Nullgate.Lib.Shell

/-! ## 1. The script -/

/-- POSIX single-quoting: a quote inside is closed, escaped, and reopened. -/
def shQuote (s : List Char) : List Char :=
  '\'' :: (s.flatMap fun c => if c = '\'' then ['\'', '\\', '\'', '\''] else [c]) ++ ['\'']

/-- **The script of an argv**, every token quoted. -/
def script (program : String) (args : List String) : List Char :=
  args.foldl (fun script a => script ++ ' ' :: shQuote a.toList)
    ("#!/bin/sh\n".toList ++ shQuote program.toList) ++ ['\n']

/-- A text the shell can be given. -/
def NoNul (s : List Char) : Prop := Char.ofNat 0 ∉ s

instance decidableNoNul (s : List Char) : Decidable (NoNul s) :=
  inferInstanceAs (Decidable (¬ _))

theorem NoNul.cons {c : Char} {s : List Char} (h : NoNul (c :: s)) :
    c ≠ Char.ofNat 0 ∧ NoNul s := by
  rw [NoNul, List.mem_cons, not_or] at h
  exact ⟨Ne.symm h.1, h.2⟩

/-! ## 2. What the shell reads -/

/-- Between the quotes: what is escaped is read as the text. -/
theorem lex_escaped {s : List Char} (hnul : NoNul s) (v : List Glyph) (rest : List Char) :
    lex (.single v) (s.flatMap (fun c => if c = '\'' then ['\'', '\\', '\'', '\''] else [c]) ++
      '\'' :: rest) = lex (.plain (some (v ++ quotedWord s))) rest := by
  induction s generalizing v with
  | nil =>
    rw [List.flatMap_nil, List.nil_append, lex_cons_nil (next_close v), quotedWord, List.map_nil,
      List.append_nil]
  | cons c s ih =>
    obtain ⟨hc, htail⟩ := hnul.cons
    have hword : v ++ quotedWord (c :: s) = (v ++ [⟨c, true⟩]) ++ quotedWord s := by
      rw [List.append_assoc]
      rfl
    rw [List.flatMap_cons, List.append_assoc, hword]
    by_cases hquote : c = '\''
    · -- close, escape, reopen
      subst hquote
      rw [if_pos rfl]
      simp only [List.cons_append, List.nil_append]
      rw [lex_cons_nil (next_close v), lex_escape (by decide) (by decide),
        lex_cons_nil (next_open _)]
      exact ih htail _
    · rw [if_neg hquote, lex_single (s := [c])]
      · exact ih htail _
      · simpa [eq_comm] using hc
      · simpa [eq_comm] using hquote

/-- **The shell reads a quoted token as that token.** -/
theorem lex_shQuote {s : List Char} (hnul : NoNul s) (rest : List Char) :
    lex (.plain none) (shQuote s ++ rest) = lex (.plain (some (quotedWord s))) rest := by
  rw [shQuote, List.cons_append, List.cons_append, lex_cons_nil (next_open none),
    List.append_assoc, List.singleton_append, lex_escaped hnul]
  rfl

/-- The arguments behind the first word, and the newline. -/
theorem lex_args {args : List String} (hnul : ∀ a ∈ args, NoNul a.toList) (v : List Glyph) :
    lex (.plain (some v)) (args.flatMap (fun a => ' ' :: shQuote a.toList) ++ ['\n']) =
      some (.word v :: (args.map fun a => .word (quotedWord a.toList)) ++ [.newline]) := by
  induction args generalizing v with
  | nil => rfl
  | cons a args ih =>
    rw [List.flatMap_cons, List.append_assoc, List.cons_append, lex_blank,
      lex_shQuote (hnul a List.mem_cons_self), ih fun b hb => hnul b (List.mem_cons_of_mem _ hb)]
    rfl

theorem script_eq (program : String) (args : List String) :
    script program args = "#!/bin/sh\n".toList ++ (shQuote program.toList ++
      (args.flatMap (fun a => ' ' :: shQuote a.toList) ++ ['\n'])) := by
  have hfold : ∀ before : List Char,
      args.foldl (fun script a => script ++ ' ' :: shQuote a.toList) before =
        before ++ args.flatMap fun a => ' ' :: shQuote a.toList := by
    induction args with
    | nil => exact fun before => (List.append_nil before).symm
    | cons a args ih =>
      intro before
      rw [List.foldl_cons, ih, List.flatMap_cons, List.append_assoc]
  rw [script, hfold]
  simp only [List.append_assoc]

/-- **The script is one simple command**: the argv. -/
theorem commands_script {program : String} {args : List String} (hprogram : NoNul program.toList)
    (hargs : ∀ a ∈ args, NoNul a.toList) :
    commands (script program args) = some [(program :: args).map String.toList] := by
  refine commands_line (by simp) ?_
  rw [script_eq]
  have hfirst : "#!/bin/sh\n".toList = '#' :: ("!/bin/sh".toList ++ ['\n']) := by decide
  have hcomment : next (.plain none) '#' = some ([], .comment) := rfl
  rw [hfirst, List.cons_append, List.append_assoc, lex_cons_nil hcomment, List.singleton_append,
    lex_comment (by decide) (by decide), lex_shQuote hprogram, lex_args hargs]
  simp

/-! ## 3. With the split in front -/

/-- Words between double quotes, joined with blanks. -/
def commandLine (words : List String) : List Char :=
  [' '].intercalate (words.map fun a => '"' :: a.toList ++ ['"'])

/-- Up to the closing quote everything belongs to the token. -/
theorem tokenizeLoop_quoted {a : List Char} (hquote : '"' ∉ a) (cur : List Char) (started : Bool)
    (rest : List Char) :
    tokenizeLoop cur true started (a ++ '"' :: rest) = tokenizeLoop (cur ++ a) false true rest := by
  induction a generalizing cur started with
  | nil =>
    rw [List.nil_append, tokenizeLoop, if_pos rfl, List.append_nil]
    rfl
  | cons c a ih =>
    rw [List.mem_cons, not_or] at hquote
    rw [List.cons_append, tokenizeLoop, if_neg (Ne.symm hquote.1), if_neg (by simp), ih hquote.2,
      List.append_assoc]
    rfl

theorem tokenizeLoop_word {a : List Char} (hquote : '"' ∉ a) (rest : List Char) :
    tokenizeLoop [] false false ('"' :: a ++ '"' :: rest) = tokenizeLoop a false true rest := by
  rw [List.cons_append, tokenizeLoop, if_pos rfl]
  exact tokenizeLoop_quoted hquote [] true rest

/-- **Words between double quotes are split into themselves.** -/
theorem tokenize_commandLine {words : List String} (hquote : ∀ a ∈ words, '"' ∉ a.toList) :
    tokenize (String.ofList (commandLine words)) = words := by
  have hloop : tokenizeLoop [] false false (commandLine words) = words.map String.toList := by
    induction words with
    | nil => rfl
    | cons a words ih =>
      have ha := hquote a List.mem_cons_self
      have htail := ih fun b hb => hquote b (List.mem_cons_of_mem _ hb)
      cases words with
      | nil =>
        have hline : commandLine [a] = '"' :: a.toList ++ '"' :: [] := by
          simp [commandLine, List.intercalate]
        rw [hline, tokenizeLoop_word ha]
        rfl
      | cons b words =>
        have hline : commandLine (a :: b :: words) =
            '"' :: a.toList ++ '"' :: ' ' :: commandLine (b :: words) := by
          simp [commandLine, List.intercalate]
        have hblank : isWhitespace ' ' = true := by decide
        rw [hline, tokenizeLoop_word ha, tokenizeLoop, if_neg (by decide), hblank]
        exact congrArg (a.toList :: ·) htail
  rw [tokenize, String.toList_ofList, hloop, List.map_map]
  exact (List.map_congr_left fun a _ => String.ofList_toList).trans (List.map_id words)

/-- **The terminal script cannot be escaped.** (1) For every program and arguments it is one simple
    command, whose words are these. (2) A list of words without double quotes, each put between
    double quotes, joined, split, quoted and read by the shell, comes back. -/
theorem script_is_one_command :
    (∀ (program : String) (args : List String), NoNul program.toList →
      (∀ a ∈ args, NoNul a.toList) →
      commands (script program args) = some [(program :: args).map String.toList]) ∧
    ∀ words : List String, (∀ a ∈ words, '"' ∉ a.toList) → (∀ a ∈ words, NoNul a.toList) →
      tokenize (String.ofList (commandLine words)) = words ∧
      ∀ program args, tokenize (String.ofList (commandLine words)) = program :: args →
        commands (script program args) = some [words.map String.toList] := by
  refine ⟨fun program args => commands_script, fun words hquote hnul => ?_⟩
  have hback := tokenize_commandLine hquote
  refine ⟨hback, fun program args hargv => ?_⟩
  obtain rfl : words = program :: args := hback.symm.trans hargv
  exact commands_script (hnul program List.mem_cons_self)
    fun a ha => hnul a (List.mem_cons_of_mem _ ha)

/-- Quotes, a command substitution, a separator and a comment sign stay where they are. -/
theorem script_is_one_command_hostile :
    commands (script "echo" ["it's", "$(id); #\n"]) =
      some [["echo", "it's", "$(id); #\n"].map String.toList] ∧
    tokenize (String.ofList (commandLine ["my tool", "it's", ""])) = ["my tool", "it's", ""] ∧
    commands (script "my tool" ["it's", ""]) =
      some [["my tool", "it's", ""].map String.toList] := by
  obtain ⟨hscript, hwords⟩ := script_is_one_command
  obtain ⟨hback, hread⟩ := hwords ["my tool", "it's", ""] (by decide) (by decide)
  exact ⟨hscript "echo" ["it's", "$(id); #\n"] (by decide) (by decide), hback,
    hread _ _ hback⟩

end Nullgate

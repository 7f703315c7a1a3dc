import Flightdeck.Foundation.Unicode

/-!
# Shell scripts

The part of the POSIX shell's language that plain launcher scripts are written in: comments, words
of ordinary and quoted characters, and the positional parameters as a word of their own.  A script
with anything else in it is not read.
-/

namespace Foundation.Shell

inductive Word where
  | text (characters : List Char)
  /-- the positional parameters, each a word -/
  | parameters
  deriving DecidableEq

inductive Mode where
  | plain
  | comment
  /-- after a backslash -/
  | escaped
  /-- between single quotes -/
  | single
  /-- in the positional parameters, with what is still to come of them -/
  | parameters (rest : List Char)
  /-- after the positional parameters: the word ends here -/
  | closed
  deriving DecidableEq

structure Reader where
  mode : Mode := .plain
  /-- the word that has begun -/
  word : Option Word := none
  words : List Word := []
  commands : List (List Word) := []
  deriving DecidableEq

def isOrdinary (c : Char) : Bool := c.isAlphanum || c = '/' || c = '.' || c = '_' || c = '-'

def Reader.endWord (reader : Reader) : Reader :=
  { reader with mode := .plain, word := none, words := reader.words ++ reader.word.toList }

def Reader.endCommand (reader : Reader) : Reader :=
  let reader := reader.endWord
  if reader.words = [] then reader
  else { reader with words := [], commands := reader.commands ++ [reader.words] }

/-- One more character of the word that has begun. -/
def Reader.add (reader : Reader) (mode : Mode) (characters : List Char) : Option Reader :=
  match reader.word with
  | none => some { reader with mode, word := some (.text characters) }
  | some (.text before) => some { reader with mode, word := some (.text (before ++ characters)) }
  | some .parameters => none

/-- What ends a word. -/
def Reader.separator (reader : Reader) (c : Char) : Option Reader :=
  if c = '\n' then some reader.endCommand
  else if c = ' ' ∨ c = '\t' then some reader.endWord
  else none

def Reader.step (reader : Reader) (c : Char) : Option Reader :=
  match reader.mode with
  | .comment => if c = '\n' then some reader.endCommand else some reader
  | .escaped => if c = '\n' then some { reader with mode := .plain } else reader.add .plain [c]
  | .single => if c.toNat = 39 then some { reader with mode := .plain } else reader.add .single [c]
  | .parameters [] => if c = '"' then some { reader with mode := .closed } else none
  | .parameters (next :: rest) =>
    if c = next then some { reader with mode := .parameters rest } else none
  | .closed => reader.separator c
  | .plain =>
    if c.toNat = 39 then reader.add .single []
    else if c = '\\' then some { reader with mode := .escaped }
    else if c = '#' ∧ reader.word = none then some { reader with mode := .comment }
    else if c = '"' ∧ reader.word = none then
      some { reader with mode := .parameters ['$', '@'], word := some .parameters }
    else if isOrdinary c then reader.add .plain [c]
    else reader.separator c

def Reader.run (reader : Reader) (text : List Char) : Option Reader :=
  text.foldlM Reader.step reader

/-- The commands of a script. -/
def commands (script : List Char) : Option (List (List Word)) := do
  let reader ← Reader.run {} script
  match reader.mode with
  | .plain | .comment | .closed => some reader.endCommand.commands
  | _ => none

def expand (parameters : List (List Char)) : Word → List (List Char)
  | .text characters => [characters]
  | .parameters => parameters

/-- The program that takes the place of the shell with its arguments, if `exec` is the first
command. -/
def executed (script : List UInt8) (parameters : List (List Char)) : Option (List (List Char)) := do
  let first :: _ ← commands (← utf8Chars script) | none
  match first.flatMap (expand parameters) with
  | name :: program :: arguments =>
    if name = "exec".toList then some (program :: arguments) else none
  | _ => none

/-! ## Quoting -/

/-- A character between single quotes. -/
def quoteChar (c : Char) : List Char := if c.toNat = 39 then "'\\''".toList else [c]

/-- A text as a word. -/
def quote (text : List Char) : List Char := "'".toList ++ text.flatMap quoteChar ++ "'".toList

theorem run_append (reader : Reader) (a b : List Char) :
    reader.run (a ++ b) = (reader.run a).bind fun next => next.run b := by
  unfold Reader.run
  rw [List.foldlM_append]
  rfl

/-- Between the quotes each character stands for itself. -/
theorem run_quoteChar (words : List Word) (commands : List (List Word)) (c : Char)
    (before : List Char) :
    Reader.run ⟨.single, some (.text before), words, commands⟩ (quoteChar c) =
      some ⟨.single, some (.text (before ++ [c])), words, commands⟩ := by
  unfold quoteChar
  by_cases apostrophe : c.toNat = 39
  · rw [if_pos apostrophe]
    have same : c = Char.ofNat 39 := by
      rw [← apostrophe, Char.ofNat_toNat]
    subst same
    simp [Reader.run, Reader.step, Reader.add]
  · rw [if_neg apostrophe]
    simp [Reader.run, Reader.step, Reader.add, apostrophe]

theorem run_quoteChars (words : List Word) (commands : List (List Word)) (text before : List Char) :
    Reader.run ⟨.single, some (.text before), words, commands⟩ (text.flatMap quoteChar) =
      some ⟨.single, some (.text (before ++ text)), words, commands⟩ := by
  induction text generalizing before with
  | nil => simp [Reader.run]
  | cons c text ih =>
    rw [List.flatMap_cons, run_append, run_quoteChar, Option.bind_some, ih]
    simp

/-- A quoted text is one word. -/
theorem run_quote (words : List Word) (commands : List (List Word)) (text : List Char) :
    Reader.run ⟨.plain, none, words, commands⟩ (quote text) =
      some ⟨.plain, some (.text text), words, commands⟩ := by
  have opened : Reader.run ⟨.plain, none, words, commands⟩ "'".toList =
      some ⟨.single, some (.text []), words, commands⟩ := rfl
  unfold quote
  rw [run_append, run_append, opened, Option.bind_some, run_quoteChars, Option.bind_some,
    List.nil_append]
  rfl

/-- A word that has begun ends at a blank. -/
theorem run_blank (words : List Word) (commands : List (List Word)) (word : Word) :
    Reader.run ⟨.plain, some word, words, commands⟩ " ".toList =
      some ⟨.plain, none, words ++ [word], commands⟩ := by
  cases word with
  | text characters => rfl
  | parameters => rfl

/-- The positional parameters end a command and the script. -/
theorem run_parameters (words : List Word) (commands : List (List Word)) :
    Reader.run ⟨.plain, none, words, commands⟩ "\"$@\"\n".toList =
      some ⟨.plain, none, [], commands ++ [words ++ [.parameters]]⟩ := by
  simp [Reader.run, Reader.step, Reader.separator, Reader.endCommand, Reader.endWord]

end Foundation.Shell

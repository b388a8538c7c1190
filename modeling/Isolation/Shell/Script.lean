import Isolation.Text.Fields
import Isolation.Text.Octets

/-!
# Shell scripts

Scripts in the language of the POSIX shell, as trees. A command is made of words, and a word of
parts: texts, and expansions that are carried out when the word is used. The two are defined
together, because the output of a command may be part of a word.

All texts are byte texts. The body of a here-document stands after the line that asks for it, so
that a redirection only has its number, and the bodies are kept beside the commands.
-/

namespace Isolation.Shell

mutual

/-- A part of a word. What is quoted is neither split into fields nor read as a pattern. -/
inductive Part where
  | text (s : String) (quoted : Bool)
  | parameter (name : String) (use : Use) (quoted : Bool)
  /-- A use of a parameter that there is not. -/
  | malformed
  /-- What commands write, without the line ends behind it. -/
  | output (c : Command) (quoted : Bool)
  /-- The value of an arithmetic expression. -/
  | arithmetic (expression : List Part) (quoted : Bool)

/-- What is made of the value of a parameter. Where `ifEmpty` is set, an empty value counts as
    none. -/
inductive Use where
  | value
  /-- The value with a word behind it, and nothing more of the word that both stand in. -/
  | final (w : List Part)
  /-- The number of its bytes. -/
  | length
  /-- A word in the place of no value. -/
  | orElse (ifEmpty : Bool) (w : List Part)
  /-- A word in the place of no value, which becomes the value. -/
  | orSet (ifEmpty : Bool) (w : List Part)
  /-- A complaint in the place of no value. -/
  | orFail (ifEmpty : Bool) (w : List Part)
  /-- A word in the place of a value. -/
  | instead (ifEmpty : Bool) (w : List Part)
  /-- The value without the shortest or longest beginning that a pattern stands for. -/
  | dropFront (longest : Bool) (w : List Part)
  /-- The value without the shortest or longest ending that a pattern stands for. -/
  | dropBack (longest : Bool) (w : List Part)

/-- A redirection of a descriptor. -/
inductive Redirection where
  | read (descriptor : Nat) (w : List Part)
  | write (descriptor : Nat) (w : List Part)
  /-- Write even if the option that forbids it for files that are there is set. -/
  | overwrite (descriptor : Nat) (w : List Part)
  | append (descriptor : Nat) (w : List Part)
  | readWrite (descriptor : Nat) (w : List Part)
  /-- Make a descriptor what another is, or close it. -/
  | duplicate (descriptor : Nat) (w : List Part)
  /-- Read from the here-document of a number. -/
  | document (descriptor : Nat) (number : Nat)

/-- A command. Lines are those of the text that it was read from. -/
inductive Command where
  /-- Assignments, words and redirections. -/
  | simple (line : Nat) (assignments words : List (List Part)) (redirections : List Redirection)
  /-- A command that is not simple, with its descriptors redirected. -/
  | redirected (line : Nat) (c : Command) (redirections : List Redirection)
  | pipe (cs : List Command)
  | not (c : Command)
  | and (a b : Command)
  | or (a b : Command)
  | sequence (cs : List Command)
  | background (c : Command)
  | subshell (line : Nat) (c : Command)
  | branch (condition yes no : Command)
  /-- Run a body while a condition holds, or until it does. -/
  | loop (untilHolds : Bool) (condition body : Command)
  /-- Run a body for each of some words, or for each argument. -/
  | each (line : Nat) (name : String) (items : Option (List (List Part))) (body : Command)
  /-- Run the first branch with a pattern that stands for a word. -/
  | choice (line : Nat) (w : List Part) (branches : List (List (List Part) × Command))
  | define (name : String) (body : Command)

end

/-- A word of a script. -/
abbrev Word := List Part

/-- The command that does nothing, and does it well. -/
def Command.skip : Command := .sequence []

instance : Inhabited Command := ⟨.skip⟩

namespace Word

/-- The text of a word without quotes and expansions. -/
def bare? : Word → Option String
  | [.text s false] => some s
  | _ => none

end Word

/-! ## Names -/

/-- A character that may begin the name of a variable. -/
def isNameStart (c : Char) : Bool := c.isAlpha || c == '_'

/-- A character that may stand in the name of a variable. -/
def isNameChar (c : Char) : Bool := c.isAlphanum || c == '_'

/-- Whether a text is the name of a variable. -/
def isName (s : String) : Bool :=
  match s.toList with
  | [] => false
  | c :: r => isNameStart c && r.all isNameChar

/-- The name and the value of a text that assigns. -/
def assignmentText? (s : String) : Option (String × String) :=
  match Text.cut? ['='] s.toList with
  | some (name, value) =>
    if isName (String.ofList name) then some (String.ofList name, String.ofList value) else none
  | none => none

/-- The name and the value of a word that assigns. -/
def Word.assignment? : Word → Option (String × Word)
  | .text s false :: parts =>
    (assignmentText? s).map fun p =>
      (p.1, if p.2 = "" then parts else .text p.2 false :: parts)
  | _ => none

/-- A parameter that is one special character. -/
def isSpecial (c : Char) : Bool :=
  c == '@' || c == '*' || c == '#' || c == '?' || c == '-' || c == '$' || c == '!'

/-- The reserved words. -/
def keywords : List String :=
  ["!", "\x7b", "\x7d", "case", "do", "done", "elif", "else", "esac", "fi", "for", "if", "in",
    "then", "until", "while"]

/-- The commands of the shell that cannot be defined anew. -/
def specials : List String :=
  [".", ":", "break", "continue", "eval", "exec", "exit", "export", "local", "readonly", "return",
    "set", "shift", "times", "trap", "unset"]

end Isolation.Shell

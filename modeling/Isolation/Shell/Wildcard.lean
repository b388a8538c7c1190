import Isolation.Shell.Script
import Isolation.Text.Charset

/-!
# Wildcards

Patterns of the shell: a star stands for any text, a question mark for any one byte, and brackets
for one byte among some. Quotes take the meaning of all of these away, so that a pattern is made of
characters of which it is known whether they are quoted.

A pattern is matched by the list of what may be left of a text behind it, longest first; every rest
is kept once.
-/

namespace Isolation.Shell

/-- A character of an expanded word, and whether it is quoted. -/
structure Letter where
  char : Char
  quoted : Bool
deriving DecidableEq, Repr

/-- The text of some letters. -/
def textOfLetters (ls : List Letter) : String := String.ofList (ls.map Letter.char)

/-- A part of a pattern. -/
inductive Wild where
  | this (c : Char)
  | one
  | many
  | among (negated : Bool) (members : List Text.Member)

namespace Wild

/-- The name of a class behind its opening, and what follows its closing. -/
def className? : List Letter → Option (String × List Letter)
  | ⟨'[', false⟩ :: ⟨':', _⟩ :: r =>
    let name := (r.map Letter.char).takeWhile Char.isAlpha
    match r.drop name.length with
    | ⟨':', _⟩ :: ⟨']', _⟩ :: rest => some (String.ofList name, rest)
    | _ => none
  | _ => none

/-- The members of a bracket expression up to its closing bracket; a bracket in the first place is a
    member. -/
def members : Nat → (first : Bool) → List Letter → Option (List Text.Member × List Letter)
  | 0, _, _ => none
  | _, _, [] => none
  | n + 1, first, l :: r =>
    if l = ⟨']', false⟩ && !first then some ([], r)
    else
      match className? (l :: r) with
      | some (name, rest) =>
        match Text.namedClass? name with
        | some p => (members n false rest).map fun q => (.named p :: q.1, q.2)
        | none => (members n false rest)
      | none =>
        match r with
        | ⟨'-', false⟩ :: h :: rest =>
          if h = ⟨']', false⟩ then
            (members n false r).map fun q => (.range l.char l.char :: q.1, q.2)
          else (members n false rest).map fun q => (.range l.char h.char :: q.1, q.2)
        | _ => (members n false r).map fun q => (.range l.char l.char :: q.1, q.2)

/-- The pattern that some letters write. Brackets that are not closed stand for themselves. -/
def ofLetters : List Letter → List Wild
  | [] => []
  | l :: r =>
    if l = ⟨'*', false⟩ then .many :: ofLetters r
    else if l = ⟨'?', false⟩ then .one :: ofLetters r
    else if l = ⟨'[', false⟩ then
      let negated := r.head? == some ⟨'!', false⟩
      let inner := if negated then r.drop 1 else r
      match members (inner.length + 1) true inner with
      | some (ms, rest) =>
        if rest.length < r.length then .among negated ms :: ofLetters rest
        else .this '[' :: ofLetters r
      | none => .this '[' :: ofLetters r
    else .this l.char :: ofLetters r
termination_by ls => ls.length

/-- Whether letters write a pattern that stands for more than itself. -/
def isMeta (ls : List Letter) : Bool :=
  ls.any fun l => !l.quoted && (l.char == '*' || l.char == '?' || l.char == '[')

/-- All endings of a text, longest first. -/
def endings : List Char → List (List Char)
  | [] => [[]]
  | c :: r => (c :: r) :: endings r

/-- What may be left of texts, given longest first, behind a part of a pattern. -/
def behind (rests : List (List Char)) : Wild → List (List Char)
  | many =>
    match rests with
    | [] => []
    | longest :: _ => endings longest
  | this c => rests.filterMap fun cs => if cs.head? = some c then some (cs.drop 1) else none
  | one => rests.filterMap fun cs => if cs.isEmpty then none else some (cs.drop 1)
  | among negated ms =>
    rests.filterMap fun cs =>
      match cs with
      | [] => none
      | c :: r => if Text.isAmong negated ms c then some r else none

/-- What may be left of a text behind a pattern, longest first. -/
def rests (ws : List Wild) (cs : List Char) : List (List Char) := ws.foldl behind [cs]

/-- Whether a pattern stands for a whole text. -/
def fits (ws : List Wild) (cs : List Char) : Bool := (rests ws cs).any List.isEmpty

/-- A text without the shortest or longest beginning that a pattern stands for. -/
def dropFront (longest : Bool) (ws : List Wild) (cs : List Char) : List Char :=
  let found := rests ws cs
  (if longest then found.getLast? else found.head?).getD cs

/-- A text without the shortest or longest ending that a pattern stands for. -/
def dropBack (longest : Bool) (ws : List Wild) (cs : List Char) : List Char :=
  let found := (endings cs).filter (fits ws)
  match if longest then found.head? else found.getLast? with
  | some ending => cs.take (cs.length - ending.length)
  | none => cs

end Wild

end Isolation.Shell

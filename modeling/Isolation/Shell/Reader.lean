import Isolation.Shell.Script

/-!
# Reading scripts

The reader takes one complete command at a time from a text (`completeCommand`), because a script is
run while it is read: an error of its form is noticed only after the commands before it were run.

Characters, tokens and commands are read by functions that call one another, as a word may hold
commands. Every one of them takes `depth`, which bounds how deep they nest; a reader that runs out
of it complains, and the number of characters of the source is enough for any script.
-/

namespace Isolation.Shell.Reading

/-! ## 1. Tokens and sources -/

/-- What a redirection does, before its word is read. -/
inductive Direction where
  | read | write | overwrite | append | readWrite
  | duplicate
  /-- Read from a here-document, the tabs that begin its lines being dropped or not. -/
  | document (tabs : Bool)
deriving DecidableEq, Repr

/-- A token of a script. -/
inductive Token where
  | endOfText
  | newline
  | operator (s : String)
  | direction (descriptor : Nat) (d : Direction)
  /-- A word, and whether quotes stand in it. -/
  | word (w : Word) (quoted : Bool)
  | keyword (s : String)

/-- A token as it is named in complaints. -/
def Token.name : Token → String
  | endOfText => "end of file"
  | newline => "newline"
  | operator s | keyword s => "\"" ++ s ++ "\""
  | direction .. => "redirection"
  | word .. => "word"

/-- Whether a token ends a list of commands. -/
def Token.closes : Token → Bool
  | endOfText => true
  | operator s => s == ")" || s == ";;"
  | keyword s => ["\x7d", "do", "done", "elif", "else", "esac", "fi", "then"].contains s
  | _ => false

/-- A here-document that was asked for and is still to be read. -/
structure Pending where
  number : Nat
  ending : String
  /-- Whether parameters and commands in its body are expanded. -/
  expands : Bool
  tabs : Bool

/-- What is left of a text, and what was noted about it. -/
structure Source where
  rest : List Char
  line : Nat := 1
  /-- A token that was read and put back. -/
  held : Option Token := none
  pending : List Pending := []
  /-- The bodies of here-documents, by their numbers. -/
  documents : List (Nat × Word) := []
  nextDocument : Nat := 0
  /-- The words that stand for other texts. -/
  aliases : List (String × String) := []
  /-- The aliases that are being read, with how much is left behind them. -/
  within : List (String × Nat) := []
  /-- The here-document whose body is being read, if one is, and whether its ending was passed. -/
  body : Option Pending := none
  ended : Bool := false
  /-- The word that was read last. -/
  lastWord : Word := []

/-- Why a text cannot be read, and in which line. -/
structure Complaint where
  line : Nat
  message : String

/-- What reads a part of a source. -/
abbrev Reads := StateT Source (Except Complaint)

/-- Complain about the form of the text. -/
def malformed {α : Type} (message : String) : Reads α := fun s =>
  .error ⟨s.line, "Syntax error: " ++ message⟩

/-- Complain about a token, saying what should stand in its place if only one can. -/
def unexpected {α : Type} (t : Token) (expected : Option Token := none) : Reads α :=
  malformed (t.name ++ " unexpected" ++
    match expected with
    | some e => " (expecting " ++ e.name ++ ")"
    | none => "")

/-- Complain that commands nest too deep. -/
def tooDeep {α : Type} : Reads α := malformed "nested too deep"

/-- What is left of the text, or of the here-document that is being read. -/
def ahead : Reads (List Char) := do
  let s ← get
  return if s.ended then [] else s.rest

/-- Pass over some characters. -/
def pass (n : Nat) : Reads Unit :=
  modify fun s =>
    { s with rest := s.rest.drop n, line := s.line + ((s.rest.take n).filter (· == '\n')).length }

/-! ## 2. Words in the making -/

/-- A word in the making: its parts and the last text, both reversed. -/
structure Building where
  parts : List Part := []
  chars : List Char := []
  /-- Whether the last text is quoted. -/
  charsQuoted : Bool := false
  /-- Whether quotes stand in the word. -/
  quoted : Bool := false

namespace Building

/-- The last text, completed. -/
def flush (b : Building) : Building :=
  if b.chars.isEmpty then b
  else { b with
    parts := .text (String.ofList b.chars.reverse) b.charsQuoted :: b.parts
    chars := [] }

/-- One more character. -/
def char (b : Building) (c : Char) (quoted : Bool) : Building :=
  if b.charsQuoted = quoted then { b with chars := c :: b.chars }
  else { b.flush with chars := [c], charsQuoted := quoted }

/-- One more part. -/
def part (b : Building) (p : Part) : Building := { b.flush with parts := p :: b.flush.parts }

/-- The mark that quotes leave: a quoted text, which makes a field even where it is empty. -/
def mark (b : Building) : Building := { b.part (.text "" true) with quoted := true }

/-- The word. -/
def word (b : Building) : Word := b.flush.parts.reverse

/-- A word in double quotes at the end. The arguments on their own leave no mark, as they are no
    field if there are none. -/
def doubleQuoted (b : Building) (inner : Word) : Building :=
  match inner with
  | [.parameter "@" .value true] => { b.part (.parameter "@" .value true) with quoted := true }
  | inner => inner.foldl part b.mark

end Building

/-- What a part of a word stands in. -/
inductive Context where
  /-- A word that ends before a blank or an operator. -/
  | word
  /-- The word in the braces of a parameter. -/
  | braces
  /-- The same within double quotes, or within a here-document. -/
  | quotedBraces (inDocument : Bool)
  | doubleQuotes
  | document
  /-- An arithmetic expression, with its open parentheses. -/
  | arithmetic (opened : Nat)

namespace Context

/-- Whether text is quoted here. -/
def quotes : Context → Bool
  | word | braces => false
  | _ => true

/-- Whether a here-document is being read. -/
def isDocument : Context → Bool
  | document | quotedBraces true => true
  | _ => false

/-- Whether a backslash takes the meaning of a character away here. Elsewhere in quotes it stands
    for itself. -/
def escapes (ctx : Context) (c : Char) : Bool :=
  match ctx with
  | word | braces => true
  | quotedBraces _ => c == '$' || c == Char.ofNat 96 || c == '\\' || c == '"' || c == '\x7d'
  | document => c == '$' || c == Char.ofNat 96 || c == '\\'
  | doubleQuotes | arithmetic _ => c == '$' || c == Char.ofNat 96 || c == '\\' || c == '"'

/-- What is missing when the text ends here. -/
def missing? : Context → Option String
  | word | document => none
  | braces | quotedBraces true => some "Missing '\x7d'"
  | quotedBraces false | doubleQuotes => some "Unterminated quoted string"
  | arithmetic _ => some "Missing '))'"

end Context

/-- Whether a character ends a word. -/
def endsWord (c : Char) : Bool :=
  c == ' ' || c == '\t' || c == '\n' || c == ';' || c == '&' || c == '|' || c == '<' || c == '>'
    || c == '(' || c == ')'

/-- What stands behind the name of a parameter in braces. -/
inductive Suffix where
  | use (u : Word → Use) (ctx : Context)
  | nothing
  | wrong

/-- The name of a parameter in braces, whether its length is asked for, and the number of characters
    it takes. -/
def bracedName : List Char → Option (String × Bool × Nat)
  | '#' :: cs =>
    match cs with
    | c :: r =>
      if isNameStart c then
        let name := cs.takeWhile isNameChar
        some (String.ofList name, true, name.length + 1)
      else if c.isDigit then
        let name := cs.takeWhile Char.isDigit
        some (String.ofList name, true, name.length + 1)
      else if c != '\x7d' && r.head? == some '\x7d' then
        if isSpecial c then some (String.singleton c, true, 2) else none
      else some ("#", false, 1)
    | [] => some ("#", false, 1)
  | c :: cs =>
    if isNameStart c then
      let name := (c :: cs).takeWhile isNameChar
      some (String.ofList name, false, name.length)
    else if c.isDigit then
      let name := (c :: cs).takeWhile Char.isDigit
      some (String.ofList name, false, name.length)
    else if isSpecial c then some (String.singleton c, false, 1)
    else none
  | [] => none

/-- The operator behind the name of a parameter in braces, and the number of its characters. -/
def suffix (ctx : Context) : List Char → Suffix × Nat
  | '\x7d' :: _ => (.nothing, 1)
  | '#' :: '#' :: _ => (.use (.dropFront true) .braces, 2)
  | '#' :: _ => (.use (.dropFront false) .braces, 1)
  | '%' :: '%' :: _ => (.use (.dropBack true) .braces, 2)
  | '%' :: _ => (.use (.dropBack false) .braces, 1)
  | ':' :: c :: _ => (ofSign true c, 2)
  | c :: _ => (ofSign false c, 1)
  | [] => (.wrong, 0)
where
  /-- The use of a sign, the word behind it being quoted like the parameter. -/
  ofSign (ifEmpty : Bool) (c : Char) : Suffix :=
    let inner := if ctx.quotes then .quotedBraces ctx.isDocument else .braces
    if c = '-' then .use (.orElse ifEmpty) inner
    else if c = '=' then .use (.orSet ifEmpty) inner
    else if c = '?' then .use (.orFail ifEmpty) inner
    else if c = '+' then .use (.instead ifEmpty) inner
    else if c = '\x7d' then .use .final inner
    else .wrong

/-- The text in backquotes, with the backslashes dropped that stand there for the sake of the
    quotes; and the number of characters it takes, the closing quote included. -/
def backquoted (inQuotes : Bool) : List Char → Option (List Char × Nat)
  | [] => none
  | [c] => if c = Char.ofNat 96 then some ([], 1) else none
  | c :: d :: r =>
    if c = Char.ofNat 96 then some ([], 1)
    else if c = '\\' then
      let rest := (backquoted inQuotes r).map fun p => (p.1, p.2 + 2)
      if d = '\n' then rest
      else if d = '\\' || d = '$' || d = Char.ofNat 96 || (inQuotes && d = '"') then
        rest.map fun p => (d :: p.1, p.2)
      else rest.map fun p => (c :: d :: p.1, p.2)
    else (backquoted inQuotes (d :: r)).map fun p => (c :: p.1, p.2 + 1)

/-! ## 3. Here-documents -/

/-- Begin a line of a here-document: its tabs are passed over if they are dropped, and the body ends
    with the line before if this one is the ending. -/
def lineStart : Reads Unit := do
  let s ← get
  match s.body with
  | none => return
  | some p =>
    let written := if p.tabs then s.rest.dropWhile (· == '\t') else s.rest
    let line := written.takeWhile (· != '\n')
    if String.ofList line = p.ending then
      set { s with rest := written.drop (line.length + 1), line := s.line + 1, ended := true }
    else set { s with rest := written }

/-- The lines of a here-document in which nothing is expanded. -/
def verbatim : Nat → Reads (List Char)
  | 0 => return []
  | n + 1 => do
    lineStart
    let s ← get
    if s.ended || s.rest.isEmpty then return []
    let line := s.rest.takeWhile (· != '\n')
    let broken := (s.rest.drop line.length).take 1
    pass (line.length + broken.length)
    return line ++ broken ++ (← verbatim n)

/-! ## 4. Reading -/

/-- What is looked for in a token. -/
structure Expecting where
  /-- Line ends are passed over. -/
  newlines : Bool := false
  keywords : Bool := false
  aliases : Bool := false

/-- What a list of commands stands in. -/
inductive Nesting where
  /-- The script itself: the list ends with the line. -/
  | top
  /-- A command that asks for at least one command. -/
  | body
  /-- A place where there may be no command. -/
  | inner
deriving DecidableEq, Repr

/-- The beginning of a command. -/
def Expecting.command : Expecting := ⟨true, true, true⟩

/-- The sign of a redirection at the front of a text. -/
def direction? : List Char → Option (Direction × Nat)
  | '>' :: '>' :: _ => some (.append, 2)
  | '>' :: '|' :: _ => some (.overwrite, 2)
  | '>' :: '&' :: _ => some (.duplicate, 2)
  | '>' :: _ => some (.write, 1)
  | '<' :: '<' :: '-' :: _ => some (.document true, 3)
  | '<' :: '<' :: _ => some (.document false, 2)
  | '<' :: '&' :: _ => some (.duplicate, 2)
  | '<' :: '>' :: _ => some (.readWrite, 2)
  | '<' :: _ => some (.read, 1)
  | _ => none

/-- The descriptor that a redirection is about unless it is given. -/
def usualDescriptor : List Char → Nat
  | '<' :: _ => 0
  | _ => 1

/-- An operator at the front of a text, the longest that fits. -/
def operator? (cs : List Char) : Option String :=
  [";;", "&&", "||", ";", "&", "|", "(", ")"].find? fun op => (Text.after? op.toList cs).isSome

/-- Put a token back. -/
def hold (t : Token) : Reads Unit := modify fun s => { s with held := some t }

/-- The line that is being read. -/
def line : Reads Nat := return (← get).line

/-- The text of a quoted word, its quotes being gone. -/
def plainText (w : Word) : String :=
  String.join (w.map fun
    | .text s _ => s
    | .parameter name _ _ => "$" ++ name
    | _ => "")

/-- Leave the aliases whose texts were read to their ends; whether a blank ends one of them, so that
    the word that was read behind it may be an alias as well. -/
def leaveAliases : Reads Bool := do
  let src ← get
  let (within, left) := src.within.partition fun p => p.2 ≤ src.rest.length
  set { src with within }
  return left.any fun p =>
    match (src.aliases.lookup p.1).bind fun text => text.toList.getLast? with
    | some c => c == ' ' || c == '\t'
    | none => false

/-- The text that a word is an alias for, unless it stands in that text itself. -/
def aliased (s : String) : Reads (Option String) := do
  let src ← get
  return if src.within.any fun p => p.1 == s then none else src.aliases.lookup s

mutual

/-- Read parts of a word up to where they end. -/
def parts : Nat → Context → Building → Reads Building
  | 0, _, _ => tooDeep
  | n + 1, ctx, b => do
    match ← ahead with
    | [] =>
      match ctx.missing? with
      | some m => malformed m
      | none => return b
    | '\\' :: r =>
      match r with
      | [] =>
        pass 1
        parts n ctx (b.char '\\' ctx.quotes)
      | d :: _ =>
        pass 2
        if d = '\n' then parts n ctx b
        else if ctx.escapes d then
          parts n ctx (if ctx.quotes then b.char d true
            else { b.mark.char d true with quoted := true })
        else parts n ctx ((b.char '\\' true).char d true)
    | '\'' :: r =>
      if ctx.quotes then
        pass 1
        parts n ctx (b.char '\'' true)
      else
        let inner := r.takeWhile (· != '\'')
        if inner.length = r.length then
          pass (r.length + 1)
          malformed "Unterminated quoted string"
        else
          pass (inner.length + 2)
          parts n ctx (inner.foldl (fun b c => b.char c true) b.mark)
    | '"' :: _ =>
      pass 1
      match ctx with
      | .doubleQuotes => return b
      | .document | .arithmetic _ => parts n ctx (b.char '"' true)
      | _ =>
        let inner ← parts n .doubleQuotes {}
        parts n ctx (b.doubleQuoted inner.word)
    | '$' :: _ => parts n ctx (← dollar n ctx b)
    | c :: r =>
      if c = Char.ofNat 96 then
        match backquoted ctx.quotes r with
        | none =>
          pass (r.length + 1)
          malformed "EOF in backquote substitution"
        | some (text, size) =>
          let inner ← inside n text
          pass (size + 1)
          parts n ctx (b.part (.output inner ctx.quotes))
      else
        let more : Reads Building := do
          pass 1
          if c = '\n' then lineStart
          parts n ctx (b.char c ctx.quotes)
        match ctx with
        | .word => if endsWord c then return b else more
        | .braces | .quotedBraces _ =>
          if c = '\x7d' then
            pass 1
            return b
          else more
        | .arithmetic opened =>
          if c = '(' then
            pass 1
            parts n (.arithmetic (opened + 1)) (b.char c true)
          else if c = ')' then
            pass 1
            match opened with
            | opened + 1 => parts n (.arithmetic opened) (b.char c true)
            | 0 =>
              if r.head? == some ')' then
                pass 1
                return b
              else parts n ctx (b.char c true)
          else more
        | _ => more

/-- Read what a dollar sign begins. -/
def dollar : Nat → Context → Building → Reads Building
  | 0, _, _ => tooDeep
  | n + 1, ctx, b => do
    pass 1
    match ← ahead with
    | '(' :: '(' :: _ =>
      pass 2
      let inner ← parts n (.arithmetic 0) {}
      return b.part (.arithmetic inner.word ctx.quotes)
    | '(' :: _ =>
      pass 1
      return b.part (.output (← outputOf n) ctx.quotes)
    | '\x7b' :: _ =>
      pass 1
      return b.part (← braced n ctx)
    | c :: r =>
      if isNameStart c then
        let name := (c :: r).takeWhile isNameChar
        pass name.length
        return b.part (.parameter (String.ofList name) .value ctx.quotes)
      else if c.isDigit || isSpecial c then
        pass 1
        return b.part (.parameter (String.singleton c) .value ctx.quotes)
      else return b.char '$' ctx.quotes
    | [] => return b.char '$' ctx.quotes

/-- Read a parameter in braces, behind the opening brace. -/
def braced : Nat → Context → Reads Part
  | 0, _ => tooDeep
  | n + 1, ctx => do
    let wrong : Reads Part := do
      let _ ← parts n (if ctx.quotes then .quotedBraces ctx.isDocument else .braces) {}
      return .malformed
    match bracedName (← ahead) with
    | none => wrong
    | some (name, isLength, size) =>
      pass size
      let (s, size) := suffix ctx (← ahead)
      match s with
      | .nothing =>
        pass size
        return .parameter name (if isLength then .length else .value) ctx.quotes
      | .wrong => do
        if !isLength then pass size
        wrong
      | .use u inner =>
        if isLength then wrong
        else
          pass size
          let w ← parts n inner {}
          return .parameter name (u w.word) ctx.quotes

/-- Read commands up to the parenthesis that closes them. What was noted about the line is put aside
    in the meantime. -/
def outputOf : Nat → Reads Command
  | 0 => tooDeep
  | n + 1 => do
    let before ← get
    set { before with held := none, pending := [], body := none }
    let c ← list n .inner
    match ← token n {} with
    | .operator ")" => pure ()
    | t => unexpected t (some (.operator ")"))
    modify fun s =>
      { s with held := before.held, pending := before.pending, body := before.body }
    return c

/-- Read the commands of a text of its own. -/
def inside : Nat → List Char → Reads Command
  | 0, _ => tooDeep
  | n + 1, text => do
    let before ← get
    set { before with
      rest := text, line := 1, held := none, pending := [], within := [], body := none }
    let c ← list n .inner
    modify fun s =>
      { before with documents := s.documents, nextDocument := s.nextDocument }
    return c

/-- Read the bodies of the here-documents that were asked for. -/
def documents : Nat → Reads Unit
  | 0 => tooDeep
  | n + 1 => do
    match (← get).pending with
    | [] => return
    | p :: ps =>
      let before ← get
      set { before with held := none, pending := [], body := some p, ended := false }
      let w ←
        if p.expands then do
          lineStart
          pure (← parts n .document {}).word
        else pure [.text (String.ofList (← verbatim (before.rest.length + 1))) true]
      modify fun s =>
        { s with
          held := before.held
          pending := ps
          body := before.body
          ended := before.ended
          documents := (p.number, w) :: s.documents }
      documents n

/-- Read a token of the text. -/
def scan : Nat → Reads Token
  | 0 => tooDeep
  | n + 1 => do
    match ← ahead with
    | [] => return .endOfText
    | '\n' :: _ =>
      pass 1
      documents n
      return .newline
    | '\\' :: '\n' :: _ =>
      pass 2
      scan n
    | c :: r =>
      if c = ' ' || c = '\t' then
        pass ((c :: r).takeWhile fun c => c == ' ' || c == '\t').length
        scan n
      else if c = '#' then
        pass ((c :: r).takeWhile (· != '\n')).length
        scan n
      else
        match direction? (c :: r), operator? (c :: r), if c.isDigit then direction? r else none with
        | some (d, size), _, _ =>
          pass size
          return .direction (usualDescriptor (c :: r)) d
        | none, some op, _ =>
          pass op.length
          return .operator op
        | none, none, some (d, size) =>
          pass (size + 1)
          return .direction (c.toNat - '0'.toNat) d
        | none, none, none =>
          let b ← parts n .word {}
          modify fun s => { s with lastWord := b.word }
          return .word b.word b.quoted

/-- Read a token, or take the one that was put back, as what is looked for. -/
def token : Nat → Expecting → Reads Token
  | 0, _ => tooDeep
  | n + 1, e => do
    let t ←
      match (← get).held with
      | some t => do
        modify fun s => { s with held := none }
        pure t
      | none => scan n
    let behind ← leaveAliases
    match t with
    | .newline => if e.newlines then token n e else return t
    | .word w false =>
      match w.bare? with
      | none => return t
      | some s =>
        if e.keywords && keywords.contains s then return .keyword s
        else if e.aliases || behind then
          match ← aliased s with
          | none => return t
          | some text =>
            modify fun src =>
              { src with
                rest := text.toList ++ src.rest
                within := (s, src.rest.length) :: src.within }
            token n e
        else return t
    | _ => return t

/-- Read the word of a redirection. -/
def redirection : Nat → Nat → Direction → Reads Redirection
  | 0, _, _ => tooDeep
  | n + 1, descriptor, d => do
    match ← token n {} with
    | .word w quoted =>
      match d with
      | .read => return .read descriptor w
      | .write => return .write descriptor w
      | .overwrite => return .overwrite descriptor w
      | .append => return .append descriptor w
      | .readWrite => return .readWrite descriptor w
      | .duplicate =>
        match w.bare? with
        | some s =>
          if s = "-" || s.toList.all Char.isDigit && s.length = 1 then
            return .duplicate descriptor w
          else malformed "Bad fd number"
        | none => return .duplicate descriptor w
      | .document tabs =>
        let number := (← get).nextDocument
        modify fun s =>
          { s with
            nextDocument := number + 1
            pending := s.pending ++ [⟨number, plainText w, !quoted, tabs⟩] }
        return .document descriptor number
    | t => unexpected t

/-- Read redirections as long as there are some. -/
def redirections : Nat → Expecting → Reads (List Redirection)
  | 0, _ => tooDeep
  | n + 1, e => do
    match ← token n e with
    | .direction descriptor d =>
      let r ← redirection n descriptor d
      return r :: (← redirections n e)
    | t =>
      hold t
      return []

/-- Read a list of commands. -/
def list : Nat → Nesting → Reads Command
  | 0, _ => tooDeep
  | n + 1, nesting => do
    let cs ← items n nesting []
    match cs with
    | [c] => return c
    | cs => return .sequence cs

/-- Read the rest of a list of commands, behind those that were read. -/
def items : Nat → Nesting → List Command → Reads (List Command)
  | 0, _, _ => tooDeep
  | n + 1, nesting, before => do
    let top := nesting == .top
    let t ← token n ⟨!top, true, true⟩
    let mayEnd := top || nesting == .inner || !before.isEmpty
    match t with
    | .newline => return before
    | .endOfText =>
      documents n
      hold t
      return before
    | t =>
      hold t
      if t.closes && !top && mayEnd then return before
      else
        let c ← chain n
        match ← token n {} with
        | .operator "&" => items n nesting (before ++ [.background c])
        | .operator ";" => items n nesting (before ++ [c])
        | .newline =>
          hold .newline
          items n nesting (before ++ [c])
        | .endOfText =>
          documents n
          hold .endOfText
          return before ++ [c]
        | t =>
          if top then unexpected t
          else
            hold t
            return before ++ [c]

/-- Read pipelines joined by `&&` and `||`, which bind to the left. -/
def chain : Nat → Reads Command
  | 0 => tooDeep
  | n + 1 => do chainRest n (← pipeline n {})

/-- Read what `&&` and `||` join to a command. -/
def chainRest : Nat → Command → Reads Command
  | 0, _ => tooDeep
  | n + 1, a => do
    match ← token n {} with
    | .operator "&&" => chainRest n (.and a (← pipeline n .command))
    | .operator "||" => chainRest n (.or a (← pipeline n .command))
    | t =>
      hold t
      return a

/-- Read a pipeline, which may be negated. -/
def pipeline : Nat → Expecting → Reads Command
  | 0, _ => tooDeep
  | n + 1, e => do
    match ← token n e with
    | .keyword "!" => return .not (← piped n (← command n ⟨false, true, true⟩))
    | t =>
      hold t
      piped n (← command n {})

/-- Read the commands that a command is piped to. -/
def piped : Nat → Command → Reads Command
  | 0, _ => tooDeep
  | n + 1, c => do
    match ← token n {} with
    | .operator "|" =>
      match ← piped n (← command n .command) with
      | .pipe cs => return .pipe (c :: cs)
      | d => return .pipe [c, d]
    | t =>
      hold t
      return c

/-- Read a token that has to be a certain keyword. -/
def expect : Nat → String → Reads Unit
  | 0, _ => tooDeep
  | n + 1, s => do
    match ← token n {} with
    | .keyword k => if k = s then return else unexpected (.keyword k) (some (.keyword s))
    | t => unexpected t (some (.keyword s))

/-- Read a command with the redirections behind it. -/
def command : Nat → Expecting → Reads Command
  | 0, _ => tooDeep
  | n + 1, e => do
    let start ← line
    match ← token n e with
    | .keyword "if" => closed n start (← conditional n)
    | .keyword "while" => closed n start (← looping n false)
    | .keyword "until" => closed n start (← looping n true)
    | .keyword "for" => closed n start (← iteration n)
    | .keyword "case" => closed n start (← selection n)
    | .operator "(" =>
      let c ← list n .body
      match ← token n {} with
      | .operator ")" => closed n start (.subshell start c)
      | t => unexpected t (some (.operator ")"))
    | .keyword "\x7b" =>
      let c ← list n .body
      expect n "\x7d"
      closed n start c
    | .word w quoted =>
      hold (.word w quoted)
      simple n (← line) [] [] [] true
    | .direction descriptor d =>
      hold (.direction descriptor d)
      simple n (← line) [] [] [] true
    | t => unexpected t

/-- Read the redirections behind a command that is not simple. -/
def closed : Nat → Nat → Command → Reads Command
  | 0, _, _ => tooDeep
  | n + 1, start, c => do
    match ← redirections n ⟨false, true, true⟩ with
    | [] => return c
    | rs => return .redirected start c rs

/-- Read the rest of a simple command, `front` as long as only assignments were read. -/
def simple : Nat → Nat → List Word → List Word → List Redirection → Bool → Reads Command
  | 0, _, _, _, _, _ => tooDeep
  | n + 1, start, assignments, words, rs, front => do
    match ← token n { aliases := front } with
    | .word w _ =>
      if front && w.assignment?.isSome then simple n start (assignments ++ [w]) words rs true
      else simple n start assignments (words ++ [w]) rs false
    | .direction descriptor d =>
      let r ← redirection n descriptor d
      simple n start assignments words (rs ++ [r]) front
    | .operator "(" =>
      match assignments, words, rs with
      | [], [w], [] =>
        match ← token n {} with
        | .operator ")" =>
          match w.bare? with
          | some name =>
            if isName name && !specials.contains name then
              return .define name (← command n .command)
            else malformed "Bad function name"
          | none => malformed "Bad function name"
        | t => unexpected t (some (.operator ")"))
      | _, _, _ =>
        hold (.operator "(")
        return .simple start assignments words rs
    | t =>
      hold t
      return .simple start assignments words rs

/-- Read the rest of an `if` or `elif`. -/
def conditional : Nat → Reads Command
  | 0 => tooDeep
  | n + 1 => do
    let condition ← list n .body
    expect n "then"
    let yes ← list n .body
    match ← token n {} with
    | .keyword "elif" => return .branch condition yes (← conditional n)
    | .keyword "else" =>
      let no ← list n .body
      expect n "fi"
      return .branch condition yes no
    | .keyword "fi" => return .branch condition yes .skip
    | t => unexpected t (some (.keyword "fi"))

/-- Read the rest of a `while` or `until`. -/
def looping : Nat → Bool → Reads Command
  | 0, _ => tooDeep
  | n + 1, untilHolds => do
    let condition ← list n .body
    expect n "do"
    let body ← list n .body
    expect n "done"
    return .loop untilHolds condition body

/-- Read words up to the end of a line or a semicolon. -/
def untilBreak : Nat → Reads (List Word)
  | 0 => tooDeep
  | n + 1 => do
    match ← token n {} with
    | .word w _ => return w :: (← untilBreak n)
    | .newline | .operator ";" => return []
    | t => unexpected t

/-- Read the rest of a `for`. -/
def iteration : Nat → Reads Command
  | 0 => tooDeep
  | n + 1 => do
    let name ←
      match ← token n {} with
      | .word w false =>
        match w.bare? with
        | some name => if isName name then pure name else malformed "Bad for loop variable"
        | none => malformed "Bad for loop variable"
      | _ => malformed "Bad for loop variable"
    let start ← line
    let words ←
      match ← token n .command with
      | .keyword "in" => some <$> untilBreak n
      | .operator ";" => pure none
      | t => do
        hold t
        pure none
    match ← token n .command with
    | .keyword "do" => pure ()
    | t => unexpected t (some (.keyword "do"))
    let body ← list n .body
    expect n "done"
    return .each start name words body

/-- Read the rest of a `case`. -/
def selection : Nat → Reads Command
  | 0 => tooDeep
  | n + 1 => do
    let start ← line
    match ← token n {} with
    | .word w _ =>
      match ← token n .command with
      | .keyword "in" => return .choice start w (← branches n)
      | t => unexpected t (some (.keyword "in"))
    | t => unexpected t (some (.word [] false))

/-- Read the branches of a `case`, up to `esac`. -/
def branches : Nat → Reads (List (List Word × Command))
  | 0 => tooDeep
  | n + 1 => do
    match ← token n ⟨true, true, false⟩ with
    | .keyword "esac" => return []
    | t =>
      let t ← match t with
        | .operator "(" => token n {}
        | t => pure t
      let ws ← patterns n t
      let body ← list n .inner
      match ← token n ⟨true, true, false⟩ with
      | .keyword "esac" => return [(ws, body)]
      | .operator ";;" => return (ws, body) :: (← branches n)
      | t => unexpected t (some (.operator ";;"))

/-- Read the patterns of a branch up to the closing parenthesis, the first token being given. A
    token that is no word stands for the last word. -/
def patterns : Nat → Token → Reads (List Word)
  | 0, _ => tooDeep
  | n + 1, t => do
    let w ← match t with
      | .word w _ => pure w
      | .keyword s => pure [.text s false]
      | _ => pure (← get).lastWord
    match ← token n {} with
    | .operator "|" => return w :: (← patterns n (← token n {}))
    | .operator ")" => return [w]
    | t => unexpected t (some (.operator ")"))

end

/-! ## 5. Complete commands -/

/-- Read a complete command, up to the end of a line; `none` at the end of the text. -/
def completeCommand : Reads (Option Command) := do
  let n := 16 * ((← ahead).length + 64)
  modify fun s => { s with held := none }
  match ← token n {} with
  | .endOfText => return none
  | .newline => return some .skip
  | t =>
    hold t
    return some (← list n .top)

end Isolation.Shell.Reading

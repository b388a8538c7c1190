import Isolation.Files.Tree
import Isolation.Text.Octets

/-!
# Worlds

What the processes of a run share: a file system, the channels between them, and what was opened.
All texts that are read and written are byte texts.

An opening has a place in what it leads to, and every descriptor that leads to the same opening
moves it. A file whose name is gone stays readable for those that have it open: **removing a name
turns the openings of its file into openings of bytes without a name**.
-/

namespace Isolation.Machine

/-- What an opening leads to. -/
inductive Target where
  /-- A file, by its names from the root. -/
  | file (place : List String)
  /-- A file without a name. -/
  | nameless (bytes : ByteArray)
  | channel (n : Nat)
  | directory (place : List String)
  | device (d : Files.Device)

/-- Something that was opened. -/
structure Opening where
  target : Target
  /-- How many bytes of a file were passed over. -/
  offset : Nat := 0
  reads : Bool := false
  writes : Bool := false
  /-- Whether everything is written at the end. -/
  appends : Bool := false

instance : Inhabited Opening := ⟨⟨.device .null, 0, false, false, false⟩⟩

/-- What was written to a channel and not read yet. -/
structure Channel where
  ahead : List Char := []
  /-- What was written behind that, the last first. -/
  behind : List String := []
deriving Inhabited

/-- What processes share. -/
structure World where
  root : Files.Tree
  channels : Array Channel := #[]
  openings : Array Opening := #[]
  /-- The number of the next process. -/
  nextProcess : Nat := 4242
  /-- The signals that were sent and not received yet, with the processes they were sent to. -/
  signals : List (Nat × Nat) := []
  /-- The processes that have not ended. -/
  running : List Nat := []

namespace Channel

/-- Everything in a channel. -/
def text (c : Channel) : List Char := c.ahead ++ (String.join c.behind.reverse).toList

/-- The channel with a text behind the others. -/
def write (c : Channel) (text : String) : Channel := { c with behind := text :: c.behind }

end Channel

namespace World

/-! ## 1. Files -/

/-- The bytes of a file at a place. -/
def bytesAt (w : World) (place : List String) : ByteArray :=
  match w.root.at? place with
  | some (.file bytes _) => bytes
  | _ => .empty

/-- The world with the bytes of a file changed. -/
def setBytes (w : World) (place : List String) (bytes : ByteArray) : World :=
  let executable :=
    match w.root.at? place with
    | some (.file _ executable) => executable
    | _ => false
  { w with root := Files.Tree.put (.file bytes executable) place w.root }

/-- Bytes with a text written over them from some offset on; a gap is filled with zeros. -/
def overwritten (bytes : ByteArray) (offset : Nat) (text : String) : ByteArray :=
  let new := Text.bytesOfOctets text
  let gap := List.replicate (offset - bytes.size) (0 : UInt8)
  let old := bytes.toList
  ⟨(old.take offset ++ gap ++ new ++ old.drop (offset + new.length)).toArray⟩

/-- The world in which no opening depends on a name at a place, or below it. -/
def detach (w : World) (place : List String) : World :=
  { w with
    openings := w.openings.map fun o =>
      match o.target with
      | .file p => if place.isPrefixOf p then { o with target := .nameless (w.bytesAt p) } else o
      | _ => o }

/-- The world without what is at a place. -/
def unlink (w : World) (place : List String) : World :=
  { w.detach place with root := Files.Tree.remove place w.root }

/-- The world with something moved to another place, in the place of what was there. -/
def move (w : World) (source goal : List String) : World :=
  match w.root.at? source with
  | none => w
  | some t =>
    if source = goal then w
    else
      let w := w.detach goal
      { w with
        root := Files.Tree.put t goal (Files.Tree.remove source w.root)
        openings := w.openings.map fun o =>
          match o.target with
          | .file p =>
            if source.isPrefixOf p then
              { o with target := .file (goal ++ p.drop source.length) }
            else o
          | _ => o }

/-! ## 2. Openings -/

/-- The opening of a number. -/
def opening? (w : World) (i : Nat) : Option Opening := w.openings[i]?

/-- Add an opening. -/
def addOpening (w : World) (o : Opening) : Nat × World :=
  (w.openings.size, { w with openings := w.openings.push o })

/-- Add a channel, with an opening to read it and one to write it. -/
def addChannel (w : World) : (Nat × Nat) × World :=
  let n := w.channels.size
  let w := { w with channels := w.channels.push {} }
  let (r, w) := w.addOpening { target := .channel n, reads := true }
  let (s, w) := w.addOpening { target := .channel n, writes := true }
  ((r, s), w)

/-- The text that a channel holds, and the world in which it was taken out. -/
def drain (w : World) (i : Nat) : String × World :=
  match w.opening? i with
  | some { target := .channel n, .. } =>
    match w.channels[n]? with
    | some c => (String.ofList c.text, { w with channels := w.channels.setIfInBounds n {} })
    | none => ("", w)
  | _ => ("", w)

/-- Write to an opening. -/
def write (w : World) (i : Nat) (text : String) : Except Files.Refusal World :=
  match w.opening? i with
  | none => .error .badDescriptor
  | some o =>
    if !o.writes then .error .badDescriptor
    else
      match o.target with
      | .device .full => if text = "" then .ok w else .error .noSpace
      | .device _ => .ok w
      | .directory _ => .error .isDirectory
      | .channel n =>
        .ok { w with channels := w.channels.modify n fun c => c.write text }
      | .file place =>
        let bytes := w.bytesAt place
        let offset := if o.appends then bytes.size else o.offset
        let w := w.setBytes place (overwritten bytes offset text)
        let moved := { o with offset := offset + text.length }
        .ok { w with openings := w.openings.setIfInBounds i moved }
      | .nameless bytes =>
        let offset := if o.appends then bytes.size else o.offset
        let o := { o with
          target := .nameless (overwritten bytes offset text)
          offset := offset + text.length }
        .ok { w with openings := w.openings.setIfInBounds i o }

/-- Read from an opening as much as `split` takes: it is given what there is, and gives back what it
    takes and what it leaves. -/
def readWith (w : World) (i : Nat) (split : List Char → List Char × List Char) :
    Except Files.Refusal (String × World) :=
  match w.opening? i with
  | none => .error .badDescriptor
  | some o =>
    if !o.reads then .error .badDescriptor
    else
      let ofBytes (bytes : ByteArray) : Except Files.Refusal (String × World) :=
        let taken := (split ((bytes.toList.drop o.offset).map Text.octet)).1
        .ok (String.ofList taken,
          { w with
            openings := w.openings.setIfInBounds i { o with offset := o.offset + taken.length } })
      match o.target with
      | .device .zero => .ok (String.ofList (split (List.replicate 65536 (Char.ofNat 0))).1, w)
      | .device _ => .ok ("", w)
      | .directory _ => .error .isDirectory
      | .channel n =>
        let (taken, left) := split ((w.channels[n]?).getD {}).text
        let channels := w.channels.setIfInBounds n { ahead := left }
        .ok (String.ofList taken, { w with channels })
      | .file place => ofBytes (w.bytesAt place)
      | .nameless bytes => ofBytes bytes

/-- Read everything that is left. -/
def readAll (w : World) (i : Nat) : Except Files.Refusal (String × World) :=
  w.readWith i fun cs => (cs, [])

/-- The text up to the first character that ends it, and what follows; the ending belongs to the
    text. -/
def lineSplit (ending : Char) (cs : List Char) : List Char × List Char :=
  let line := cs.takeWhile (· != ending)
  (cs.take (line.length + 1), cs.drop (line.length + 1))

/-- Read to the end of a line. -/
def readLine (w : World) (i : Nat) : Except Files.Refusal (String × World) :=
  w.readWith i (lineSplit '\n')

end World

end Isolation.Machine

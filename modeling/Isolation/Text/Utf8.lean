/-!
# Reading bytes as text

Decoding UTF-8 without ever failing. Bytes that are no encoding are read as U+FFFD, one for each
maximal beginning of an encoding that breaks off, and one for each byte that begins none; the byte
at which an encoding breaks off is read anew.
-/

namespace Isolation.Text

/-- What the first byte of a longer encoding calls for: how many bytes follow, the range of the
    first of them, and the bits that the first byte contributes. -/
structure Lead where
  follow : Nat
  low : UInt8
  high : UInt8
  bits : Nat

/-- The encodings of two to four bytes, by their first byte. The ranges leave out overlong
    encodings, surrogates and everything above U+10FFFF. -/
def lead? (b : UInt8) : Option Lead :=
  let n := b.toNat
  if 0xC2 ≤ n && n ≤ 0xDF then some ⟨1, 0x80, 0xBF, n - 0xC0⟩
  else if n == 0xE0 then some ⟨2, 0xA0, 0xBF, 0⟩
  else if n == 0xED then some ⟨2, 0x80, 0x9F, 0xD⟩
  else if 0xE1 ≤ n && n ≤ 0xEF then some ⟨2, 0x80, 0xBF, n - 0xE0⟩
  else if n == 0xF0 then some ⟨3, 0x90, 0xBF, 0⟩
  else if 0xF1 ≤ n && n ≤ 0xF3 then some ⟨3, 0x80, 0xBF, n - 0xF0⟩
  else if n == 0xF4 then some ⟨3, 0x80, 0x8F, 4⟩
  else none

/-- The bytes that follow a first byte: the code point they make, or `none` when the encoding breaks
    off; and what is left to read. -/
def follow (count : Nat) (low high : UInt8) (value : Nat) (bytes : List UInt8) :
    Option Nat × List UInt8 :=
  match count, bytes with
  | 0, bytes => (some value, bytes)
  | _ + 1, [] => (none, [])
  | count + 1, b :: rest =>
    if low ≤ b && b ≤ high then
      follow count 0x80 0xBF (64 * value + (b.toNat - 0x80)) rest
    else (none, b :: rest)

theorem length_follow_le (count : Nat) (low high : UInt8) (value : Nat) (bytes : List UInt8) :
    (follow count low high value bytes).2.length ≤ bytes.length := by
  induction bytes generalizing count low high value with
  | nil => cases count <;> simp [follow]
  | cons b rest ih =>
    cases count with
    | zero => simp [follow]
    | succ count =>
      rw [follow]
      split
      · exact Nat.le_trans (ih ..) (Nat.le_succ _)
      · simp

/-- The characters that bytes encode; `none` stands for an encoding that breaks off. -/
def decode : List UInt8 → List (Option Char)
  | [] => []
  | b :: rest =>
    if b < 0x80 then some (Char.ofNat b.toNat) :: decode rest
    else
      match lead? b with
      | none => none :: decode rest
      | some l =>
        let r := follow l.follow l.low l.high l.bits rest
        r.1.map Char.ofNat :: decode r.2
termination_by bytes => bytes.length
decreasing_by
  · simp
  · simp
  · exact Nat.lt_succ_of_le (length_follow_le ..)

/-- The text of some bytes, with U+FFFD for what is no encoding. -/
def readBytes (bytes : List UInt8) : String :=
  String.ofList ((decode bytes).map fun c => c.getD (Char.ofNat 0xFFFD))

end Isolation.Text

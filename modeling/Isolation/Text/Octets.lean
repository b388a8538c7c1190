import Isolation.Text.Utf8

/-!
# Byte texts

Shells and their utilities work on bytes, which need not be the encoding of any text. A *byte text*
is a string each of whose characters stands for one byte, so that a character beyond ASCII is
several characters of a byte text. Texts become byte texts by their UTF-8 encoding, and byte texts
become texts as bytes do, whatever is no encoding being replaced.
-/

namespace Isolation.Text

/-- The character that stands for a byte. -/
def octet (b : UInt8) : Char := Char.ofNat b.toNat

/-- The byte text of some bytes. -/
def octets (bytes : List UInt8) : String := String.ofList (bytes.map octet)

/-- The byte text of a text. -/
def octetsOf (s : String) : String := octets s.toUTF8.toList

/-- The bytes of a byte text. -/
def bytesOfOctets (s : String) : List UInt8 := s.toList.map fun c => UInt8.ofNat c.toNat

/-- The text of a byte text. -/
def textOfOctets (s : String) : String := readBytes (bytesOfOctets s)

/-- A text of ASCII characters. -/
def Ascii (cs : List Char) : Prop := ∀ c ∈ cs, c.toNat < 128

instance (cs : List Char) : Decidable (Ascii cs) :=
  List.decidableBAll (fun c : Char => c.toNat < 128) cs

/-- ASCII characters are encoded as themselves. -/
theorem decode_of_ascii {cs : List Char} (h : Ascii cs) :
    decode (cs.map fun c => UInt8.ofNat c.toNat) = cs.map some := by
  induction cs with
  | nil => rw [List.map_nil, decode, List.map_nil]
  | cons c cs ih =>
    have hc : c.toNat < 128 := h c List.mem_cons_self
    have hbyte : (UInt8.ofNat c.toNat).toNat = c.toNat :=
      UInt8.toNat_ofNat_of_lt' (Nat.lt_trans hc (by decide))
    have hlow : UInt8.ofNat c.toNat < 0x80 := UInt8.lt_iff_toNat_lt.mpr (hbyte.symm ▸ hc)
    rw [List.map_cons, decode, if_pos hlow, hbyte, Char.ofNat_toNat,
      ih fun d hd => h d (List.mem_cons_of_mem _ hd), List.map_cons]

/-- A byte text of ASCII characters is the text that it looks like. -/
theorem textOfOctets_of_ascii {s : String} (h : Ascii s.toList) : textOfOctets s = s := by
  rw [textOfOctets, readBytes, bytesOfOctets, decode_of_ascii h, List.map_map]
  exact (congrArg String.ofList (List.map_id _)).trans String.ofList_toList

end Isolation.Text

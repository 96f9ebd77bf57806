/-!
# Bytes as text

Bytes are read as UTF-8 where they are valid UTF-8, and otherwise one character per
byte.  Validity is strict: no overlong forms, no surrogates, nothing past the last
code point.
-/

namespace Befunge.Utf8

/-- The text that the bytes encode, if they are valid. -/
def decode? (data : ByteArray) : Option (List Char) :=
  (String.fromUTF8? data).map String.toList

/-- One character per byte. -/
def bytewise (data : ByteArray) : List Char :=
  data.toList.map fun b => Char.ofNat b.toNat

/-- The bytes of a text. -/
def encode (text : List Char) : ByteArray := (String.ofList text).toUTF8

/-- The text of a file. -/
def decode (data : ByteArray) : List Char := (decode? data).getD (bytewise data)

/-- What was encoded is decoded again. -/
theorem decode_encode (text : List Char) : decode (encode text) = text := by
  have hvalid : decode? (encode text) = some text := by
    rw [decode?, encode, String.toUTF8_eq_toByteArray, String.fromUTF8?,
      dif_pos (String.ofList text).isValidUTF8]
    exact congrArg some String.toList_ofList
  rw [decode, hvalid, Option.getD_some]

/-- The mark that may stand at the start of a program. -/
def byteOrderMark : Char := Char.ofNat 0xFEFF

/-- The text of a program, and whether its bytes were valid.  One byte-order mark at the start
of valid bytes is dropped. -/
def decodeSource (data : ByteArray) : List Char × Bool :=
  match decode? data with
  | none => (bytewise data, false)
  | some [] => ([], true)
  | some (c :: r) => (if c = byteOrderMark then r else c :: r, true)

end Befunge.Utf8

/-
# Bytes read as UTF-8

Bytes need not be the UTF-8 form of a text.  They are read in pieces (`Utf8.pieces`): a piece is a
character, or it is broken.  A broken piece goes on for as long as its bytes begin some character,
and has one byte at least.

| first byte | second byte | bytes |
| --- | --- | --- |
| `E0` | `A0` – `BF` | 3 |
| `E1` – `EC`, `EE`, `EF` | `80` – `BF` | 3 |
| `ED` | `80` – `9F` | 3 |
| `F0` | `90` – `BF` | 4 |
| `F1` – `F3` | `80` – `BF` | 4 |
| `F4` | `80` – `8F` | 4 |

No byte is lost (`Utf8.flatMap_bytes_pieces`).  The bytes of a text are read as its characters
(`Utf8.pieces_bytes`), and so a text stays as it is where broken pieces are replaced
(`Utf8.lossy_bytes`).
-/

namespace InfixCalc
namespace Utf8

/-- A character, or bytes that are the form of none. -/
inductive Piece where
  | character (c : Char)
  | broken (bytes : List UInt8)
  deriving DecidableEq, Repr

/-- The UTF-8 form of a text. -/
def bytes (text : String) : List UInt8 := text.toUTF8.data.toList

/-- The character with whose form the bytes begin. -/
def first? (bytes : List UInt8) : Option Char := (bytes.take 4).toByteArray.utf8DecodeChar? 0

/-- The byte continues a character that has begun. -/
def continues (byte : UInt8) : Bool := 0x80 ≤ byte && byte ≤ 0xBF

/-- The form of some character begins with these two bytes and has more. -/
def begins (first second : UInt8) : Bool :=
  if first == 0xE0 then 0xA0 ≤ second && second ≤ 0xBF
  else if first == 0xED then 0x80 ≤ second && second ≤ 0x9F
  else if first == 0xF0 then 0x90 ≤ second && second ≤ 0xBF
  else if first == 0xF4 then 0x80 ≤ second && second ≤ 0x8F
  else 0xE1 ≤ first && first ≤ 0xF3 && continues second

/-- The bytes that a piece was read from. -/
def Piece.bytes : Piece → List UInt8
  | .character c => String.utf8EncodeChar c
  | .broken bytes => bytes

/-- How many bytes are in the broken piece with which the bytes begin. -/
def brokenLength : List UInt8 → Nat
  | first :: second :: rest =>
    if !begins first second then 1
    else if 0xF0 ≤ first && rest.head?.any continues then 3
    else 2
  | _ => 1

/-- A broken piece is not empty. -/
theorem brokenLength_pos (bytes : List UInt8) : 0 < brokenLength bytes := by
  unfold brokenLength
  split
  · split
    · exact Nat.one_pos
    · split <;> decide
  · exact Nat.one_pos

/-- The pieces of bytes that are read as UTF-8. -/
def pieces : List UInt8 → List Piece
  | [] => []
  | byte :: rest =>
    match first? (byte :: rest) with
    | some c => .character c :: pieces ((byte :: rest).drop c.utf8Size)
    | none =>
      .broken ((byte :: rest).take (brokenLength (byte :: rest))) ::
        pieces ((byte :: rest).drop (brokenLength (byte :: rest)))
termination_by bytes => bytes.length
decreasing_by
  · have hsize := c.utf8Size_pos
    rw [List.length_drop, List.length_cons]
    omega
  · have hlength := brokenLength_pos (byte :: rest)
    rw [List.length_drop, List.length_cons]
    omega

/-- The form of the character that is found at the front is taken off the bytes. -/
theorem append_drop_of_first? {bytes : List UInt8} {c : Char} (h : first? bytes = some c) :
    String.utf8EncodeChar c ++ bytes.drop c.utf8Size = bytes := by
  obtain ⟨rest, hrest⟩ := ByteArray.exists_of_utf8DecodeChar?_eq_some h
  have hfront : bytes.take 4 = String.utf8EncodeChar c ++ rest.data.toList := by
    have hdata := congrArg (fun front : ByteArray => front.data.toList) hrest
    rwa [ByteArray.data_append, Array.toList_append, List.toList_data_toByteArray,
      List.toList_data_toByteArray] at hdata
  have hprefix : String.utf8EncodeChar c <+: bytes :=
    List.IsPrefix.trans ⟨_, hfront.symm⟩ (List.take_prefix 4 bytes)
  rw [← String.length_utf8EncodeChar]
  exact List.prefix_iff_eq_append.1 hprefix

/-- **Reading loses nothing:** the bytes are those of the pieces, one after the other. -/
theorem flatMap_bytes_pieces (bytes : List UInt8) : (pieces bytes).flatMap Piece.bytes = bytes := by
  induction bytes using pieces.induct with
  | case1 => rw [pieces, List.flatMap_nil]
  | case2 byte rest c hfirst ih =>
    rw [pieces, hfirst]
    dsimp only
    rw [List.flatMap_cons, ih]
    exact append_drop_of_first? hfirst
  | case3 byte rest hfirst ih =>
    rw [pieces, hfirst]
    dsimp only
    rw [List.flatMap_cons, ih]
    exact List.take_append_drop _ _

example : pieces [0x69, 0xC0, 0x80, 0xE6, 0x83, 0x20, 0xE4, 0xB8, 0xAD] =
    [.character 'i', .broken [0xC0], .broken [0x80], .broken [0xE6, 0x83], .character ' ',
      .character '中'] := by cbv

/-- The text of bytes, with the replacement character for each broken piece. -/
def lossy (bytes : List UInt8) : String :=
  String.ofList ((pieces bytes).map fun
    | .character c => c
    | .broken _ => '\uFFFD')

/-- The form of a text is that of its characters, one after the other. -/
theorem bytes_eq (text : String) : bytes text = text.toList.flatMap String.utf8EncodeChar := by
  rw [bytes, String.toUTF8, ← String.utf8Encode_toList]
  exact List.toList_data_toByteArray

/-- The character at the front of bytes is found. -/
theorem first?_append (c : Char) (rest : List UInt8) :
    first? (String.utf8EncodeChar c ++ rest) = some c := by
  have hlength : (String.utf8EncodeChar c).length ≤ 4 := by
    rw [String.length_utf8EncodeChar]
    exact c.utf8Size_le_four
  rw [first?, List.take_append, List.take_of_length_le hlength, List.toByteArray_append]
  exact ByteArray.utf8DecodeChar?_utf8EncodeChar_append

/-- A character at the front of bytes is a piece of its own. -/
theorem pieces_append (c : Char) (rest : List UInt8) :
    pieces (String.utf8EncodeChar c ++ rest) = .character c :: pieces rest := by
  have hfirst := first?_append c rest
  have hdrop : (String.utf8EncodeChar c ++ rest).drop c.utf8Size = rest := by
    rw [← String.length_utf8EncodeChar]
    exact List.drop_left
  cases hbytes : String.utf8EncodeChar c ++ rest with
  | nil => exact absurd (List.append_eq_nil_iff.1 hbytes).1 String.utf8EncodeChar_ne_nil
  | cons byte more =>
    rw [hbytes] at hfirst hdrop
    rw [pieces, hfirst]
    dsimp only
    rw [hdrop]

/-- **The bytes of a text are read as its characters.** -/
theorem pieces_bytes (text : String) : pieces (bytes text) = text.toList.map .character := by
  rw [bytes_eq]
  induction text.toList with
  | nil => rw [List.flatMap_nil, pieces, List.map_nil]
  | cons c cs ih => rw [List.flatMap_cons, pieces_append, ih, List.map_cons]

/-- **A text is the text of its bytes.** -/
theorem lossy_bytes (text : String) : lossy (bytes text) = text := by
  rw [lossy, pieces_bytes, List.map_map]
  exact (congrArg String.ofList (List.map_id _)).trans String.ofList_toList

end Utf8
end InfixCalc

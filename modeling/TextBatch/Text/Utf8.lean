/-!
# Lead-byte widths and UTF-8 decoding

Character positions in this library are counted by lead bytes: a byte announces the width of
the character it starts (`leadWidth`), and a scan that steps by those widths finds the
character starts of any byte string, well-formed or not (`charStarts`, `charCount`). The scan
never looks at continuation bytes, so it is cheap and total on arbitrary bytes.

Beside the scan stands a decoder that follows the UTF-8 grammar. One step (`piece`) reads either
a well-formed sequence with the scalar value it encodes, or a maximal ill-formed subpart: the
longest prefix of a well-formed sequence that the input fails to complete, or a single byte
that starts none. `lossy` replaces each ill-formed subpart by U+FFFD, and `decode?` returns the
text only when there is none.
-/

namespace TextBatch

/-- A string value: a sequence of bytes that need not be valid UTF-8. -/
abbrev Bytes := List UInt8

namespace Utf8

/-- Width of the character a lead byte announces: six bytes from `0xFC`, five from `0xF8`, four
from `0xF0`, three from `0xE0`, two from `0xC0`, and one for every other byte (ASCII and stray
continuation bytes alike). -/
def leadWidth (b : UInt8) : Nat :=
  if 0xFC ≤ b then 6
  else if 0xF8 ≤ b then 5
  else if 0xF0 ≤ b then 4
  else if 0xE0 ≤ b then 3
  else if 0xC0 ≤ b then 2
  else 1

theorem one_le_leadWidth (b : UInt8) : 1 ≤ leadWidth b := by
  unfold leadWidth
  split <;> (try split) <;> (try split) <;> (try split) <;> (try split) <;> omega

/-- Character starts of `s`, as offsets counted from `base`: the first byte starts a character,
and each start is followed by the next one `leadWidth` bytes later, while bytes remain. -/
def startsFrom (base : Nat) : Bytes → List Nat
  | [] => []
  | b :: rest => base :: startsFrom (base + leadWidth b) (rest.drop (leadWidth b - 1))
termination_by s => s.length
decreasing_by simp only [List.length_drop, List.length_cons]; omega

/-- Offsets of the character starts of `s`, found by the lead-byte scan. -/
def charStarts (s : Bytes) : List Nat := startsFrom 0 s

/-- Number of characters of `s` by the lead-byte scan. A truncated last character still
counts as one. -/
def charCount (s : Bytes) : Nat := (charStarts s).length

/-- A continuation byte has the bit pattern `10xxxxxx`. -/
def isCont (b : UInt8) : Bool := 0x80 ≤ b && b ≤ 0xBF

/-- What the bytes at the head of a string encode. -/
inductive Piece where
  /-- A well-formed sequence of `width` bytes that encodes `c`. -/
  | scalar (c : Char) (width : Nat)
  /-- A maximal ill-formed subpart of `width` bytes. -/
  | invalid (width : Nat)
  deriving DecidableEq, Repr

/-- Number of bytes a piece covers. -/
def Piece.width : Piece → Nat
  | .scalar _ w => w
  | .invalid w => w

/-- The character a piece stands for in lossy text: its scalar, or U+FFFD. -/
def Piece.toChar : Piece → Char
  | .scalar c _ => c
  | .invalid _ => '\uFFFD'

/-- Whether a piece is a well-formed sequence. -/
def Piece.isScalar : Piece → Bool
  | .scalar _ _ => true
  | .invalid _ => false

/-- Least and greatest second byte after a lead byte of a three- or four-byte sequence. The
bounds exclude overlong forms (after `0xE0` and `0xF0`), surrogates (after `0xED`) and values
above U+10FFFF (after `0xF4`). -/
def secondRange (lead : UInt8) : UInt8 × UInt8 :=
  if lead = 0xE0 then (0xA0, 0xBF)
  else if lead = 0xED then (0x80, 0x9F)
  else if lead = 0xF0 then (0x90, 0xBF)
  else if lead = 0xF4 then (0x80, 0x8F)
  else (0x80, 0xBF)

/-- Whether `b` may follow `lead` as the second byte of a three- or four-byte sequence. -/
def secondFits (lead b : UInt8) : Bool :=
  (secondRange lead).1 ≤ b && b ≤ (secondRange lead).2

/-- The payload bits of a continuation byte, as a number below 64. -/
def payload (b : UInt8) : Nat := b.toNat % 64

/-- Reads the head `lead :: rest` of a string. -/
def piece (lead : UInt8) (rest : Bytes) : Piece :=
  if lead < 0x80 then .scalar (Char.ofNat lead.toNat) 1
  else if 0xC2 ≤ lead && lead ≤ 0xDF then
    match rest with
    | c :: _ =>
      if isCont c then .scalar (Char.ofNat (lead.toNat % 32 * 64 + payload c)) 2 else .invalid 1
    | [] => .invalid 1
  else if 0xE0 ≤ lead && lead ≤ 0xEF then
    match rest with
    | c1 :: r1 =>
      if secondFits lead c1 then
        match r1 with
        | c2 :: _ =>
          if isCont c2 then
            .scalar (Char.ofNat (lead.toNat % 16 * 4096 + payload c1 * 64 + payload c2)) 3
          else .invalid 2
        | [] => .invalid 2
      else .invalid 1
    | [] => .invalid 1
  else if 0xF0 ≤ lead && lead ≤ 0xF4 then
    match rest with
    | c1 :: r1 =>
      if secondFits lead c1 then
        match r1 with
        | c2 :: r2 =>
          if isCont c2 then
            match r2 with
            | c3 :: _ =>
              if isCont c3 then
                .scalar (Char.ofNat (lead.toNat % 8 * 262144 + payload c1 * 4096 +
                  payload c2 * 64 + payload c3)) 4
              else .invalid 3
            | [] => .invalid 3
          else .invalid 2
        | [] => .invalid 2
      else .invalid 1
    | [] => .invalid 1
  else .invalid 1

/-- The pieces of a string, from its first byte to its last. -/
def pieces : Bytes → List Piece
  | [] => []
  | b :: rest =>
    let p := piece b rest
    p :: pieces (rest.drop (p.width - 1))
termination_by s => s.length
decreasing_by simp only [List.length_drop, List.length_cons]; omega

/-- The text of a string with each ill-formed subpart replaced by U+FFFD. -/
def lossy (s : Bytes) : String := String.ofList ((pieces s).map Piece.toChar)

/-- The text a string encodes, if it is well-formed UTF-8. -/
def decode? (s : Bytes) : Option String :=
  let ps := pieces s
  if ps.all Piece.isScalar then some (String.ofList (ps.map Piece.toChar)) else none

end Utf8

end TextBatch

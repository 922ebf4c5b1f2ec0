import TextBatch.Text.Utf8
import TextBatch.Error

/-!
# Substring spans

`Span.select s pos len` decides which bytes of the row `s` a substring call with 1-based
character position `pos` and character count `len` selects. Characters are the ones the
lead-byte scan finds (`Utf8.charStarts`); a negative position counts from the last character.

The decisions come in a fixed order, and the order is visible:

1. a position beyond the byte length of the row is NULL, whatever the count;
2. a count of zero or less, an empty row, or position zero select the empty string;
3. a position beyond the character count is NULL, one before the first character is empty;
4. otherwise the span runs from the position's character start for `len` characters, or to
   the end of the row when fewer remain.

Positions and counts are unbounded integers here; callers pass 32-bit values.

A row is resolved by `resolve`, which makes the same decisions the way a substring call makes
them row after row: after the first two it clears a scratch list of character starts and
refills it by a scan that stops, for a positive position, once the list holds one start more
than `pos + len` (`scan`); the rest of the decision reads that list (`pick`), and a read past
its end fails. The scratch list is handed on to the next row.
-/

namespace TextBatch

/-- The part of a row that a substring call selects. -/
inductive Span where
  /-- The call yields NULL. -/
  | null
  /-- The call yields the empty string. -/
  | empty
  /-- The call yields `len` bytes from offset `start`. -/
  | bytes (start len : Nat)
  deriving DecidableEq, Repr

namespace Span

/-- The span that position `pos` and count `len` select in `s`, in the order of the module
header. -/
def select (s : Bytes) (pos len : Int) : Span :=
  let size : Int := s.length
  if pos > size then .null
  else if len ≤ 0 ∨ size = 0 ∨ pos = 0 then .empty
  else
    let starts := Utf8.charStarts s
    let count : Int := starts.length
    let p := if pos < 0 then count + pos + 1 else pos
    if p > count then .null
    else if p < 1 then .empty
    else
      let start := starts.getD (p - 1).toNat 0
      let stop := if p + len ≤ count then starts.getD (p + len - 1).toNat 0 else s.length
      if stop ≤ start then .empty else .bytes start (stop - start)

/-- The character starts of `raw` from `offset` on, appended to `index`, one step of
`Utf8.leadWidth` at a time while bytes remain. With a positive position the scan stops right
after the start that makes `index` longer than `pos + len`. -/
def scan (raw : Bytes) (pos len : Int) (offset : Nat) (index : List Nat) : List Nat :=
  if h : offset < raw.length then
    let index := index ++ [offset]
    if pos > 0 ∧ (index.length : Int) > pos + len then index
    else scan raw pos len (offset + Utf8.leadWidth raw[offset]) index
  else index
termination_by raw.length - offset
decreasing_by have := Utf8.one_le_leadWidth raw[offset]; omega

/-- The decision that follows the scan, over the starts `index` it found in a row of `size`
bytes: the position resolved against their number, then the span between two of them. -/
def pick (size : Nat) (index : List Nat) (pos len : Int) : Except Error Span :=
  let count : Int := index.length
  let fixedPos := if pos < 0 then count + pos + 1 else pos
  if fixedPos > count then .ok .null
  else if fixedPos < 1 then .ok .empty
  else do
    let start ← readAt index (fixedPos - 1).toNat
    let stop ← if fixedPos + len ≤ count then readAt index (fixedPos + len - 1).toNat
      else pure size
    if stop ≤ start then pure .empty else pure (.bytes start (stop - start))

/-- Resolves position `pos` and count `len` in the row `raw` with the scratch list `index`:
the span, and the list as the call leaves it. -/
def resolve (raw : Bytes) (pos len : Int32) (index : List Nat) :
    Except Error (Span × List Nat) :=
  let size : Int := raw.length
  if pos.toInt > size then .ok (.null, index)
  else if len.toInt ≤ 0 ∨ size = 0 ∨ pos.toInt = 0 then .ok (.empty, index)
  else
    let index := scan raw pos.toInt len.toInt 0 []
    (pick raw.length index pos.toInt len.toInt).map (·, index)

/-- The bytes a span stands for in `s`, or `none` for NULL. -/
def slice (s : Bytes) : Span → Option Bytes
  | .null => none
  | .empty => some []
  | .bytes start len => some ((s.drop start).take len)

end Span

end TextBatch

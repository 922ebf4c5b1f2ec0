import TextBatch.Error
import TextBatch.Text.Utf8

/-!
# String columns

A string column is a list of byte strings, one per row. Stored, it is packed: one arena of bytes
in which every row is followed by a 0 byte, and the offset at which each row's terminator ends.
`arena` and `offsets` write that form, and `ofRawParts?` reads it back, refusing offsets that do
not increase, a row without its terminator, or an arena that runs past the last offset. A row
may itself hold 0 bytes: only the offsets say where rows end.

Rows are read two ways: `value` answers the empty string past the last row, while `read`
refuses such a row with `indexOutOfBounds`, as every reader of a stored column must. A row's
length is read off the packed form (`valueLen`).
-/

namespace TextBatch

/-- A column of byte strings. -/
structure StringColumn where
  /-- The values, row 0 first. -/
  rows : List Bytes
  deriving DecidableEq, Repr, Inhabited

/-- `v` written `times` times back to back. An empty value gives the empty string at once,
however large `times` is (`repeatBytes_eq`). -/
def repeatBytes (v : Bytes) (times : Nat) : Bytes :=
  if v.isEmpty then [] else (List.replicate times v).flatten

theorem repeatBytes_eq (v : Bytes) (times : Nat) :
    repeatBytes v times = (List.replicate times v).flatten := by
  unfold repeatBytes
  split
  · next h =>
    rw [List.isEmpty_iff] at h
    subst h
    simp
  · rfl

namespace StringColumn

/-- Number of rows. -/
def length (c : StringColumn) : Nat := c.rows.length

/-- The value of row `i`; empty past the end. -/
def value (c : StringColumn) (i : Nat) : Bytes := c.rows.getD i []

/-- The value of row `i`, refused past the last row. -/
def read (c : StringColumn) (i : Nat) : Except Error Bytes := readAt c.rows i

/-- Total length of a list of byte strings. -/
def totalLength : List Bytes → Nat
  | [] => 0
  | r :: rs => r.length + totalLength rs

/-- Total bytes of all values, terminators not counted. -/
def payloadBytes (c : StringColumn) : Nat := totalLength c.rows

/-- The packed arena: every row followed by a 0 byte. -/
def arena (c : StringColumn) : Bytes := c.rows.flatMap (fun r => r ++ [0])

/-- End offsets of rows packed from offset `start` on, each counting the row's terminator. -/
def offsetsFrom (start : Nat) : List Bytes → List Nat
  | [] => []
  | r :: rs => (start + r.length + 1) :: offsetsFrom (start + r.length + 1) rs

/-- End offsets of the packed rows, each counting the row's terminator. -/
def offsets (c : StringColumn) : List Nat := offsetsFrom 0 c.rows

/-- Where row `i` starts in the packed arena: where row `i - 1` ends, and 0 for the first. -/
def startOf (offsets : List Nat) (i : Nat) : Nat :=
  if i = 0 then 0 else offsets.getD (i - 1) 0

/-- The byte length of row `i`, read off the packed form: its end offset less its start and its
terminator. Past the last row the read is refused, and a subtraction that would go below 0
stops the program. -/
def valueLen (c : StringColumn) (i : Nat) : Except Error Nat := do
  let stop ← readAt c.offsets i
  let start := startOf c.offsets i
  if stop < start + 1 then .error (.arithmeticOverflow "subtract") else .ok (stop - start - 1)

/-- Reads the rows of a packed arena from row `row` on, the previous row ending at `prev`. -/
def unpackFrom (chars : Bytes) (row prev : Nat) : List Nat → Except Error (List Bytes)
  | [] => if prev = chars.length then .ok [] else .error (.arenaLength chars.length prev)
  | stop :: rest =>
    if stop ≤ prev ∨ chars.length < stop then .error (.offsetsNotIncreasing row stop prev)
    else if chars.getD (stop - 1) 0 ≠ 0 then .error (.missingTerminator row)
    else
      match unpackFrom chars (row + 1) stop rest with
      | .ok rows => .ok (((chars.take (stop - 1)).drop prev) :: rows)
      | .error e => .error e

/-- The column whose packed form is `chars` with end offsets `offsets`, if they form one. -/
def ofRawParts? (chars : Bytes) (offsets : List Nat) : Except Error StringColumn :=
  match unpackFrom chars 0 0 offsets with
  | .ok rows => .ok ⟨rows⟩
  | .error e => .error e

/-- Adds a row. -/
def push (c : StringColumn) (v : Bytes) : StringColumn := ⟨c.rows ++ [v]⟩

/-- Adds an empty row. -/
def pushEmpty (c : StringColumn) : StringColumn := c.push []

/-- Adds the parts written back to back as one row. -/
def pushConcat (c : StringColumn) (parts : List Bytes) : StringColumn := c.push parts.flatten

/-- Adds the parts as one row, with `sep` between neighbours. -/
def pushJoined (c : StringColumn) (sep : Bytes) (parts : List Bytes) : StringColumn :=
  c.push (sep.intercalate parts)

/-- Adds `v` repeated `times` times as one row. -/
def pushRepeated (c : StringColumn) (v : Bytes) (times : Nat) : StringColumn :=
  c.push (repeatBytes v times)

/-- A column of `n` copies of row `row`. -/
def replicateRow (c : StringColumn) (row n : Nat) : StringColumn :=
  ⟨List.replicate n (c.value row)⟩

/-- A column of `n` copies of row `row`, refused when there is no such row, even for no
copies. -/
def replicateRow? (c : StringColumn) (row n : Nat) : Except Error StringColumn :=
  (c.read row).map fun v => ⟨List.replicate n v⟩

/-- The text of row `i`, if it is well-formed UTF-8. -/
def text? (c : StringColumn) (i : Nat) : Option String := Utf8.decode? (c.value i)

theorem read_eq_ok {c : StringColumn} {i : Nat} (h : i < c.length) : c.read i = .ok (c.value i) := by
  unfold length at h
  simp [read, readAt, value, List.getElem?_eq_getElem h, List.getD_eq_getElem?_getD]

theorem length_offsetsFrom (start : Nat) (rs : List Bytes) :
    (offsetsFrom start rs).length = rs.length := by
  induction rs generalizing start with
  | nil => rfl
  | cons r rs ih => simp [offsetsFrom, ih]

@[simp] theorem rows_push (c : StringColumn) (v : Bytes) : (c.push v).rows = c.rows ++ [v] := rfl

@[simp] theorem length_push (c : StringColumn) (v : Bytes) : (c.push v).length = c.length + 1 := by
  simp [length]

@[simp] theorem length_replicateRow (c : StringColumn) (row n : Nat) :
    (c.replicateRow row n).length = n := by
  simp [replicateRow, length]

theorem length_offsets (c : StringColumn) : c.offsets.length = c.length :=
  length_offsetsFrom 0 c.rows

end StringColumn

end TextBatch

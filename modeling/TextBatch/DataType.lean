/-!
# Column types

A column holds unsigned bytes, 32- or 64-bit signed integers, or byte strings, and any of them
may carry a NULL overlay, written `NULLABLE(t)`. Types nest in inputs
(`NULLABLE(NULLABLE(INT64))`), while the type of a column built by this library carries at most
one layer: `makeNullable` adds a layer only to a type without one.

The text of a type is `render`; `parse?` reads it back, and `parse?_render` says that every
type reads back from its text.
-/

namespace TextBatch

/-- The type of a column. -/
inductive DataType where
  /-- Unsigned bytes, also used for 0/1 answers of tests. -/
  | uint8
  /-- 32-bit signed integers. -/
  | int32
  /-- 64-bit signed integers. -/
  | int64
  /-- Byte strings. -/
  | string
  /-- Values of `inner` under a NULL overlay. -/
  | nullable (inner : DataType)
  deriving DecidableEq, Repr, Inhabited

namespace DataType

/-- The text of a type: `UINT8`, `INT32`, `INT64`, `STRING` or `NULLABLE(inner)`. -/
def render : DataType → String
  | .uint8 => "UINT8"
  | .int32 => "INT32"
  | .int64 => "INT64"
  | .string => "STRING"
  | .nullable t => "NULLABLE(" ++ t.render ++ ")"

instance : ToString DataType := ⟨render⟩

/-- Reads a type from the characters of its text. -/
def ofChars? : List Char → Option DataType
  | ['U', 'I', 'N', 'T', '8'] => some .uint8
  | ['I', 'N', 'T', '3', '2'] => some .int32
  | ['I', 'N', 'T', '6', '4'] => some .int64
  | ['S', 'T', 'R', 'I', 'N', 'G'] => some .string
  | 'N' :: 'U' :: 'L' :: 'L' :: 'A' :: 'B' :: 'L' :: 'E' :: '(' :: rest =>
    if rest.getLast? = some ')' then (ofChars? rest.dropLast).map .nullable else none
  | _ => none
termination_by cs => cs.length
decreasing_by simp only [List.length_dropLast, List.length_cons]; omega

/-- Reads a type from its text. -/
def parse? (s : String) : Option DataType := ofChars? s.toList

/-- Whether the type carries a NULL overlay at its top. -/
def isNullable : DataType → Bool
  | .nullable _ => true
  | _ => false

/-- Adds a NULL overlay unless the type has one already. -/
def makeNullable (t : DataType) : DataType :=
  if t.isNullable then t else .nullable t

/-- The type under every NULL overlay. -/
def removeNullable : DataType → DataType
  | .nullable t => t.removeNullable
  | t => t

/-- Whether the values under every overlay are integers of some width. -/
def isInteger (t : DataType) : Bool :=
  match t.removeNullable with
  | .uint8 | .int32 | .int64 => true
  | _ => false

/-- Whether the values under every overlay are byte strings. -/
def isString (t : DataType) : Bool :=
  t.removeNullable == .string

theorem ofChars?_render (t : DataType) : ofChars? t.render.toList = some t := by
  induction t with
  | nullable t ih => simp [render, ofChars?, ih]
  | _ => simp [render, ofChars?]

theorem parse?_render (t : DataType) : parse? t.render = some t := ofChars?_render t

end DataType

end TextBatch

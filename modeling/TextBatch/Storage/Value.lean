import TextBatch.Text.Utf8

/-!
# Cell values

One cell of a column, as a reader sees it: NULL, a number of the column's width, or a byte
string. `render` writes a value for people: `NULL`, the number in decimal, or the string in
single quotes, with each ill-formed UTF-8 subpart shown as U+FFFD.
-/

namespace TextBatch

/-- One cell of a column. -/
inductive Value where
  /-- The cell is NULL. -/
  | null
  /-- An unsigned byte. -/
  | uint8 (v : UInt8)
  /-- A 32-bit signed integer. -/
  | int32 (v : Int32)
  /-- A 64-bit signed integer. -/
  | int64 (v : Int64)
  /-- A byte string. -/
  | bytes (b : Bytes)
  deriving DecidableEq, Repr, Inhabited

namespace Value

/-- The value for people to read. -/
def render : Value → String
  | .null => "NULL"
  | .uint8 v => toString v.toNat
  | .int32 v => toString v.toInt
  | .int64 v => toString v.toInt
  | .bytes b => "\x27" ++ Utf8.lossy b ++ "\x27"

end Value

end TextBatch

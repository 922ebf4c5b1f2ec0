import TextBatch.DataType
import TextBatch.Storage.NullMap
import TextBatch.Storage.StringColumn
import TextBatch.Storage.Value

/-!
# Columns

A column is a list of bytes, of 32- or 64-bit integers or of byte strings; or such a column
under a null map (`nullable`); or one value repeated over `len` rows (`const`), whose value is a
one-row column.

The checked constructors `withNulls?` and `constant?` refuse what a well-formed column never
holds: a null map over a nullable or constant column or of another length, and a constant
whose value does not have exactly one row. Reading a row (`get`) fails only past the last row;
a nullable column reads its flag first and a constant reads its one value. Copying a row
(`replicate?`) fails with `indexOutOfBounds` when the row is not there, even for no copies.
With the debug checks on, masking rows (`maskChecked`) and finishing a nullable string column
(`finishNullable`) assert that the null map has a flag for each row, and stop the program when
it does not. Every other operation is total.
-/

namespace TextBatch

/-- A column of values. -/
inductive Column where
  /-- Unsigned bytes. -/
  | uint8 (values : List UInt8)
  /-- 32-bit signed integers. -/
  | int32 (values : List Int32)
  /-- 64-bit signed integers. -/
  | int64 (values : List Int64)
  /-- Byte strings. -/
  | string (values : StringColumn)
  /-- `nested` with a null map laid over it. -/
  | nullable (nested : Column) (nulls : NullMap)
  /-- The one row of `value`, repeated `len` times. -/
  | const (value : Column) (len : Nat)
  deriving DecidableEq, Repr, Inhabited

namespace Column

/-- Number of rows. -/
def length : Column → Nat
  | .uint8 vs => vs.length
  | .int32 vs => vs.length
  | .int64 vs => vs.length
  | .string s => s.length
  | .nullable nested _ => nested.length
  | .const _ len => len

/-- The type of the column's values. -/
def dataType : Column → DataType
  | .uint8 _ => .uint8
  | .int32 _ => .int32
  | .int64 _ => .int64
  | .string _ => .string
  | .nullable nested _ => nested.dataType.makeNullable
  | .const value _ => value.dataType

/-- Whether the column can hold NULL: it has a null map, or is a constant of one that has. -/
def isNullable : Column → Bool
  | .nullable _ _ => true
  | .const value _ => value.isNullable
  | _ => false

/-- Whether the column is a constant. -/
def isConst : Column → Bool
  | .const _ _ => true
  | _ => false

/-- Whether row `row` is NULL: the flag of a null map (set past its end), the one value of a
constant, and never for a plain column. -/
def isNullAt : Column → Nat → Bool
  | .nullable _ nulls, row => nulls.isNull row
  | .const value _, _ => value.isNullAt 0
  | _, _ => false

/-- Whether the column is a constant NULL. -/
def isConstNull : Column → Bool
  | .const value _ => value.isNullAt 0
  | _ => false

/-- The cell at `row`, or an error past the last row. -/
def get (c : Column) (row : Nat) : Except Error Value :=
  if row < c.length then
    match c with
    | .uint8 vs => .ok (.uint8 (vs.getD row 0))
    | .int32 vs => .ok (.int32 (vs.getD row 0))
    | .int64 vs => .ok (.int64 (vs.getD row 0))
    | .string s => .ok (.bytes (s.value row))
    | .nullable nested nulls => if nulls.isNull row then .ok .null else nested.get row
    | .const value _ => value.get 0
  else .error (.rowOutOfRange row c.length)

/-- The column under its null map, and the map; a column without one comes back whole. -/
def unwrapNullable : Column → Column × Option NullMap
  | .nullable nested nulls => (nested, some nulls)
  | c => (c, none)

/-- The column able to hold NULL: a nullable column as it is, a constant with its value made
nullable, and any other column under a map without NULLs. -/
def makeNullable : Column → Column
  | .nullable nested nulls => .nullable nested nulls
  | .const value len => .const value.makeNullable len
  | c => .nullable c (NullMap.allValid c.length)

/-- A column of `n` copies of row `row`. A nullable row's copies share its flag, and a
constant copies its one value. -/
def replicate : Column → Nat → Nat → Column
  | .uint8 vs, row, n => .uint8 (List.replicate n (vs.getD row 0))
  | .int32 vs, row, n => .int32 (List.replicate n (vs.getD row 0))
  | .int64 vs, row, n => .int64 (List.replicate n (vs.getD row 0))
  | .string s, row, n => .string (s.replicateRow row n)
  | .nullable nested nulls, row, n =>
    .nullable (nested.replicate row n)
      (if nulls.isNull row then NullMap.allNull n else NullMap.allValid n)
  | .const value _, _, n => value.replicate 0 n

/-- Whether `replicate` finds row `row`: a plain column holds it, a nullable column when its
values do, and a constant reads its one value whatever the row. -/
def holdsRow : Column → Nat → Bool
  | .const value _, _ => value.holdsRow 0
  | .nullable nested _, row => nested.holdsRow row
  | c, row => decide (row < c.length)

/-- A column of `n` copies of row `row`, refused when the row is not there (`holdsRow`), even
for no copies. -/
def replicate? (c : Column) (row n : Nat) : Except Error Column :=
  if c.holdsRow row then .ok (c.replicate row n) else .error (.indexOutOfBounds row c.length)

/-- The column with a constant spelled out row by row; others unchanged. -/
def toFull : Column → Column
  | .const value len => value.replicate 0 len
  | c => c

/-- A plain column with every row that `nulls` flags reset to 0 or the empty string. Nullable
and constant columns are unchanged. -/
def maskNulls (c : Column) (nulls : NullMap) : Column :=
  match c with
  | .uint8 vs => .uint8 (vs.mapIdx fun i v => if nulls.isNull i then 0 else v)
  | .int32 vs => .int32 (vs.mapIdx fun i v => if nulls.isNull i then 0 else v)
  | .int64 vs => .int64 (vs.mapIdx fun i v => if nulls.isNull i then 0 else v)
  | .string s => .string ⟨s.rows.mapIdx fun i v => if nulls.isNull i then [] else v⟩
  | c => c

/-- `maskNulls` as the library runs it: with `checks` on, it asserts that `nulls` has a flag for
each row. -/
def maskChecked (c : Column) (checks : Bool) (nulls : NullMap) : Except Error Column :=
  if checks ∧ c.length ≠ nulls.length then .error (.lengthsDiffer c.length nulls.length)
  else .ok (c.maskNulls nulls)

/-- The nullable string column a builder finishes with, the strings `values` under `nulls`: with
`checks` on, it asserts that `nulls` has a flag for each row. -/
def finishNullable (checks : Bool) (values : StringColumn) (nulls : NullMap) :
    Except Error Column :=
  if checks ∧ values.length ≠ nulls.length then
    .error (.lengthsDiffer values.length nulls.length)
  else .ok (.nullable (.string values) nulls)

/-- The strings of a plain string column. -/
def asString : Column → Except Error StringColumn
  | .string s => .ok s
  | c => .error (.typeMismatch "STRING" c.dataType.render)

/-- The bytes of a plain byte column. -/
def asUInt8 : Column → Except Error (List UInt8)
  | .uint8 vs => .ok vs
  | c => .error (.typeMismatch "UINT8" c.dataType.render)

/-- The integers of a plain 32-bit column. -/
def asInt32 : Column → Except Error (List Int32)
  | .int32 vs => .ok vs
  | c => .error (.typeMismatch "INT32" c.dataType.render)

/-- The integers of a plain 64-bit column. -/
def asInt64 : Column → Except Error (List Int64)
  | .int64 vs => .ok vs
  | c => .error (.typeMismatch "INT64" c.dataType.render)

/-- `nested` under `nulls`, refused when `nested` is nullable or constant, or when the lengths
differ. -/
def withNulls? (nested : Column) (nulls : NullMap) : Except Error Column :=
  if nested.isNullable || nested.isConst then .error (.nestedNullMap nested.dataType)
  else if nested.length ≠ nulls.length then .error (.nullMapLength nulls.length nested.length)
  else .ok (.nullable nested nulls)

/-- The one row of `value` repeated `len` times, refused unless `value` has exactly one row. A
constant value gives up its own value. -/
def constant? (value : Column) (len : Nat) : Except Error Column :=
  if value.length ≠ 1 then .error (.constantRows value.length)
  else match value with
    | .const inner _ => .ok (.const inner len)
    | v => .ok (.const v len)

/-- The string `v` repeated `len` times. -/
def constString (v : Bytes) (len : Nat) : Column := .const (.string ⟨[v]⟩) len

/-- The integer `v` repeated `len` times. -/
def constInt32 (v : Int32) (len : Nat) : Column := .const (.int32 [v]) len

/-- `rows` zeros or empty strings of the type under every overlay of `t`. -/
def defaultOf (t : DataType) (rows : Nat) : Column :=
  match t.removeNullable with
  | .uint8 => .uint8 (List.replicate rows 0)
  | .int32 => .int32 (List.replicate rows 0)
  | .int64 => .int64 (List.replicate rows 0)
  | _ => .string ⟨List.replicate rows []⟩

/-- A constant NULL of the type under every overlay of `t`. -/
def constNull (t : DataType) (len : Nat) : Column :=
  .const (.nullable (defaultOf t 1) (NullMap.allNull 1)) len

/-- Whether the column is one the checked constructors build: a null map lies over a plain
column of its own length, and a constant's value is one row of a column that is not itself
constant. -/
def wellFormed : Column → Bool
  | .nullable nested nulls =>
    nested.wellFormed && !nested.isNullable && !nested.isConst && nulls.length == nested.length
  | .const value _ => value.wellFormed && value.length == 1 && !value.isConst
  | _ => true

/-- A nullable string column of the given rows; a missing row is NULL over an empty string. -/
def ofOptionalStrings (vs : List (Option Bytes)) : Column :=
  .nullable (.string ⟨vs.map fun v => v.getD []⟩) (NullMap.ofFlags (vs.map Option.isNone))

@[simp] theorem length_replicate (c : Column) (row n : Nat) : (c.replicate row n).length = n := by
  induction c generalizing row with
  | nullable nested nulls ih => simp [replicate, length, ih]
  | const value len ih => simp [replicate, ih]
  | string s => simp [replicate, length]
  | _ => simp [replicate, length]

@[simp] theorem length_toFull (c : Column) : c.toFull.length = c.length := by
  cases c <;> simp [toFull, length]

@[simp] theorem length_makeNullable (c : Column) : c.makeNullable.length = c.length := by
  cases c <;> simp [makeNullable, length]

@[simp] theorem length_maskNulls (c : Column) (nulls : NullMap) :
    (c.maskNulls nulls).length = c.length := by
  cases c <;> simp [maskNulls, length, StringColumn.length]

end Column

end TextBatch

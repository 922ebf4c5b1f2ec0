import TextBatch.Function.Argument

/-!
# Lengths and tests

Functions that answer a number per row: the byte length and the character count of a string
(`length`, `char_length`, capped at `int32Max`), whether one string starts or ends with
another (`starts_with`, `ends_with`, as 0 or 1), and whether a row is NULL or empty
(`null_or_empty`, which reads the null map itself and is never NULL).
-/

namespace TextBatch

namespace Measure

/-- A length as a 32-bit integer, capped at `int32Max`. -/
def capped (n : Nat) : Int32 := Int32.ofNat (min n int32Max)

/-- Row `r` of a length: `measure` of the row's string, capped. -/
def lengthRow (measure : Bytes → Nat) (strings : StringColumn) (r : Nat) :
    Except Error Int32 := do
  pure (capped (measure (← strings.read r)))

/-- Per-row lengths `measure` of the strings at the first argument. -/
def lengthResult (function : String) (measure : Bytes → Nat) (b : Block) (args : List Nat)
    (rows : Nat) : Except Error Column := do
  let strings ← (← b.full (← readAt args 0)).strings function
  let out ← (List.range rows).mapM (lengthRow measure strings)
  pure (.int32 out)

/-- Row `r` of a test: 1 when `test` holds of the row's two strings, else 0. -/
def testRow (test : Bytes → Bytes → Bool) (left right : StringColumn) (r : Nat) :
    Except Error UInt8 := do
  let s ← left.read r
  let t ← right.read r
  pure (if test s t then 1 else 0)

/-- Per-row 0/1 answers of `test` on the strings at the first and at the second argument. -/
def testResult (function : String) (test : Bytes → Bytes → Bool) (b : Block) (args : List Nat)
    (rows : Nat) : Except Error Column := do
  let sc ← b.full (← readAt args 0)
  let tc ← b.full (← readAt args 1)
  let left ← sc.strings function
  let right ← tc.strings function
  let out ← (List.range rows).mapM (testRow test left right)
  pure (.uint8 out)

/-- Row `r` of `null_or_empty`: 1 when the row is NULL, without reading it, or empty. -/
def nullOrEmptyRow (nulls : Option NullMap) (strings : StringColumn) (r : Nat) :
    Except Error UInt8 :=
  if NullMap.flagged nulls r then pure 1 else do
    let s ← strings.read r
    pure (if s.isEmpty then 1 else 0)

/-- Per-row 0/1 answers: 1 where the string at the first argument is NULL or empty. A NULL row
is not read. -/
def nullOrEmptyResult (b : Block) (args : List Nat) (rows : Nat) : Except Error Column := do
  let (c, nulls) ← b.unpack (← readAt args 0)
  let strings ← c.strings "null_or_empty"
  let out ← (List.range rows).mapM (nullOrEmptyRow nulls strings)
  pure (.uint8 out)

end Measure

/-- `length(s)`, in bytes. -/
def runLength (args : List Nat) (result rows : Nat) : BlockM Unit := do
  let col ← BlockM.lift (Measure.lengthResult "length" List.length (← get) args rows)
  BlockM.setColumn result col

/-- `char_length(s)`, in characters by lead bytes. -/
def runCharLength (args : List Nat) (result rows : Nat) : BlockM Unit := do
  let col ← BlockM.lift
    (Measure.lengthResult "char_length" Utf8.charCount (← get) args rows)
  BlockM.setColumn result col

/-- `starts_with(s, prefix)`. -/
def runStartsWith (args : List Nat) (result rows : Nat) : BlockM Unit := do
  let col ← BlockM.lift (Measure.testResult "starts_with" (fun s t => t.isPrefixOf s) (← get)
    args rows)
  BlockM.setColumn result col

/-- `ends_with(s, suffix)`. -/
def runEndsWith (args : List Nat) (result rows : Nat) : BlockM Unit := do
  let col ← BlockM.lift (Measure.testResult "ends_with" (fun s t => t.isSuffixOf s) (← get)
    args rows)
  BlockM.setColumn result col

/-- `null_or_empty(s)`. -/
def runNullOrEmpty (args : List Nat) (result rows : Nat) : BlockM Unit := do
  let col ← BlockM.lift (Measure.nullOrEmptyResult (← get) args rows)
  BlockM.setColumn result col

end TextBatch

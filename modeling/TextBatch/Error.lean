import TextBatch.DataType

/-!
# Errors

Every failure of the library is an `Error`, one constructor per cause, carrying the data its
text mentions. Causes fall into ten classes (`ErrorKind`), and `Error.message` writes the text
of each: the class's own words around the cause's details.

One class stands apart: `outOfBounds` is where the program stops rather than report
an error: a read past the end of a list of rows or of arguments, an assertion between its parts
that fails, or machine arithmetic that overflows. The checked paths of the library never reach
it; a function run on its own, with a row count beyond its columns or with too few arguments,
does, and then nothing else of the call is reported.
-/

namespace TextBatch

/-- The class of an error. -/
inductive ErrorKind where
  /-- A value of another type was expected. -/
  | typeMismatch
  /-- A function was called with a number of arguments it does not take. -/
  | invalidArgumentCount
  /-- No function is registered under a name. -/
  | functionNotFound
  /-- A result would exceed a size limit. -/
  | overflow
  /-- A row or a block entry that does not exist, or holds no column. -/
  | columnNotFound
  /-- Row counts that should agree do not. -/
  | schemaMismatch
  /-- An argument of a registry operation is refused. -/
  | invalidArgument
  /-- A function refused the columns it was given. -/
  | execution
  /-- A broken promise between parts of the library. -/
  | internal
  /-- The program stops: a read past the end of a list of rows or of arguments, a failed
  assertion, or machine arithmetic that overflows. -/
  | outOfBounds
  deriving DecidableEq, Repr

/-- Why an operation failed. -/
inductive Error where
  /-- `expected` was needed where `actual` was found. -/
  | typeMismatch (expected actual : String)
  /-- `function` takes `expected` arguments and was given `actual`. -/
  | argumentCount (function expected : String) (actual : Nat)
  /-- No function is registered under `name`. -/
  | unknownFunction (name : String)
  /-- `function` would write `times` copies of `size` bytes, more than `limit`. -/
  | resultTooLong (function : String) (times size limit : Nat)
  /-- The output of `function` would take more bytes than a machine-sized count holds. -/
  | addressSpace (function : String)
  /-- Row `row` of a column of `len` rows was asked for. -/
  | rowOutOfRange (row len : Nat)
  /-- Entry `pos` of a block of `entries` entries was asked for. -/
  | positionOutOfRange (pos entries : Nat)
  /-- The entry `name` at `pos` is a result slot that holds no column yet. -/
  | emptySlot (name : String) (pos : Nat)
  /-- A column of `column` rows was offered to a block of `block` rows. -/
  | rowCountMismatch (column block : Nat)
  /-- A null map of `flags` flags was laid over a column of `rows` rows. -/
  | nullMapLength (flags rows : Nat)
  /-- An argument of `function` at `pos` has `rows` rows instead of `expected`. -/
  | argumentRows (function : String) (pos rows expected : Nat)
  /-- An alias must have at least one character. -/
  | emptyAlias
  /-- An alias was asked for a name that is not registered. -/
  | unknownAliasTarget (target : String)
  /-- `function` cannot read a column of type `type`. -/
  | unsupportedArgument (function : String) (type : DataType)
  /-- `function` needs a string and an integer column and got something else. -/
  | unsupportedRepeatArguments (function : String)
  /-- A column of type `type` cannot take a null map: it is nullable or constant already. -/
  | nestedNullMap (type : DataType)
  /-- A constant needs a one-row value and got `rows` rows. -/
  | constantRows (rows : Nat)
  /-- The end offset `stop` of row `row` does not lie after `prev`, or lies past the arena. -/
  | offsetsNotIncreasing (row stop prev : Nat)
  /-- Row `row` of a packed string column does not end in a 0 byte. -/
  | missingTerminator (row : Nat)
  /-- A packed string arena of `bytes` bytes ends after the last offset `stop`. -/
  | arenaLength (bytes stop : Nat)
  /-- `function` returned without filling its result slot. -/
  | resultNotWritten (function : String)
  /-- `function` wrote `rows` rows where `expected` were due. -/
  | resultRows (function : String) (rows expected : Nat)
  /-- Position `index` of a list of `length` rows or arguments was read. -/
  | indexOutOfBounds (index length : Nat)
  /-- Two lengths asserted equal are `left` and `right`. -/
  | lengthsDiffer (left right : Nat)
  /-- Machine arithmetic, `operation` (add, multiply or subtract), overflowed. -/
  | arithmeticOverflow (operation : String)
  deriving DecidableEq, Repr

namespace Error

/-- The class of an error. -/
def kind : Error → ErrorKind
  | .typeMismatch .. => .typeMismatch
  | .argumentCount .. => .invalidArgumentCount
  | .unknownFunction .. => .functionNotFound
  | .resultTooLong .. | .addressSpace .. => .overflow
  | .rowOutOfRange .. | .positionOutOfRange .. | .emptySlot .. => .columnNotFound
  | .rowCountMismatch .. | .nullMapLength .. | .argumentRows .. => .schemaMismatch
  | .emptyAlias | .unknownAliasTarget .. => .invalidArgument
  | .unsupportedArgument .. | .unsupportedRepeatArguments .. => .execution
  | .nestedNullMap .. | .constantRows .. | .offsetsNotIncreasing .. | .missingTerminator ..
  | .arenaLength .. | .resultNotWritten .. | .resultRows .. => .internal
  | .indexOutOfBounds .. | .lengthsDiffer .. | .arithmeticOverflow .. => .outOfBounds

/-- The text of an error. -/
def message : Error → String
  | .typeMismatch expected actual => s!"type mismatch: expected {expected}, got {actual}"
  | .argumentCount function expected actual =>
    s!"{function} expects {expected} arguments, got {actual}"
  | .unknownFunction name => s!"Function not found: {name}"
  | .resultTooLong function times size limit =>
    s!"Overflow: {function} result of {times} x {size} bytes exceeds the {limit} byte limit"
  | .addressSpace function => s!"Overflow: {function} output size exceeds addressable memory"
  | .rowOutOfRange row len => s!"Column not found: row {row} out of bounds (len: {len})"
  | .positionOutOfRange pos entries =>
    s!"Column not found: position {pos} out of bounds ({entries} columns)"
  | .emptySlot name pos => s!"Column not found: column \x27{name}\x27 at position {pos} has no data"
  | .rowCountMismatch column block => s!"Schema mismatch: column has {column} rows, block has {block}"
  | .nullMapLength flags rows => s!"Schema mismatch: null map has {flags} rows, column has {rows}"
  | .argumentRows function pos rows expected =>
    s!"Schema mismatch: {function} argument at position {pos} has {rows} rows, expected {expected}"
  | .emptyAlias => "Invalid argument: function alias must not be empty"
  | .unknownAliasTarget target => s!"Invalid argument: cannot alias unknown function {target}"
  | .unsupportedArgument function type =>
    s!"Execution error in {function}: unsupported argument type {type} for {function}"
  | .unsupportedRepeatArguments function =>
    s!"Execution error in {function}: unsupported argument type for repeat"
  | .nestedNullMap type => s!"Internal error: cannot wrap {type} column in a null map"
  | .constantRows rows => s!"Internal error: constant column needs exactly one row, got {rows}"
  | .offsetsNotIncreasing row stop prev =>
    s!"Internal error: string offsets not increasing at row {row}: {stop} after {prev}"
  | .missingTerminator row => s!"Internal error: string row {row} is missing its terminator"
  | .arenaLength bytes stop =>
    s!"Internal error: string arena has {bytes} bytes but offsets end at {stop}"
  | .resultNotWritten function => s!"Internal error: {function} did not write its result column"
  | .resultRows function rows expected =>
    s!"Internal error: {function} produced {rows} rows, expected {expected}"
  | .indexOutOfBounds index length =>
    s!"index out of bounds: the len is {length} but the index is {index}"
  | .lengthsDiffer left right => s!"assertion left == right failed: left {left}, right {right}"
  | .arithmeticOverflow operation => s!"attempt to {operation} with overflow"

end Error

/-- Position `i` of `vs`, or `indexOutOfBounds` past the end. -/
def readAt {α : Type} (vs : List α) (i : Nat) : Except Error α :=
  match vs[i]? with
  | some v => .ok v
  | none => .error (.indexOutOfBounds i vs.length)

end TextBatch

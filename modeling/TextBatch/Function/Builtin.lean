import TextBatch.Error
import TextBatch.Function.Arity

/-!
# The built-in string functions

Thirteen functions, each with a name, an arity, two policies and a rule for its result type.

* A function that strips NULLs (`stripsNulls`) is run on arguments without null maps, and the
  merged null map of its arguments is laid over its result afterwards; the others read null
  maps themselves.
* A function that folds constants (`foldsConstants`, all of them) is run once on a one-row
  block when every argument is constant, and its value is spread over all rows.

`returnType` checks argument types from left to right and names the first type that does not
fit.
-/

namespace TextBatch

/-- A built-in string function. `substring` takes three arguments and `substringFrom` the
same name with two. -/
inductive Builtin where
  | substring
  | substringFrom
  | left
  | right
  | nullOrEmpty
  | concat
  | concatWs
  | repeat
  | length
  | charLength
  | startsWith
  | endsWith
  | space
  deriving DecidableEq, Repr

namespace Builtin

/-- The functions in the order the standard registry receives them. -/
def all : List Builtin :=
  [.substring, .substringFrom, .left, .right, .nullOrEmpty, .concat, .concatWs, .repeat,
    .length, .charLength, .startsWith, .endsWith, .space]

/-- The name a function is registered and reported under. -/
def name : Builtin → String
  | .substring | .substringFrom => "substring"
  | .left => "left"
  | .right => "right"
  | .nullOrEmpty => "null_or_empty"
  | .concat => "concat"
  | .concatWs => "concat_ws"
  | .repeat => "repeat"
  | .length => "length"
  | .charLength => "char_length"
  | .startsWith => "starts_with"
  | .endsWith => "ends_with"
  | .space => "space"

/-- How many arguments a function takes. -/
def arity : Builtin → Arity
  | .substring => .exact 3
  | .substringFrom | .left | .right | .repeat | .startsWith | .endsWith => .exact 2
  | .nullOrEmpty | .length | .charLength | .space => .exact 1
  | .concat => .atLeast 1
  | .concatWs => .atLeast 2

/-- Whether the dispatcher strips null maps before the call and lays them over the result.
The substring family, the concatenations and `null_or_empty` read null maps themselves. -/
def stripsNulls : Builtin → Bool
  | .substring | .substringFrom | .left | .right | .nullOrEmpty | .concat | .concatWs => false
  | .repeat | .length | .charLength | .startsWith | .endsWith | .space => true

/-- Whether the dispatcher evaluates an all-constant call once and spreads the value. -/
def foldsConstants (_ : Builtin) : Bool := true

/-- A string first, then integers: the signature of the substring family. The first argument
must be a string; a later one that is not an integer is named with the function. -/
def stringThenIntegers (function : String) : List DataType → Except Error DataType
  | first :: rest =>
    if !first.isString then .error (.typeMismatch "STRING" first.render)
    else match rest.find? (fun t => !t.isInteger) with
      | some t => .error (.typeMismatch ("integer argument for " ++ function) t.render)
      | none => .ok (.nullable .string)
  | [] => .ok (.nullable .string)

/-- Strings only; the first type that is not a string is named. -/
def stringsOnly (result : DataType) (types : List DataType) : Except Error DataType :=
  match types.find? (fun t => !t.isString) with
  | some t => .error (.typeMismatch "STRING" t.render)
  | none => .ok result

/-- The type of a function's result for arguments of the given types. -/
def returnType (f : Builtin) (types : List DataType) : Except Error DataType :=
  match f with
  | .substring | .substringFrom | .left | .right => stringThenIntegers f.name types
  | .concat | .concatWs => stringsOnly (.nullable .string) types
  | .startsWith | .endsWith => stringsOnly .uint8 types
  | .nullOrEmpty => .ok .uint8
  | .repeat =>
    match types with
    | [s, n] =>
      if s.isString && n.isInteger then .ok .string
      else .error (.typeMismatch "(STRING, integer)" ("(" ++ s.render ++ ", " ++ n.render ++ ")"))
    | _ => .error (.argumentCount f.name f.arity.describe types.length)
  | .space =>
    match types with
    | [n] => if n.isInteger then .ok .string else .error (.typeMismatch "integer" n.render)
    | _ => .error (.argumentCount f.name "1" types.length)
  | .length | .charLength =>
    match types with
    | [s] => if s.isString then .ok .int32 else .error (.typeMismatch "STRING" s.render)
    | _ => .error (.argumentCount f.name "1" types.length)

end Builtin

end TextBatch

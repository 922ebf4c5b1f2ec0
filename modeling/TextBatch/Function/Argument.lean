import TextBatch.Storage.Block
import TextBatch.Config

/-!
# Reading arguments

A function reads each argument from a block position. `full` spells a constant out row by row,
and `unpack` also splits the column from its null map, so that a function sees plain values
and the flags apart; `unpackInto` then merges that map into the flags gathered so far, and with
the debug checks on the merge asserts that both maps have the same length. `strings` and `integers` then ask for the values themselves: strings from a
plain string column, and integers from any plain integer column, narrowed to 32 bits, where a
64-bit value outside the range saturates at the nearest end.
-/

namespace TextBatch

namespace Block

/-- The argument at `pos` with a constant spelled out row by row. -/
def full (b : Block) (pos : Nat) : Except Error Column :=
  match b.column pos with
  | .ok c => .ok c.toFull
  | .error e => .error e

/-- The argument at `pos` spelled out and split from its null map, if it has one. -/
def unpack (b : Block) (pos : Nat) : Except Error (Column × Option NullMap) :=
  match b.full pos with
  | .ok c => .ok c.unwrapNullable
  | .error e => .error e

end Block

namespace NullMap

/-- The map with the flags of `other` ORed in, when there is one. -/
def mergeOpt (m : NullMap) : Option NullMap → NullMap
  | some other => m.merge other
  | none => m

/-- `mergeOpt` as the library runs it: with `checks` on, the merge asserts that both maps have
the same length. -/
def mergeChecked (m : NullMap) (checks : Bool) : Option NullMap → Except Error NullMap
  | some other =>
    if checks ∧ m.length ≠ other.length then .error (.lengthsDiffer m.length other.length)
    else .ok (m.merge other)
  | none => .ok m

/-- Whether row `i` is NULL in an optional map; without a map no row is. -/
def flagged (m : Option NullMap) (i : Nat) : Bool :=
  match m with
  | some m => m.isNull i
  | none => false

end NullMap

namespace Block

/-- The argument at `pos` unpacked, its null map merged into `nulls`. -/
def unpackInto (b : Block) (checks : Bool) (nulls : NullMap) (pos : Nat) :
    Except Error (Column × NullMap) := do
  let (c, m) ← b.unpack pos
  pure (c, ← nulls.mergeChecked checks m)

/-- The arguments at `args` unpacked in order, each map merged into `nulls` as it is read. -/
def unpackAll (b : Block) (checks : Bool) (nulls : NullMap) :
    List Nat → Except Error (List Column × NullMap)
  | [] => .ok ([], nulls)
  | pos :: rest => do
    let (c, nulls) ← b.unpackInto checks nulls pos
    let (cs, nulls) ← b.unpackAll checks nulls rest
    pure (c :: cs, nulls)

end Block

/-- A 64-bit integer saturated to the 32-bit range. -/
def saturate (v : Int64) : Int32 :=
  Int32.ofInt (max (-2147483648) (min 2147483647 v.toInt))

namespace Column

/-- The strings of a plain string column; `function` names the caller in the refusal. -/
def strings (c : Column) (function : String) : Except Error StringColumn :=
  match c with
  | .string s => .ok s
  | c => .error (.unsupportedArgument function c.dataType)

/-- The values of a plain integer column as 32-bit integers: bytes widen, 64-bit values
saturate. `function` names the caller in the refusal. -/
def integers (c : Column) (function : String) : Except Error (List Int32) :=
  match c with
  | .int32 vs => .ok vs
  | .int64 vs => .ok (vs.map saturate)
  | .uint8 vs => .ok (vs.map fun v => Int32.ofNat v.toNat)
  | c => .error (.unsupportedArgument function c.dataType)

end Column

end TextBatch

import TextBatch.Size

/-!
# Function configuration

A call carries two settings. The first is the longest string, in bytes, that a function may
build. The limit is a machine-sized count, so it never exceeds `usizeMax`. It defaults to the
largest 32-bit signed integer, and `withMaxStringLength` caps what it sets at that value;
written directly, the limit may be any machine-sized count.

The second is the build the library runs in. A debug build checks what its parts promise each
other (equal lengths where null maps are merged, laid over rows or finished with a column) and
stops on machine arithmetic that overflows; a release build, the default, skips those checks.
-/

namespace TextBatch

/-- The largest value of a 32-bit signed integer, the ceiling of lengths and counts. -/
def int32Max : Nat := 2147483647

theorem int32Max_le_usizeMax : int32Max ≤ usizeMax := by decide

/-- Settings of a function call. -/
structure Config where
  /-- The longest string, in bytes, a function may build. -/
  maxStringLength : Nat := int32Max
  /-- The limit is a machine-sized count. -/
  maxStringLength_le_usizeMax : maxStringLength ≤ usizeMax := by decide
  /-- Whether the debug build's checks run. -/
  debugChecks : Bool := false
  deriving DecidableEq, Repr

namespace Config

/-- The configuration with the limit `bytes`, capped at `int32Max`. -/
def withMaxStringLength (c : Config) (bytes : Nat) : Config :=
  { c with
    maxStringLength := min bytes int32Max
    maxStringLength_le_usizeMax := Nat.le_trans (Nat.min_le_right bytes int32Max) int32Max_le_usizeMax }

theorem maxStringLength_le (bytes : Nat) :
    (({} : Config).withMaxStringLength bytes).maxStringLength ≤ int32Max :=
  Nat.min_le_right bytes int32Max

end Config

end TextBatch

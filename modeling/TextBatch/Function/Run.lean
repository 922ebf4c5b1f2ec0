import TextBatch.Function.Builtin
import TextBatch.Function.Slice
import TextBatch.Function.Join
import TextBatch.Function.Fill
import TextBatch.Function.Measure

/-!
# Running a function

`Builtin.run` is a function's own work on a block: it reads its arguments at the given
positions, writes `rows` rows at `result`, and trusts its caller for everything else. Arity,
row counts, constant folding and null stripping are the dispatcher's.
-/

namespace TextBatch

namespace Builtin

/-- The function's own work over the block, without dispatch. -/
def run (f : Builtin) (cfg : Config) (args : List Nat) (result rows : Nat) : BlockM Unit :=
  match f with
  | .substring => runSubstring cfg args result rows
  | .substringFrom => runSubstringFrom cfg args result rows
  | .left => runLeft cfg args result rows
  | .right => runRight cfg args result rows
  | .nullOrEmpty => runNullOrEmpty args result rows
  | .concat => runConcat cfg args result rows
  | .concatWs => runConcatWs cfg args result rows
  | .repeat => runRepeat cfg args result rows
  | .length => runLength args result rows
  | .charLength => runCharLength args result rows
  | .startsWith => runStartsWith args result rows
  | .endsWith => runEndsWith args result rows
  | .space => runSpace cfg args result rows

end Builtin

end TextBatch

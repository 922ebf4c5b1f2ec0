/-!
# Arities

A function takes either an exact number of arguments or at least some number. The registry
keeps at most one overload per arity, and an error lists the arities it knows by `describe`.
-/

namespace TextBatch

/-- How many arguments a function takes. -/
inductive Arity where
  /-- Exactly `n` arguments. -/
  | exact (n : Nat)
  /-- `n` arguments or more. -/
  | atLeast (n : Nat)
  deriving DecidableEq, Repr

namespace Arity

/-- Whether a call with `count` arguments fits the arity. -/
def accepts : Arity → Nat → Bool
  | .exact n, count => count == n
  | .atLeast n, count => n ≤ count

/-- The arity in words: `3` or `at least 2`. -/
def describe : Arity → String
  | .exact n => toString n
  | .atLeast n => "at least " ++ toString n

end Arity

end TextBatch

import TextBatch.Function.Argument

/-!
# Repetition

`repeat(s, n)` writes each row's string `n` times and `space(n)` writes `n` spaces; a count
below zero counts as zero. Both make two passes over the rows. The first sizes every row, in
order: a row whose result would be longer than the configured limit is refused, and otherwise
its size is added to a running total of the output kept in a machine-sized count, which is
refused when it would pass `usizeMax`. Only then does the second pass write, reserving for each
row its bytes and a terminator in a machine-sized count, which stops a debug build on overflow
(`repeatReserve`). `repeat` reads every row of both arguments, a row's length off the packed
form; `space` writes only the rows its counts have.
-/

namespace TextBatch

namespace Fill

/-- A 32-bit count with negative values read as zero. -/
def times (n : Int32) : Nat := n.toInt.toNat

/-- The size of `times` copies of `size` bytes, refused when it exceeds `limit`. -/
def repeatLen (function : String) (limit times size : Nat) : Except Error Nat :=
  if times * size > limit then .error (.resultTooLong function times size limit)
  else .ok (times * size)

/-- The size of row `r` of `repeat`: its string's length times its count, refused over the
limit. -/
def repeatSize (cfg : Config) (strings : StringColumn) (counts : List Int32) (r : Nat) :
    Except Error Nat := do
  let size ← strings.valueLen r
  repeatLen "repeat" cfg.maxStringLength (times (← readAt counts r)) size

/-- The bytes reserved for a row of `times` copies of `size` bytes and its terminator, computed
in a machine-sized count: with `checks` on, a product or sum that overflows stops the program,
and otherwise the reserve wraps around. -/
def repeatReserve (checks : Bool) (size times : Nat) : Except Error Nat :=
  if checks ∧ size * times > usizeMax then .error (.arithmeticOverflow "multiply")
  else if checks ∧ size * times + 1 > usizeMax then .error (.arithmeticOverflow "add")
  else .ok ((size * times + 1) % (usizeMax + 1))

/-- Row `r` of `repeat`: its string written its count of times. -/
def repeatRow (checks : Bool) (strings : StringColumn) (counts : List Int32) (r : Nat) :
    Except Error Bytes := do
  let v ← strings.read r
  let t := times (← readAt counts r)
  -- the reserve only sizes the allocation of the row
  let _ ← repeatReserve checks v.length t
  pure (repeatBytes v t)

/-- The result of `repeat` over the strings at `s` and the counts at `n`: every row is read,
checked and counted, in order, before anything is written. -/
def repeatResult (cfg : Config) (b : Block) (args : List Nat) (rows : Nat) :
    Except Error Column := do
  let sc ← b.full (← readAt args 0)
  let nc ← b.full (← readAt args 1)
  let strings ← (sc.strings "repeat").mapError fun _ => .unsupportedRepeatArguments "repeat"
  let counts ← (nc.integers "repeat").mapError fun _ => .unsupportedRepeatArguments "repeat"
  -- the total only sizes the allocation of the output
  let _ ← sumSizes "repeat" (repeatSize cfg strings counts) 0 (List.range rows)
  let out ← (List.range rows).mapM (repeatRow cfg.debugChecks strings counts)
  pure (.string ⟨out⟩)

/-- The size of a row of `space`: its count, refused over the limit. -/
def spaceSize (cfg : Config) (n : Int32) : Except Error Nat :=
  repeatLen "space" cfg.maxStringLength (times n) 1

/-- A row of `space`: its count of spaces. -/
def spaceRow (checks : Bool) (n : Int32) : Except Error Bytes := do
  let _ ← repeatReserve checks 1 (times n)
  pure (List.replicate (times n) 32)

/-- The result of `space` over the counts at `n`, over the rows that both `rows` and the counts
have. -/
def spaceResult (cfg : Config) (b : Block) (args : List Nat) (rows : Nat) :
    Except Error Column := do
  let nc ← b.full (← readAt args 0)
  let counts ← nc.integers "space"
  let _ ← sumSizes "space" (spaceSize cfg) 0 (counts.take rows)
  let out ← (counts.take rows).mapM (spaceRow cfg.debugChecks)
  pure (.string ⟨out⟩)

end Fill

/-- `repeat(s, n)`. -/
def runRepeat (cfg : Config) (args : List Nat) (result rows : Nat) : BlockM Unit := do
  let col ← BlockM.lift (Fill.repeatResult cfg (← get) args rows)
  BlockM.setColumn result col

/-- `space(n)`. -/
def runSpace (cfg : Config) (args : List Nat) (result rows : Nat) : BlockM Unit := do
  let col ← BlockM.lift (Fill.spaceResult cfg (← get) args rows)
  BlockM.setColumn result col

end TextBatch

import TextBatch.Function.Run

/-!
# Dispatch

`Builtin.execute` runs a function over a block the way every caller should:

1. the number of arguments must fit the function's arity;
2. every argument must hold a column of exactly `rows` rows;
3. when the function folds constants and every argument is a constant, it runs once on a
   block of one-row copies, and its value is spread over `rows` rows as a constant;
4. otherwise, when the function strips NULLs, a constant NULL argument makes the result a
   constant NULL of the declared type; nullable arguments are replaced by their plain values
   (NULL rows reset) in a block of their own, the function runs there, and the merged null map
   is laid over its result; with the debug checks on, merging maps and resetting rows assert
   that the lengths agree;
5. the result must then be written, with `rows` rows.

Folding and stripping work on blocks of their own, so the helper columns a function appends
there never reach the caller's block.
-/

namespace TextBatch

/-- What the arguments' null maps ask of a function that strips NULLs. -/
inductive NullScan where
  /-- An argument is a constant NULL. -/
  | constNull
  /-- No argument is nullable. -/
  | plain
  /-- Some argument is nullable and none is a constant NULL. -/
  | nullable
  deriving DecidableEq, Repr

namespace Dispatch

/-- Refuses the first argument whose column is missing or has other than `rows` rows. -/
def checkArgumentRows (f : Builtin) (b : Block) (rows : Nat) : List Nat → Except Error Unit
  | [] => .ok ()
  | pos :: rest =>
    match b.column pos with
    | .error e => .error e
    | .ok c =>
      if c.length = rows then checkArgumentRows f b rows rest
      else .error (.argumentRows f.name pos c.length rows)

/-- Whether every argument is a constant, reading them in order until one is not; no
arguments are not all constant. -/
def allConstant (b : Block) (args : List Nat) : Except Error Bool :=
  if args.isEmpty then .ok false
  else
    let rec go : List Nat → Except Error Bool
      | [] => .ok true
      | pos :: rest =>
        match b.column pos with
        | .error e => .error e
        | .ok c => if c.isConst then go rest else .ok false
    go args

/-- Scans the arguments in order: the first constant NULL decides, else whether any is
nullable. -/
def scanNulls (b : Block) (seen : Bool) : List Nat → Except Error NullScan
  | [] => .ok (if seen then .nullable else .plain)
  | pos :: rest =>
    match b.column pos with
    | .error e => .error e
    | .ok c => if c.isConstNull then .ok .constNull else scanNulls b (seen || c.isNullable) rest

/-- The types of the entries at `args`. -/
def argumentTypes (b : Block) (args : List Nat) : Except Error (List DataType) :=
  args.mapM fun pos => (b.entry? pos).map Entry.type

/-- An argument without its nulls: a nullable column gives its values, with NULL rows reset
when it has any, and a constant of a nullable value gives a constant of the plain value. -/
def strip (checks : Bool) (c : Column) : Except Error Column :=
  match c with
  | .nullable nested nulls => if nulls.hasNulls then nested.maskChecked checks nulls else .ok nested
  | .const value len =>
    if value.isNullable then value.unwrapNullable.1.constant? len else .ok c
  | c => .ok c

/-- The stripped arguments in a block of their own, their positions there, and the merged null
map. -/
def stripArguments (checks : Bool) (b : Block) (acc : Block × List Nat × NullMap) :
    List Nat → Except Error (Block × List Nat × NullMap)
  | [] => .ok acc
  | pos :: rest => do
    let e ← b.entry? pos
    let c ← b.column pos
    let nulls ← acc.2.2.mergeChecked checks c.unwrapNullable.2
    let (s, p) ← acc.1.insert e.name (← strip checks c)
    stripArguments checks b (s, acc.2.1 ++ [p], nulls) rest

/-- The first row of a column as a column of one row: a constant's value, or the row
copied. -/
def firstRow (c : Column) : Column :=
  match c with
  | .const v _ => v
  | other => other.replicate 0 1

/-- One-row copies of the arguments in a block of their own, and their positions there. -/
def foldArguments (b : Block) (acc : Block × List Nat) :
    List Nat → Except Error (Block × List Nat)
  | [] => .ok acc
  | pos :: rest => do
    let e ← b.entry? pos
    let c ← b.column pos
    let (s, p) ← acc.1.insert e.name (firstRow c)
    foldArguments b (s, acc.2 ++ [p]) rest

/-- A result under the merged null map: its own null map merged in, a constant spelled out. -/
def overlay (checks : Bool) (nulls : NullMap) : Column → Except Error Column
  | .nullable nested own => do pure (.nullable nested (← nulls.mergeChecked checks (some own)))
  | c => .ok (.nullable c nulls)

/-- Lays `nulls` over a result. -/
def wrapResult (checks : Bool) (c : Column) (nulls : NullMap) : Except Error Column :=
  match c with
  | .const value len => overlay checks nulls (value.replicate 0 len)
  | c => overlay checks nulls c

/-- Runs `inner` on a block of its own and answers the column it wrote at `slot`. -/
def runAside (inner : BlockM Unit) (b : Block) (slot : Nat) (missing : Option Error) :
    Except Error Column :=
  match inner.run b with
  | .ok () b' =>
    match b'.column slot, missing with
    | .ok c, _ => .ok c
    | .error _, some e => .error e
    | .error e, none => .error e
  | .error e _ => .error e

end Dispatch

namespace Builtin

open Dispatch

/-- Runs `f` with the dispatcher's NULL policy (step 4 of the module header). -/
def executeWithNulls (f : Builtin) (cfg : Config) (args : List Nat) (result rows : Nat) :
    BlockM Unit := do
  if !f.stripsNulls then f.run cfg args result rows
  else
    let b ← get
    match ← BlockM.lift (scanNulls b false args) with
    | .constNull =>
      let types ← BlockM.lift (argumentTypes b args)
      let t ← BlockM.lift (f.returnType types)
      BlockM.setColumn result (Column.constNull t rows)
    | .plain => f.run cfg args result rows
    | .nullable =>
      let (stripped, positions, nulls) ←
        BlockM.lift (stripArguments cfg.debugChecks b (Block.empty, [], NullMap.allValid rows) args)
      let e ← BlockM.lift (b.entry? result)
      let (stripped, slot) := stripped.insertSlot e.name e.type.removeNullable
      let produced ← BlockM.lift
        (runAside (f.run cfg positions slot rows) stripped slot (some (.resultNotWritten f.name)))
      BlockM.setColumn result (← BlockM.lift (wrapResult cfg.debugChecks produced nulls))

/-- Runs `f` once over one-row copies of constant arguments and spreads the value (step 3 of
the module header). -/
def executeFolded (f : Builtin) (cfg : Config) (args : List Nat) (result rows : Nat) :
    BlockM Unit := do
  let b ← get
  let (folded, positions) ← BlockM.lift (foldArguments b (Block.empty, []) args)
  let e ← BlockM.lift (b.entry? result)
  let (folded, slot) := folded.insertSlot e.name e.type
  let value ← BlockM.lift (runAside (f.executeWithNulls cfg positions slot 1) folded slot none)
  BlockM.setColumn result (← BlockM.lift (value.constant? rows))

/-- Refuses a result that was not written, or not with `rows` rows (step 5 of the module
header). -/
def checkResult (f : Builtin) (result rows : Nat) : BlockM Unit := do
  match (← get).column result with
  | .error _ => throw (.resultNotWritten f.name)
  | .ok c => if c.length ≠ rows then throw (.resultRows f.name c.length rows)

/-- Runs `f` over `rows` rows of the block, writing at `result`, with every check of the
module header; step 3 applies when `folds` says so. -/
def executeAs (f : Builtin) (folds : Bool) (cfg : Config) (args : List Nat) (result rows : Nat) :
    BlockM Unit := do
  if !f.arity.accepts args.length then
    throw (.argumentCount f.name f.arity.describe args.length)
  BlockM.lift (checkArgumentRows f (← get) rows args)
  let fold ← if folds then BlockM.lift (allConstant (← get) args) else pure false
  if fold then
    f.executeFolded cfg args result rows
  else
    f.executeWithNulls cfg args result rows
  f.checkResult result rows

/-- Runs `f` over `rows` rows of the block, writing at `result`, with every check of the
module header and the function's own folding policy. -/
def execute (f : Builtin) (cfg : Config) (args : List Nat) (result rows : Nat) : BlockM Unit :=
  f.executeAs f.foldsConstants cfg args result rows

end Builtin

end TextBatch

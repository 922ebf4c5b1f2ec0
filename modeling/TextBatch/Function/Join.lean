import TextBatch.Function.Argument

/-!
# Concatenation

`concat` joins its arguments back to back: a row is NULL when any argument is NULL there. With a
single argument it passes the column through, only made nullable. `concat_ws` joins all
arguments after the first with the first as separator: a row is NULL only where the separator
is, and arguments that are NULL at a row are left out of it.

Before writing a row, both size their output in a machine-sized count from the payloads of
their arguments, the values stored under NULL rows included: `concat` the sum of all payloads,
`concat_ws` the values' payloads and the separator's payload once per value but one. A total
that would pass `usizeMax` is refused.
-/

namespace TextBatch

namespace Join

/-- Row `r` of `concat`: empty under the merged map, else the row of every argument in turn. -/
def concatRow (nulls : NullMap) (strings : List StringColumn) (r : Nat) : Except Error Bytes :=
  if nulls.isNull r then pure [] else do
    let parts ← strings.mapM fun s => s.read r
    pure parts.flatten

/-- The payloads of `strings` added up in a machine-sized count; `function` names the caller in
the refusal. -/
def payloadBytes (function : String) (strings : List StringColumn) : Except Error Nat :=
  sumSizes function (fun s => .ok s.payloadBytes) 0 strings

/-- Merged flags and strings of the arguments at `args`, read in order and then checked in
order, then the output sized from their payloads; a row not NULL reads every argument. -/
def concatResult (cfg : Config) (b : Block) (args : List Nat) (rows : Nat) :
    Except Error Column := do
  let (columns, nulls) ← b.unpackAll cfg.debugChecks (NullMap.allValid rows) args
  let strings ← columns.mapM fun c => c.strings "concat"
  -- the payload only sizes the allocation of the output
  let _ ← payloadBytes "concat" strings
  let out ← (List.range rows).mapM (concatRow nulls strings)
  Column.finishNullable cfg.debugChecks ⟨out⟩ nulls

/-- The parts of row `r` of `concat_ws`: the values of the arguments not NULL at `r`. -/
def parts (values : List (StringColumn × Option NullMap)) (r : Nat) : Except Error (List Bytes) :=
  (values.filter fun v => !NullMap.flagged v.2 r).mapM fun v => v.1.read r

/-- Row `r` of `concat_ws`: empty under the separator's map, else the parts of the row joined
by the separator's row. -/
def concatWsRow (nulls : NullMap) (sep : StringColumn)
    (values : List (StringColumn × Option NullMap)) (r : Nat) : Except Error Bytes :=
  if nulls.isNull r then pure [] else do
    let s ← sep.read r
    let ps ← parts values r
    pure (s.intercalate ps)

/-- The bytes of the separators of `concat_ws` over `values` values: the separator's payload
once per value but one, refused when the product is not a machine-sized count. -/
def separatorBytes (sep : StringColumn) (values : Nat) : Except Error Nat :=
  if sep.payloadBytes * (values - 1) > usizeMax then .error (.addressSpace "concat_ws")
  else .ok (sep.payloadBytes * (values - 1))

/-- The bytes `concat_ws` reserves for its output over the separator `sep` and `values`: the
separators, then the values' payloads, then their sum, each refused when it is not a
machine-sized count. -/
def reserveWs (sep : StringColumn) (values : List StringColumn) : Except Error Nat := do
  let separators ← separatorBytes sep values.length
  let payload ← payloadBytes "concat_ws" values
  addSize "concat_ws" payload separators

/-- The separator's flags, and rows joined from the other arguments, after the output is sized
from the separators and the values' payloads. The first argument is the separator, so there
must be one. -/
def concatWsResult (cfg : Config) (b : Block) (args : List Nat) (rows : Nat) :
    Except Error Column := do
  let unpacked ← args.mapM b.unpack
  let strings ← unpacked.mapM fun arg => arg.1.strings "concat_ws"
  let sep ← readAt strings 0
  let maps := unpacked.map Prod.snd
  let nulls := (maps.headD none).getD (NullMap.allValid rows)
  -- the reserve only sizes the allocation of the output
  let _ ← reserveWs sep (strings.drop 1)
  let values := (strings.drop 1).zip (maps.drop 1)
  let out ← (List.range rows).mapM (concatWsRow nulls sep values)
  Column.finishNullable cfg.debugChecks ⟨out⟩ nulls

end Join

/-- `concat(a, ...)`. -/
def runConcat (cfg : Config) (args : List Nat) (result rows : Nat) : BlockM Unit := do
  match args with
  | [only] =>
    let c ← BlockM.column only
    if !c.dataType.isString then throw (.unsupportedArgument "concat" c.dataType)
    BlockM.setColumn result (if c.isNullable then c else c.makeNullable)
  | _ =>
    let col ← BlockM.lift (Join.concatResult cfg (← get) args rows)
    BlockM.setColumn result col

/-- `concat_ws(sep, a, ...)`. -/
def runConcatWs (cfg : Config) (args : List Nat) (result rows : Nat) : BlockM Unit := do
  let col ← BlockM.lift (Join.concatWsResult cfg (← get) args rows)
  BlockM.setColumn result col

end TextBatch

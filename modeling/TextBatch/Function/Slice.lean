import TextBatch.Function.Argument
import TextBatch.Text.Span

/-!
# Substring, left and right

All four functions of the substring family end in one kernel, `Slice.run`, over a string, a
1-based character position and a character count. Row `r` of the result is NULL when an
argument is NULL at `r` or when the span selected in the string is NULL (`Span.select`), and is
otherwise the selected bytes. The others rewrite their arguments into that form:

* `substring(s, p)` adds a constant count of `int32Max` characters under the name `len`;
* `left(s, n)` adds a constant position 1 under the name `pos` and counts `n`;
* `right(s, n)` adds the positions `max(-n, -c)` under the name `index`, with `n`'s null map,
  and the counts `c` under the name `strlen`, where `c` is the row's character count (capped at
  `int32Max`) and `-n` saturates at `int32Max`.

The added columns stay in the block, also when the kernel then fails.

The kernel reads a row of each argument only where no argument is NULL, so a row count beyond
the arguments' own fails with `indexOutOfBounds` exactly when such a row is not NULL.
-/

namespace TextBatch

namespace Slice

/-- Row `r` of the result, `none` for NULL: a row already NULL stays NULL over an empty
string, and any other row reads its string, position and count and keeps the span they
select. -/
def row (nulls : NullMap) (strings : StringColumn) (starts lens : List Int32) (r : Nat) :
    Except Error (Option Bytes) :=
  if nulls.isNull r then .ok (some [])
  else do
    let s ← strings.read r
    let pos ← readAt starts r
    let len ← readAt lens r
    pure ((Span.select s pos.toInt len.toInt).slice s)

/-- `nulls` with the flag set of every row whose span is NULL. -/
def markNulls (nulls : NullMap) (out : List (Option Bytes)) : NullMap :=
  out.zipIdx.foldl (fun m p => if p.1.isNone then m.set p.2 true else m) nulls

/-- The result column of `rows` rows from the merged flags, strings, positions and counts. -/
def column (checks : Bool) (rows : Nat) (nulls : NullMap) (strings : StringColumn)
    (starts lens : List Int32) : Except Error Column := do
  let out ← (List.range rows).mapM (row nulls strings starts lens)
  Column.finishNullable checks ⟨out.map fun v => v.getD []⟩ (markNulls nulls out)

/-- The kernel's result over the string at `s`, positions at `p` and counts at `l`. Arguments
are read in that order, each map merged as it is read, then checked in that order. -/
def result (cfg : Config) (b : Block) (s p l rows : Nat) : Except Error Column := do
  let (sc, nulls) ← b.unpackInto cfg.debugChecks (NullMap.allValid rows) s
  let (pc, nulls) ← b.unpackInto cfg.debugChecks nulls p
  let (lc, nulls) ← b.unpackInto cfg.debugChecks nulls l
  let strings ← sc.strings "substring"
  let starts ← pc.integers "substring"
  let lens ← lc.integers "substring"
  column cfg.debugChecks rows nulls strings starts lens

/-- Writes the substring of the string at `s` from position `p` for `l` characters. -/
def run (cfg : Config) (s p l result rows : Nat) : BlockM Unit := do
  let col ← BlockM.lift (Slice.result cfg (← get) s p l rows)
  BlockM.setColumn result col

/-- The position of row `r` for `right`: `-n` saturated, but no further left than the first
character. -/
def rightIndex (n : Int32) (chars : Nat) : Int32 :=
  Int32.ofInt (max (min (-n.toInt) 2147483647) (-(chars : Int)))

/-- The string argument of `right` and its helper columns, positions and character counts, over
the rows that both `rows` and the counts have. -/
def rightHelpers (b : Block) (args : List Nat) (rows : Nat) : Except Error (Nat × Column × Column) := do
  let s ← readAt args 0
  let (sc, _) ← b.unpack s
  let n ← readAt args 1
  let (nc, nm) ← b.unpack n
  let strings ← sc.strings "right"
  let counts ← nc.integers "right"
  let chars ← (List.range (min rows counts.length)).mapM fun r => do
    pure (min (Utf8.charCount (← strings.read r)) int32Max)
  let index := (counts.zip chars).map fun p => rightIndex p.1 p.2
  let strlen := chars.map fun c => Int32.ofNat c
  let indexColumn := match nm with
    | some m => Column.nullable (.int32 index) m
    | none => .int32 index
  pure (s, indexColumn, .int32 strlen)

end Slice

/-- `substring(s, p, l)`. -/
def runSubstring (cfg : Config) (args : List Nat) (result rows : Nat) : BlockM Unit := do
  let s ← BlockM.lift (readAt args 0)
  let p ← BlockM.lift (readAt args 1)
  let l ← BlockM.lift (readAt args 2)
  Slice.run cfg s p l result rows

/-- `substring(s, p)`: to the end of the string. -/
def runSubstringFrom (cfg : Config) (args : List Nat) (result rows : Nat) : BlockM Unit := do
  let len ← BlockM.insert "len" (Column.constInt32 (Int32.ofNat int32Max) rows)
  let s ← BlockM.lift (readAt args 0)
  let p ← BlockM.lift (readAt args 1)
  Slice.run cfg s p len result rows

/-- `left(s, n)`: the first `n` characters. -/
def runLeft (cfg : Config) (args : List Nat) (result rows : Nat) : BlockM Unit := do
  let pos ← BlockM.insert "pos" (Column.constInt32 1 rows)
  let s ← BlockM.lift (readAt args 0)
  let n ← BlockM.lift (readAt args 1)
  Slice.run cfg s pos n result rows

/-- `right(s, n)`: the last `n` characters. -/
def runRight (cfg : Config) (args : List Nat) (result rows : Nat) : BlockM Unit := do
  let (s, index, strlen) ← BlockM.lift (Slice.rightHelpers (← get) args rows)
  let pos ← BlockM.insert "index" index
  let len ← BlockM.insert "strlen" strlen
  Slice.run cfg s pos len result rows

end TextBatch

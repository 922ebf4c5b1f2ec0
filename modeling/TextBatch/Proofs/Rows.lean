import Mathlib.Algebra.GroupWithZero.Nat
import TextBatch.Proofs.Steps
import TextBatch.Function.Run

/-! # What a function answers for one row

Every built-in function is row by row: the cell it writes at a row is a function of the
argument cells at that row (`Builtin.rowValue`), and the only row that can make a call fail is
one whose result would be longer than the configured limit (`Builtin.fits`). A function that
lets the dispatcher handle NULLs answers NULL at a row where an argument is NULL and its plain
row value elsewhere (`Builtin.plainRow`); the others read NULLs themselves.

`KernelSpec` is what is proved of each function's own work: argument types it does not take are
refused by an error other than an overflow, a row that does not fit makes it fail with an
overflow, and otherwise it gives a well-formed column of its declared type whose every row is
its plain row value.

The sizes a function adds up before it writes are machine-sized totals (`sumSizes`): when every
item is sized, the total is refused exactly when the exact sum passes `usizeMax`
(`sumSizes_of_ok`).
-/

namespace TextBatch

section sumSizes

variable {α : Type} {function : String} {size : α → Except Error Nat} {xs : List α}

/-- When every item is sized, the running total is refused exactly when the exact sum is not a
machine-sized count: a sum of sizes passes `usizeMax` at the first item that takes it past. -/
theorem sumSizes_of_ok {g : α → Nat} (h : ∀ x ∈ xs, size x = .ok (g x)) {total : Nat}
    (htotal : total ≤ usizeMax) :
    sumSizes function size total xs =
      if total + (xs.map g).sum ≤ usizeMax then .ok (total + (xs.map g).sum)
      else .error (.addressSpace function) := by
  induction xs generalizing total with
  | nil => simp [sumSizes, htotal]
  | cons x xs ih =>
    rw [sumSizes_cons_of_ok (h x List.mem_cons_self), List.map_cons, List.sum_cons]
    by_cases hx : total + g x > usizeMax
    · -- the total passes the largest count at this item, and the whole sum is larger still
      rw [if_pos hx, if_neg (by omega)]
    · rw [if_neg hx, ih (fun y hy => h y (List.mem_cons_of_mem x hy)) (by omega),
        Nat.add_assoc]

end sumSizes

namespace Column

/-- The cell at row `r`, NULL past the last row. -/
def cell (c : Column) (r : Nat) : Value :=
  match c.get r with
  | .ok v => v
  | .error _ => .null

theorem cell_eq {c : Column} {r : Nat} {v : Value} (h : c.get r = .ok v) : c.cell r = v := by
  simp [cell, h]

/-- A well-formed column reads as its cell at each of its rows. -/
theorem get_eq_cell {c : Column} (hwf : c.wellFormed) {r : Nat} (hr : r < c.length) :
    c.get r = .ok (c.cell r) := by
  obtain ⟨v, hv⟩ := get_isOk_of_wellFormed hwf hr
  rw [hv, cell_eq hv]

/-- The cells of row `r` of the columns `cols`. -/
def cells (cols : List Column) (r : Nat) : List Value := cols.map (cell · r)

/-- The bytes a string argument holds once spelled out and split from its null map, the values
stored under NULL rows included; an argument of another type holds none. -/
def payload (c : Column) : Nat :=
  match c.toFull.unwrapNullable.1 with
  | .string s => s.payloadBytes
  | _ => 0

theorem isNullable_replicate (c : Column) (row n : Nat) :
    (c.replicate row n).isNullable = c.isNullable := by
  induction c generalizing row with
  | const value len ih => simp [replicate, isNullable, ih]
  | _ => rfl

theorem isNullable_toFull (c : Column) : c.toFull.isNullable = c.isNullable := by
  cases c with
  | const value len => simp [toFull, isNullable, isNullable_replicate]
  | _ => rfl

/-- A well-formed column without a null map is its own values, spelled out. -/
theorem splits_toFull {c : Column} (hwf : c.wellFormed) (hn : c.isNullable = false) :
    Splits c c.toFull none := by
  have hs := splits_unpack hwf
  have hunwrap : c.toFull.unwrapNullable = (c.toFull, none) := by
    have hfn : c.toFull.isNullable = false := by rw [isNullable_toFull]; exact hn
    have hfc := (toFull_wellFormed hwf).2
    cases hfull : c.toFull <;> simp_all [unwrapNullable, isNullable, isConst]
  rw [hunwrap] at hs
  exact hs

theorem Splits.cell_eq {c u : Column} {m : Option NullMap} (h : Splits c u m) {r : Nat}
    (hr : r < c.length) : c.cell r = if NullMap.flagged m r then .null else u.cell r := by
  obtain ⟨v, hv⟩ := get_isOk_of_isPlain h.plain (by rw [h.length_eq]; exact hr)
  have hget := h.get_eq r hr
  rw [hv] at hget
  by_cases hflag : NullMap.flagged m r
  · rw [if_pos hflag] at hget ⊢
    exact Column.cell_eq hget
  · rw [if_neg hflag] at hget ⊢
    rw [Column.cell_eq hget, Column.cell_eq hv]

theorem Splits.strings_isOk_iff {c u : Column} {m : Option NullMap} (h : Splits c u m)
    (fn : String) : (∃ s, u.strings fn = .ok s) ↔ c.dataType.isString := by
  constructor
  · rintro ⟨s, hs⟩
    rw [strings_eq_ok] at hs
    subst hs
    have htype := h.dataType_eq
    simp only [dataType] at htype
    simp [DataType.isString, ← htype]
  · intro ht
    obtain ⟨s, rfl, -⟩ := h.eq_string ht
    exact ⟨s, rfl⟩

/-- A column refused as strings is refused as an argument of the wrong type. -/
theorem strings_eq_error {u : Column} {fn : String} {e : Error}
    (h : u.strings fn = .error e) : e = .unsupportedArgument fn u.dataType := by
  cases u <;> simp [strings] at h <;> exact h.symm

/-- A column refused as integers is refused as an argument of the wrong type. -/
theorem integers_eq_error {u : Column} {fn : String} {e : Error}
    (h : u.integers fn = .error e) : e = .unsupportedArgument fn u.dataType := by
  cases u <;> simp [integers] at h <;> exact h.symm

/-- An argument that is not a string is refused when its values are read as strings. -/
theorem Splits.strings_of_not_isString {c u : Column} {m : Option NullMap} (h : Splits c u m)
    (hbad : c.dataType.isString = false) (fn : String) :
    u.strings fn = .error (.unsupportedArgument fn u.dataType) := by
  cases hst : u.strings fn with
  | ok s => simp [(h.strings_isOk_iff fn).mp ⟨s, hst⟩] at hbad
  | error e => rw [strings_eq_error hst]

/-- An argument that is not an integer is refused when its values are read as integers. -/
theorem Splits.integers_of_not_isInteger {c u : Column} {m : Option NullMap} (h : Splits c u m)
    (hbad : c.dataType.isInteger = false) (fn : String) :
    u.integers fn = .error (.unsupportedArgument fn u.dataType) := by
  cases hint : u.integers fn with
  | ok is => simp [(h.integers_isOk_iff fn).mp ⟨is, hint⟩] at hbad
  | error e => rw [integers_eq_error hint]

theorem cell_string {s : StringColumn} {r : Nat} (hr : r < s.length) :
    (string s).cell r = .bytes (s.value r) :=
  cell_eq (get_string hr)

theorem cell_of_integers {u : Column} {fn : String} {is : List Int32} (h : u.integers fn = .ok is)
    {r : Nat} (hr : r < u.length) : (u.cell r).int32Arg? = some (is.getD r 0).toInt := by
  obtain ⟨v, hv, hlt, hint⟩ := get_of_integers h hr
  rw [cell_eq hv, hint, List.getD_eq_getElem?_getD, List.getElem?_eq_getElem hlt, Option.getD_some]

theorem get_ne_null_of_isPlain {u : Column} (hu : u.isPlain) {r : Nat} {v : Value}
    (hv : u.get r = .ok v) : v ≠ .null := by
  rintro rfl
  unfold get at hv
  split at hv
  · cases u <;> simp_all [isPlain]
  · cases hv

/-- A well-formed column without a null map has no NULL cell. -/
theorem cell_ne_null {c : Column} (hwf : c.wellFormed) (hn : c.isNullable = false) {r : Nat}
    (hr : r < c.length) : c.cell r ≠ .null := by
  have hs := splits_toFull hwf hn
  rw [hs.cell_eq hr, if_neg (by simp [NullMap.flagged])]
  obtain ⟨v, hv⟩ := get_isOk_of_isPlain hs.plain (by rw [hs.length_eq]; exact hr)
  rw [cell_eq hv]
  exact get_ne_null_of_isPlain hs.plain hv

theorem cells_contains_null {cols : List Column} {r : Nat}
    (h : ∀ c ∈ cols, c.wellFormed ∧ c.isNullable = false ∧ r < c.length) :
    (cells cols r).contains .null = false := by
  have hnot : Value.null ∉ cells cols r := by
    intro hmem
    obtain ⟨c, hc, hcell⟩ := List.mem_map.mp hmem
    obtain ⟨hwf, hn, hr⟩ := h c hc
    exact cell_ne_null hwf hn hr hcell
  simpa using hnot

/-- Every argument has its row `r`, so reading them all gives the row's cells. -/
theorem mapM_get_eq_cells {cols : List Column} {r : Nat} (h : ∀ c ∈ cols, ∃ v, c.get r = .ok v) :
    cols.mapM (Column.get · r) = .ok (cells cols r) := by
  induction cols with
  | nil => rfl
  | cons c cs ih =>
      obtain ⟨v, hv⟩ := h c List.mem_cons_self
      rw [List.mapM_cons, hv, ih fun d hd => h d (List.mem_cons_of_mem c hd)]
      simp [cells, cell_eq hv, bind, Except.bind, pure, Except.pure]

end Column

namespace Block

variable {b : Block} {rows pos : Nat} {c : Column}

/-- A string argument without a null map, as a function reads it: one string a row, which is
the row's cell. -/
theorem Holds.strings_of_plain (h : b.Holds rows pos c) (hn : c.isNullable = false)
    (ht : c.dataType.isString) (fn : String) :
    ∃ s : StringColumn, c.toFull.strings fn = .ok s ∧ s.length = rows ∧
      ∀ r < rows, c.cell r = .bytes (s.value r) := by
  have hs := Column.splits_toFull h.wellFormed hn
  obtain ⟨s, hu, hslen⟩ := hs.eq_string ht
  refine ⟨s, by rw [hu]; rfl, hslen.trans h.length_eq, fun r hr => ?_⟩
  have hrc : r < c.length := by rw [h.length_eq]; exact hr
  rw [hs.cell_eq hrc, hu, if_neg (by simp [NullMap.flagged])]
  exact Column.cell_string (by omega)

/-- An integer argument without a null map, as a function reads it: one 32-bit value a row,
which is the row's cell narrowed. -/
theorem Holds.integers_of_plain (h : b.Holds rows pos c) (hn : c.isNullable = false)
    (ht : c.dataType.isInteger) (fn : String) :
    ∃ is : List Int32, c.toFull.integers fn = .ok is ∧ is.length = rows ∧
      ∀ r < rows, (c.cell r).int32Arg? = some (is.getD r 0).toInt := by
  have hs := Column.splits_toFull h.wellFormed hn
  obtain ⟨is, his⟩ := (hs.integers_isOk_iff fn).mpr ht
  refine ⟨is, his, ?_, fun r hr => ?_⟩
  · rw [Column.length_of_integers his, Column.length_toFull, h.length_eq]
  · have hrc : r < c.length := by rw [h.length_eq]; exact hr
    rw [hs.cell_eq hrc, if_neg (by simp [NullMap.flagged])]
    exact Column.cell_of_integers his (by rw [Column.length_toFull]; exact hrc)

end Block

namespace Value

/-- A cell read as a 32-bit integer is at most the largest one. -/
theorem int32Arg?_le {v : Value} {k : Int} (h : v.int32Arg? = some k) : k ≤ 2147483647 := by
  cases v with
  | uint8 x =>
    simp only [int32Arg?, Option.some.injEq] at h
    have := x.toNat_lt
    omega
  | int32 x =>
    simp only [int32Arg?, Option.some.injEq] at h
    have := Int32.toInt_lt x
    omega
  | int64 x =>
    simp only [int32Arg?, Option.some.injEq] at h
    omega
  | _ => simp [int32Arg?] at h

/-- The cell a substring call selects in the string cell `s` from character position `pos` for
`len` characters: NULL when a cell is NULL or not of its kind, or when the span is NULL. -/
def substring (s : Value) (pos len : Option Int) : Value :=
  match s, pos, len with
  | .bytes b, some p, some l =>
    match (Span.select b p l).slice b with
    | some v => .bytes v
    | none => .null
  | _, _, _ => .null

/-- The cell `right` gives for the string cell `s` and the count cell `n`: the last `n`
characters, read as a substring from `max(-n, -c)` for `c` characters, where `c` is the
character count capped at `int32Max` and `-n` saturates at `int32Max`. -/
def right (s n : Value) : Value :=
  match s, n.int32Arg? with
  | .bytes b, some k =>
    let c : Int := min (Utf8.charCount b) int32Max
    s.substring (some (max (min (-k) int32Max) (-c))) (some c)
  | _, _ => .null

theorem right_null (n : Value) : Value.null.right n = .null := by
  simp [right]

theorem right_of_int32Arg_none {s n : Value} (h : n.int32Arg? = none) : s.right n = .null := by
  cases s <;> simp [right, h]

theorem right_bytes {bs : Bytes} {n : Value} {k : Int} (h : n.int32Arg? = some k) :
    (Value.bytes bs).right n =
      (Value.bytes bs).substring
        (some (max (min (-k) int32Max) (-min (Utf8.charCount bs : Int) int32Max)))
        (some (min (Utf8.charCount bs : Int) int32Max)) := by
  simp [right, h]

/-- The bytes of a string cell. -/
def bytes? : Value → Option Bytes
  | .bytes b => some b
  | _ => none

end Value

namespace Builtin

/-- The row semantics of the substring family, from the cells of one row of the arguments. -/
def sliceRow : Builtin → List Value → Value
  | .substring, [s, p, l] => s.substring p.int32Arg? l.int32Arg?
  | .substringFrom, [s, p] => s.substring p.int32Arg? (some int32Max)
  | .left, [s, n] => s.substring (some 1) n.int32Arg?
  | .right, [s, n] => s.right n
  | _, _ => .null

/-- The cell a function writes for a row whose argument cells are `cells`, for a function
that lets the dispatcher handle NULLs when none of them is NULL. -/
def plainRow (f : Builtin) (cells : List Value) : Value :=
  match f, cells with
  | .repeat, [.bytes s, n] =>
    (n.int32Arg?.map fun k => .bytes (List.replicate k.toNat s).flatten).getD .null
  | .space, [n] => (n.int32Arg?.map fun k => .bytes (List.replicate k.toNat 32)).getD .null
  | .length, [.bytes s] => .int32 (Measure.capped s.length)
  | .charLength, [.bytes s] => .int32 (Measure.capped (Utf8.charCount s))
  | .startsWith, [.bytes s, .bytes t] => .uint8 (if t.isPrefixOf s then 1 else 0)
  | .endsWith, [.bytes s, .bytes t] => .uint8 (if t.isSuffixOf s then 1 else 0)
  | .nullOrEmpty, [s] => .uint8 (if s = .null ∨ s = .bytes [] then 1 else 0)
  | .concat, cells => ((cells.mapM Value.bytes?).map fun parts => .bytes parts.flatten).getD .null
  | .concatWs, .bytes sep :: rest => .bytes (sep.intercalate (rest.filterMap Value.bytes?))
  | f, cells => f.sliceRow cells

/-- The cell a call of `f` writes for a row whose argument cells are `cells`. -/
def rowValue (f : Builtin) (cells : List Value) : Value :=
  if f.stripsNulls && cells.contains .null then .null else f.plainRow cells

/-- Whether the plain result of a row fits the configured limit on string length: `repeat` and
`space` build strings, every other function fits. -/
def fits (f : Builtin) (cfg : Config) (cells : List Value) : Bool :=
  match f, cells with
  | .repeat, [.bytes s, n] => n.int32Arg?.all fun k => k.toNat * s.length ≤ cfg.maxStringLength
  | .space, [n] => n.int32Arg?.all fun k => k.toNat ≤ cfg.maxStringLength
  | _, _ => true

/-- The bytes of the plain result of a row as `repeat` and `space` count them into the running
total of their output; no other function counts bytes row by row. -/
def rowBytes (f : Builtin) (cells : List Value) : Nat :=
  match f, cells with
  | .repeat, [.bytes s, n] => (n.int32Arg?.map fun k => k.toNat * s.length).getD 0
  | .space, [n] => (n.int32Arg?.map fun k => k.toNat).getD 0
  | _, _ => 0

/-- The running total of output a call of `f` reaches over `rows` rows of the argument columns
`cols`: the bytes of every row it evaluates, where a function that lets the dispatcher handle
NULLs evaluates no row with a NULL. -/
def outputBytes (f : Builtin) (cols : List Column) (rows : Nat) : Nat :=
  ((List.range rows).map fun r =>
    if f.stripsNulls && (Column.cells cols r).contains .null then 0
    else f.rowBytes (Column.cells cols r)).sum

/-- Whether the sizes a call of `f` adds up before it writes stay machine-sized counts over
`rows` rows of the argument columns `cols`: the running total of `repeat` and `space`, the
payloads `concat` joins from two arguments or more, and the values and separators of
`concat_ws`. The payloads count the values stored under NULL rows. -/
def addressable (f : Builtin) (cols : List Column) (rows : Nat) : Bool :=
  match f, cols with
  | .repeat, _ | .space, _ => decide (f.outputBytes cols rows ≤ usizeMax)
  | .concat, [_] => true
  | .concat, cols => decide ((cols.map Column.payload).sum ≤ usizeMax)
  | .concatWs, sep :: values =>
    decide ((values.map Column.payload).sum + sep.payload * (values.length - 1) ≤ usizeMax)
  | _, _ => true

/-- Whether every row a call of `f` writes can be reserved, its bytes and a terminator, in a
machine-sized count, where the debug checks make `repeat` and `space` compute that reserve; a
function that lets the dispatcher handle NULLs writes an empty row where an argument is NULL. -/
def reserves (f : Builtin) (cfg : Config) (cols : List Column) (rows : Nat) : Bool :=
  match f with
  | .repeat | .space => !cfg.debugChecks || (List.range rows).all fun r =>
    (Column.cells cols r).contains .null || decide (f.rowBytes (Column.cells cols r) < usizeMax)
  | _ => true

/-- A row of `space` holds fewer bytes than the largest machine-sized count: its count is a
32-bit integer. -/
theorem rowBytes_space_lt (cells : List Value) : Builtin.space.rowBytes cells < usizeMax := by
  rcases cells with _ | ⟨n, _ | ⟨m, rest⟩⟩
  · decide
  · cases h : n.int32Arg? with
    | none => simp [rowBytes, h, usizeMax]
    | some k =>
      have := Value.int32Arg?_le h
      simp only [rowBytes, h, Option.map_some, Option.getD_some, usizeMax]
      omega
  · simp [rowBytes, usizeMax]

/-- `space` reserves every row it writes. -/
theorem reserves_space (cfg : Config) (cols : List Column) (rows : Nat) :
    Builtin.space.reserves cfg cols rows = true := by
  simp [reserves, rowBytes_space_lt]

/-- Calls over argument columns whose rows agree on holding a NULL and on their bytes reserve
alike. -/
theorem reserves_congr {f : Builtin} {cfg : Config} {cols₁ cols₂ : List Column} {rows : Nat}
    (h : ∀ r < rows, ((Column.cells cols₁ r).contains .null ||
        decide (f.rowBytes (Column.cells cols₁ r) < usizeMax)) =
      ((Column.cells cols₂ r).contains .null ||
        decide (f.rowBytes (Column.cells cols₂ r) < usizeMax))) :
    f.reserves cfg cols₁ rows = f.reserves cfg cols₂ rows := by
  have hall : ((List.range rows).all fun r => (Column.cells cols₁ r).contains .null ||
        decide (f.rowBytes (Column.cells cols₁ r) < usizeMax)) =
      ((List.range rows).all fun r => (Column.cells cols₂ r).contains .null ||
        decide (f.rowBytes (Column.cells cols₂ r) < usizeMax)) := by
    rw [Bool.eq_iff_iff, List.all_eq_true, List.all_eq_true]
    exact forall₂_congr fun r hr => by rw [h r (List.mem_range.mp hr)]
  cases f <;> simp only [reserves, hall]

/-- A call over rows that all hold a NULL writes only empty rows, and reserves them all. -/
theorem reserves_of_null_rows {f : Builtin} {cfg : Config} {cols : List Column} {rows : Nat}
    (h : ∀ r < rows, (Column.cells cols r).contains .null) : f.reserves cfg cols rows = true := by
  have hall : ((List.range rows).all fun r => (Column.cells cols r).contains .null ||
      decide (f.rowBytes (Column.cells cols r) < usizeMax)) = true :=
    List.all_eq_true.mpr fun r hr => by rw [h r (List.mem_range.mp hr), Bool.true_or]
  cases f <;> simp only [reserves, hall, Bool.or_true]

/-- Whether a call of `f` lets a row through: a row where an argument is NULL is never
evaluated by a function that lets the dispatcher handle NULLs. -/
def admits (f : Builtin) (cfg : Config) (cells : List Value) : Bool :=
  (f.stripsNulls && cells.contains .null) || f.fits cfg cells

/-- Whether `f` takes arguments of the types `types`: those its return type accepts, and a
string for `null_or_empty`. -/
def takes (f : Builtin) (types : List DataType) : Bool :=
  match f with
  | .nullOrEmpty => types.head?.any DataType.isString
  | _ => (f.returnType types).toBool

theorem admits_of_contains {f : Builtin} {cfg : Config} {cells : List Value}
    (h : cells.contains .null = false) : f.admits cfg cells = f.fits cfg cells := by
  simp only [admits, h, Bool.and_false, Bool.false_or]

/-- Over arguments without null maps every row is evaluated, so the running total is the sum of
all rows' bytes. -/
theorem outputBytes_of_plain {f : Builtin} {cols : List Column} {rows : Nat}
    (h : ∀ c ∈ cols, c.wellFormed ∧ c.isNullable = false ∧ c.length = rows) :
    f.outputBytes cols rows =
      ((List.range rows).map fun r => f.rowBytes (Column.cells cols r)).sum := by
  unfold outputBytes
  congr 1
  refine List.map_congr_left fun r hr => ?_
  have hr := List.mem_range.mp hr
  rw [Column.cells_contains_null fun c hc =>
    ⟨(h c hc).1, (h c hc).2.1, by rw [(h c hc).2.2]; exact hr⟩]
  simp

theorem rowValue_of_contains {f : Builtin} {cells : List Value}
    (h : cells.contains .null = false) : f.rowValue cells = f.plainRow cells := by
  simp only [rowValue, h, Bool.and_false, Bool.false_eq_true, if_false]

/-- A function that reads null maps itself writes its plain row value, NULL cells included. -/
theorem rowValue_of_keeps {f : Builtin} (h : f.stripsNulls = false) (cells : List Value) :
    f.rowValue cells = f.plainRow cells := by
  simp only [rowValue, h, Bool.false_and, Bool.false_eq_true, if_false]

theorem stringsOnly_toBool (result : DataType) (types : List DataType) :
    (stringsOnly result types).toBool = types.all DataType.isString := by
  unfold stringsOnly
  split
  · next t h =>
      have hnot := List.find?_some h
      have hmem := List.mem_of_find?_eq_some h
      simp only [Bool.not_eq_eq_eq_not, Bool.not_true] at hnot
      symm
      simp only [Except.toBool, List.all_eq_false]
      exact ⟨t, hmem, by simp [hnot]⟩
  · next h =>
      rw [List.find?_eq_none] at h
      symm
      simp only [Except.toBool, List.all_eq_true]
      intro t ht
      simpa using h t ht

/-- What a function's own work `kernel` answers over `rows` rows of the argument columns
`cols`: types it does not take are refused by an error other than an overflow, a row that does
not fit, or sizes that are not machine-sized counts, make it fail with an overflow, a row it
cannot reserve stops it, and otherwise it gives a well-formed column of its declared type whose
row `r` is its plain row value for the cells of row `r`. -/
structure KernelSpec (f : Builtin) (cfg : Config) (cols : List Column) (rows : Nat)
    (kernel : Except Error Column) : Prop where
  refuses : f.takes (cols.map Column.dataType) = false →
    ∃ e, kernel = .error e ∧ e.kind ≠ .overflow
  overflows : f.takes (cols.map Column.dataType) →
    ((∃ r < rows, f.fits cfg (Column.cells cols r) = false) ∨ f.addressable cols rows = false) →
    ∃ e, kernel = .error e ∧ e.kind = .overflow
  stops : f.takes (cols.map Column.dataType) → (∀ r < rows, f.fits cfg (Column.cells cols r)) →
    f.addressable cols rows → f.reserves cfg cols rows = false →
    ∃ e, kernel = .error e ∧ e.kind = .outOfBounds
  writes : f.takes (cols.map Column.dataType) → (∀ r < rows, f.fits cfg (Column.cells cols r)) →
    f.addressable cols rows → f.reserves cfg cols rows →
    ∃ col, kernel = .ok col ∧ col.wellFormed ∧ f.returnType (cols.map Column.dataType) = .ok col.dataType ∧
      col.length = rows ∧ ∀ r < rows, col.get r = .ok (f.plainRow (Column.cells cols r))

/-- What a call `m` of `f` answers from the block `b` over `rows` rows of the argument columns
`cols`, writing at `result`, where `room` says whether the sizes it adds up before writing are
machine-sized counts and `reserve` whether it can reserve every row it writes: types `f` does
not take are refused by an error other than an overflow, a row it does not admit or sizes
without room make the call fail with an overflow, a row it cannot reserve stops it, and
otherwise the call writes a well-formed column of `rows` rows whose row `r` is the row value of
row `r`. The column has the declared type, made nullable when `f` strips NULLs and an argument
is nullable. -/
structure Answers (f : Builtin) (cfg : Config) (cols : List Column) (rows result : Nat)
    (room reserve : Bool) (m : BlockM Unit) (b : Block) : Prop where
  refuses : f.takes (cols.map Column.dataType) = false →
    ∃ e b', m.run b = .error e b' ∧ e.kind ≠ .overflow
  overflows : f.takes (cols.map Column.dataType) →
    ((∃ r < rows, f.admits cfg (Column.cells cols r) = false) ∨ room = false) →
    ∃ e b', m.run b = .error e b' ∧ e.kind = .overflow
  stops : f.takes (cols.map Column.dataType) →
    (∀ r < rows, f.admits cfg (Column.cells cols r)) → room = true → reserve = false →
    ∃ e b', m.run b = .error e b' ∧ e.kind = .outOfBounds
  writes : f.takes (cols.map Column.dataType) →
    (∀ r < rows, f.admits cfg (Column.cells cols r)) → room = true → reserve = true →
    ∃ b', m.run b = .ok () b' ∧ ∃ col, b'.column result = .ok col ∧ col.wellFormed ∧
      col.length = rows ∧
      (∃ t, f.returnType (cols.map Column.dataType) = .ok t ∧
        col.dataType = if f.stripsNulls && cols.any Column.isNullable then t.makeNullable else t) ∧
      ∀ r < rows, col.get r = .ok (f.rowValue (Column.cells cols r))

section Answers

variable {f : Builtin} {cfg : Config} {b : Block} {cols : List Column} {rows result : Nat}
  {room reserve : Bool}

theorem Answers.of_run_eq {m m' : BlockM Unit} (h : m'.run b = m.run b)
    (ha : f.Answers cfg cols rows result room reserve m b) :
    f.Answers cfg cols rows result room reserve m' b :=
  ⟨fun hbad => by rw [h]; exact ha.refuses hbad,
    fun hok hrow => by rw [h]; exact ha.overflows hok hrow,
    fun hok hall hroom hstop => by rw [h]; exact ha.stops hok hall hroom hstop,
    fun hok hall hroom hres => by rw [h]; exact ha.writes hok hall hroom hres⟩

namespace Answers

variable {m m₁ m₂ : BlockM Unit}

/-- A call that answers as `Answers` says succeeds only by writing the column it promises. -/
theorem of_run_ok (ha : f.Answers cfg cols rows result room reserve m b) {b' : Block}
    (h : m.run b = .ok () b') :
    f.takes (cols.map Column.dataType) ∧ (∀ r < rows, f.admits cfg (Column.cells cols r)) ∧
      room = true ∧ reserve = true ∧
      ∃ col, b'.column result = .ok col ∧ col.wellFormed ∧ col.length = rows ∧
        (∃ t, f.returnType (cols.map Column.dataType) = .ok t ∧
          col.dataType = if f.stripsNulls && cols.any Column.isNullable then t.makeNullable else t) ∧
        ∀ r < rows, col.get r = .ok (f.rowValue (Column.cells cols r)) := by
  -- every other outcome is an error of the same run
  cases htakes : f.takes (cols.map Column.dataType)
  · obtain ⟨e, b'', he, -⟩ := ha.refuses htakes
    rw [h] at he
    cases he
  by_cases hall : ∀ r < rows, f.admits cfg (Column.cells cols r)
  · cases hroom : room
    · obtain ⟨e, b'', he, -⟩ := ha.overflows htakes (.inr hroom)
      rw [h] at he
      cases he
    cases hres : reserve
    · obtain ⟨e, b'', he, -⟩ := ha.stops htakes hall hroom hres
      rw [h] at he
      cases he
    obtain ⟨b'', hrun, hwrite⟩ := ha.writes htakes hall hroom hres
    rw [h] at hrun
    cases hrun
    exact ⟨rfl, hall, rfl, rfl, hwrite⟩
  · obtain ⟨e, b'', he, -⟩ := ha.overflows htakes (.inl (by simpa using hall))
    rw [h] at he
    cases he

/-- A call fails with an overflow exactly when it takes the arguments' types and some row is not
admitted or its sizes have no room. -/
theorem overflow_iff (ha : f.Answers cfg cols rows result room reserve m b) :
    (∃ e b', m.run b = .error e b' ∧ e.kind = .overflow) ↔
      f.takes (cols.map Column.dataType) ∧
        ((∃ r < rows, f.admits cfg (Column.cells cols r) = false) ∨ room = false) := by
  constructor
  · rintro ⟨e, b', he, hkind⟩
    cases htakes : f.takes (cols.map Column.dataType)
    · -- refused by its types: the one error of the call is not an overflow
      obtain ⟨e', b'', he', hkind'⟩ := ha.refuses htakes
      rw [he] at he'
      cases he'
      exact absurd hkind hkind'
    · refine ⟨rfl, ?_⟩
      by_contra hfine
      simp only [not_or, not_exists, not_and, Bool.not_eq_false] at hfine
      cases hres : reserve
      · -- the call stops instead, and a stop is not an overflow
        obtain ⟨e', b'', he', hkind'⟩ := ha.stops htakes hfine.1 hfine.2 hres
        rw [he] at he'
        cases he'
        rw [hkind] at hkind'
        cases hkind'
      · obtain ⟨b'', hrun, -⟩ := ha.writes htakes hfine.1 hfine.2 hres
        rw [he] at hrun
        cases hrun
  · rintro ⟨htakes, hbad⟩
    exact ha.overflows htakes hbad

/-- A call that answers succeeds exactly when it takes the arguments' types, admits every row,
has room for its sizes and can reserve every row. -/
theorem succeeds_iff (ha : f.Answers cfg cols rows result room reserve m b) :
    (∃ b', m.run b = .ok () b') ↔
      f.takes (cols.map Column.dataType) ∧ (∀ r < rows, f.admits cfg (Column.cells cols r)) ∧
        room = true ∧ reserve = true := by
  constructor
  · rintro ⟨b', h⟩
    obtain ⟨htakes, hall, hroom, hres, -⟩ := ha.of_run_ok h
    exact ⟨htakes, hall, hroom, hres⟩
  · rintro ⟨htakes, hall, hroom, hres⟩
    obtain ⟨b', h, -⟩ := ha.writes htakes hall hroom hres
    exact ⟨b', h⟩

/-- Two calls that answer alike write, when both succeed, columns of one type whose rows read
alike. -/
theorem agree {room₁ room₂ reserve₁ reserve₂ : Bool}
    (h₁ : f.Answers cfg cols rows result room₁ reserve₁ m₁ b)
    (h₂ : f.Answers cfg cols rows result room₂ reserve₂ m₂ b) :
    ∀ b₁ b₂, m₁.run b = .ok () b₁ → m₂.run b = .ok () b₂ →
      ∃ c₁ c₂, b₁.column result = .ok c₁ ∧ b₂.column result = .ok c₂ ∧
        c₁.dataType = c₂.dataType ∧ c₁.length = rows ∧ c₂.length = rows ∧
        ∀ r < rows, c₁.get r = c₂.get r := by
  intro b₁ b₂ hr₁ hr₂
  obtain ⟨-, -, -, -, c₁, hc₁, -, hl₁, ⟨t₁, ht₁, hd₁⟩, hg₁⟩ := h₁.of_run_ok hr₁
  obtain ⟨-, -, -, -, c₂, hc₂, -, hl₂, ⟨t₂, ht₂, hd₂⟩, hg₂⟩ := h₂.of_run_ok hr₂
  -- both columns have the declared type, which the argument types fix
  obtain rfl : t₁ = t₂ := by
    rw [ht₁] at ht₂
    cases ht₂
    rfl
  exact ⟨c₁, c₂, hc₁, hc₂, hd₁.trans hd₂.symm, hl₁, hl₂,
    fun r hr => (hg₁ r hr).trans (hg₂ r hr).symm⟩

end Answers

end Answers

end Builtin

end TextBatch

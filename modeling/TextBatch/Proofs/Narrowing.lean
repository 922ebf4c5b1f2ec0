import TextBatch.Proofs.Resolve
import TextBatch.Proofs.Slice

/-! # Narrowing of substring arguments

Positions and counts reach the substring family as 32-bit integers: a 64-bit cell is first
saturated to the 32-bit range (`Value.int32Arg?`), and `right` negates its count with
saturation. On rows shorter than `int32Max` bytes none of this can be seen: every function of
the family answers what the decision table gives on the exact values of the integer cells
(`Builtin.exactSliceRow`), with `right`'s position `max(-n, -c)` computed exactly.

Each clamp is harmless for a reason of its own, and each reason is a bound on the row's
length: a position clamped from above still lies past the end of the row (`Span.select_of_gt`),
one clamped from below still lies before the first character (`Span.select_of_before_first`), a
count clamped from above still reaches past the last character (`Span.select_count_congr`), and
a count clamped from below is still not positive (`Span.select_nonpos_congr`).
-/

namespace TextBatch

/-- Saturation of an integer to the 32-bit range. -/
def saturate32 (v : Int) : Int := max (-2147483648) (min 2147483647 v)

theorem saturate32_of_mem {v : Int} (lo : -2147483648 ≤ v) (hi : v ≤ 2147483647) :
    saturate32 v = v := by
  unfold saturate32
  omega

namespace Value

/-- A cell read as an integer argument with its exact value: bytes widen, 32- and 64-bit values
are read as they are, and a cell of any other kind is no integer. -/
def intArg? : Value → Option Int
  | .uint8 v => some v.toNat
  | .int32 v => some v.toInt
  | .int64 v => some v.toInt
  | _ => none

/-- The cell `right` answers with its position `max(-n, -c)` and count `c` computed exactly, `c`
the character count of the string cell `s` and `n` the exact value of the count cell. -/
def exactRight (s n : Value) : Value :=
  match s, n.intArg? with
  | .bytes b, some k =>
    let c : Int := Utf8.charCount b
    s.substring (some (max (-k) (-c))) (some c)
  | _, _ => .null

/-- Reading a cell as a 32-bit argument saturates its exact value; bytes and 32-bit values are
in range already. -/
theorem int32Arg?_eq_map (v : Value) : v.int32Arg? = v.intArg?.map saturate32 := by
  cases v with
  | uint8 v =>
    have := UInt8.toNat_lt v
    have hsat : saturate32 v.toNat = v.toNat := saturate32_of_mem (by omega) (by omega)
    simp only [int32Arg?, intArg?, Option.map_some, hsat]
  | int32 v =>
    have := Int32.le_toInt v
    have := Int32.toInt_lt v
    have hsat : saturate32 v.toInt = v.toInt := saturate32_of_mem (by omega) (by omega)
    simp only [int32Arg?, intArg?, Option.map_some, hsat]
  | int64 v => rfl
  | null => rfl
  | bytes b => rfl

end Value

namespace Builtin

/-- The row semantics of the substring family on the exact values of its integer cells. -/
def exactSliceRow : Builtin → List Value → Value
  | .substring, [s, p, l] => s.substring p.intArg? l.intArg?
  | .substringFrom, [s, p] => s.substring p.intArg? (some int32Max)
  | .left, [s, n] => s.substring (some 1) n.intArg?
  | .right, [s, n] => s.exactRight n
  | _, _ => .null

end Builtin

namespace Span

/-- A position further back than the first character selects the empty string. -/
theorem select_of_before_first {s : Bytes} {pos : Int} (len : Int)
    (h : pos + Utf8.charCount s < 0) : select s pos len = .empty := by
  have hle : pos ≤ s.length := by omega
  by_cases hearly : len ≤ 0 ∨ s.length = 0 ∨ pos = 0
  · exact select_of_early hle hearly
  have hearly' : ¬(len ≤ 0 ∨ (s.length : Int) = 0 ∨ pos = 0) := by omega
  simp only [select, if_neg (Int.not_lt.mpr hle), if_neg hearly', Utf8.length_charStarts,
    if_pos (show pos < 0 by omega)]
  rw [if_neg (by omega), if_pos (by omega)]

/-- A count that is not positive selects the same whatever its value: NULL past the end of the
row and the empty string elsewhere. -/
theorem select_nonpos_congr {s : Bytes} {len len' : Int} (pos : Int) (h : len ≤ 0)
    (h' : len' ≤ 0) : select s pos len = select s pos len' := by
  by_cases hgt : pos > s.length
  · rw [select_of_gt len hgt, select_of_gt len' hgt]
  · rw [select_of_early (Int.not_lt.mp hgt) (.inl h), select_of_early (Int.not_lt.mp hgt) (.inl h')]

/-- Counts beyond the character count all select to the end of the row. -/
theorem select_count_congr {s : Bytes} {len len' : Int} (pos : Int)
    (h : Utf8.charCount s < len) (h' : Utf8.charCount s < len') :
    select s pos len = select s pos len' := by
  rw [select_eq_table, select_eq_table]
  by_cases hgt : pos > s.length
  · simp only [table, if_pos hgt]
  have hearly : (len ≤ 0 ∨ s.length = 0 ∨ pos = 0) ↔ (len' ≤ 0 ∨ s.length = 0 ∨ pos = 0) := by
    omega
  simp only [table, if_neg hgt, hearly]
  generalize (if pos > 0 then pos else (Utf8.charCount s : Int) + pos + 1) = p
  split_ifs with hnull hbefore
  · rfl
  · rfl
  · rfl
  · -- from a character start on, both counts run to the last character
    rw [Int.min_eq_right (by omega), Int.min_eq_right (by omega)]

/-- Saturating the position changes nothing on a row shorter than `int32Max` bytes: clamped
from above it stays past the end of the row, from below before the first character. -/
theorem select_saturate32_pos {s : Bytes} (hs : s.length < int32Max) (pos len : Int) :
    select s (saturate32 pos) len = select s pos len := by
  have hc := Utf8.charCount_le_length s
  unfold int32Max at hs
  by_cases hhi : 2147483647 < pos
  · have hsat : saturate32 pos = 2147483647 := by unfold saturate32; omega
    rw [hsat, select_of_gt len (by omega), select_of_gt len (by omega)]
  by_cases hlo : pos < -2147483648
  · have hsat : saturate32 pos = -2147483648 := by unfold saturate32; omega
    rw [hsat, select_of_before_first len (by omega), select_of_before_first len (by omega)]
  rw [saturate32_of_mem (by omega) (by omega)]

/-- Saturating the count changes nothing on a row shorter than `int32Max` bytes: clamped from
above it still reaches past the last character, from below it is still not positive. -/
theorem select_saturate32_len {s : Bytes} (hs : s.length < int32Max) (pos len : Int) :
    select s pos (saturate32 len) = select s pos len := by
  have hc := Utf8.charCount_le_length s
  unfold int32Max at hs
  by_cases hhi : 2147483647 < len
  · have hsat : saturate32 len = 2147483647 := by unfold saturate32; omega
    rw [hsat]
    exact select_count_congr pos (by omega) (by omega)
  by_cases hlo : len < -2147483648
  · have hsat : saturate32 len = -2147483648 := by unfold saturate32; omega
    rw [hsat]
    exact select_nonpos_congr pos (by omega) (by omega)
  rw [saturate32_of_mem (by omega) (by omega)]

end Span

namespace Value

variable {s : Value}

theorem substring_saturate32_pos (hs : ∀ b, s = .bytes b → b.length < int32Max)
    (pos len : Option Int) : s.substring (pos.map saturate32) len = s.substring pos len := by
  cases s with
  | bytes b =>
    cases pos with
    | none => rfl
    | some p =>
      cases len with
      | none => rfl
      | some l => simp only [Option.map_some, substring, Span.select_saturate32_pos (hs b rfl)]
  | _ => rfl

theorem substring_saturate32_len (hs : ∀ b, s = .bytes b → b.length < int32Max)
    (pos len : Option Int) : s.substring pos (len.map saturate32) = s.substring pos len := by
  cases s with
  | bytes b =>
    cases pos with
    | none => rfl
    | some p =>
      cases len with
      | none => rfl
      | some l => simp only [Option.map_some, substring, Span.select_saturate32_len (hs b rfl)]
  | _ => rfl

/-- `right` on a row shorter than `int32Max` bytes answers as with its position `max(-n, -c)`
computed exactly: a count saturated from above still reaches back to the first character, and
a position whose negation saturated still lies past the end of the row. -/
theorem right_eq_exactRight (hs : ∀ b, s = .bytes b → b.length < int32Max) (n : Value) :
    s.right n = s.exactRight n := by
  cases s with
  | bytes b =>
    have hb := hs b rfl
    have hc := Utf8.charCount_le_length b
    cases hN : n.intArg? with
    | none =>
      rw [right_of_int32Arg_none (by rw [int32Arg?_eq_map, hN, Option.map_none])]
      simp only [exactRight, hN]
    | some N =>
      rw [right_bytes (by rw [int32Arg?_eq_map, hN, Option.map_some])]
      simp only [exactRight, hN]
      have hcap : min (Utf8.charCount b : Int) int32Max = Utf8.charCount b := by omega
      rw [hcap]
      -- the positions agree, or both lie past the end of the row
      have hpos : max (min (-saturate32 N) int32Max) (-(Utf8.charCount b : Int)) =
            max (-N) (-(Utf8.charCount b : Int)) ∨
          ((b.length : Int) < max (min (-saturate32 N) int32Max) (-(Utf8.charCount b : Int)) ∧
            (b.length : Int) < max (-N) (-(Utf8.charCount b : Int))) := by
        unfold saturate32
        unfold int32Max at hb ⊢
        omega
      rcases hpos with heq | ⟨hq, hq'⟩
      · rw [heq]
      · simp only [substring, Span.select_of_gt _ hq, Span.select_of_gt _ hq']
  | _ => rfl

end Value

namespace Builtin

/-- On a row whose string is shorter than `int32Max` bytes, the substring family answers on the
exact values of its integer cells. -/
theorem sliceRow_eq_exactSliceRow {f : Builtin} (hf : f ∈ [substring, substringFrom, left, right])
    {cells : List Value} (hshort : ∀ b, cells.head? = some (.bytes b) → b.length < int32Max) :
    f.sliceRow cells = f.exactSliceRow cells := by
  simp only [List.mem_cons, List.not_mem_nil, or_false] at hf
  rcases cells with _ | ⟨s, xs⟩
  · rcases hf with rfl | rfl | rfl | rfl <;> rfl
  have hs : ∀ b, s = .bytes b → b.length < int32Max := fun b hb => hshort b (by rw [hb]; rfl)
  rcases xs with _ | ⟨x, _ | ⟨y, _ | ⟨z, zs⟩⟩⟩ <;>
    rcases hf with rfl | rfl | rfl | rfl <;> simp only [sliceRow, exactSliceRow]
  · rw [Value.int32Arg?_eq_map, Value.substring_saturate32_pos hs]
  · rw [Value.int32Arg?_eq_map, Value.substring_saturate32_len hs]
  · exact Value.right_eq_exactRight hs x
  · rw [Value.int32Arg?_eq_map, Value.int32Arg?_eq_map, Value.substring_saturate32_pos hs,
      Value.substring_saturate32_len hs]

/-- Every row of a column the substring family writes over strings shorter than `int32Max`
bytes is the family's answer on the exact values of the integer cells. -/
theorem Slices.get_exact {f : Builtin} (hf : f ∈ [substring, substringFrom, left, right])
    {cols : List Column} {rows : Nat} {col : Column} (h : f.Slices cols rows col)
    (hshort : ∀ c ∈ cols.head?, ∀ r < rows, ∀ s, c.get r = .ok (.bytes s) → s.length < int32Max) :
    ∀ r < rows, col.get r = (cols.mapM (Column.get · r)).map f.exactSliceRow := by
  intro r hr
  rw [h.get_eq r hr]
  cases hcells : cols.mapM (Column.get · r) with
  | error e => rfl
  | ok cells =>
    simp only [Except.map]
    rw [sliceRow_eq_exactSliceRow hf]
    -- the first cell is the string column's row
    intro b hb
    cases mapM_eq_ok_iff.mp hcells with
    | nil => cases hb
    | cons hc _ =>
      simp only [List.head?_cons, Option.some.injEq] at hb
      exact hshort _ rfl r hr b (by rw [hc, hb])

/-- Running `m` on `b` succeeds and leaves at `result` a column whose row `r`, for each of `rows`
rows, is what `f` answers on the exact values of the argument cells at `r`. -/
def WritesExact (f : Builtin) (cols : List Column) (rows result : Nat) (m : BlockM Unit)
    (b : Block) : Prop :=
  ∃ b', m.run b = .ok () b' ∧ ∃ col, b'.column result = .ok col ∧
    ∀ r < rows, col.get r = (cols.mapM (Column.get · r)).map f.exactSliceRow

theorem WritesSlices.writesExact {f : Builtin} (hf : f ∈ [substring, substringFrom, left, right])
    {cols : List Column} {rows result : Nat} {m : BlockM Unit} {b : Block}
    (h : f.WritesSlices cols rows result m b)
    (hshort : ∀ c ∈ cols.head?, ∀ r < rows, ∀ s, c.get r = .ok (.bytes s) → s.length < int32Max) :
    f.WritesExact cols rows result m b := by
  obtain ⟨b', hrun, col, hcol, hslices⟩ := h
  exact ⟨b', hrun, col, hcol, hslices.get_exact hf hshort⟩

/-- Saturating narrowing of positions and counts cannot be seen on strings shorter than
`int32Max` bytes: over a string column and integer columns of any width, the kernel and the
dispatcher, folding constants or not, write the rows that the decision table gives on the exact
values of the cells, `right`'s position `max(-n, -c)` computed exactly too. -/
theorem narrowing_unobservable {f : Builtin} (hf : f ∈ [substring, substringFrom, left, right])
    (cfg : Config) {b : Block} {n result : Nat} {args : List Nat} {cols : List Column}
    (hb : b.Shaped n) (hargs : List.Forall₂ (fun pos c => b.column pos = .ok c) args cols)
    (harity : f.arity.accepts args.length)
    (hstring : ∀ c ∈ cols.head?, c.dataType.isString)
    (hints : ∀ c ∈ cols.tail, c.dataType.isInteger) (hresult : result < b.size)
    (hshort : ∀ c ∈ cols.head?, ∀ r < n, ∀ s, c.get r = .ok (.bytes s) → s.length < int32Max) :
    f.WritesExact cols n result (f.run cfg args result n) b ∧
      ∀ folds, f.WritesExact cols n result (f.executeAs folds cfg args result n) b := by
  obtain ⟨b', hrun, col, hcol, -, hslices⟩ :=
    run_slices hf cfg hb hargs harity hstring hints hresult
  refine ⟨WritesSlices.writesExact hf ⟨b', hrun, col, hcol, hslices⟩ hshort, fun folds => ?_⟩
  exact (executeAs_slices hf folds cfg hb hargs harity hstring hints hresult).writesExact hf hshort

/-- `right("hello", n)` for the least 32-bit `n`, whose negation saturates. -/
theorem narrowing_unobservable_right_min :
    let b : Block := ⟨[⟨"s", .string, some (.string ⟨[[104, 101, 108, 108, 111]]⟩)⟩,
      ⟨"n", .int32, some (.int32 [-2147483648])⟩, ⟨"r", .nullable .string, none⟩]⟩
    let cols := [Column.string ⟨[[104, 101, 108, 108, 111]]⟩, .int32 [-2147483648]]
    b.Shaped 1 ∧ List.Forall₂ (fun pos c => b.column pos = .ok c) [0, 1] cols ∧
      (∀ c ∈ cols.head?, ∀ r < 1, ∀ s, c.get r = .ok (.bytes s) → s.length < int32Max) ∧
      right.WritesExact cols 1 2 (right.run {} [0, 1] 2 1) b ∧
      ∀ folds, right.WritesExact cols 1 2 (right.executeAs folds {} [0, 1] 2 1) b := by
  intro b cols
  have hb : b.Shaped 1 := by
    unfold Block.Shaped
    decide
  have hargs : List.Forall₂ (fun pos c => b.column pos = .ok c) [0, 1] cols :=
    .cons rfl (.cons rfl .nil)
  have hshort : ∀ c ∈ cols.head?, ∀ r < 1, ∀ s, c.get r = .ok (.bytes s) → s.length < int32Max := by
    intro c hc r hr s hs
    simp only [cols, List.head?_cons, Option.mem_def, Option.some.injEq] at hc
    subst hc
    obtain rfl : r = 0 := by omega
    cases hs
    decide
  obtain ⟨hrun, hexecute⟩ := narrowing_unobservable
    (show right ∈ [substring, substringFrom, left, right] by simp) {} hb hargs rfl (by decide)
    (by decide) (show 2 < b.size by decide) hshort
  exact ⟨hb, hargs, hshort, hrun, hexecute⟩

end Builtin

end TextBatch

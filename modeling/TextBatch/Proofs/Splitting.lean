import TextBatch.Proofs.Narrowing
import TextBatch.Proofs.Characters
import TextBatch.Proofs.Stripping

/-! # `left` and `right` split a row at every character

`left(s, k)` is the substring from the first character for `k` characters, and `right(s, m)` the
substring from `max(-m, -c)` for all `c` characters of `s`. On a row that is not empty both cut
at a character boundary of the lead-byte scan (`Utf8.boundary`): `left` keeps the bytes before
the boundary of character `k`, and `right` the bytes from the boundary of character `c - m` on
(`Value.left_eq_take`, `Value.right_eq_drop`). So for `k` from 0 to `c`, `left(s, k)` and
`right(s, c - k)` cut at one boundary and put the row back together, valid UTF-8 or not; and from
`c` on both keep the whole row. The main statement is `Builtin.left_right_split`.

The empty row is where the two rewrites part: position 1 lies past its end, so `left` answers
NULL there, while `right` answers the empty string.
-/

namespace TextBatch

namespace Utf8

theorem charCount_pos {s : Bytes} (hs : s ≠ []) : 0 < charCount s := by
  obtain ⟨b, rest, rfl⟩ := List.exists_cons_of_ne_nil hs
  rw [charCount_cons]
  omega

/-- Every boundary from the character count on is the end of the row. -/
theorem boundary_min (s : Bytes) (i : Nat) : boundary s (min i (charCount s)) = boundary s i := by
  by_cases hi : i ≤ charCount s
  · rw [Nat.min_eq_left hi]
  · rw [Nat.min_eq_right (by omega), boundary_of_le (Nat.le_refl _), boundary_of_le (by omega)]

end Utf8

namespace Span

variable {s : Bytes}

/-- From the first character, a count of `k` characters selects the bytes before the boundary
of character `k`. -/
theorem table_from_first (hs : s ≠ []) {k : Int} (hk : 0 ≤ k) :
    (table s 1 k).slice s = some (s.take (Utf8.boundary s k.toNat)) := by
  have hlen : 0 < s.length := List.length_pos_of_ne_nil hs
  have hc := Utf8.charCount_pos hs
  unfold table
  by_cases hk0 : k = 0
  · subst hk0
    simp [slice, Utf8.boundary_zero, show ¬((s.length : Int) < 1) by omega]
  · have hearly : ¬(k ≤ 0 ∨ s.length = 0 ∨ (1 : Int) = 0) := by omega
    simp only [if_neg (show ¬(1 : Int) > s.length by omega), if_neg hearly,
      if_pos (show (1 : Int) > 0 by omega), if_neg (show ¬(1 : Int) > Utf8.charCount s by omega),
      if_neg (show ¬(1 : Int) < 1 by omega), slice, Int.sub_self, Int.toNat_zero,
      Utf8.boundary_zero, Nat.sub_zero, List.drop_zero]
    -- the span ends at the boundary of character `k`, or at the end of the row past the last one
    have hstop : (min (1 + k - 1) (Utf8.charCount s : Int)).toNat =
        min k.toNat (Utf8.charCount s) := by omega
    rw [hstop, Utf8.boundary_min]

/-- From `m` characters before the end, for all `c` characters, the table selects the bytes from
the boundary of character `c - m` on; from the first character when `m` is `c` or more. -/
theorem table_from_end (hs : s ≠ []) {m : Int} (hm : 0 ≤ m) :
    (table s (max (-m) (-(Utf8.charCount s : Int))) (Utf8.charCount s)).slice s =
      some (s.drop (Utf8.boundary s (Utf8.charCount s - m).toNat)) := by
  have hlen : 0 < s.length := List.length_pos_of_ne_nil hs
  have hc := Utf8.charCount_pos hs
  unfold table
  by_cases hm0 : m = 0
  · -- no character from the end: position 0 selects the empty string
    subst hm0
    have hpos : max (-(0 : Int)) (-(Utf8.charCount s : Int)) = 0 := by omega
    have hend : Utf8.boundary s (Utf8.charCount s - (0 : Int)).toNat = s.length := by
      rw [Int.sub_zero, Int.toNat_natCast, Utf8.boundary_of_le (Nat.le_refl _)]
    rw [hpos, if_neg (show ¬(0 : Int) > s.length by omega),
      if_pos (Or.inr (Or.inr rfl) : (Utf8.charCount s : Int) ≤ 0 ∨ s.length = 0 ∨ (0 : Int) = 0)]
    simp only [slice, hend, List.drop_length]
  · have hearly : ¬((Utf8.charCount s : Int) ≤ 0 ∨ s.length = 0 ∨
        max (-m) (-(Utf8.charCount s : Int)) = 0) := by omega
    simp only [if_neg (show ¬max (-m) (-(Utf8.charCount s : Int)) > s.length by omega),
      if_neg hearly, if_neg (show ¬max (-m) (-(Utf8.charCount s : Int)) > 0 by omega),
      if_neg (show ¬(Utf8.charCount s : Int) + max (-m) (-(Utf8.charCount s : Int)) + 1 >
        Utf8.charCount s by omega),
      if_neg (show ¬(Utf8.charCount s : Int) + max (-m) (-(Utf8.charCount s : Int)) + 1 < 1 by
        omega), slice]
    -- the span starts at the boundary of character `c - m` and runs to the end of the row
    have hstart : ((Utf8.charCount s : Int) + max (-m) (-(Utf8.charCount s : Int)) + 1 - 1).toNat =
        (Utf8.charCount s - m).toNat := by omega
    have hstop : (min ((Utf8.charCount s : Int) + max (-m) (-(Utf8.charCount s : Int)) + 1 +
        Utf8.charCount s - 1) (Utf8.charCount s : Int)).toNat = Utf8.charCount s := by omega
    rw [hstart, hstop, Utf8.boundary_of_le (Nat.le_refl _), List.take_of_length_le (by simp)]

end Span

namespace Value

variable {s : Bytes}

/-- `left` of a row that is not empty keeps the bytes before the boundary of character `k`. -/
theorem left_eq_take (hs : s ≠ []) {k : Int} (hk : 0 ≤ k) :
    (Value.bytes s).substring (some 1) (some k) = .bytes (s.take (Utf8.boundary s k.toNat)) := by
  simp only [substring, Span.select_eq_table, Span.table_from_first hs hk]

/-- `right` of a row that is not empty, of at most `int32Max` characters, for a count `m` that is
not negative keeps the bytes from the boundary of character `c - m` on. -/
theorem right_eq_drop (hs : s ≠ []) (hc : Utf8.charCount s ≤ int32Max) {n : Value} {m : Int}
    (hn : n.int32Arg? = some m) (hm : 0 ≤ m) :
    (Value.bytes s).right n =
      .bytes (s.drop (Utf8.boundary s (Utf8.charCount s - m).toNat)) := by
  -- neither the count nor its negation is clamped
  have hcount : min (Utf8.charCount s : Int) int32Max = Utf8.charCount s := by omega
  have hpos : min (-m) int32Max = -m := by unfold int32Max; omega
  rw [right_bytes hn, hcount, hpos]
  simp only [substring, Span.select_eq_table, Span.table_from_end hs hm]

end Value

namespace Column

/-- A well-formed column read as a string at some row is a string column. -/
theorem isString_of_get_bytes {c : Column} (hwf : c.wellFormed) {r : Nat} {s : Bytes}
    (h : c.get r = .ok (.bytes s)) : c.dataType.isString := by
  have hr : r < c.length := by
    by_contra hle
    rw [get_of_length_le (Nat.le_of_not_lt hle)] at h
    cases h
  have hs := splits_unpack hwf
  rw [hs.get_eq r hr] at h
  split at h
  · cases h
  · -- the plain values read bytes, so they are strings
    have hu : c.toFull.unwrapNullable.1.dataType = .string := by
      have hplain := hs.plain
      have hru : r < c.toFull.unwrapNullable.1.length := hs.length_eq ▸ hr
      generalize c.toFull.unwrapNullable.1 = u at h hplain hru
      cases u <;> simp_all [isPlain, get, length, dataType, StringColumn.length]
    rw [← DataType.isString_removeNullable, ← hs.dataType_eq, hu]
    rfl

/-- A well-formed column read as an integer at some row is an integer column. -/
theorem isInteger_of_intArg? {c : Column} (hwf : c.wellFormed) {r : Nat} (hr : r < c.length)
    {k : Int} (h : (c.cell r).intArg? = some k) : c.dataType.isInteger := by
  have hs := splits_unpack hwf
  rw [hs.cell_eq hr] at h
  split at h
  · simp [Value.intArg?] at h
  · -- the plain values read an integer, so they are integers
    have hu : c.toFull.unwrapNullable.1.dataType.isInteger := by
      have hplain := hs.plain
      have hru : r < c.toFull.unwrapNullable.1.length := hs.length_eq ▸ hr
      generalize c.toFull.unwrapNullable.1 = u at h hplain hru
      cases u <;> simp_all [isPlain, cell, get, length, dataType, Value.intArg?,
        DataType.isInteger, DataType.removeNullable, StringColumn.length]
    rw [← DataType.isInteger_removeNullable, ← hs.dataType_eq]
    exact hu

end Column

namespace BlockM

/-- Running `m` on `b` succeeds and leaves at `result` a column whose row `r` reads `v`. -/
def WritesAt (m : BlockM Unit) (b : Block) (result r : Nat) (v : Value) : Prop :=
  ∃ b', m.run b = .ok () b' ∧ ∃ col, b'.column result = .ok col ∧ col.get r = .ok v

end BlockM

namespace Builtin

/-- Every way of calling `f` on the arguments at `args` over `rows` rows writes `v` at row `r`
of `result`: the function's own work, and the dispatcher with folding on or off. -/
def AnswersAt (f : Builtin) (cfg : Config) (args : List Nat) (rows result r : Nat) (b : Block)
    (v : Value) : Prop :=
  (f.run cfg args result rows).WritesAt b result r v ∧
    ∀ folds, (f.executeAs folds cfg args result rows).WritesAt b result r v

theorem WritesSlices.writesAt {f : Builtin} {cols : List Column} {rows result : Nat}
    {m : BlockM Unit} {b : Block} (h : f.WritesSlices cols rows result m b) {r : Nat}
    (hr : r < rows) {cells : List Value} (hcells : cols.mapM (Column.get · r) = .ok cells) :
    m.WritesAt b result r (f.sliceRow cells) := by
  obtain ⟨b', hrun, col, hcol, hslices⟩ := h
  refine ⟨b', hrun, col, hcol, ?_⟩
  rw [hslices.get_eq r hr, hcells]
  rfl

/-- A function of the substring family writes, on every path, its row value for the cells of
row `r`. -/
theorem answersAt_slices {f : Builtin} (hf : f ∈ [substring, substringFrom, left, right])
    (cfg : Config) {b : Block} {n result r : Nat} {args : List Nat} {cols : List Column}
    {cells : List Value} (hb : b.Shaped n)
    (hargs : List.Forall₂ (fun pos c => b.column pos = .ok c) args cols)
    (harity : f.arity.accepts args.length) (hstring : ∀ c ∈ cols.head?, c.dataType.isString)
    (hints : ∀ c ∈ cols.tail, c.dataType.isInteger) (hresult : result < b.size) (hr : r < n)
    (hcells : cols.mapM (Column.get · r) = .ok cells) :
    f.AnswersAt cfg args n result r b (f.sliceRow cells) := by
  obtain ⟨b', hrun, col, hcol, -, hslices⟩ := run_slices hf cfg hb hargs harity hstring hints hresult
  exact ⟨WritesSlices.writesAt ⟨b', hrun, col, hcol, hslices⟩ hr hcells, fun folds =>
    (executeAs_slices hf folds cfg hb hargs harity hstring hints hresult).writesAt hr hcells⟩

section Split

variable (cfg : Config) {b : Block} {n result r ps : Nat} {cs : Column} {s : Bytes}

/-- `left` or `right` over a string column and a count column writes, on every path, its row
value for the string of row `r` and the count's cell there. -/
theorem answersAt_string_count {f : Builtin} (hf : f ∈ [left, right]) (hb : b.Shaped n)
    (hresult : result < b.size) (hs : b.column ps = .ok cs) (hr : r < n)
    (hsr : cs.get r = .ok (.bytes s)) {pk : Nat} {ck : Column} {k : Int}
    (hk : b.column pk = .ok ck) (hkr : (ck.cell r).intArg? = some k) :
    f.AnswersAt cfg [ps, pk] n result r b (f.sliceRow [.bytes s, ck.cell r]) := by
  have hck := hb.holds hk
  have hstring := Column.isString_of_get_bytes (hb.holds hs).wellFormed hsr
  have hint := Column.isInteger_of_intArg? hck.wellFormed (hck.length_eq ▸ hr) hkr
  have hcells : [cs, ck].mapM (Column.get · r) = .ok [.bytes s, ck.cell r] := by
    simp [List.mapM_cons, hsr, Column.get_eq_cell hck.wellFormed (hck.length_eq ▸ hr), bind,
      Except.bind, pure, Except.pure]
  have harity : f.arity.accepts [ps, pk].length := by
    simp only [List.mem_cons, List.not_mem_nil, or_false] at hf
    rcases hf with rfl | rfl <;> rfl
  refine answersAt_slices (by simp only [List.mem_cons] at hf ⊢; tauto) cfg hb
    (.cons hs (.cons hk .nil)) harity (fun c hc => ?_) (fun c hc => ?_) hresult hr hcells
  · simp only [List.head?_cons, Option.mem_def, Option.some.injEq] at hc
    exact hc ▸ hstring
  · simp only [List.tail_cons, List.mem_singleton] at hc
    exact hc ▸ hint

/-- `left` writes, on every path, the bytes of a row that is not empty before the boundary of
character `k`, for an integer cell `k` that is not negative. -/
theorem left_answersAt_take (hb : b.Shaped n) (hresult : result < b.size)
    (hs : b.column ps = .ok cs) (hr : r < n) (hsr : cs.get r = .ok (.bytes s)) (hne : s ≠ [])
    {pk : Nat} {ck : Column} {k : Int} (hk : b.column pk = .ok ck)
    (hkr : (ck.cell r).intArg? = some k) (hk0 : 0 ≤ k) :
    left.AnswersAt cfg [ps, pk] n result r b
      (.bytes (s.take (Utf8.boundary s (saturate32 k).toNat))) := by
  have hrow : left.sliceRow [.bytes s, ck.cell r] =
      .bytes (s.take (Utf8.boundary s (saturate32 k).toNat)) := by
    rw [sliceRow, Value.int32Arg?_eq_map, hkr, Option.map_some,
      Value.left_eq_take hne (by unfold saturate32; omega)]
  rw [← hrow]
  exact answersAt_string_count cfg (by simp) hb hresult hs hr hsr hk hkr

/-- `right` writes, on every path, the bytes of a row that is not empty, of at most `int32Max`
characters, from the boundary of character `c - m` on, for an integer cell `m` that is not
negative. -/
theorem right_answersAt_drop (hb : b.Shaped n) (hresult : result < b.size)
    (hs : b.column ps = .ok cs) (hr : r < n) (hsr : cs.get r = .ok (.bytes s)) (hne : s ≠ [])
    (hc : Utf8.charCount s ≤ int32Max) {pm : Nat} {cm : Column} {m : Int}
    (hm : b.column pm = .ok cm) (hmr : (cm.cell r).intArg? = some m) (hm0 : 0 ≤ m) :
    right.AnswersAt cfg [ps, pm] n result r b
      (.bytes (s.drop (Utf8.boundary s (Utf8.charCount s - saturate32 m).toNat))) := by
  have hrow : right.sliceRow [.bytes s, cm.cell r] =
      .bytes (s.drop (Utf8.boundary s (Utf8.charCount s - saturate32 m).toNat)) := by
    rw [sliceRow, Value.right_eq_drop hne hc
      (by rw [Value.int32Arg?_eq_map, hmr, Option.map_some]) (by unfold saturate32; omega)]
  rw [← hrow]
  exact answersAt_string_count cfg (by simp) hb hresult hs hr hsr hm hmr

/-- `left` and `right` split a row at every character. Take a row `r` of a block whose string
`s` is not NULL, not empty, and has `c ≤ int32Max` characters by the lead-byte scan, valid UTF-8
or not. For every `k` from 0 to `c`, with `k` and `c - k` as the integer cells of row `r` of two
count columns, every way of calling `left(s, k)` and `right(s, c - k)` writes a string, not NULL,
and the two put `s` back together. For every `k` from `c` on, both `left(s, k)` and `right(s, k)`
write `s` itself. -/
theorem left_right_split (hb : b.Shaped n) (hresult : result < b.size)
    (hs : b.column ps = .ok cs) (hr : r < n) (hsr : cs.get r = .ok (.bytes s)) (hne : s ≠ [])
    (hc : Utf8.charCount s ≤ int32Max) :
    (∀ pk pm ck cm (k : Int), b.column pk = .ok ck → b.column pm = .ok cm →
      (ck.cell r).intArg? = some k → (cm.cell r).intArg? = some (Utf8.charCount s - k) →
      0 ≤ k → k ≤ Utf8.charCount s →
      ∃ x y, left.AnswersAt cfg [ps, pk] n result r b (.bytes x) ∧
        right.AnswersAt cfg [ps, pm] n result r b (.bytes y) ∧ x ++ y = s) ∧
    (∀ pk ck (k : Int), b.column pk = .ok ck → (ck.cell r).intArg? = some k →
      Utf8.charCount s ≤ k →
      left.AnswersAt cfg [ps, pk] n result r b (.bytes s) ∧
        right.AnswersAt cfg [ps, pk] n result r b (.bytes s)) := by
  have hc' : (Utf8.charCount s : Int) ≤ 2147483647 := by unfold int32Max at hc; omega
  refine ⟨fun pk pm ck cm k hk hm hkr hmr hk0 hkc => ?_, fun pk ck k hk hkr hck => ?_⟩
  · -- both counts lie in the 32-bit range, and both cut at the boundary of character `k`
    have hsat : saturate32 k = k := saturate32_of_mem (by omega) (by omega)
    have hsat' : saturate32 (Utf8.charCount s - k) = Utf8.charCount s - k :=
      saturate32_of_mem (by omega) (by omega)
    have hleft := left_answersAt_take cfg hb hresult hs hr hsr hne hk hkr hk0
    have hright := right_answersAt_drop cfg hb hresult hs hr hsr hne hc hm hmr
      (by omega)
    have hcut : (Utf8.charCount s - (Utf8.charCount s - k)).toNat = k.toNat := by omega
    rw [hsat] at hleft
    rw [hsat', hcut] at hright
    exact ⟨_, _, hleft, hright, List.take_append_drop _ s⟩
  · -- a count of `c` or more reaches past the last character on either side
    have hleft := left_answersAt_take cfg hb hresult hs hr hsr hne hk hkr (by omega)
    have hright := right_answersAt_drop cfg hb hresult hs hr hsr hne hc hk hkr (by omega)
    have hend : Utf8.charCount s ≤ (saturate32 k).toNat := by unfold saturate32; omega
    have hstart : (Utf8.charCount s - saturate32 k).toNat = 0 := by unfold saturate32; omega
    rw [Utf8.boundary_of_le hend, List.take_length] at hleft
    rw [hstart, Utf8.boundary_zero, List.drop_zero] at hright
    exact ⟨hleft, hright⟩

/-- The two-byte `é` followed by `!`, two characters in three bytes, beside the counts 1 and 5:
`left(s, 1)` and `right(s, 1)` cut after `é` and put the row back together, and `left(s, 5)` and
`right(s, 5)` both keep the whole row. -/
theorem left_right_split_accent :
    let b : Block := ⟨[⟨"s", .string, some (.string ⟨[[0xC3, 0xA9, 0x21]]⟩)⟩,
      ⟨"k", .int32, some (.int32 [1])⟩, ⟨"big", .int32, some (.int32 [5])⟩,
      ⟨"r", .nullable .string, none⟩]⟩
    let cs := Column.string ⟨[[0xC3, 0xA9, 0x21]]⟩
    let s : Bytes := [0xC3, 0xA9, 0x21]
    b.Shaped 1 ∧ 3 < b.size ∧ b.column 0 = .ok cs ∧ cs.get 0 = .ok (.bytes s) ∧ s ≠ [] ∧
      Utf8.charCount s ≤ int32Max ∧
      (∃ x y, left.AnswersAt {} [0, 1] 1 3 0 b (.bytes x) ∧
        right.AnswersAt {} [0, 1] 1 3 0 b (.bytes y) ∧ x ++ y = s) ∧
      left.AnswersAt {} [0, 2] 1 3 0 b (.bytes s) ∧
      right.AnswersAt {} [0, 2] 1 3 0 b (.bytes s) := by
  intro b cs s
  have hb : b.Shaped 1 := by
    unfold Block.Shaped
    decide
  have hsr : cs.get 0 = .ok (.bytes s) := rfl
  have hne : s ≠ [] := by decide
  have hc : Utf8.charCount s ≤ int32Max := by decide +kernel
  have hcount : Utf8.charCount s = 2 := by decide +kernel
  obtain ⟨hsplit, hwhole⟩ :=
    left_right_split {} hb (show 3 < b.size by decide) (show b.column 0 = .ok cs from rfl)
      (show 0 < 1 by decide) hsr hne hc
  have hcut := hsplit 1 1 _ _ 1 rfl rfl (by decide) (by rw [hcount]; decide) (by decide)
    (by rw [hcount]; decide)
  exact ⟨hb, by decide, rfl, hsr, hne, hc, hcut, hwhole 2 _ 5 rfl (by decide)
    (by rw [hcount]; decide)⟩

end Split

end Builtin

end TextBatch

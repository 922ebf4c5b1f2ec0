import TextBatch.Proofs.RowSemantics

/-! # Reading an argument keeps its cells

A function reads each argument through a few steps: a constant is spelled out row by row, its
one value copied once per row (`Column.toFull`, `Column.replicate?`), and a nullable column is
split into its values and its null map (`Block.unpack`). A function that ORs the maps of its
arguments merges each split-off map into its own. Elsewhere a column is made nullable by laying a
map without NULLs over it (`Column.makeNullable`), and the values under the NULL rows of a plain
column are reset to the default of its type (`Column.maskNulls`).

None of these steps changes what a row reads as. The split is where it takes care: a constant
whose value is nullable is spelled out under a fresh map of the constant's own length, which
carries the value's one flag to every row, so a constant NULL comes out under a map that flags
every row (`Column.unwrapNullable_toFull_of_isConstNull`). The main statement is
`Block.normalization_keeps_cells`.
-/

namespace TextBatch

namespace NullMap

/-- Merging an optional map of `n` rows into a map that stores a flag for each of its rows ORs in
the flags of those `n` rows. A row past the end of the map merged into stays NULL, as it was. -/
theorem isNull_mergeOpt_rows {m : NullMap} (hm : m.Covers) {o : Option NullMap} {n i : Nat}
    (ho : ∀ x ∈ o, x.length = n) (hi : i < n) :
    (m.mergeOpt o).isNull i = (m.isNull i || flagged o i) := by
  by_cases him : i < m.length
  · exact isNull_mergeOpt hm him fun x hx => (ho x hx).symm ▸ hi
  · have hle : m.length ≤ i := Nat.le_of_not_lt him
    rw [isNull_of_length_le (by rw [length_mergeOpt]; exact hle), isNull_of_length_le hle,
      Bool.true_or]

/-- A map of all NULLs flags every row, past its end too. -/
theorem isNull_allNull_self (n i : Nat) : (allNull n).isNull i = true := by
  by_cases hi : i < n
  · exact isNull_allNull hi
  · exact isNull_of_length_le (Nat.le_of_not_lt hi)

end NullMap

namespace Column

/-- Every row of a well-formed column is one that copying finds. -/
theorem holdsRow_of_lt {c : Column} (hwf : c.wellFormed) {row : Nat} (hrow : row < c.length) :
    c.holdsRow row := by
  induction c generalizing row with
  | nullable nested nulls ih => exact ih (wellFormed_nullable.mp hwf).1 hrow
  | const value len ih =>
      -- a constant copies row 0 of its value, which has exactly one row
      obtain ⟨hvalue, hone, -⟩ := wellFormed_const.mp hwf
      exact ih hvalue (by omega)
  | _ => simpa [holdsRow] using hrow

/-- Copying a row of a well-formed column never fails. -/
theorem replicate?_eq_ok {c : Column} (hwf : c.wellFormed) {row : Nat} (hrow : row < c.length)
    (n : Nat) : c.replicate? row n = .ok (c.replicate row n) := by
  simp [replicate?, holdsRow_of_lt hwf hrow]

/-- Resetting the rows a map flags: a flagged row of a plain column reads as the default of the
column's type, zero or the empty string, and every other row as before. -/
theorem get_maskNulls {c : Column} (hc : c.isPlain) (nulls : NullMap) {r : Nat}
    (hr : r < c.length) :
    (c.maskNulls nulls).get r =
      if nulls.isNull r then (defaultOf c.dataType 1).get 0 else c.get r := by
  cases c with
  | nullable nested m => simp [isPlain] at hc
  | const value len => simp [isPlain] at hc
  | _ =>
      -- one plain kind at a time: a flagged row holds the kind's zero
      by_cases hn : nulls.isNull r <;>
        simp_all [maskNulls, get, length, defaultOf, dataType, DataType.removeNullable,
          List.getD_eq_getElem?_getD, StringColumn.value, StringColumn.length]

/-- A constant NULL is spelled out under a map that flags all its rows: its value's one flag is
set, and every copy of the value carries it. -/
theorem unwrapNullable_toFull_of_isConstNull {c : Column} (hwf : c.wellFormed)
    (h : c.isConstNull) : c.toFull.unwrapNullable.2 = some (NullMap.allNull c.length) := by
  cases c with
  | const value len =>
      obtain ⟨-, -, hvc⟩ := wellFormed_const.mp hwf
      cases value with
      | nullable nested nulls =>
          simp only [isConstNull, isNullAt] at h
          simp [toFull, replicate, h, unwrapNullable, length]
      | const inner m => cases hvc
      | _ => simp [isConstNull, isNullAt] at h
  | _ => simp [isConstNull] at h

/-- A split column reads NULL exactly at the rows its map flags: the values beside the map are
plain, and a plain column has no NULL cell. -/
theorem Splits.get_eq_null_iff {c u : Column} {m : Option NullMap} (h : Splits c u m) {r : Nat}
    (hr : r < c.length) : c.get r = .ok .null ↔ NullMap.flagged m r := by
  rw [h.get_eq r hr]
  cases hflag : NullMap.flagged m r
  · obtain ⟨v, hv⟩ := get_isOk_of_isPlain h.plain (by rw [h.length_eq]; exact hr)
    have hne := get_ne_null_of_isPlain h.plain hv
    simp only [Bool.false_eq_true, if_false, hv, Except.ok.injEq]
    exact ⟨fun heq => absurd heq hne, fun hf => by cases hf⟩
  · simp

end Column

namespace Block

/-- Reading an argument keeps every cell of it. Take a well-formed column `c` of `n` rows at
`pos`. Unpacking it gives a column `u` of `n` rows that is neither nullable nor constant, and an
optional map `m` of `n` rows: row `r` of `c` is NULL exactly where `m` flags it, and reads as row
`r` of `u` elsewhere. A constant NULL gives a map that flags every row, and merging `m` into any
map that stores a flag for each of its rows ORs exactly these flags in. The steps unpacking is
made of keep cells too: spelling a constant out keeps every row, every copy of a row reads as
that row, making a column nullable keeps every row, and on a plain column resetting the rows a
map flags gives the default of the column's type there and the old cell everywhere else. -/
theorem normalization_keeps_cells {b : Block} {pos n : Nat} {c : Column}
    (hc : b.column pos = .ok c) (hwf : c.wellFormed) (hlen : c.length = n) :
    (∃ u m, b.unpack pos = .ok (u, m) ∧ u.isConst = false ∧ u.isNullable = false ∧
        u.length = n ∧ (∀ x ∈ m, x.length = n) ∧
        (∀ r < n, (c.get r = .ok .null ↔ NullMap.flagged m r) ∧
          (NullMap.flagged m r = false → c.get r = u.get r)) ∧
        (c.isConstNull → ∃ x, m = some x ∧ ∀ r, x.isNull r) ∧
        ∀ acc : NullMap, acc.Covers → ∀ r < n,
          (acc.mergeOpt m).isNull r = (acc.isNull r || NullMap.flagged m r)) ∧
      (∀ r, c.toFull.get r = c.get r) ∧
      (∀ row k, row < n → ∃ d, c.replicate? row k = .ok d ∧ d.length = k ∧
        ∀ r < k, d.get r = c.get row) ∧
      (∀ r, c.makeNullable.get r = c.get r) ∧
      (c.isPlain → ∀ (nulls : NullMap), ∀ r < n,
        (c.maskNulls nulls).get r =
          if nulls.isNull r then (Column.defaultOf c.dataType 1).get 0 else c.get r) := by
  subst hlen
  have hs := Column.splits_unpack hwf
  obtain ⟨hu, hu'⟩ := Column.isPlain_iff.mp hs.plain
  refine ⟨⟨c.toFull.unwrapNullable.1, c.toFull.unwrapNullable.2, Holds.unpack_eq ⟨hc, hwf, rfl⟩,
      hu', hu, hs.length_eq, hs.length_nulls, fun r hr => ?_, fun hnull => ?_,
      fun acc hacc r hr => NullMap.isNull_mergeOpt_rows hacc hs.length_nulls hr⟩,
    Column.get_toFull hwf, fun row k hrow => ?_, Column.get_makeNullable c,
    fun hplain nulls r hr => Column.get_maskNulls hplain nulls hr⟩
  · -- NULL exactly where the map flags the row, the plain value's cell elsewhere
    exact ⟨hs.get_eq_null_iff hr, fun hflag => by simp [hs.get_eq r hr, hflag]⟩
  · exact ⟨_, Column.unwrapNullable_toFull_of_isConstNull hwf hnull,
      NullMap.isNull_allNull_self c.length⟩
  · exact ⟨_, Column.replicate?_eq_ok hwf hrow k, Column.length_replicate c row k,
      fun r hr => Column.get_replicate hwf hrow hr⟩

/-- A constant NULL string of three rows, read as an argument. -/
theorem normalization_keeps_cells_constNull :
    let b : Block := ⟨[⟨"k", .nullable .string, some (Column.constNull .string 3)⟩]⟩
    b.column 0 = .ok (Column.constNull .string 3) ∧ (Column.constNull .string 3).wellFormed ∧
      (Column.constNull .string 3).length = 3 ∧
      (∃ u m, b.unpack 0 = .ok (u, m) ∧ u.isConst = false ∧ u.isNullable = false ∧
        u.length = 3 ∧ (∀ x ∈ m, x.length = 3) ∧
        (∀ r < 3, ((Column.constNull .string 3).get r = .ok .null ↔ NullMap.flagged m r) ∧
          (NullMap.flagged m r = false → (Column.constNull .string 3).get r = u.get r)) ∧
        ((Column.constNull .string 3).isConstNull → ∃ x, m = some x ∧ ∀ r, x.isNull r) ∧
        ∀ acc : NullMap, acc.Covers → ∀ r < 3,
          (acc.mergeOpt m).isNull r = (acc.isNull r || NullMap.flagged m r)) ∧
      (∀ r, (Column.constNull .string 3).toFull.get r = (Column.constNull .string 3).get r) ∧
      (∀ row k, row < 3 → ∃ d, (Column.constNull .string 3).replicate? row k = .ok d ∧
        d.length = k ∧ ∀ r < k, d.get r = (Column.constNull .string 3).get row) ∧
      (∀ r, (Column.constNull .string 3).makeNullable.get r =
        (Column.constNull .string 3).get r) ∧
      ((Column.constNull .string 3).isPlain → ∀ (nulls : NullMap), ∀ r < 3,
        ((Column.constNull .string 3).maskNulls nulls).get r =
          if nulls.isNull r then
            (Column.defaultOf (Column.constNull .string 3).dataType 1).get 0
          else (Column.constNull .string 3).get r) := by
  intro b
  have hc : b.column 0 = .ok (Column.constNull .string 3) := rfl
  have hwf : (Column.constNull .string 3).wellFormed := by decide
  exact ⟨hc, hwf, rfl, normalization_keeps_cells hc hwf rfl⟩

end Block

end TextBatch

import Mathlib.Data.List.Forall2
import TextBatch.Function.Argument
import TextBatch.Proofs.Packing

/-! # Reading cells through constants and null maps

A function never reads an argument column as it is stored: it spells a constant out row by
row and splits a nullable column from its null map. The lemmas here say that nothing is lost on
the way. For a well-formed column, the cell of row `r` is NULL exactly where the split-off null
map flags `r`, and is the plain column's cell elsewhere (`splits_unpack`). The null maps a
function merges flag a row exactly when one of the merged maps does (`isNull_merge`), and an
integer column read as 32-bit values gives each cell saturated to that range
(`get_of_integers`).
-/

namespace TextBatch

section MapM

variable {α β ε : Type}

/-- A traversal in `Except` succeeds exactly when every step does, pointwise. -/
theorem mapM_eq_ok_iff {f : α → Except ε β} {xs : List α} {ys : List β} :
    xs.mapM f = .ok ys ↔ List.Forall₂ (fun x y => f x = .ok y) xs ys := by
  induction xs generalizing ys with
  | nil => cases ys <;> simp [pure, Except.pure]
  | cons x xs ih =>
      rw [List.mapM_cons]
      cases hx : f x with
      | error e => cases ys <;> simp [bind, Except.bind, hx]
      | ok y =>
          cases hrest : xs.mapM f with
          | error e => cases ys <;> simp [bind, Except.bind, ← ih, hrest]
          | ok rest => cases ys <;> simp [bind, Except.bind, pure, Except.pure, ← ih, hrest, hx]

/-- A traversal whose every step succeeds returns the values of the steps. -/
theorem mapM_eq_ok_map {f : α → Except ε β} {g : α → β} {xs : List α}
    (h : ∀ x ∈ xs, f x = .ok (g x)) : xs.mapM f = .ok (xs.map g) := by
  rw [mapM_eq_ok_iff, List.forall₂_map_right_iff]
  exact List.forall₂_same.mpr h

/-- A traversal fails as soon as one step fails, with the error of the first step that fails. -/
theorem mapM_eq_error_of_mem {f : α → Except ε β} {xs : List α} {x : α} (hx : x ∈ xs)
    {e : ε} (he : f x = .error e) : ∃ y ∈ xs, ∃ e', f y = .error e' ∧ xs.mapM f = .error e' := by
  induction xs with
  | nil => simp at hx
  | cons y ys ih =>
      rw [List.mapM_cons]
      cases hy : f y with
      | error e' => exact ⟨y, List.mem_cons_self, e', hy, by simp [bind, Except.bind]⟩
      | ok v =>
          -- the failing step is further on
          have hmem : x ∈ ys := by
            rcases List.mem_cons.mp hx with rfl | hmem
            · rw [he] at hy
              cases hy
            · exact hmem
          obtain ⟨z, hz, e', hze, hrest⟩ := ih hmem
          exact ⟨z, List.mem_cons_of_mem y hz, e', hze, by simp [hrest, bind, Except.bind]⟩

end MapM

namespace NullMap

theorem getD_orFlags {as bs : List Bool} {i : Nat} (h : i < as.length) :
    (orFlags as bs).getD i false = (as.getD i false || bs.getD i false) := by
  induction as generalizing bs i with
  | nil => simp at h
  | cons a as ih =>
      cases bs with
      | nil => simp [orFlags]
      | cons b bs =>
          cases i with
          | zero => simp [orFlags]
          | succ i => simpa [orFlags] using ih (by simpa using h)

/-- A map built by this library stores a flag for each of its rows. -/
def Covers (m : NullMap) : Prop := m.length ≤ m.stored.length

theorem covers_allValid (n : Nat) : (allValid n).Covers := by
  simp only [Covers, allValid, wordsFor, List.length_replicate]
  omega

theorem covers_allNull (n : Nat) : (allNull n).Covers := by
  simp only [Covers, allNull, wordsFor, List.length_append, List.length_replicate]
  omega

theorem Covers.merge {m : NullMap} (hm : m.Covers) (o : NullMap) : (m.merge o).Covers := by
  simpa [Covers, NullMap.merge, length_orFlags] using hm

theorem Covers.set {m : NullMap} (hm : m.Covers) (i : Nat) (null : Bool) : (m.set i null).Covers := by
  unfold NullMap.set
  split <;> simpa [Covers] using hm

theorem Covers.mergeOpt {m : NullMap} (hm : m.Covers) (o : Option NullMap) :
    (m.mergeOpt o).Covers := by
  cases o with
  | none => exact hm
  | some o => exact hm.merge o

/-- Merging ORs the flags of the rows both maps cover. -/
theorem isNull_merge {m : NullMap} (hm : m.Covers) (o : NullMap) {i : Nat} (hi : i < m.length)
    (ho : i < o.length) : (m.merge o).isNull i = (m.isNull i || o.isNull i) := by
  have hlt : ¬ m.length ≤ i := by omega
  have hlto : ¬ o.length ≤ i := by omega
  simp only [isNull, hlt, hlto, if_false, merge]
  exact getD_orFlags (Nat.lt_of_lt_of_le hi hm)

theorem isNull_mergeOpt {m : NullMap} (hm : m.Covers) {o : Option NullMap} {i : Nat}
    (hi : i < m.length) (ho : ∀ n ∈ o, i < n.length) :
    (m.mergeOpt o).isNull i = (m.isNull i || flagged o i) := by
  cases o with
  | none => simp [mergeOpt, flagged]
  | some o => exact isNull_merge hm o hi (ho o rfl)

theorem length_mergeOpt (m : NullMap) (o : Option NullMap) : (m.mergeOpt o).length = m.length := by
  cases o <;> rfl

/-- A merge of maps of one length passes its check, and is the plain merge. -/
theorem mergeChecked_eq {m : NullMap} {o : Option NullMap} (h : ∀ x ∈ o, x.length = m.length)
    (checks : Bool) : m.mergeChecked checks o = .ok (m.mergeOpt o) := by
  cases o with
  | none => rfl
  | some x => simp [mergeChecked, mergeOpt, h x rfl]

/-- A merge that passes its check is the plain merge. -/
theorem eq_of_mergeChecked {m m' : NullMap} {checks : Bool} {o : Option NullMap}
    (h : m.mergeChecked checks o = .ok m') : m' = m.mergeOpt o := by
  cases o with
  | none => cases h; rfl
  | some x =>
      by_cases hc : checks = true ∧ m.length ≠ x.length
      · simp [mergeChecked, hc] at h
      · simp only [mergeChecked, hc, if_false, Except.ok.injEq] at h
        rw [← h]
        rfl

theorem isNull_allNull {n i : Nat} (h : i < n) : (allNull n).isNull i = true := by
  have h' : ¬ n ≤ i := by omega
  simp [isNull, allNull, h', List.getD_eq_getElem?_getD, List.getElem?_append, h]

/-- Setting a flag inside a map that covers its rows changes that flag alone. -/
theorem isNull_set {m : NullMap} (hm : m.Covers) {i j : Nat} (hj : j < m.length) (null : Bool) :
    (m.set i null).isNull j = if i = j then null else m.isNull j := by
  have hlt : ¬ m.length ≤ j := by omega
  by_cases hi : i < m.length
  · simp only [set, hi, if_true, isNull, hlt, if_false, List.getD_eq_getElem?_getD,
      List.getElem?_set]
    split
    · next heq =>
        subst heq
        simp [Nat.lt_of_lt_of_le hj hm]
    · rfl
  · have hne : i ≠ j := by omega
    simp [set, hi, hne]

/-- A map without any stored flag has no NULL row. -/
theorem isNull_of_hasNulls_eq_false {m : NullMap} (h : m.hasNulls = false) {i : Nat}
    (hi : i < m.length) : m.isNull i = false := by
  have hlt : ¬ m.length ≤ i := by omega
  simp only [isNull, hlt, if_false, List.getD_eq_getElem?_getD]
  cases hget : m.stored[i]? with
  | none => rfl
  | some b =>
      have hmem : b ∈ m.stored := List.mem_of_getElem? hget
      simp only [hasNulls, List.any_eq_false, id] at h
      simpa using h b hmem

end NullMap

namespace Column

theorem get_nullable {nested : Column} {nulls : NullMap} {r : Nat} (h : r < nested.length) :
    (nullable nested nulls).get r = if nulls.isNull r then .ok .null else nested.get r := by
  rw [get.eq_def]
  simp [length, h]

theorem get_const {value : Column} {len r : Nat} (h : r < len) :
    (const value len).get r = value.get 0 := by
  rw [get.eq_def]
  simp [length, h]

theorem get_constInt32 {v : Int32} {len r : Nat} (h : r < len) :
    (constInt32 v len).get r = .ok (.int32 v) := by
  simp [constInt32, get_const h, get, length]

theorem get_of_length_le {c : Column} {r : Nat} (h : c.length ≤ r) :
    c.get r = .error (.rowOutOfRange r c.length) := by
  rw [get.eq_def]
  simp [Nat.not_lt.mpr h]

theorem get_string {s : StringColumn} {r : Nat} (h : r < s.length) :
    (string s).get r = .ok (.bytes (s.value r)) := by
  rw [get.eq_def]
  simp [length, h]

/-- A column of values alone, with neither a null map nor a constant over it. -/
def isPlain : Column → Bool
  | .nullable .. | .const .. => false
  | _ => true

@[simp] theorem dataType_replicate (c : Column) (row n : Nat) :
    (c.replicate row n).dataType = c.dataType := by
  induction c generalizing row with
  | nullable nested nulls ih => simp [replicate, dataType, ih]
  | const value len ih => simp [replicate, dataType, ih]
  | _ => rfl

@[simp] theorem dataType_toFull (c : Column) : c.toFull.dataType = c.dataType := by
  cases c <;> simp [toFull, dataType]

theorem wellFormed_nullable {nested : Column} {nulls : NullMap} :
    (nullable nested nulls).wellFormed ↔
      nested.wellFormed ∧ nested.isPlain ∧ nulls.length = nested.length := by
  cases nested <;> simp only [wellFormed, isNullable, isConst, isPlain, length] <;> simp

theorem wellFormed_const {value : Column} {len : Nat} :
    (const value len).wellFormed ↔ value.wellFormed ∧ value.length = 1 ∧ value.isConst = false := by
  simp [wellFormed, and_assoc]

/-- Copies of a row keep the column's shape: a copied plain column is plain, and a copied
nullable column is a nullable column over plain copies. -/
theorem replicate_wellFormed {c : Column} (hwf : c.wellFormed) (row n : Nat) :
    (c.replicate row n).wellFormed ∧ (c.replicate row n).isConst = false := by
  induction c generalizing row with
  | nullable nested nulls ih =>
      obtain ⟨hnested, hplain, -⟩ := wellFormed_nullable.mp hwf
      obtain ⟨hwf', -⟩ := ih hnested row
      refine ⟨wellFormed_nullable.mpr ⟨hwf', ?_, ?_⟩, rfl⟩
      · cases nested <;> simp_all [isPlain, replicate]
      · split <;> simp
  | const value len ih => exact ih (wellFormed_const.mp hwf).1 0
  | _ => simp [replicate, wellFormed, isConst]

/-- Every copy of a row reads as that row. -/
theorem get_replicate {c : Column} (hwf : c.wellFormed) {row n r : Nat} (hrow : row < c.length)
    (hr : r < n) : (c.replicate row n).get r = c.get row := by
  induction c generalizing row with
  | uint8 vs =>
      simp only [replicate, get, length] at hrow ⊢
      simp [hr, hrow, List.getD_eq_getElem?_getD]
  | int32 vs =>
      simp only [replicate, get, length] at hrow ⊢
      simp [hr, hrow, List.getD_eq_getElem?_getD]
  | int64 vs =>
      simp only [replicate, get, length] at hrow ⊢
      simp [hr, hrow, List.getD_eq_getElem?_getD]
  | string s =>
      rw [replicate, get_string (by simpa using hr), get_string hrow]
      simp [StringColumn.replicateRow, StringColumn.value, List.getD_eq_getElem?_getD, hr]
  | nullable nested nulls ih =>
      obtain ⟨hnested, -, -⟩ := wellFormed_nullable.mp hwf
      simp only [length] at hrow
      rw [replicate, get_nullable (by simpa using hr), get_nullable hrow, ih hnested hrow]
      split
      · simp [NullMap.isNull_allNull hr]
      · simp [NullMap.isNull_allValid hr]
  | const value len ih =>
      obtain ⟨hvalue, hone, -⟩ := wellFormed_const.mp hwf
      simp only [length] at hrow
      rw [replicate, ih hvalue (by omega), get_const hrow]

/-- Spelling a constant out keeps every row, past the last one included. -/
theorem get_toFull {c : Column} (hwf : c.wellFormed) (r : Nat) : c.toFull.get r = c.get r := by
  cases c with
  | const value len =>
      obtain ⟨hvalue, hone, -⟩ := wellFormed_const.mp hwf
      by_cases hr : r < len
      · rw [toFull, get_replicate hvalue (by omega) hr, get_const hr]
      · -- both columns have `len` rows, and both refuse a read past them
        have hle : len ≤ r := Nat.le_of_not_lt hr
        simp only [get_of_length_le (c := (const value len).toFull)
            (Nat.le_trans (Nat.le_of_eq (length_toFull _)) hle),
          get_of_length_le (c := const value len) hle, length_toFull]
  | _ => rfl

theorem toFull_wellFormed {c : Column} (hwf : c.wellFormed) :
    c.toFull.wellFormed ∧ c.toFull.isConst = false := by
  cases c with
  | const value len => exact replicate_wellFormed (wellFormed_const.mp hwf).1 0 len
  | _ => exact ⟨hwf, rfl⟩

theorem removeNullable_of_isPlain {c : Column} (h : c.isPlain) :
    c.dataType.removeNullable = c.dataType := by
  cases c <;> simp_all [isPlain, dataType, DataType.removeNullable]

theorem dataType_nullable {nested : Column} (h : nested.isPlain) (nulls : NullMap) :
    (nullable nested nulls).dataType = .nullable nested.dataType := by
  cases nested <;> simp_all [isPlain, dataType, DataType.makeNullable, DataType.isNullable]

/-- `u` and `m` are the column `c` split into plain values and an optional null map: the cell of
row `r` is NULL where `m` flags it and `u`'s cell elsewhere. -/
structure Splits (c u : Column) (m : Option NullMap) : Prop where
  plain : u.isPlain
  length_eq : u.length = c.length
  dataType_eq : u.dataType = c.dataType.removeNullable
  length_nulls : ∀ n ∈ m, n.length = c.length
  get_eq : ∀ r < c.length, c.get r = if NullMap.flagged m r then .ok .null else u.get r

theorem splits_unwrapNullable {d : Column} (hwf : d.wellFormed) (hd : d.isConst = false) :
    Splits d d.unwrapNullable.1 d.unwrapNullable.2 := by
  cases d with
  | nullable nested nulls =>
      obtain ⟨-, hplain, hlen⟩ := wellFormed_nullable.mp hwf
      refine ⟨hplain, rfl, ?_, ?_, ?_⟩
      · rw [dataType_nullable hplain, DataType.removeNullable, removeNullable_of_isPlain hplain]
        rfl
      · intro n hn
        cases hn
        exact hlen
      · intro r hr
        exact get_nullable hr
  | const value len => simp [isConst] at hd
  | _ =>
      refine ⟨rfl, rfl, ?_, by simp [unwrapNullable], fun r _ => by simp [unwrapNullable, NullMap.flagged]⟩
      simp [unwrapNullable, dataType, DataType.removeNullable]

/-- Reading a well-formed argument through its spelled-out values and its null map gives its
cells back. -/
theorem splits_unpack {c : Column} (hwf : c.wellFormed) :
    Splits c c.toFull.unwrapNullable.1 c.toFull.unwrapNullable.2 := by
  obtain ⟨hfull, hconst⟩ := toFull_wellFormed hwf
  have hs := splits_unwrapNullable hfull hconst
  refine ⟨hs.plain, by rw [hs.length_eq, length_toFull], by rw [hs.dataType_eq, dataType_toFull],
    by simpa using hs.length_nulls, ?_⟩
  intro r hr
  rw [← get_toFull hwf r]
  exact hs.get_eq r (by simpa using hr)

theorem get_isOk_of_isPlain {u : Column} (hu : u.isPlain) {r : Nat} (hr : r < u.length) :
    ∃ v, u.get r = .ok v := by
  cases u <;> simp_all [isPlain, get]

/-- Every row of a well-formed column can be read. -/
theorem get_isOk_of_wellFormed {c : Column} (hwf : c.wellFormed) {r : Nat} (hr : r < c.length) :
    ∃ v, c.get r = .ok v := by
  induction c generalizing r with
  | nullable nested nulls ih =>
      obtain ⟨hnested, -, -⟩ := wellFormed_nullable.mp hwf
      simp only [length] at hr
      rw [get_nullable hr]
      split
      · exact ⟨_, rfl⟩
      · exact ih hnested hr
  | const value len ih =>
      obtain ⟨hvalue, hlen, -⟩ := wellFormed_const.mp hwf
      simp only [length] at hr
      rw [get_const hr]
      exact ih hvalue (by omega)
  | _ => exact get_isOk_of_isPlain rfl hr

theorem eq_string_of_isPlain {u : Column} (hu : u.isPlain) (ht : u.dataType = .string) :
    ∃ s, u = .string s := by
  cases u <;> simp_all [isPlain, dataType]

/-- A string argument splits into a plain string column and its null map. -/
theorem Splits.eq_string {c u : Column} {m : Option NullMap} (h : Splits c u m)
    (ht : c.dataType.isString) : ∃ s, u = .string s ∧ s.length = c.length := by
  have hu : u.dataType = .string := by
    simpa [DataType.isString, h.dataType_eq] using ht
  obtain ⟨s, rfl⟩ := eq_string_of_isPlain h.plain hu
  exact ⟨s, rfl, h.length_eq⟩

/-- The cells of a string argument: NULL where its map flags the row, the string elsewhere. -/
theorem Splits.get_string {c : Column} {s : StringColumn} {m : Option NullMap}
    (h : Splits c (.string s) m) {r : Nat} (hr : r < c.length) :
    c.get r = .ok (if NullMap.flagged m r then .null else .bytes (s.value r)) := by
  have hlen : (string s).length = c.length := h.length_eq
  rw [h.get_eq r hr, Column.get_string (by simp only [length] at hlen; omega)]
  split <;> rfl

/-- The strings of a column are there exactly when it is a plain string column. -/
theorem strings_eq_ok {u : Column} {fn : String} {s : StringColumn} :
    u.strings fn = .ok s ↔ u = .string s := by
  cases u <;> simp [strings]

end Column

/-- A cell read as a 32-bit integer argument, as an integer: bytes widen, 64-bit values
saturate at the ends of the 32-bit range, and a cell of any other kind is no integer. -/
def Value.int32Arg? : Value → Option Int
  | .uint8 v => some v.toNat
  | .int32 v => some v.toInt
  | .int64 v => some (max (-2147483648) (min 2147483647 v.toInt))
  | _ => none

theorem readAt_eq_ok {α : Type} {vs : List α} {i : Nat} {v : α} :
    readAt vs i = .ok v ↔ vs[i]? = some v := by
  unfold readAt
  split <;> simp_all

theorem readAt_eq_ok_of_lt {α : Type} {vs : List α} {i : Nat} (h : i < vs.length) :
    readAt vs i = .ok (vs[i]) := by
  simp [readAt_eq_ok, h]

namespace Column

/-- The 32-bit values of a plain integer column are there exactly when its type is an integer. -/
theorem integers_isOk {u : Column} (hu : u.isPlain) (fn : String) :
    (∃ is, u.integers fn = .ok is) ↔ u.dataType.isInteger := by
  cases u <;> simp_all [isPlain, integers, dataType, DataType.isInteger, DataType.removeNullable]

theorem length_of_integers {u : Column} {fn : String} {is : List Int32}
    (h : u.integers fn = .ok is) : is.length = u.length := by
  cases u <;> simp_all [integers, length] <;> (subst h; simp)

/-- Each 32-bit value read from an integer column is its cell, narrowed. -/
theorem get_of_integers {u : Column} {fn : String} {is : List Int32}
    (h : u.integers fn = .ok is) {r : Nat} (hr : r < u.length) :
    ∃ v, u.get r = .ok v ∧ ∃ hi : r < is.length, v.int32Arg? = some (is[r]).toInt := by
  have hlen := length_of_integers h
  cases u with
  | uint8 vs =>
      simp only [integers, Except.ok.injEq] at h
      subst h
      simp only [length] at hr
      refine ⟨.uint8 vs[r], by simp [get, length, hr, List.getD_eq_getElem?_getD], by simpa using hr, ?_⟩
      have hsmall : (vs[r]).toNat < 2 ^ 31 := by have := UInt8.toNat_lt vs[r]; omega
      simp [Value.int32Arg?, Int32.toInt_ofNat_of_lt hsmall]
  | int32 vs =>
      simp only [integers, Except.ok.injEq] at h
      subst h
      simp only [length] at hr
      exact ⟨.int32 vs[r], by simp [get, length, hr, List.getD_eq_getElem?_getD], hr, rfl⟩
  | int64 vs =>
      simp only [integers, Except.ok.injEq] at h
      subst h
      simp only [length] at hr
      refine ⟨.int64 vs[r], by simp [get, length, hr, List.getD_eq_getElem?_getD], by simpa using hr, ?_⟩
      simp only [Value.int32Arg?, List.getElem_map, saturate]
      rw [Int32.toInt_ofInt_of_le (by omega) (by omega)]
  | _ => simp [integers] at h

theorem Splits.integers_isOk_iff {c u : Column} {m : Option NullMap} (h : Splits c u m)
    (fn : String) : (∃ is, u.integers fn = .ok is) ↔ c.dataType.isInteger := by
  rw [Column.integers_isOk h.plain fn, DataType.isInteger, removeNullable_of_isPlain h.plain,
    h.dataType_eq]
  rfl

/-- The cells of an integer argument, read as 32-bit integers: none where its map flags the
row, the narrowed value elsewhere. -/
theorem Splits.get_integer {c u : Column} {m : Option NullMap} (h : Splits c u m)
    {fn : String} {is : List Int32} (hi : u.integers fn = .ok is) {r : Nat} (hr : r < c.length) :
    ∃ v, c.get r = .ok v ∧
      v.int32Arg? = if NullMap.flagged m r then none else some (is.getD r 0).toInt := by
  rw [h.get_eq r hr]
  obtain ⟨v, hv, hlt, hint⟩ := get_of_integers hi (by rw [h.length_eq]; exact hr)
  by_cases hflag : NullMap.flagged m r
  · exact ⟨.null, by simp [hflag], by simp [hflag, Value.int32Arg?]⟩
  · refine ⟨v, by simp [hflag, hv], ?_⟩
    simp [hflag, hint, List.getD_eq_getElem?_getD, hlt]

/-- A mask that passes its check is the plain mask. -/
theorem eq_of_maskChecked {c d : Column} {checks : Bool} {nulls : NullMap}
    (h : c.maskChecked checks nulls = .ok d) : d = c.maskNulls nulls := by
  unfold maskChecked at h
  split at h
  · cases h
  · cases h
    rfl

/-- A finished column that passes its check holds the values under the map. -/
theorem eq_of_finishNullable {checks : Bool} {values : StringColumn} {nulls : NullMap}
    {col : Column} (h : finishNullable checks values nulls = .ok col) :
    col = .nullable (.string values) nulls := by
  unfold finishNullable at h
  split at h
  · cases h
  · cases h
    rfl

/-- A string column whose null map has one flag per value passes the check that finishes it. -/
theorem finishNullable_eq {checks : Bool} {values : StringColumn} {nulls : NullMap}
    (h : values.length = nulls.length) :
    finishNullable checks values nulls = .ok (.nullable (.string values) nulls) := by
  simp [finishNullable, h]

end Column

namespace Block

/-- An argument whose null map has the rows of `nulls` passes the check of the merge. -/
theorem unpackInto_eq {b : Block} {pos : Nat} {u : Column} {m : Option NullMap}
    (hu : b.unpack pos = .ok (u, m)) {nulls : NullMap} (hm : ∀ x ∈ m, x.length = nulls.length)
    (checks : Bool) : b.unpackInto checks nulls pos = .ok (u, nulls.mergeOpt m) := by
  simp [unpackInto, hu, NullMap.mergeChecked_eq hm, bind, Except.bind, pure, Except.pure]

/-- An argument unpacked into `nulls` is the argument unpacked, its map merged into `nulls`. -/
theorem eq_of_unpackInto {b : Block} {checks : Bool} {nulls : NullMap} {pos : Nat} {u : Column}
    {m' : NullMap} (h : b.unpackInto checks nulls pos = .ok (u, m')) :
    ∃ m, b.unpack pos = .ok (u, m) ∧ m' = nulls.mergeOpt m := by
  cases hu : b.unpack pos with
  | error e => simp [unpackInto, hu, bind, Except.bind] at h
  | ok um =>
      cases hm : nulls.mergeChecked checks um.2 with
      | error e => simp [unpackInto, hu, hm, bind, Except.bind] at h
      | ok m₀ =>
          simp only [unpackInto, hu, hm, bind, Except.bind, pure, Except.pure,
            Except.ok.injEq, Prod.mk.injEq] at h
          obtain ⟨rfl, rfl⟩ := h
          exact ⟨um.2, rfl, NullMap.eq_of_mergeChecked hm⟩

end Block

end TextBatch

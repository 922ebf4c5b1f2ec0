import TextBatch.Proofs.Rows
import TextBatch.Dispatch

/-! # Arguments with their NULLs taken out

Before it runs a function that lets it handle NULLs, the dispatcher strips every argument of
its null map: a nullable column gives its values with the NULL rows reset to a blank (zero or
the empty string), and a constant of a nullable value that is not NULL gives a constant of the
plain value. `Column.Stripped` says what comes out, and `Column.strip_spec` that stripping
gives it for every well-formed argument that is not a constant NULL. A blank never makes a row
exceed the limit (`Builtin.fits_of_isBlank`), and a function that strips NULLs declares the
same type for the stripped arguments (`Builtin.returnType_removeNullable`).
-/

namespace TextBatch

namespace Value

/-- Whether a cell is what a NULL row is reset to before a function reads it: zero, or the
empty string. -/
def isBlank : Value → Bool
  | .uint8 v => v == 0
  | .int32 v => v == 0
  | .int64 v => v == 0
  | .bytes s => s.isEmpty
  | .null => false

/-- A blank cell read as a count is zero, or no count at all. -/
theorem int32Arg?_of_isBlank {v : Value} (h : v.isBlank) :
    v.int32Arg? = some 0 ∨ v.int32Arg? = none := by
  cases v with
  | uint8 v => simp_all [isBlank, int32Arg?]
  | int32 v => simp_all [isBlank, int32Arg?]
  | int64 v =>
      simp only [isBlank, beq_iff_eq] at h
      subst h
      left
      simp only [int32Arg?, Int64.toInt_zero, Option.some.injEq]
      omega
  | bytes s => simp [int32Arg?]
  | null => simp [isBlank] at h

end Value

namespace DataType

theorem removeNullable_removeNullable (t : DataType) :
    t.removeNullable.removeNullable = t.removeNullable := by
  induction t with
  | nullable t ih => simpa [removeNullable] using ih
  | _ => rfl

theorem isNullable_removeNullable (t : DataType) : t.removeNullable.isNullable = false := by
  induction t with
  | nullable t ih => simpa [removeNullable] using ih
  | _ => rfl

theorem removeNullable_of_isNullable {t : DataType} (h : t.isNullable = false) :
    t.removeNullable = t := by
  cases t <;> simp_all [isNullable, removeNullable]

@[simp] theorem isNullable_makeNullable (t : DataType) : t.makeNullable.isNullable = true := by
  unfold makeNullable
  split <;> simp_all [isNullable]

theorem isString_removeNullable (t : DataType) : t.removeNullable.isString = t.isString := by
  simp [isString, removeNullable_removeNullable]

theorem isInteger_removeNullable (t : DataType) : t.removeNullable.isInteger = t.isInteger := by
  simp [isInteger, removeNullable_removeNullable]

end DataType

namespace Builtin

/-- A row with a blank cell never exceeds the limit: it repeats the empty string, or repeats
zero times. -/
theorem fits_of_isBlank {f : Builtin} {cfg : Config} {cells : List Value} {v : Value}
    (hv : v ∈ cells) (hblank : v.isBlank) : f.fits cfg cells := by
  unfold fits
  split
  · next s n =>
      rcases List.mem_pair.mp hv with rfl | rfl
      · simp only [Value.isBlank, List.isEmpty_iff] at hblank
        simp [hblank]
      · rcases Value.int32Arg?_of_isBlank hblank with h | h <;> simp [h]
  · next n =>
      rw [List.mem_singleton.mp hv] at hblank
      rcases Value.int32Arg?_of_isBlank hblank with h | h <;> simp [h]
  · rfl

/-- A row with a blank cell counts no bytes. -/
theorem rowBytes_of_isBlank {f : Builtin} {cells : List Value} {v : Value}
    (hv : v ∈ cells) (hblank : v.isBlank) : f.rowBytes cells = 0 := by
  unfold rowBytes
  split
  · next s n =>
      rcases List.mem_pair.mp hv with rfl | rfl
      · simp only [Value.isBlank, List.isEmpty_iff] at hblank
        cases n.int32Arg? <;> simp [hblank]
      · rcases Value.int32Arg?_of_isBlank hblank with h | h <;> simp [h]
  · next n =>
      rw [List.mem_singleton.mp hv] at hblank
      rcases Value.int32Arg?_of_isBlank hblank with h | h <;> simp [h]
  · rfl

end Builtin

theorem exists_of_mem_right_of_forall₂ {α β : Type} {R : α → β → Prop} {xs : List α}
    {ys : List β} (h : List.Forall₂ R xs ys) {y : β} (hy : y ∈ ys) : ∃ x ∈ xs, R x y := by
  induction h with
  | nil => cases hy
  | @cons x y' xs' ys' hxy _ ih =>
      rcases List.mem_cons.mp hy with rfl | hy
      · exact ⟨x, List.mem_cons_self, hxy⟩
      · obtain ⟨x', hx', hr⟩ := ih hy
        exact ⟨x', List.mem_cons_of_mem x hx', hr⟩

namespace Column

theorem isPlain_iff {c : Column} : c.isPlain ↔ c.isNullable = false ∧ c.isConst = false := by
  cases c <;> simp [isPlain, isNullable, isConst]

theorem wellFormed_of_isPlain {u : Column} (hu : u.isPlain) : u.wellFormed := by
  cases u <;> simp_all [isPlain, wellFormed]

theorem isPlain_maskNulls {u : Column} (hu : u.isPlain) (nulls : NullMap) :
    (u.maskNulls nulls).isPlain := by
  cases u <;> simp_all [isPlain, maskNulls]

theorem dataType_maskNulls (u : Column) (nulls : NullMap) :
    (u.maskNulls nulls).dataType = u.dataType := by
  cases u <;> rfl

theorem cell_nullable {nested : Column} {nulls : NullMap} {r : Nat} (h : r < nested.length) :
    (nullable nested nulls).cell r = if nulls.isNull r then .null else nested.cell r := by
  by_cases hn : nulls.isNull r <;> simp [cell, get_nullable h, hn]

theorem cell_const {value : Column} {len r : Nat} (h : r < len) :
    (const value len).cell r = value.cell 0 := by
  simp [cell, get_const h]

theorem isNullAt_of_isNullable {c : Column} (hn : c.isNullable = false) (r : Nat) :
    c.isNullAt r = false := by
  induction c generalizing r with
  | nullable nested nulls => simp [isNullable] at hn
  | const value len ih => exact ih hn 0
  | _ => rfl

/-- A cell of a well-formed column is NULL exactly where the column says its row is. -/
theorem cell_eq_null_iff {c : Column} (hwf : c.wellFormed) {r : Nat} (hr : r < c.length) :
    c.cell r = .null ↔ c.isNullAt r := by
  induction c generalizing r with
  | nullable nested nulls ih =>
      obtain ⟨hnested, hplain, -⟩ := wellFormed_nullable.mp hwf
      simp only [length] at hr
      have hne : nested.cell r ≠ .null := cell_ne_null hnested (isPlain_iff.mp hplain).1 hr
      rw [cell_nullable hr]
      by_cases hn : nulls.isNull r <;> simp [hn, hne, isNullAt]
  | const value len ih =>
      obtain ⟨hvalue, hone, -⟩ := wellFormed_const.mp hwf
      simp only [length] at hr
      rw [cell_const hr, ih hvalue (by omega)]
      rfl
  | _ => exact ⟨fun h => absurd h (cell_ne_null hwf rfl hr), fun h => by simp [isNullAt] at h⟩

/-- The null map an argument unwraps to flags the rows it is NULL at, unless it is a constant
NULL. -/
theorem flagged_unwrapNullable {c : Column} (hc : c.isConstNull = false) (r : Nat) :
    NullMap.flagged c.unwrapNullable.2 r = c.isNullAt r := by
  cases c with
  | const value len =>
      simp only [unwrapNullable, NullMap.flagged, isNullAt]
      exact hc.symm
  | _ => rfl

theorem cell_maskNulls_of_not_isNull {u : Column} {nulls : NullMap} {r : Nat}
    (hr : r < u.length) (hn : nulls.isNull r = false) : (u.maskNulls nulls).cell r = u.cell r := by
  cases u <;> simp_all [maskNulls, cell, get, length, List.getD_eq_getElem?_getD,
    StringColumn.value, StringColumn.length]

theorem isBlank_cell_maskNulls {u : Column} (hu : u.isPlain) {nulls : NullMap} {r : Nat}
    (hr : r < u.length) (hn : nulls.isNull r = true) : ((u.maskNulls nulls).cell r).isBlank := by
  cases u <;> simp_all [isPlain, maskNulls, cell, get, length, List.getD_eq_getElem?_getD,
    StringColumn.value, StringColumn.length, Value.isBlank]

theorem constant?_of_not_isConst {value : Column} (h : value.length = 1)
    (hc : value.isConst = false) (len : Nat) : value.constant? len = .ok (const value len) := by
  cases value <;> simp_all [constant?, isConst]

/-- `s` is the argument `c` with its NULLs taken out, as the dispatcher hands it to a function
that lets it handle NULLs: a well-formed column without a null map, of `c`'s rows and of the
type under `c`'s overlay, that reads as `c` where `c` is not NULL and holds a blank where it
is. -/
structure Stripped (c s : Column) : Prop where
  wellFormed : s.wellFormed
  isNullable_eq : s.isNullable = false
  length_eq : s.length = c.length
  dataType_eq : s.dataType = c.dataType.removeNullable
  cell_of_not : ∀ r < c.length, c.isNullAt r = false → s.cell r = c.cell r
  blank_of_null : ∀ r < c.length, c.isNullAt r = true → (s.cell r).isBlank

theorem removeNullable_dataType {c : Column} (hwf : c.wellFormed) (hn : c.isNullable = false) :
    c.dataType.removeNullable = c.dataType := by
  cases c with
  | nullable nested nulls => simp [isNullable] at hn
  | const value len =>
      obtain ⟨-, -, hvc⟩ := wellFormed_const.mp hwf
      have hplain : value.isPlain := isPlain_iff.mpr ⟨hn, hvc⟩
      simp only [dataType]
      exact removeNullable_of_isPlain hplain
  | _ => rfl

/-- A column without a null map needs no stripping. -/
theorem stripped_self {c : Column} (hwf : c.wellFormed) (hn : c.isNullable = false) :
    Stripped c c :=
  ⟨hwf, hn, rfl, (removeNullable_dataType hwf hn).symm, fun _ _ _ => rfl,
    fun r _ h => by simp [isNullAt_of_isNullable hn r] at h⟩

/-- Stripping keeps every argument that is not a constant NULL, as `Stripped` says. -/
theorem strip_spec (checks : Bool) {c : Column} (hwf : c.wellFormed)
    (hcn : c.isConstNull = false) : ∃ s, Dispatch.strip checks c = .ok s ∧ Stripped c s := by
  cases c with
  | nullable nested nulls =>
      obtain ⟨hnested, hplain, hlen⟩ := wellFormed_nullable.mp hwf
      have hdt : (nullable nested nulls).dataType.removeNullable = nested.dataType := by
        rw [dataType_nullable hplain, DataType.removeNullable, removeNullable_of_isPlain hplain]
      have hcell : ∀ r < nested.length, nulls.isNull r = false →
          nested.cell r = (nullable nested nulls).cell r := by
        intro r hr hn
        rw [cell_nullable hr, hn, if_neg (by simp)]
      by_cases hh : nulls.hasNulls
      · -- NULL rows are reset to blanks
        have hmask := isPlain_maskNulls hplain nulls
        refine ⟨nested.maskNulls nulls, by simp [Dispatch.strip, Column.maskChecked, hh, hlen],
          wellFormed_of_isPlain hmask, (isPlain_iff.mp hmask).1, length_maskNulls _ _,
          by rw [dataType_maskNulls, hdt], fun r hr hn => ?_, fun r hr hn => ?_⟩
        · have hr' : r < nested.length := hr
          have hn' : nulls.isNull r = false := hn
          rw [cell_maskNulls_of_not_isNull hr' hn']
          exact hcell r hr' hn'
        · have hr' : r < nested.length := hr
          exact isBlank_cell_maskNulls hplain hr' hn
      · -- a map without flags leaves the values as they are
        have hno : ∀ r < nested.length, nulls.isNull r = false := fun r hr =>
          NullMap.isNull_of_hasNulls_eq_false (by simpa using hh) (hlen ▸ hr)
        refine ⟨nested, by simp [Dispatch.strip, hh], hnested, (isPlain_iff.mp hplain).1, rfl,
          hdt.symm, fun r hr hn => hcell r hr hn, fun r hr hn => ?_⟩
        simp [isNullAt, hno r hr] at hn
  | const value len =>
      obtain ⟨hvalue, hone, hvc⟩ := wellFormed_const.mp hwf
      by_cases hv : value.isNullable
      · -- a constant of a nullable value that is not NULL: the plain value, spread again
        cases value with
        | nullable nested m =>
            obtain ⟨hnested, hplain, -⟩ := wellFormed_nullable.mp hvalue
            simp only [length] at hone
            have hm : m.isNull 0 = false := hcn
            refine ⟨const nested len, ?_, wellFormed_const.mpr ⟨hnested, hone,
              (isPlain_iff.mp hplain).2⟩, (isPlain_iff.mp hplain).1, rfl, ?_,
              fun r hr _ => ?_, fun r _ hn => ?_⟩
            · simp only [Dispatch.strip, hv, if_true, unwrapNullable]
              exact constant?_of_not_isConst hone (isPlain_iff.mp hplain).2 len
            · show nested.dataType = (nullable nested m).dataType.removeNullable
              rw [dataType_nullable hplain, DataType.removeNullable,
                removeNullable_of_isPlain hplain]
            · simp only [length] at hr
              rw [cell_const hr, cell_const hr, cell_nullable (by omega), hm, if_neg (by simp)]
            · simp only [isNullAt] at hn
              rw [hm] at hn
              cases hn
        | const inner n => simp [isConst] at hvc
        | _ => simp [isNullable] at hv
      · have hn : (const value len).isNullable = false := by simpa [isNullable] using hv
        exact ⟨const value len, by simp [Dispatch.strip, hv], stripped_self hwf hn⟩
  | _ => exact ⟨_, rfl, stripped_self hwf rfl⟩

/-- The null map an argument unwraps to covers the argument's rows. -/
theorem length_unwrapNullable_snd {c : Column} (hwf : c.wellFormed) :
    ∀ m ∈ c.unwrapNullable.2, m.length = c.length := by
  cases c with
  | nullable nested nulls =>
      intro m hm
      cases hm
      exact (wellFormed_nullable.mp hwf).2.2
  | _ => simp [unwrapNullable]

/-- Row `r` of some argument is NULL exactly when some argument says its row `r` is. -/
theorem contains_null_cells {cols : List Column} {r : Nat}
    (h : ∀ c ∈ cols, c.wellFormed ∧ r < c.length) :
    (cells cols r).contains .null = cols.any fun c => c.isNullAt r := by
  induction cols with
  | nil => rfl
  | cons c cs ih =>
      have hc := h c List.mem_cons_self
      have hnull := cell_eq_null_iff hc.1 hc.2
      have hhead : (Value.null == c.cell r) = c.isNullAt r := by
        rw [Bool.eq_iff_iff, beq_iff_eq]
        exact ⟨fun h => hnull.mp h.symm, fun h => (hnull.mpr h).symm⟩
      have hrest := ih fun d hd => h d (List.mem_cons_of_mem c hd)
      simp only [cells] at hrest ⊢
      rw [List.map_cons, List.contains_cons, List.any_cons, hhead, hrest]

theorem isNullable_eq_dataType (c : Column) : c.isNullable = c.dataType.isNullable := by
  induction c with
  | nullable nested nulls => simp [isNullable, dataType, DataType.makeNullable]; split <;> simp_all [DataType.isNullable]
  | const value len ih => exact ih
  | _ => rfl

theorem isNullAt_of_isConstNull {c : Column} (h : c.isConstNull) (r : Nat) : c.isNullAt r := by
  cases c with
  | const value len => exact h
  | _ => simp [isConstNull] at h

theorem isNullable_of_isNullAt {c : Column} {r : Nat} (h : c.isNullAt r) : c.isNullable := by
  cases hn : c.isNullable
  · simp [isNullAt_of_isNullable hn r] at h
  · rfl

theorem isPlain_replicate {u : Column} (hu : u.isPlain) (row n : Nat) :
    (u.replicate row n).isPlain := by
  cases u <;> simp_all [isPlain, replicate]

theorem isPlain_toFull {c : Column} (hwf : c.wellFormed) (hn : c.isNullable = false) :
    c.toFull.isPlain :=
  isPlain_iff.mpr ⟨by rw [isNullable_toFull]; exact hn, (toFull_wellFormed hwf).2⟩

theorem isPlain_defaultOf (t : DataType) (rows : Nat) : (defaultOf t rows).isPlain := by
  unfold defaultOf
  split <;> rfl

@[simp] theorem length_defaultOf (t : DataType) (rows : Nat) : (defaultOf t rows).length = rows := by
  unfold defaultOf
  split <;> simp [length, StringColumn.length]

theorem dataType_defaultOf (t : DataType) (rows : Nat) :
    (defaultOf t rows).dataType = t.removeNullable := by
  have hn := DataType.isNullable_removeNullable t
  unfold defaultOf
  cases h : t.removeNullable with
  | nullable u => simp [h, DataType.isNullable] at hn
  | _ => rfl

/-- A constant NULL of type `t`: every row reads NULL, and its type is the type under `t`'s
overlays, made nullable. -/
theorem constNull_spec (t : DataType) (len : Nat) :
    (constNull t len).wellFormed ∧ (constNull t len).length = len ∧
      (constNull t len).dataType = t.removeNullable.makeNullable ∧
      ∀ r < len, (constNull t len).get r = .ok .null := by
  have hplain := isPlain_defaultOf t 1
  refine ⟨wellFormed_const.mpr ⟨wellFormed_nullable.mpr ⟨wellFormed_of_isPlain hplain, hplain,
    by simp⟩, by simp [length], rfl⟩, rfl, by simp [constNull, dataType, dataType_defaultOf],
    fun r hr => ?_⟩
  rw [constNull, get_const hr, get_nullable (by simp), NullMap.isNull_allNull Nat.zero_lt_one,
    if_pos rfl]

/-- Arguments stripped of their NULLs read as the arguments at every row where none is NULL. -/
theorem cells_of_stripped {cols scols : List Column} (h : List.Forall₂ Stripped cols scols)
    {r : Nat} (hr : ∀ c ∈ cols, r < c.length) (hnot : (cols.any fun c => c.isNullAt r) = false) :
    cells scols r = cells cols r := by
  induction h with
  | nil => rfl
  | cons hs _ ih =>
      simp only [List.any_cons, Bool.or_eq_false_iff] at hnot
      simp only [cells, List.map_cons] at ih ⊢
      rw [hs.cell_of_not r (hr _ List.mem_cons_self) hnot.1,
        ih (fun d hd => hr d (List.mem_cons_of_mem _ hd)) hnot.2]

/-- At a row where some argument is NULL, the stripped arguments hold a blank. -/
theorem blank_of_stripped {cols scols : List Column} (h : List.Forall₂ Stripped cols scols)
    {r : Nat} (hr : ∀ c ∈ cols, r < c.length) (hnull : cols.any fun c => c.isNullAt r) :
    ∃ v ∈ cells scols r, v.isBlank := by
  induction h with
  | nil => simp at hnull
  | @cons c s cs ss hs _ ih =>
      by_cases hc : c.isNullAt r
      · exact ⟨s.cell r, by simp [cells], hs.blank_of_null r (hr c List.mem_cons_self) hc⟩
      · simp only [List.any_cons, hc, Bool.false_or] at hnull
        obtain ⟨v, hv, hblank⟩ := ih (fun d hd => hr d (List.mem_cons_of_mem _ hd)) hnull
        refine ⟨v, ?_, hblank⟩
        simp only [cells, List.map_cons, List.mem_cons] at hv ⊢
        exact Or.inr hv

theorem dataTypes_of_stripped {cols scols : List Column} (h : List.Forall₂ Stripped cols scols) :
    scols.map dataType = (cols.map dataType).map DataType.removeNullable := by
  induction h with
  | nil => rfl
  | cons hs _ ih => simp [hs.dataType_eq, ih]

end Column


theorem Except.toBool_eq_true {ε α : Type} {x : Except ε α} : x.toBool = true ↔ ∃ a, x = .ok a := by
  cases x <;> simp [Except.toBool]

namespace Builtin

theorem stringsOnly_eq_ok {result t : DataType} {types : List DataType} :
    stringsOnly result types = .ok t ↔ types.all DataType.isString ∧ result = t := by
  unfold stringsOnly
  split
  · next u h =>
      have hnot := List.find?_some h
      have hmem := List.mem_of_find?_eq_some h
      simp only [reduceCtorEq, false_iff, not_and, List.all_eq_true]
      intro hall
      simp [hall u hmem] at hnot
  · next h =>
      rw [List.find?_eq_none] at h
      simp only [Except.ok.injEq, List.all_eq_true, iff_and_self]
      intro _ t ht
      simpa using h t ht

theorem takes_eq_toBool {f : Builtin} (hf : f ≠ .nullOrEmpty) (types : List DataType) :
    f.takes types = (f.returnType types).toBool := by
  cases f with
  | nullOrEmpty => exact absurd rfl hf
  | _ => rfl

/-- The declared type of a function that lets the dispatcher handle NULLs looks under the
arguments' overlays. -/
theorem returnType_removeNullable {f : Builtin} (hf : f.stripsNulls) (ts : List DataType)
    (t : DataType) :
    f.returnType (ts.map DataType.removeNullable) = .ok t ↔ f.returnType ts = .ok t := by
  cases f <;> simp only [stripsNulls, Bool.false_eq_true] at hf
  case startsWith | endsWith =>
    simp [returnType, stringsOnly_eq_ok, DataType.isString_removeNullable]
  all_goals
    rcases ts with _ | ⟨a, _ | ⟨b, _ | ⟨c, rest⟩⟩⟩ <;>
      simp [returnType, DataType.isString_removeNullable, DataType.isInteger_removeNullable,
        ite_eq_iff]

theorem ne_nullOrEmpty {f : Builtin} (hf : f.stripsNulls) : f ≠ .nullOrEmpty := by
  rintro rfl
  simp [stripsNulls] at hf

theorem takes_removeNullable {f : Builtin} (hf : f.stripsNulls) (ts : List DataType) :
    f.takes (ts.map DataType.removeNullable) = f.takes ts := by
  rw [takes_eq_toBool (ne_nullOrEmpty hf), takes_eq_toBool (ne_nullOrEmpty hf), Bool.eq_iff_iff,
    Except.toBool_eq_true, Except.toBool_eq_true]
  exact exists_congr fun t => returnType_removeNullable hf ts t

theorem returnType_of_takes {f : Builtin} (hf : f.stripsNulls) {ts : List DataType}
    (h : f.takes ts) : ∃ t, f.returnType ts = .ok t := by
  rwa [takes_eq_toBool (ne_nullOrEmpty hf), Except.toBool_eq_true] at h

theorem returnType_of_not_takes {f : Builtin} (hf : f.stripsNulls) {ts : List DataType}
    (h : f.takes ts = false) : ∃ e, f.returnType ts = .error e := by
  rw [takes_eq_toBool (ne_nullOrEmpty hf)] at h
  cases hr : f.returnType ts with
  | error e => exact ⟨e, rfl⟩
  | ok t => simp [hr, Except.toBool] at h

/-- A function that lets the dispatcher handle NULLs declares a type without an overlay. -/
theorem returnType_isNullable {f : Builtin} (hf : f.stripsNulls) {ts : List DataType}
    {t : DataType} (h : f.returnType ts = .ok t) : t.isNullable = false := by
  cases f <;> simp only [stripsNulls, Bool.false_eq_true] at hf
  case startsWith | endsWith =>
    rw [returnType, stringsOnly_eq_ok] at h
    rw [← h.2]
    rfl
  all_goals
    rcases ts with _ | ⟨a, _ | ⟨b, _ | ⟨c, rest⟩⟩⟩ <;> simp [returnType, ite_eq_iff] at h
    simp [← h.2, DataType.isNullable]

/-- The declared type refuses arguments by a type mismatch or an argument count, never by an
overflow. -/
theorem returnType_error_kind {f : Builtin} (hf : f.stripsNulls) {ts : List DataType}
    {e : Error} (h : f.returnType ts = .error e) : e.kind ≠ .overflow := by
  cases f <;> simp only [stripsNulls, Bool.false_eq_true] at hf
  case startsWith | endsWith =>
    simp only [returnType, stringsOnly] at h
    split at h
    · cases h
      simp [Error.kind]
    · cases h
  all_goals
    rcases ts with _ | ⟨a, _ | ⟨b, _ | ⟨c, rest⟩⟩⟩ <;> simp [returnType, ite_eq_iff] at h <;>
      simp [← h, Error.kind]

end Builtin

end TextBatch

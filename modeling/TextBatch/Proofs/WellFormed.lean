import TextBatch.Proofs.Written

/-! # Well-formed columns

`Column.wellFormed` is what the checked constructors promise: a null map lies over a plain
column of its own length, and a constant repeats a one-row value that is not itself constant.
Such a column reads as its type says (`Column.Readable`): the type has at most one NULL
overlay, and has one exactly when the column can hold NULL; every row reads, as NULL exactly
where the column flags it; and a read fails, with a missing-column error, exactly past the last
row.

Well-formedness is an invariant of the library (`Column.wellFormed_invariant`): every
constructor builds well-formed columns, every operation on columns keeps them well formed, and
every call of a function through the dispatcher writes one.
-/

namespace TextBatch

namespace NullMap

theorem length_foldl_push (fs : List Bool) (m : NullMap) :
    (fs.foldl push m).length = m.length + fs.length := by
  induction fs generalizing m with
  | nil => rfl
  | cons f fs ih =>
      rw [List.foldl_cons, ih, length_push, List.length_cons]
      omega

@[simp] theorem length_ofFlags (fs : List Bool) : (ofFlags fs).length = fs.length := by
  simp [ofFlags, length_foldl_push, empty]

end NullMap

namespace Column

/-- What a well-formed column guarantees its readers. -/
structure Readable (c : Column) : Prop where
  /-- The type carries at most one NULL overlay. -/
  flat : ∃ t, t.isNullable = false ∧ (c.dataType = t ∨ c.dataType = .nullable t)
  /-- The type is nullable exactly when the column is. -/
  nullable_iff : c.dataType.isNullable = c.isNullable
  /-- Every row reads, as NULL exactly where the column flags the row. -/
  get_ok : ∀ r < c.length, ∃ v, c.get r = .ok v ∧ (v = .null ↔ c.isNullAt r)
  /-- A read fails with a missing column exactly past the last row. -/
  get_error : ∀ r, (∃ e, c.get r = .error e ∧ e.kind = .columnNotFound) ↔ c.length ≤ r

theorem dataType_flat {c : Column} (hwf : c.wellFormed) :
    ∃ t, t.isNullable = false ∧ (c.dataType = t ∨ c.dataType = .nullable t) := by
  induction c with
  | nullable nested nulls =>
      obtain ⟨-, hplain, -⟩ := wellFormed_nullable.mp hwf
      -- a plain column has a type without an overlay, which the map adds
      have hflat : nested.dataType.isNullable = false := by
        rw [← isNullable_eq_dataType]
        exact (isPlain_iff.mp hplain).1
      refine ⟨nested.dataType, hflat, .inr ?_⟩
      simp [dataType, DataType.makeNullable, hflat]
  | const value len ih => exact ih (wellFormed_const.mp hwf).1
  | _ => exact ⟨_, rfl, .inl rfl⟩

theorem readable_of_wellFormed {c : Column} (hwf : c.wellFormed) : c.Readable where
  flat := dataType_flat hwf
  nullable_iff := (isNullable_eq_dataType c).symm
  get_ok r hr := by
    obtain ⟨v, hv⟩ := get_isOk_of_wellFormed hwf hr
    refine ⟨v, hv, ?_⟩
    rw [← cell_eq hv]
    exact cell_eq_null_iff hwf hr
  get_error r := by
    constructor
    · rintro ⟨e, he, -⟩
      by_contra hlt
      obtain ⟨v, hv⟩ := get_isOk_of_wellFormed hwf (Nat.lt_of_not_le hlt)
      rw [hv] at he
      cases he
    · intro hle
      exact ⟨_, get_of_length_le hle, rfl⟩

theorem wellFormed_ofOptionalStrings (vs : List (Option Bytes)) :
    (ofOptionalStrings vs).wellFormed := by
  simp [ofOptionalStrings, wellFormed, isNullable, isConst, length, StringColumn.length]

theorem wellFormed_of_withNulls? {nested c : Column} {nulls : NullMap}
    (hwf : nested.wellFormed) (h : withNulls? nested nulls = .ok c) : c.wellFormed := by
  unfold withNulls? at h
  split at h
  · cases h
  · next hmap =>
      split at h
      · cases h
      · next hlen =>
          cases h
          simp only [Bool.or_eq_true, not_or, Bool.not_eq_true] at hmap
          exact wellFormed_nullable.mpr ⟨hwf, isPlain_iff.mpr hmap, by omega⟩

theorem wellFormed_of_constant? {value c : Column} {len : Nat} (hwf : value.wellFormed)
    (h : value.constant? len = .ok c) : c.wellFormed := by
  have hlen : value.length = 1 := by
    unfold constant? at h
    split at h
    · cases h
    · omega
  obtain ⟨v, hv, -, hvwf⟩ := constant?_eq_const hwf hlen len
  rw [h] at hv
  cases hv
  exact hvwf

theorem wellFormed_maskNulls {c : Column} (hwf : c.wellFormed) (nulls : NullMap) :
    (c.maskNulls nulls).wellFormed := by
  cases c with
  | nullable nested m => exact hwf
  | const value len => exact hwf
  | _ => exact wellFormed_of_isPlain (isPlain_maskNulls rfl nulls)

/-- Well-formedness is an invariant of the library. A well-formed column reads as its type
says; the constructors build well-formed columns, the checked ones from well-formed parts; the
operations on columns keep them well formed; and on a block of well-formed columns of one row
count, every call of a function through the dispatcher that succeeds writes a well-formed
column. -/
theorem wellFormed_invariant :
    (∀ c : Column, c.wellFormed → c.Readable) ∧
    (∀ (bytes : List UInt8) (ints : List Int32) (longs : List Int64) (s : StringColumn)
        (vs : List (Option Bytes)) (v : Bytes) (i : Int32) (t : DataType) (len : Nat),
      (Column.uint8 bytes).wellFormed ∧ (Column.int32 ints).wellFormed ∧
        (Column.int64 longs).wellFormed ∧ (Column.string s).wellFormed ∧
        (ofOptionalStrings vs).wellFormed ∧ (constString v len).wellFormed ∧
        (constInt32 i len).wellFormed ∧ (constNull t len).wellFormed ∧
        (defaultOf t len).wellFormed) ∧
    (∀ (nested value c : Column) (nulls : NullMap) (len : Nat),
      (nested.wellFormed → withNulls? nested nulls = .ok c → c.wellFormed) ∧
        (value.wellFormed → value.constant? len = .ok c → c.wellFormed)) ∧
    (∀ c : Column, c.wellFormed → c.makeNullable.wellFormed ∧ c.toFull.wellFormed ∧
      (∀ row n, (c.replicate row n).wellFormed) ∧ ∀ nulls, (c.maskNulls nulls).wellFormed) ∧
    ∀ (f : Builtin) (cfg : Config) (b b' : Block) (args : List Nat) (result n m : Nat),
      b.Shaped m → (f.execute cfg args result n).run b = .ok () b' →
        ∃ c, b'.column result = .ok c ∧ c.wellFormed := by
  refine ⟨fun _ => readable_of_wellFormed, fun bytes ints longs s vs v i t len =>
    ⟨rfl, rfl, rfl, rfl, wellFormed_ofOptionalStrings vs, rfl, rfl, (constNull_spec t len).1,
      wellFormed_of_isPlain (isPlain_defaultOf t len)⟩,
    fun _ _ _ _ _ => ⟨wellFormed_of_withNulls?, wellFormed_of_constant?⟩,
    fun c hwf => ⟨wellFormed_makeNullable hwf, (toFull_wellFormed hwf).1,
      fun row n => (replicate_wellFormed hwf row n).1, wellFormed_maskNulls hwf⟩,
    fun f cfg b b' args result n m hb h => ?_⟩
  obtain ⟨-, -, col, hcol, hwf, -⟩ := Builtin.writes_execute hb h
  exact ⟨col, hcol, hwf⟩

theorem wellFormed_invariant_repeat :
    let b : Block := ⟨[⟨"s", .nullable .string,
        some (.nullable (.string ⟨[[97, 98]]⟩) (NullMap.allValid 1))⟩,
      ⟨"n", .int32, some (.int32 [2])⟩, ⟨"r", .string, none⟩]⟩
    b.Shaped 1 ∧ ∃ b', (Builtin.repeat.execute {} [0, 1] 2 1).run b = .ok () b' ∧
      ∃ c, b'.column 2 = .ok c ∧ c.wellFormed ∧ c.Readable := by
  intro b
  have hb : b.Shaped 1 := by
    unfold Block.Shaped
    decide
  obtain ⟨b', h⟩ : ∃ b', (Builtin.repeat.execute {} [0, 1] 2 1).run b = .ok () b' := ⟨_, rfl⟩
  obtain ⟨c, hc, hwf⟩ := wellFormed_invariant.2.2.2.2 .repeat {} b b' [0, 1] 2 1 1 hb h
  exact ⟨hb, b', h, c, hc, hwf, wellFormed_invariant.1 c hwf⟩

end Column

end TextBatch

import TextBatch.Proofs.Folding

/-! # Functions with a NULL policy of their own

`concat`, `concat_ws` and `null_or_empty` read the null maps of their arguments themselves, so
the dispatcher hands them their arguments as they are, nullable or constant. Each keeps a policy
of its own (`Builtin.OwnNulls`). `concat` of one argument passes it through, made nullable; of
more, a row is NULL where any argument is NULL, and elsewhere the arguments' strings back to
back. `concat_ws` is NULL only where its separator is, and elsewhere joins, with the separator,
the strings of the other arguments that are not NULL at the row, so a row where all of them are
NULL joins nothing. `null_or_empty` writes 1 where its argument is NULL or empty and 0 elsewhere,
and is never NULL itself.

Over string arguments, plain, nullable or constant, they keep these policies on every path a call
can take: the function's own work, the dispatcher with folding on or off, and a registry that
resolves the name to them. `concat` and `concat_ws` first add up the bytes they reserve for their
output, and fail with an overflow when the sum is not a machine-sized count. An argument of another type is refused on every path by an error
that names the function and a type that is not a string, with the block left as it was
(`Builtin.own_null_policies_on_every_path`).
-/

namespace TextBatch

namespace Value

/-- Reading a row of NULLs and strings as strings fails exactly where a NULL stands. -/
theorem mapM_bytes?_eq_none_iff {cells : List Value}
    (h : ∀ v ∈ cells, v = .null ∨ ∃ s, v = .bytes s) :
    cells.mapM bytes? = none ↔ .null ∈ cells := by
  induction cells with
  | nil => simp
  | cons v vs ih =>
      have ih := ih fun w hw => h w (List.mem_cons_of_mem v hw)
      rcases h v List.mem_cons_self with rfl | ⟨s, rfl⟩
      · simp [List.mapM_cons, bytes?]
      · cases hvs : vs.mapM bytes? <;> simp_all [List.mapM_cons, bytes?]

/-- A row of strings reads back as its strings. -/
theorem mapM_bytes?_map (parts : List Bytes) : (parts.map bytes).mapM bytes? = some parts := by
  induction parts with
  | nil => rfl
  | cons s ss ih => simp [List.mapM_cons, bytes?, ih]

end Value

namespace Column

/-- A row of a well-formed string column is NULL or a string. -/
theorem cell_of_isString {c : Column} (hwf : c.wellFormed) (hs : c.dataType.isString) {r : Nat}
    (hr : r < c.length) : c.cell r = .null ∨ ∃ s, c.cell r = .bytes s := by
  have hsplit := splits_unpack hwf
  obtain ⟨str, hu, -⟩ := hsplit.eq_string hs
  rw [hu] at hsplit
  rw [hsplit.cell_of_string hwf hr]
  cases c.isNullAt r
  · exact .inr ⟨_, rfl⟩
  · exact .inl rfl

/-- An argument that is not a string is refused as one, by an error that names the caller and
a type that is not a string. -/
theorem strings_unpack_eq_error {c : Column} (hwf : c.wellFormed)
    (hbad : c.dataType.isString = false) (fn : String) :
    ∃ t, t.isString = false ∧
      c.toFull.unwrapNullable.1.strings fn = .error (.unsupportedArgument fn t) := by
  have hs := splits_unpack hwf
  refine ⟨_, ?_, hs.strings_of_not_isString hbad fn⟩
  rw [hs.dataType_eq, DataType.isString_removeNullable]
  exact hbad

/-- Reading the arguments as strings stops at the first one that is not a string, by an error
that names the caller and that argument's type. -/
theorem mapM_strings_eq_error {cols : List Column} (hwf : ∀ c ∈ cols, c.wellFormed)
    (hbad : ∃ c ∈ cols, c.dataType.isString = false) (fn : String) :
    ∃ t, t.isString = false ∧
      (unpacked cols).mapM (fun arg => arg.1.strings fn) = .error (.unsupportedArgument fn t) := by
  obtain ⟨c, hc, hcs⟩ := hbad
  obtain ⟨t₀, -, hst⟩ := strings_unpack_eq_error (hwf c hc) hcs fn
  have hmem : c.toFull.unwrapNullable ∈ unpacked cols := List.mem_map_of_mem hc
  obtain ⟨y, hy, e, hye, hmap⟩ := mapM_eq_error_of_mem
    (f := fun arg : Column × Option NullMap => arg.1.strings fn) hmem hst
  -- the argument refused first is one of the arguments, and so not a string either
  obtain ⟨d, hd, rfl⟩ := List.mem_map.mp hy
  have hds : d.dataType.isString = false := by
    cases h : d.dataType.isString
    · rfl
    · obtain ⟨s, hs⟩ := ((splits_unpack (hwf d hd)).strings_isOk_iff fn).mpr h
      simp only [hs] at hye
      cases hye
  obtain ⟨t, ht, hdt⟩ := strings_unpack_eq_error (hwf d hd) hds fn
  simp only [hdt] at hye
  cases hye
  exact ⟨t, ht, hmap⟩

end Column

namespace Builtin

/-- What a function with a NULL policy of its own writes, as the column `col`, over string
arguments `cols` of `rows` rows. -/
def OwnNulls : Builtin → List Column → Nat → Column → Prop
  | .concat, [c], rows, col =>
    col.dataType = .nullable .string ∧ ∀ r < rows, col.get r = c.get r
  | .concat, cols, rows, col =>
    col.dataType = .nullable .string ∧ ∀ r < rows,
      (col.get r = .ok .null ↔ ∃ c ∈ cols, c.cell r = .null) ∧
      ∀ parts : List Bytes, Column.cells cols r = parts.map .bytes →
        col.get r = .ok (.bytes parts.flatten)
  | .concatWs, sep :: values, rows, col =>
    col.dataType = .nullable .string ∧ ∀ r < rows,
      (col.get r = .ok .null ↔ sep.cell r = .null) ∧
      ∀ s, sep.cell r = .bytes s →
        col.get r = .ok (.bytes (s.intercalate ((Column.cells values r).filterMap Value.bytes?)))
  | .nullOrEmpty, [c], rows, col =>
    col.dataType = .uint8 ∧ ∀ r < rows,
      col.get r = .ok (.uint8 (if c.cell r = .null ∨ c.cell r = .bytes [] then 1 else 0))
  | _, _, _, _ => False

/-- How a call `m` of a function with a NULL policy of its own answers over the block `b`, with
argument columns `cols` of `rows` rows and the result at `result`, where `room` says whether the
sizes it adds up before writing are machine-sized counts: an argument that is not a string is
refused by an error naming the function and a type that is not a string, with the block left as
it was; over string arguments, sizes without room fail the call with an overflow, and otherwise
it writes a well-formed column of `rows` rows that keeps the function's policy. -/
structure KeepsOwnNulls (f : Builtin) (cols : List Column) (rows result : Nat) (room : Bool)
    (m : BlockM Unit) (b : Block) : Prop where
  refuses : (∃ c ∈ cols, c.dataType.isString = false) →
    ∃ t, t.isString = false ∧ m.run b = .error (.unsupportedArgument f.name t) b
  overflows : (∀ c ∈ cols, c.dataType.isString) → room = false →
    ∃ e b', m.run b = .error e b' ∧ e.kind = .overflow
  writes : (∀ c ∈ cols, c.dataType.isString) → room = true →
    ∃ b', m.run b = .ok () b' ∧ ∃ col, b'.column result = .ok col ∧ col.wellFormed ∧
      col.length = rows ∧ f.OwnNulls cols rows col

variable {f : Builtin} {cfg : Config} {b : Block} {n result : Nat} {args : List Nat}
  {cols : List Column} {room : Bool}

theorem KeepsOwnNulls.of_run_eq {m m' : BlockM Unit} (h : m'.run b = m.run b)
    (hk : f.KeepsOwnNulls cols n result room m b) : f.KeepsOwnNulls cols n result room m' b :=
  ⟨fun hbad => by rw [h]; exact hk.refuses hbad,
    fun hall hroom => by rw [h]; exact hk.overflows hall hroom,
    fun hall hroom => by rw [h]; exact hk.writes hall hroom⟩

theorem stripsNulls_of_own (hf : f ∈ [concat, concatWs, nullOrEmpty]) : f.stripsNulls = false := by
  simp only [List.mem_cons, List.not_mem_nil, or_false] at hf
  rcases hf with rfl | rfl | rfl <;> rfl

theorem admits_of_own (hf : f ∈ [concat, concatWs, nullOrEmpty]) (cells : List Value) :
    f.admits cfg cells := by
  simp only [List.mem_cons, List.not_mem_nil, or_false] at hf
  rcases hf with rfl | rfl | rfl <;> simp [admits, fits, stripsNulls]

/-- A function with a NULL policy of its own reserves no row by a count that could overflow, on
any path. -/
theorem dispatchReserve_of_own (hf : f ∈ [concat, concatWs, nullOrEmpty]) (folds : Bool)
    (cols : List Column) (rows : Nat) : f.dispatchReserve cfg folds cols rows := by
  simp only [List.mem_cons, List.not_mem_nil, or_false] at hf
  unfold dispatchReserve
  rcases hf with rfl | rfl | rfl <;> split <;> rfl

section Rows

variable {rows : Nat} {col : Column}

/-- A column whose rows are the rows `concat` makes of string arguments keeps the policy of
`concat`. -/
theorem ownNulls_concat
    (hcols : ∀ c ∈ cols, c.wellFormed ∧ c.dataType.isString ∧ c.length = rows)
    (hne : cols ≠ []) (htype : col.dataType = .nullable .string)
    (hget : ∀ r < rows, col.get r = .ok (concat.plainRow (Column.cells cols r))) :
    concat.OwnNulls cols rows col := by
  have hcell : ∀ r < rows, ∀ v ∈ Column.cells cols r, v = .null ∨ ∃ s, v = .bytes s := by
    intro r hr v hv
    obtain ⟨c, hc, rfl⟩ := List.mem_map.mp hv
    obtain ⟨hwf, hs, hlen⟩ := hcols c hc
    exact Column.cell_of_isString hwf hs (hlen ▸ hr)
  rcases cols with _ | ⟨c, _ | ⟨d, rest⟩⟩
  · exact absurd rfl hne
  · -- one argument: its cell, NULL or a string, is the row
    obtain ⟨hwf, hs, hlen⟩ := hcols c List.mem_cons_self
    refine ⟨htype, fun r hr => ?_⟩
    rw [hget r hr, Column.get_eq_cell hwf (hlen ▸ hr)]
    rcases Column.cell_of_isString hwf hs (hlen ▸ hr) with h | ⟨s, h⟩ <;>
      simp [plainRow, Column.cells, h, Value.bytes?]
  · refine ⟨htype, fun r hr => ⟨?_, fun parts hparts => ?_⟩⟩
    · -- the row is NULL exactly where reading the cells as strings fails
      have hnull : concat.plainRow (Column.cells (c :: d :: rest) r) = .null ↔
          (Column.cells (c :: d :: rest) r).mapM Value.bytes? = none := by
        cases hm : (Column.cells (c :: d :: rest) r).mapM Value.bytes? <;> simp [plainRow, hm]
      rw [hget r hr, Except.ok.injEq, hnull, Value.mapM_bytes?_eq_none_iff (hcell r hr)]
      simp [Column.cells, eq_comm]
    · rw [hget r hr, hparts]
      simp only [plainRow, Value.mapM_bytes?_map, Option.map_some, Option.getD_some]

/-- A column whose rows are the rows `concat_ws` makes of string arguments keeps the policy of
`concat_ws`. -/
theorem ownNulls_concatWs
    (hcols : ∀ c ∈ cols, c.wellFormed ∧ c.dataType.isString ∧ c.length = rows)
    (hne : cols ≠ []) (htype : col.dataType = .nullable .string)
    (hget : ∀ r < rows, col.get r = .ok (concatWs.plainRow (Column.cells cols r))) :
    concatWs.OwnNulls cols rows col := by
  obtain ⟨sep, values, rfl⟩ := List.exists_cons_of_ne_nil hne
  obtain ⟨hwf, hs, hlen⟩ := hcols sep List.mem_cons_self
  refine ⟨htype, fun r hr => ⟨?_, fun s hsep => ?_⟩⟩
  · -- the separator decides: a NULL separator makes a NULL row, a string one a string
    rw [hget r hr]
    rcases Column.cell_of_isString hwf hs (hlen ▸ hr) with h | ⟨s, h⟩ <;>
      simp [plainRow, sliceRow, Column.cells, h]
  · rw [hget r hr]
    simp [plainRow, Column.cells, hsep]

/-- A column whose rows are the rows `null_or_empty` makes keeps the policy of
`null_or_empty`. -/
theorem ownNulls_nullOrEmpty {c : Column} (htype : col.dataType = .uint8)
    (hget : ∀ r < rows, col.get r = .ok (nullOrEmpty.plainRow (Column.cells [c] r))) :
    nullOrEmpty.OwnNulls [c] rows col :=
  ⟨htype, fun r hr => by rw [hget r hr]; rfl⟩

end Rows

/-- A call that answers by the row semantics, and refuses an argument that is not a string by
an error naming the function, keeps the function's own NULL policy. -/
theorem keepsOwnNulls_of_answers (hf : f ∈ [concat, concatWs, nullOrEmpty]) {m : BlockM Unit}
    (hb : b.Shaped n) (hargs : List.Forall₂ (fun pos c => b.column pos = .ok c) args cols)
    (harity : f.arity.accepts args.length) {reserve : Bool}
    (hA : f.Answers cfg cols n result room reserve m b) (hreserve : reserve = true)
    (hrefuses : (∃ c ∈ cols, c.dataType.isString = false) →
      ∃ t, t.isString = false ∧ m.run b = .error (.unsupportedArgument f.name t) b) :
    f.KeepsOwnNulls cols n result room m b := by
  have hne : cols ≠ [] := by
    rintro rfl
    exact ne_nil_of_accepts harity (List.forall₂_nil_right_iff.mp hargs)
  -- string arguments are what the function takes
  have htakes : (∀ c ∈ cols, c.dataType.isString) → f.takes (cols.map Column.dataType) := by
    intro hall
    have hstrings : (cols.map Column.dataType).all DataType.isString := by
      simpa [List.all_map] using hall
    simp only [List.mem_cons, List.not_mem_nil, or_false] at hf
    rcases hf with rfl | rfl | rfl
    · rw [Join.takes_concat _ (.inl rfl)]
      exact hstrings
    · rw [Join.takes_concat _ (.inr rfl)]
      exact hstrings
    · obtain ⟨c, cs, rfl⟩ := List.exists_cons_of_ne_nil hne
      simpa [takes] using hall c List.mem_cons_self
  refine ⟨hrefuses, fun hall hroom => hA.overflows (htakes hall) (.inr hroom),
    fun hall hroom => ?_⟩
  have hcols : ∀ c ∈ cols, c.wellFormed ∧ c.dataType.isString ∧ c.length = n := fun c hc =>
    ⟨(hb.columns_of_forall₂ hargs c hc).1, hall c hc, (hb.columns_of_forall₂ hargs c hc).2⟩
  have hstrings : (cols.map Column.dataType).all DataType.isString := by
    simpa [List.all_map] using hall
  obtain ⟨b', hrun, col, hcol, hwf, hlen, ⟨t, ht, hdt⟩, hget⟩ :=
    hA.writes (htakes hall) (fun r _ => admits_of_own hf _) hroom hreserve
  refine ⟨b', hrun, col, hcol, hwf, hlen, ?_⟩
  -- the function keeps its NULLs to itself: each row is its plain row, of the declared type
  have hkeeps := stripsNulls_of_own hf
  rw [hkeeps, Bool.false_and, if_neg Bool.false_ne_true] at hdt
  have hrow : ∀ r < n, col.get r = .ok (f.plainRow (Column.cells cols r)) := fun r hr => by
    rw [hget r hr, rowValue_of_keeps hkeeps]
  simp only [List.mem_cons, List.not_mem_nil, or_false] at hf
  rcases hf with rfl | rfl | rfl
  · rw [Join.returnType_concat _ (.inl rfl) hstrings, Except.ok.injEq] at ht
    exact ownNulls_concat hcols hne (hdt.trans ht.symm) hrow
  · rw [Join.returnType_concat _ (.inr rfl) hstrings, Except.ok.injEq] at ht
    exact ownNulls_concatWs hcols hne (hdt.trans ht.symm) hrow
  · -- one argument
    obtain ⟨c, rfl⟩ : ∃ c, cols = [c] := by
      simp only [arity, Arity.accepts, beq_iff_eq, hargs.length_eq] at harity
      exact List.length_eq_one_iff.mp harity
    rw [returnType, Except.ok.injEq] at ht
    exact ownNulls_nullOrEmpty (hdt.trans ht.symm) hrow

/-- The function's own work refuses an argument that is not a string before it writes anything,
by an error naming the function and a type that is not a string. -/
theorem run_refuses_of_own (hf : f ∈ [concat, concatWs, nullOrEmpty]) (cfg : Config)
    (result : Nat) {rows : Nat} (hb : b.Shaped rows)
    (hargs : List.Forall₂ (fun pos c => b.column pos = .ok c) args cols)
    (harity : f.arity.accepts args.length) (hbad : ∃ c ∈ cols, c.dataType.isString = false) :
    ∃ t, t.isString = false ∧
      (f.run cfg args result rows).run b = .error (.unsupportedArgument f.name t) b := by
  have hwf : ∀ c ∈ cols, c.wellFormed := fun c hc => (hb.columns_of_forall₂ hargs c hc).1
  simp only [List.mem_cons, List.not_mem_nil, or_false] at hf
  rcases hf with rfl | rfl | rfl
  · -- one argument is checked alone; more are read as strings, in order
    rcases args with _ | ⟨p, _ | ⟨q, rest⟩⟩
    · simp [arity, Arity.accepts] at harity
    · obtain ⟨c, rfl⟩ := List.length_eq_one_iff.mp hargs.length_eq.symm
      obtain ⟨hc, -⟩ := List.forall₂_cons.mp hargs
      obtain ⟨c', hc', hbad'⟩ := hbad
      obtain rfl := List.mem_singleton.mp hc'
      refine ⟨c'.dataType, hbad', ?_⟩
      show (runConcat cfg [p] result rows).run b = _
      rw [run_runConcat_single cfg hc, if_neg (by simp [hbad'])]
      rfl
    · -- the merges of a shaped block pass their checks, and the first string read fails
      obtain ⟨t, ht, hstrings⟩ := Column.mapM_strings_eq_error hwf hbad "concat"
      refine ⟨t, ht, BlockM.run_write_of_error ?_⟩
      simp only [Join.concatResult,
        Block.unpackAll_eq hb cfg.debugChecks hargs (NullMap.length_allValid rows)]
      simp [List.mapM_map, Function.comp_def, hstrings, bind, Except.bind, name]
  · obtain ⟨t, ht, hstrings⟩ := Column.mapM_strings_eq_error hwf hbad "concat_ws"
    refine ⟨t, ht, BlockM.run_write_of_error ?_⟩
    simp [Join.concatWsResult, Block.mapM_unpack hargs, hstrings, bind, Except.bind, name]
  · -- one argument, read as a string
    obtain ⟨p, c, rfl, rfl, hc⟩ :=
      Block.Forall₂.single hargs (by simpa [arity, Arity.accepts] using harity)
    obtain ⟨t, ht, hstrings⟩ := Column.strings_unpack_eq_error (hwf c List.mem_cons_self)
      (by simpa using hbad) "null_or_empty"
    refine ⟨t, ht, BlockM.run_write_of_error ?_⟩
    simp [Measure.nullOrEmptyResult, readAt, Block.unpack, Block.full, hc, hstrings, bind,
      Except.bind, name]

open Dispatch in
/-- Through the dispatcher, folding or not, the call refuses as the function's own work does: a
folded call refuses the constants' one-row copies, whose types are the arguments' types. -/
theorem executeAs_refuses_of_own (hf : f ∈ [concat, concatWs, nullOrEmpty]) (folds : Bool)
    (cfg : Config) (hb : b.Shaped n)
    (hargs : List.Forall₂ (fun pos c => b.column pos = .ok c) args cols)
    (harity : f.arity.accepts args.length) (hresult : result < b.size)
    (hbad : ∃ c ∈ cols, c.dataType.isString = false) :
    ∃ t, t.isString = false ∧
      (f.executeAs folds cfg args result n).run b = .error (.unsupportedArgument f.name t) b := by
  have hlens : ∀ c ∈ cols, c.length = n := fun c hc => (hb.columns_of_forall₂ hargs c hc).2
  have hkeeps := stripsNulls_of_own hf
  rw [run_executeAs f folds cfg result harity hargs hlens]
  split
  · -- every argument is a constant: the call refuses their one-row copies, beside a fresh slot
    obtain ⟨folded, positions, hfold, hfs, hpos⟩ :=
      foldArguments_eq hb hargs (Block.shaped_empty 1) .nil
    rw [List.nil_append] at hpos
    obtain ⟨e, he⟩ := Block.exists_entry_of_lt hresult
    have hbad₁ : ∃ c ∈ cols.map firstRow, c.dataType.isString = false := by
      obtain ⟨c, hc, hcs⟩ := hbad
      exact ⟨firstRow c, List.mem_map_of_mem hc, by rw [dataType_firstRow]; exact hcs⟩
    have harity₁ : f.arity.accepts positions.length := by
      rw [hpos.length_eq, List.length_map, ← hargs.length_eq]
      exact harity
    obtain ⟨t, ht, hrun⟩ := run_refuses_of_own hf cfg folded.size (hfs.insertSlot e.name e.type)
      (Block.Forall₂.column_append hpos [⟨e.name, e.type, none⟩]) harity₁ hbad₁
    have hrun₁ : (f.executeWithNulls cfg positions folded.size 1).run
        (folded.insertSlot e.name e.type).1 =
          .error (.unsupportedArgument f.name t) (folded.insertSlot e.name e.type).1 := by
      rw [executeWithNulls_of_stripsNulls_false hkeeps]
      exact hrun
    exact ⟨t, ht, BlockM.run_bind_of_error
      (run_executeFolded_of_error hfold he (runAside_eq_error none hrun₁))⟩
  · obtain ⟨t, ht, hrun⟩ := run_refuses_of_own hf cfg result hb hargs harity hbad
    refine ⟨t, ht, BlockM.run_bind_of_error ?_⟩
    rw [executeWithNulls_of_stripsNulls_false hkeeps]
    exact hrun

/-- On a block the checked constructors built, `concat`, `concat_ws` and `null_or_empty` keep
their own NULL policies on every path a call can take: the function's own work, the dispatcher
with folding on or off, and a registry that resolves the name to the function. On each, string
arguments, plain, nullable or constant, make the call write a well-formed column of the block's
rows that keeps the function's policy, once the sizes the path adds up before writing are
machine-sized counts, and fail with an overflow otherwise; an argument of another type is
refused by an error that names the function, with the block left as it was. The sizes are the
payloads `concat` and `concat_ws` reserve for their output, over the arguments' rows, or over
the constants' one-row copies on a folded call (`dispatchRoom`); `null_or_empty` adds up none. -/
theorem own_null_policies_on_every_path (hf : f ∈ [concat, concatWs, nullOrEmpty])
    (cfg : Config) (reg : Registry) (name : String) (hb : b.Shaped n)
    (hargs : List.Forall₂ (fun pos c => b.column pos = .ok c) args cols)
    (harity : f.arity.accepts args.length) (hresult : result < b.size) :
    f.KeepsOwnNulls cols n result (f.addressable cols n) (f.run cfg args result n) b ∧
      (∀ folds, f.KeepsOwnNulls cols n result (f.dispatchRoom folds cols n)
        (f.executeAs folds cfg args result n) b) ∧
      (reg.find name args.length = .ok f →
        f.KeepsOwnNulls cols n result (f.dispatchRoom f.foldsConstants cols n)
          (reg.execute cfg name args result) b) := by
  have hdispatch : ∀ folds, f.KeepsOwnNulls cols n result (f.dispatchRoom folds cols n)
      (f.executeAs folds cfg args result n) b := fun folds =>
    keepsOwnNulls_of_answers hf hb hargs harity
      (answers_executeAs f folds cfg hb (.inr (admits_of_own hf)) hargs harity hresult)
      (dispatchReserve_of_own hf folds cols n)
      (executeAs_refuses_of_own hf folds cfg hb hargs harity hresult)
  -- the function's own work reserves nothing that could overflow either
  have hreserve : f.reserves cfg cols n := by
    simp only [List.mem_cons, List.not_mem_nil, or_false] at hf
    rcases hf with rfl | rfl | rfl <;> rfl
  refine ⟨keepsOwnNulls_of_answers hf hb hargs harity
      (answers_run_of_keeps (stripsNulls_of_own hf) cfg hb hargs harity hresult) hreserve
      (run_refuses_of_own hf cfg result hb hargs harity), hdispatch, fun hfind => ?_⟩
  -- the registry runs the dispatcher over the block's rows, which are the arguments' rows
  have hrows : b.rows = n := by
    cases hargs with
    | nil => exact absurd rfl (ne_nil_of_accepts harity)
    | cons hc _ => exact hb.rows_eq hc
  have hrun : (reg.execute cfg name args result).run b = (f.execute cfg args result n).run b := by
    simp [Registry.execute, EStateM.run_bind, EStateM.run_get, hfind, hrows]
  exact (hdispatch f.foldsConstants).of_run_eq hrun

/-- `concat_ws` over two rows, with a constant separator and an argument NULL at its second row,
on every path. -/
theorem own_null_policies_concatWs_comma :
    let b : Block := ⟨[⟨"sep", .string, some (.const (.string ⟨[[44]]⟩) 2)⟩,
      ⟨"a", .nullable .string,
        some (.nullable (.string ⟨[[97], [98]]⟩) (NullMap.ofFlags [false, true]))⟩,
      ⟨"z", .string, some (.string ⟨[[122], [122]]⟩)⟩, ⟨"r", .nullable .string, none⟩]⟩
    let cols := [Column.const (.string ⟨[[44]]⟩) 2,
      .nullable (.string ⟨[[97], [98]]⟩) (NullMap.ofFlags [false, true]),
      .string ⟨[[122], [122]]⟩]
    b.Shaped 2 ∧ List.Forall₂ (fun pos c => b.column pos = .ok c) [0, 1, 2] cols ∧
      (Registry.empty.register concatWs).find "concat_ws" 3 = .ok concatWs ∧
      concatWs.KeepsOwnNulls cols 2 3 (concatWs.addressable cols 2)
        (concatWs.run {} [0, 1, 2] 3 2) b ∧
      (∀ folds, concatWs.KeepsOwnNulls cols 2 3 (concatWs.dispatchRoom folds cols 2)
        (concatWs.executeAs folds {} [0, 1, 2] 3 2) b) ∧
      concatWs.KeepsOwnNulls cols 2 3 (concatWs.dispatchRoom concatWs.foldsConstants cols 2)
        (Registry.execute (Registry.empty.register concatWs) {} "concat_ws" [0, 1, 2] 3) b := by
  intro b cols
  have hb : b.Shaped 2 := by
    unfold Block.Shaped
    decide
  have hargs : List.Forall₂ (fun pos c => b.column pos = .ok c) [0, 1, 2] cols :=
    .cons rfl (.cons rfl (.cons rfl .nil))
  have hfind : (Registry.empty.register concatWs).find "concat_ws" 3 = .ok concatWs := by decide
  obtain ⟨hrun, hexecute, hreg⟩ := own_null_policies_on_every_path
    (show concatWs ∈ [concat, concatWs, nullOrEmpty] by simp) {}
    (Registry.empty.register concatWs) "concat_ws" hb hargs rfl (show 3 < b.size by decide)
  exact ⟨hb, hargs, hfind, hrun, hexecute, hreg hfind⟩

end Builtin

end TextBatch

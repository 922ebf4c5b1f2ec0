import TextBatch.Proofs.Frame
import TextBatch.Proofs.Folding

/-! # The column a call writes

On a block whose columns are well formed and share one row count, a call that succeeds has
read a column at every argument, and has written a well-formed column of the call's rows at
`result`, of the type the function declares for its arguments' types, made nullable when the
function strips NULLs and an argument is nullable (`Builtin.writes_execute`). The result
entry then carries that type. This holds on every path of the dispatcher: folded, with the
NULL policy, and for the substring family also when the result position is one of the helper
columns the call appended.
-/

namespace TextBatch

namespace Dispatch

theorem exists_columns_of_checkArgumentRows {f : Builtin} {b : Block} {rows : Nat} :
    ∀ {args : List Nat}, checkArgumentRows f b rows args = .ok () →
      ∃ cols, List.Forall₂ (fun pos c => b.column pos = .ok c) args cols ∧
        ∀ c ∈ cols, c.length = rows
  | [], _ => ⟨[], .nil, nofun⟩
  | pos :: rest, h => by
      unfold checkArgumentRows at h
      split at h
      · cases h
      · next c hc =>
          split at h
          · next hlen =>
              obtain ⟨cols, hcols, hlens⟩ := exists_columns_of_checkArgumentRows h
              refine ⟨c :: cols, .cons hc hcols, ?_⟩
              simpa [hlen] using hlens
          · cases h

theorem exists_run_of_runAside_eq_ok {inner : BlockM Unit} {b : Block} {slot : Nat}
    {missing : Option Error} {c : Column} (h : runAside inner b slot missing = .ok c) :
    ∃ b', inner.run b = .ok () b' ∧ b'.column slot = .ok c := by
  unfold runAside at h
  split at h
  · next b' hrun =>
      refine ⟨b', hrun, ?_⟩
      split at h
      · next hc => cases h; exact hc
      · cases h
      · cases h
  · cases h

end Dispatch

namespace BlockM

variable {b b' : Block} {names : List String} {result : Nat} {P : Column → Prop}
  {m : BlockM Unit}

/-- A successful run that frames `b` wrote a column that `P` holds of, behind appends. -/
theorem Frames.written (h : Frames b names result P m) (hrun : m.run b = .ok () b') :
    ∃ b₀ c, b.Extends names b₀ ∧ P c ∧ b₀.setColumn result c = .ok b' := by
  unfold Frames at h
  rwa [hrun] at h

/-- After a successful run that frames `b`, the result entry holds the column written there,
under that column's type. -/
theorem Frames.entry_written (h : Frames b names result P m) (hrun : m.run b = .ok () b') :
    ∃ e c, b'.entries[result]? = some e ∧ e.column = some c ∧ e.type = c.dataType ∧ P c := by
  obtain ⟨b₀, c, -, hc, hset⟩ := h.written hrun
  obtain ⟨e, he, hb'⟩ := Block.entries_setColumn hset
  have hlt : result < b₀.entries.length := (List.getElem?_eq_some_iff.mp he).1
  exact ⟨_, c, by rw [hb', List.getElem?_set_self hlt], rfl, rfl, hc⟩

/-- A run that appends nothing writes only at a position of the block. -/
theorem Frames.lt_size (h : Frames b [] result P m) (hrun : m.run b = .ok () b') :
    result < b.size := by
  obtain ⟨b₀, c, ⟨extra, hb₀, hnames⟩, -, hset⟩ := h.written hrun
  obtain rfl : extra = [] := List.map_eq_nil_iff.mp (List.prefix_nil.mp hnames)
  obtain ⟨e, he, -⟩ := Block.entries_setColumn hset
  have hlt := (List.getElem?_eq_some_iff.mp he).1
  simpa [Block.size, hb₀] using hlt

end BlockM

namespace Builtin

open Dispatch BlockM

variable {f : Builtin} {cfg : Config} {b b' : Block} {args : List Nat} {cols : List Column}
  {result n : Nat} {room reserve : Bool}

/-- What a successful call of `f` over the argument columns `cols` writes, with `n` rows: a
well-formed column of `n` rows whose type is the one `f` declares for the arguments' types,
made nullable when `f` strips NULLs and an argument is nullable. -/
def Writes (f : Builtin) (cols : List Column) (n : Nat) (col : Column) : Prop :=
  col.wellFormed ∧ col.length = n ∧ ∃ t, f.returnType (cols.map Column.dataType) = .ok t ∧
    col.dataType = if f.stripsNulls && cols.any Column.isNullable then t.makeNullable else t

theorem Answers.writes_of_run_ok {m : BlockM Unit}
    (ha : f.Answers cfg cols n result room reserve m b) (h : m.run b = .ok () b') :
    ∃ col, b'.column result = .ok col ∧ f.Writes cols n col := by
  obtain ⟨-, -, -, -, col, hcol, hwf, hlen, htype, -⟩ := ha.of_run_ok h
  exact ⟨col, hcol, hwf, hlen, htype⟩

/-- The result check passes only over a written column of the call's rows, and leaves the
block as it is. -/
theorem run_checkResult_eq_ok (h : (f.checkResult result n).run b = .ok () b') :
    b' = b ∧ ∃ c, b.column result = .ok c ∧ c.length = n := by
  unfold checkResult at h
  simp only [EStateM.run_bind, EStateM.run_get] at h
  split at h
  · cases h
  · next c hc =>
      split at h
      · cases h
      · next hlen =>
          cases h
          exact ⟨rfl, c, hc, Decidable.of_not_not hlen⟩

/-- A call that passed the result check left the block as its branch did. -/
theorem run_of_run_checkResult {m : BlockM Unit}
    (h : (m >>= fun _ => f.checkResult result n).run b = .ok () b') : m.run b = .ok () b' := by
  obtain ⟨⟨⟩, b₁, hm, hcheck⟩ := BlockM.run_bind_eq_ok.mp h
  obtain ⟨rfl, -⟩ := run_checkResult_eq_ok hcheck
  exact hm

/-- A call that succeeded passed the arity and row checks. -/
theorem checks_of_run_executeAs {folds : Bool}
    (h : (f.executeAs folds cfg args result n).run b = .ok () b') :
    f.arity.accepts args.length ∧ checkArgumentRows f b n args = .ok () := by
  cases harity : f.arity.accepts args.length
  · rw [run_executeAs_of_not_accepts folds harity] at h
    cases h
  · refine ⟨rfl, ?_⟩
    cases hrows : checkArgumentRows f b n args with
    | ok => rfl
    | error e =>
        simp [executeAs, harity, hrows, EStateM.run_bind, EStateM.run_get] at h

/-- A folded call that succeeded read the result entry, ran the function aside over the
constants' first rows and spread the value it wrote. -/
theorem executeFolded_eq_ok {folded : Block} {positions : List Nat}
    (hfold : foldArguments b (Block.empty, []) args = .ok (folded, positions))
    (h : (f.executeFolded cfg args result n).run b = .ok () b') :
    ∃ e value c, b.entry? result = .ok e ∧
      runAside (f.executeWithNulls cfg positions folded.size 1)
        (folded.insertSlot e.name e.type).1 folded.size none = .ok value ∧
      value.constant? n = .ok c ∧ b.setColumn result c = .ok b' := by
  cases he : b.entry? result with
  | error err =>
      simp [executeFolded, EStateM.run_bind, EStateM.run_get, hfold, he] at h
  | ok e =>
      cases haside : runAside (f.executeWithNulls cfg positions folded.size 1)
          (folded.insertSlot e.name e.type).1 folded.size none with
      | error err =>
          simp only [Block.insertSlot] at haside
          simp [executeFolded, EStateM.run_bind, EStateM.run_get, hfold, he, Block.insertSlot,
            haside] at h
      | ok value =>
          cases hc : value.constant? n with
          | error err =>
              simp only [Block.insertSlot] at haside
              simp [executeFolded, EStateM.run_bind, EStateM.run_get, hfold, he,
                Block.insertSlot, haside, hc] at h
          | ok c =>
              refine ⟨e, value, c, rfl, haside, hc, ?_⟩
              simp only [Block.insertSlot] at haside
              simp only [executeFolded, EStateM.run_bind, EStateM.run_get, BlockM.run_lift, hfold,
                he, Block.insertSlot, haside, hc] at h
              exact BlockM.run_setColumn_eq_ok.mp h

theorem ne_nil_of_forall₂ {R : Nat → Column → Prop} (harity : f.arity.accepts args.length)
    (hargs : List.Forall₂ R args cols) : cols ≠ [] := by
  rintro rfl
  exact ne_nil_of_accepts harity (List.forall₂_nil_right_iff.mp hargs)

theorem helperNames_eq_nil (hf : f ∉ [substring, substringFrom, left, right]) :
    f.helperNames = [] := by
  cases f <;> simp_all [helperNames]

/-- A folded call that succeeded, at any number of rows, spread the value the function wrote
over the constants' first rows: a well-formed constant of the declared type. -/
theorem writes_executeFolded (hb : b.Shaped n)
    (hargs : List.Forall₂ (fun pos c => b.column pos = .ok c) args cols)
    (hconst : ∀ c ∈ cols, c.isConst) (harity : f.arity.accepts args.length)
    (h : (f.executeFolded cfg args result n).run b = .ok () b') :
    ∃ col, b'.column result = .ok col ∧ f.Writes cols n col := by
  obtain ⟨folded, positions, hfold, hfs, hpos⟩ :=
    foldArguments_eq hb hargs (Block.shaped_empty 1) .nil
  simp only [List.nil_append] at hpos
  obtain ⟨e, value, c, -, haside, hc, hset⟩ := executeFolded_eq_ok hfold h
  -- the function ran over one row of the copies, beside a fresh slot
  have hA := answers_executeWithNulls f cfg (hfs.insertSlot e.name e.type)
    (Block.Forall₂.column_append hpos _)
    (by rw [hpos.length_eq, List.length_map, ← hargs.length_eq]; exact harity)
    (show folded.size < (folded.insertSlot e.name e.type).1.size by
      simp [Block.insertSlot, Block.size])
  obtain ⟨b₁, hrun₁, hvalue⟩ := exists_run_of_runAside_eq_ok haside
  obtain ⟨col₁, hcol₁, hwf, hlen, t, ht, hdt⟩ := hA.writes_of_run_ok hrun₁
  rw [hvalue] at hcol₁
  cases hcol₁
  -- the value has one row, so it is spread as a well-formed constant of its type
  obtain ⟨v, hv, -, hvwf⟩ := Column.constant?_eq_const hwf hlen n
  obtain ⟨c', hc', -, hcdt, -⟩ := Column.constant?_eq_ok hlen n
  rw [hc] at hv hc'
  cases hv
  cases hc'
  have htypes : (cols.map firstRow).map Column.dataType = cols.map Column.dataType := by
    simp [List.map_map, Function.comp_def, dataType_firstRow]
  refine ⟨_, Block.column_setColumn_self hset, hvwf, rfl, t, htypes ▸ ht, ?_⟩
  rw [hcdt, hdt, any_isNullable_firstRow hconst]

/-- The substring family writes what its kernel computes: a well-formed nullable string
column, of the declared type since the kernel refuses any other arguments than a string and
integers. The result position may be one of the helper columns the call appended. -/
theorem writes_slices (hf : f ∈ [substring, substringFrom, left, right]) (hb : b.Shaped n)
    (hargs : List.Forall₂ (fun pos c => b.column pos = .ok c) args cols)
    (harity : f.arity.accepts args.length) (h : (f.run cfg args result n).run b = .ok () b') :
    ∃ col, b'.column result = .ok col ∧ f.Writes cols n col := by
  have hframes : Frames b f.helperNames result
      (fun c => c.wellFormed ∧ c.dataType = .nullable .string ∧ c.length = n)
      (f.run cfg args result n) :=
    frames_run_slices hf fun _ _ _ _ _ h => Slice.result_out h
  obtain ⟨b₀, col, -, ⟨hwf, hdt, hlen⟩, hset⟩ := hframes.written h
  have htakes : f.takes (cols.map Column.dataType) := by
    cases ht : f.takes (cols.map Column.dataType)
    · obtain ⟨e, b'', herr, -⟩ := run_slices_refuses hf cfg hb hargs harity ht
      rw [h] at herr
      cases herr
    · rfl
  obtain ⟨c, cs, rfl⟩ := List.exists_cons_of_ne_nil (ne_nil_of_forall₂ harity hargs)
  rw [List.map_cons, takes_slices hf, Bool.and_eq_true] at htakes
  refine ⟨col, Block.column_setColumn_self hset, hwf, hlen, .nullable .string,
    by rw [List.map_cons]; exact returnType_slices hf htakes.1 htakes.2, ?_⟩
  simp [stripsNulls_of_slices hf, hdt]

/-- On a block of well-formed columns of one row count, a call that succeeds read a column at
every argument and wrote at `result` what `Writes` says, on whichever path it took. -/
theorem writes_execute {m : Nat} (hb : b.Shaped m)
    (h : (f.execute cfg args result n).run b = .ok () b') :
    ∃ cols, List.Forall₂ (fun pos c => b.column pos = .ok c) args cols ∧
      ∃ col, b'.column result = .ok col ∧ f.Writes cols n col := by
  obtain ⟨harity, hrows⟩ := checks_of_run_executeAs h
  obtain ⟨cols, hcols, hlens⟩ := exists_columns_of_checkArgumentRows hrows
  -- the block's rows are its arguments' rows
  obtain rfl : n = m := by
    obtain ⟨c, hc⟩ := List.exists_mem_of_ne_nil cols (ne_nil_of_forall₂ harity hcols)
    exact (hlens c hc).symm.trans (hb.columns_of_forall₂ hcols c hc).2
  refine ⟨cols, hcols, ?_⟩
  rw [execute, run_executeAs f _ cfg result harity hcols hlens] at h
  split at h
  · next hfold =>
      have hconst : ∀ c ∈ cols, c.isConst := by
        simp only [Bool.and_eq_true, List.all_eq_true] at hfold
        exact hfold.2.2
      exact writes_executeFolded hb hcols hconst harity (run_of_run_checkResult h)
  · have hrun := run_of_run_checkResult h
    by_cases hf : f ∈ [substring, substringFrom, left, right]
    · rw [executeWithNulls_of_stripsNulls_false (stripsNulls_of_slices hf)] at hrun
      exact writes_slices hf hb hcols harity hrun
    · -- the other functions append nothing, so they write at a position of the block
      have hframes : Frames b [] result (·.length = n) (f.executeWithNulls cfg args result n) := by
        rw [← helperNames_eq_nil hf]
        exact frames_executeWithNulls f (argsHave_of_checkArgumentRows hrows)
      exact (answers_executeWithNulls f cfg hb hcols harity (hframes.lt_size hrun)).writes_of_run_ok
        hrun

/-- Declared and written types agree. On a block of well-formed columns of one row count, a
call that succeeds read argument entries of types the function declares a type `t` for, and
left at `result` an entry that holds the written column under that column's type: `t` made
nullable when the function strips NULLs and an argument is nullable, and `t` otherwise. -/
theorem execute_declared_type (f : Builtin) (cfg : Config) {m : Nat} (hb : b.Shaped m)
    (h : (f.execute cfg args result n).run b = .ok () b') :
    ∃ cols, List.Forall₂ (fun pos c => b.column pos = .ok c) args cols ∧
      ∃ types t, argumentTypes b args = .ok types ∧ f.returnType types = .ok t ∧
        ∃ e col, b'.entries[result]? = some e ∧ e.column = some col ∧ e.type = col.dataType ∧
          col.dataType =
            if f.stripsNulls && cols.any Column.isNullable then t.makeNullable else t := by
  obtain ⟨cols, hcols, col, hcol, -, -, t, ht, hdt⟩ := writes_execute hb h
  obtain ⟨e, c, he, hec, htype, -⟩ := (frames_execute f).entry_written h
  -- the entry at `result` holds the column read there
  obtain ⟨e', he', hec'⟩ := Block.column_eq_ok_iff.mp hcol
  rw [he] at he'
  cases he'
  rw [hec] at hec'
  cases hec'
  exact ⟨cols, hcols, _, t, argumentTypes_eq hb hcols, ht, e, _, he, hec, htype, hdt⟩

theorem execute_declared_type_repeat :
    let b : Block := ⟨[⟨"s", .nullable .string,
        some (.nullable (.string ⟨[[97, 98]]⟩) (NullMap.allValid 1))⟩,
      ⟨"n", .int32, some (.int32 [2])⟩, ⟨"r", .string, none⟩]⟩
    b.Shaped 1 ∧ ∃ b', (Builtin.repeat.execute {} [0, 1] 2 1).run b = .ok () b' ∧
      ∃ cols, List.Forall₂ (fun pos c => b.column pos = .ok c) [0, 1] cols ∧
        ∃ types t, argumentTypes b [0, 1] = .ok types ∧ Builtin.repeat.returnType types = .ok t ∧
          ∃ e col, b'.entries[2]? = some e ∧ e.column = some col ∧ e.type = col.dataType ∧
            col.dataType = if Builtin.repeat.stripsNulls && cols.any Column.isNullable then
              t.makeNullable else t := by
  intro b
  have hb : b.Shaped 1 := by
    unfold Block.Shaped
    decide
  obtain ⟨b', h⟩ : ∃ b', (Builtin.repeat.execute {} [0, 1] 2 1).run b = .ok () b' := ⟨_, rfl⟩
  exact ⟨hb, b', h, execute_declared_type .repeat {} hb h⟩

end Builtin

end TextBatch

import TextBatch.Proofs.Stripping
import TextBatch.Proofs.Kernels
import TextBatch.Proofs.Dispatch

/-! # The dispatcher's NULL policy

A function that lets the dispatcher handle NULLs is called in one of three ways, by what the
arguments' null maps ask (`Dispatch.scanNulls_eq`): with a constant NULL argument the result is
a constant NULL of the declared type (`Builtin.answers_of_constNull`); with no nullable argument
the function runs as it is (`Builtin.answers_of_plain`); otherwise it runs on the stripped
arguments in a block of their own and the merged null map is laid over its result
(`Builtin.answers_of_nullable`). All three answer with the row semantics
(`Builtin.answers_executeWithNulls_of_stripsNulls`), so the result is NULL at exactly the rows
where an argument is, and a value stored under a NULL flag never causes an overflow, neither
by its own size nor by counting towards the running total of the output
(`Builtin.executeWithNulls_null_rows`).
-/

namespace TextBatch

namespace Dispatch

variable {b : Block} {args : List Nat} {cols : List Column}

/-- The scan finds a constant NULL if there is one, and otherwise whether an argument is
nullable. -/
theorem scanNulls_eq (hcols : List.Forall₂ (fun pos c => b.column pos = .ok c) args cols)
    (seen : Bool) :
    scanNulls b seen args = .ok (if cols.any Column.isConstNull then .constNull
      else if seen || cols.any Column.isNullable then .nullable else .plain) := by
  induction hcols generalizing seen with
  | nil => simp [scanNulls]
  | @cons pos c poss cs hc _ ih =>
      rw [scanNulls, hc]
      by_cases hnull : c.isConstNull
      · simp [hnull]
      · simp [hnull, ih, Bool.or_assoc]

theorem argumentTypes_eq {n : Nat} (hb : b.Shaped n)
    (hcols : List.Forall₂ (fun pos c => b.column pos = .ok c) args cols) :
    argumentTypes b args = .ok (cols.map Column.dataType) := by
  unfold argumentTypes
  induction hcols with
  | nil => rfl
  | cons hc _ ih =>
      obtain ⟨e, he, htype⟩ := hb.type_eq hc
      rw [List.mapM_cons, ih]
      simp [he, htype, Except.map, bind, Except.bind, pure, Except.pure]

/-- Stripping puts every argument, with its NULLs taken out, in a block of its own, in order,
and merges the arguments' null maps into the map it started from. -/
theorem stripArguments_eq (checks : Bool) {n : Nat} (hb : b.Shaped n)
    (hcols : List.Forall₂ (fun pos c => b.column pos = .ok c) args cols)
    (hcn : ∀ c ∈ cols, c.isConstNull = false) :
    ∀ {acc : Block} {ps : List Nat} {done : List Column} {m : NullMap}, acc.Shaped n →
      List.Forall₂ (fun pos c => acc.column pos = .ok c) ps done → m.length = n →
      ∃ stripped positions scols, stripArguments checks b (acc, ps, m) args =
          .ok (stripped, positions, cols.foldl (fun m c => m.mergeOpt c.unwrapNullable.2) m) ∧
        stripped.Shaped n ∧
        List.Forall₂ (fun pos c => stripped.column pos = .ok c) positions (done ++ scols) ∧
        List.Forall₂ Column.Stripped cols scols := by
  induction hcols with
  | nil =>
      intro acc ps done m hacc hdone _
      exact ⟨acc, ps, [], rfl, hacc, by simpa using hdone, .nil⟩
  | @cons pos c poss cs hc _ ih =>
      intro acc ps done m hacc hdone hm
      obtain ⟨e, he, -⟩ := Block.column_eq_ok_iff.mp hc
      have hholds := hb.holds hc
      -- the argument's map has the call's rows, as the merge asserts
      have hmerge := NullMap.mergeChecked_eq (m := m) (o := c.unwrapNullable.2)
        (fun x hx => by rw [Column.length_unwrapNullable_snd hholds.wellFormed x hx,
          hholds.length_eq, hm]) checks
      obtain ⟨s, hs, hstr⟩ := Column.strip_spec checks hholds.wellFormed (hcn c List.mem_cons_self)
      have hslen : s.length = n := hstr.length_eq.trans hholds.length_eq
      -- the stripped copy goes in at the end, behind the earlier ones
      have hacc' := hacc.insert e.name hstr.wellFormed hslen
      have hdone' : List.Forall₂ (fun p d => (⟨acc.entries ++ [⟨e.name, s.dataType,
          some s⟩]⟩ : Block).column p = .ok d) (ps ++ [acc.size]) (done ++ [s]) :=
        List.rel_append (Block.Forall₂.column_append hdone _)
          (.cons (Block.column_append_size rfl) .nil)
      obtain ⟨stripped, positions, scols, hrun, hshaped, hpos, hstrs⟩ :=
        ih (fun d hd => hcn d (List.mem_cons_of_mem c hd)) (m := m.mergeOpt c.unwrapNullable.2)
          hacc' hdone' (by rw [NullMap.length_mergeOpt, hm])
      refine ⟨stripped, positions, s :: scols, ?_, hshaped, by simpa using hpos, .cons hstr hstrs⟩
      simp [stripArguments, Block.entry?, he, hc, hmerge, hs, hacc.insert_eq e.name hslen, bind,
        Except.bind, hrun]

/-- The merged map of arguments without constant NULLs flags a row exactly when some argument
is NULL there. -/
theorem isNull_merged {n r : Nat} (hr : r < n) {cols : List Column}
    (hcols : ∀ c ∈ cols, c.wellFormed ∧ c.length = n ∧ c.isConstNull = false) :
    (cols.foldl (fun m c => m.mergeOpt c.unwrapNullable.2) (NullMap.allValid n)).isNull r =
      cols.any fun c => c.isNullAt r := by
  -- each step ORs one argument's flag of row `r` into the map so far
  have hfold : ∀ (cs : List Column) (m : NullMap), m.Covers → m.length = n →
      (∀ c ∈ cs, c.wellFormed ∧ c.length = n ∧ c.isConstNull = false) →
      (cs.foldl (fun m c => m.mergeOpt c.unwrapNullable.2) m).isNull r =
        (m.isNull r || cs.any fun c => c.isNullAt r) := by
    intro cs
    induction cs with
    | nil => simp
    | cons c cs ih =>
        intro m hm hlen hcs
        obtain ⟨hwf, hclen, hcn⟩ := hcs c List.mem_cons_self
        have hflag := NullMap.isNull_mergeOpt hm (hlen ▸ hr) (o := c.unwrapNullable.2)
          fun o ho => by rw [Column.length_unwrapNullable_snd hwf o ho, hclen]; exact hr
        rw [List.foldl_cons, ih _ (hm.mergeOpt _) (by rw [NullMap.length_mergeOpt, hlen])
          (fun d hd => hcs d (List.mem_cons_of_mem c hd)), hflag,
          Column.flagged_unwrapNullable hcn, List.any_cons, Bool.or_assoc]
  rw [hfold cols _ (NullMap.covers_allValid n) rfl hcols, NullMap.isNull_allValid hr,
    Bool.false_or]

theorem length_merged (cols : List Column) (m : NullMap) :
    (cols.foldl (fun m c => m.mergeOpt c.unwrapNullable.2) m).length = m.length := by
  induction cols generalizing m with
  | nil => rfl
  | cons c cs ih => rw [List.foldl_cons, ih, NullMap.length_mergeOpt]

theorem overlay_of_isPlain (checks : Bool) {u : Column} (hu : u.isPlain) (nulls : NullMap) :
    overlay checks nulls u = .ok (.nullable u nulls) := by
  cases u <;> simp_all [overlay, Column.isPlain]

/-- A result without a null map is laid under the merged map as its values spelled out: no
maps are merged, so no check is made. -/
theorem wrapResult_eq (checks : Bool) {c : Column} (hwf : c.wellFormed)
    (hn : c.isNullable = false) (nulls : NullMap) :
    wrapResult checks c nulls = .ok (.nullable c.toFull nulls) := by
  cases c with
  | nullable nested m => simp [Column.isNullable] at hn
  | const value len =>
      have hplain := Column.isPlain_toFull hwf hn
      simp only [Column.toFull] at hplain
      simp [wrapResult, Column.toFull, overlay_of_isPlain checks hplain]
  | _ => rfl

/-- The merged map laid over a result without one: a nullable column that is NULL where the
map flags a row and reads as the result elsewhere. -/
theorem wrapResult_spec {c : Column} (hwf : c.wellFormed) (hn : c.isNullable = false)
    {nulls : NullMap} (hlen : nulls.length = c.length) :
    (Column.nullable c.toFull nulls).wellFormed ∧ (Column.nullable c.toFull nulls).length = c.length ∧
      (Column.nullable c.toFull nulls).dataType = c.dataType.makeNullable ∧
      ∀ r < c.length, (Column.nullable c.toFull nulls).get r =
        if nulls.isNull r then .ok .null else c.get r := by
  have hfwf := (Column.toFull_wellFormed hwf).1
  have hplain := Column.isPlain_toFull hwf hn
  refine ⟨Column.wellFormed_nullable.mpr ⟨hfwf, hplain, by rw [hlen, Column.length_toFull]⟩,
    Column.length_toFull c, by simp [Column.dataType], fun r hr => ?_⟩
  rw [Column.get_nullable (by rw [Column.length_toFull]; exact hr), Column.get_toFull hwf r]

theorem runAside_eq_error {inner : BlockM Unit} {b b' : Block} {slot : Nat} {e : Error}
    (missing : Option Error) (hrun : inner.run b = .error e b') :
    runAside inner b slot missing = .error e := by
  simp [runAside, hrun]

end Dispatch

namespace Builtin

open Dispatch

variable {f : Builtin} {cfg : Config} {b : Block} {args : List Nat} {cols scols : List Column}
  {rows result : Nat}

/-- Stripping changes no row's admission: a row with a NULL is admitted before stripping, and
after it holds a blank, which fits. -/
theorem admits_stripped (hf : f.stripsNulls) (hs : List.Forall₂ Column.Stripped cols scols)
    {r : Nat} (hcols : ∀ c ∈ cols, c.wellFormed ∧ r < c.length) :
    f.admits cfg (Column.cells scols r) = f.admits cfg (Column.cells cols r) := by
  have hnull := Column.contains_null_cells hcols
  cases hnr : cols.any fun c => c.isNullAt r
  · rw [Column.cells_of_stripped hs (fun c hc => (hcols c hc).2) hnr]
  · obtain ⟨v, hv, hblank⟩ := Column.blank_of_stripped hs (fun c hc => (hcols c hc).2) hnr
    simp only [admits, hf, hnull, hnr, fits_of_isBlank hv hblank, Bool.or_true, Bool.true_and,
      Bool.true_or]

/-- Stripping changes no row's bytes: a row with a NULL counts nothing before stripping, and
after it holds a blank, which counts nothing. -/
theorem outputBytes_stripped (hf : f.stripsNulls) (hs : List.Forall₂ Column.Stripped cols scols)
    (hcols : ∀ c ∈ cols, c.wellFormed ∧ c.length = rows) :
    f.outputBytes scols rows = f.outputBytes cols rows := by
  unfold outputBytes
  congr 1
  refine List.map_congr_left fun r hr => ?_
  have hrow : ∀ c ∈ cols, c.wellFormed ∧ r < c.length := fun c hc =>
    ⟨(hcols c hc).1, by rw [(hcols c hc).2]; exact List.mem_range.mp hr⟩
  have hplain : (Column.cells scols r).contains .null = false :=
    Column.cells_contains_null fun s hs' => by
      obtain ⟨c, hc, hcs⟩ := exists_of_mem_right_of_forall₂ hs hs'
      exact ⟨hcs.wellFormed, hcs.isNullable_eq, by rw [hcs.length_eq]; exact (hrow c hc).2⟩
  rw [hplain, Column.contains_null_cells hrow, hf]
  cases hnr : cols.any fun c => c.isNullAt r
  · rw [Column.cells_of_stripped hs (fun c hc => (hrow c hc).2) hnr]
  · obtain ⟨v, hv, hblank⟩ := Column.blank_of_stripped hs (fun c hc => (hrow c hc).2) hnr
    simp [rowBytes_of_isBlank hv hblank]

/-- Stripping changes no row's reserve: a row with a NULL reserves nothing before stripping,
and after it holds a blank, which reserves nothing more than a terminator. -/
theorem reserves_stripped (hs : List.Forall₂ Column.Stripped cols scols)
    (hcols : ∀ c ∈ cols, c.wellFormed ∧ c.length = rows) :
    f.reserves cfg scols rows = f.reserves cfg cols rows := by
  refine reserves_congr fun r hr => ?_
  have hrow : ∀ c ∈ cols, c.wellFormed ∧ r < c.length := fun c hc =>
    ⟨(hcols c hc).1, by rw [(hcols c hc).2]; exact hr⟩
  have hplain : (Column.cells scols r).contains .null = false :=
    Column.cells_contains_null fun s hs' => by
      obtain ⟨c, hc, hcs⟩ := exists_of_mem_right_of_forall₂ hs hs'
      exact ⟨hcs.wellFormed, hcs.isNullable_eq, by rw [hcs.length_eq]; exact (hrow c hc).2⟩
  rw [hplain, Column.contains_null_cells hrow, Bool.false_or]
  cases hnr : cols.any fun c => c.isNullAt r
  · rw [Column.cells_of_stripped hs (fun c hc => (hrow c hc).2) hnr, Bool.false_or]
  · obtain ⟨v, hv, hblank⟩ := Column.blank_of_stripped hs (fun c hc => (hrow c hc).2) hnr
    simp [rowBytes_of_isBlank hv hblank, usizeMax]

/-- A call over rows that all have a NULL evaluates none of them, and counts no bytes. -/
theorem outputBytes_of_null_rows (hf : f.stripsNulls)
    (h : ∀ r < rows, (Column.cells cols r).contains .null) : f.outputBytes cols rows = 0 := by
  have hzero : ((List.range rows).map fun r =>
      if f.stripsNulls && (Column.cells cols r).contains .null then 0
      else f.rowBytes (Column.cells cols r)) = (List.range rows).map fun _ => 0 :=
    List.map_congr_left fun r hr => if_pos (by rw [hf, h r (List.mem_range.mp hr)]; rfl)
  rw [outputBytes, hzero]
  simp

/-- A function that strips NULLs has room exactly when its running total is a machine-sized
count; only `repeat` and `space` count bytes. -/
theorem addressable_of_stripsNulls (hf : f.stripsNulls) (cols : List Column) (rows : Nat) :
    f.addressable cols rows = decide (f.outputBytes cols rows ≤ usizeMax) := by
  cases f with
  | «repeat» | space => rfl
  | length | charLength | startsWith | endsWith => simp [addressable, outputBytes, rowBytes]
  | _ => simp [stripsNulls] at hf

/-- A row's value after stripping is its value before, where no argument is NULL. -/
theorem rowValue_stripped (hs : List.Forall₂ Column.Stripped cols scols)
    {r : Nat} (hcols : ∀ c ∈ cols, c.wellFormed ∧ r < c.length)
    (hnr : (cols.any fun c => c.isNullAt r) = false) :
    f.plainRow (Column.cells scols r) = f.rowValue (Column.cells cols r) := by
  rw [Column.cells_of_stripped hs (fun c hc => (hcols c hc).2) hnr, rowValue,
    Column.contains_null_cells hcols, hnr]
  simp

theorem run_executeWithNulls_constNull (hf : f.stripsNulls) (cfg : Config) (result rows : Nat)
    (hscan : scanNulls b false args = .ok .constNull) {types : List DataType}
    (htypes : argumentTypes b args = .ok types) :
    (f.executeWithNulls cfg args result rows).run b =
      (do let t ← BlockM.lift (f.returnType types)
          BlockM.setColumn result (Column.constNull t rows)).run b := by
  simp only [executeWithNulls, hf, Bool.not_true, Bool.false_eq_true, if_false, EStateM.run_bind,
    EStateM.run_get, BlockM.run_lift, hscan, htypes]

theorem run_executeWithNulls_plain (hf : f.stripsNulls) (cfg : Config) (result rows : Nat)
    (hscan : scanNulls b false args = .ok .plain) :
    (f.executeWithNulls cfg args result rows).run b = (f.run cfg args result rows).run b := by
  simp only [executeWithNulls, hf, Bool.not_true, Bool.false_eq_true, if_false, EStateM.run_bind,
    EStateM.run_get, BlockM.run_lift, hscan]

theorem run_executeWithNulls_nullable (hf : f.stripsNulls) (cfg : Config) (rows : Nat)
    (hscan : scanNulls b false args = .ok .nullable) {stripped : Block} {positions : List Nat}
    {nulls : NullMap}
    (hstrip : stripArguments cfg.debugChecks b (Block.empty, [], NullMap.allValid rows) args =
      .ok (stripped, positions, nulls))
    {e : Entry} (he : b.entry? result = .ok e) :
    (f.executeWithNulls cfg args result rows).run b =
      (do
        let produced ← BlockM.lift (runAside (f.run cfg positions stripped.size rows)
          (stripped.insertSlot e.name e.type.removeNullable).1 stripped.size
          (some (.resultNotWritten f.name)))
        BlockM.setColumn result (← BlockM.lift (wrapResult cfg.debugChecks produced nulls))).run b := by
  simp only [executeWithNulls, hf, Bool.not_true, Bool.false_eq_true, if_false, EStateM.run_bind,
    EStateM.run_get, BlockM.run_lift, hscan, hstrip, he, Block.insertSlot]

/-- A constant NULL argument: the call writes a constant NULL of the declared type, made
nullable, whatever the other arguments hold. -/
theorem answers_of_constNull (hf : f.stripsNulls) (cfg : Config) (hb : b.Shaped rows)
    (hargs : List.Forall₂ (fun pos c => b.column pos = .ok c) args cols)
    (hresult : result < b.size) (hcn : cols.any Column.isConstNull) :
    f.Answers cfg cols rows result (f.addressable cols rows) (f.reserves cfg cols rows)
      (f.executeWithNulls cfg args result rows) b := by
  have hscan : scanNulls b false args = .ok .constNull := by
    rw [scanNulls_eq hargs, if_pos hcn]
  have hrun := run_executeWithNulls_constNull hf cfg result rows hscan (argumentTypes_eq hb hargs)
  obtain ⟨c, hc, hcnull⟩ := List.any_eq_true.mp hcn
  -- every row has a NULL cell, the constant NULL's
  have hnull : ∀ r < rows, (Column.cells cols r).contains .null := by
    intro r hr
    rw [Column.contains_null_cells fun d hd => by
      obtain ⟨hwf, hlen⟩ := hb.columns_of_forall₂ hargs d hd
      exact ⟨hwf, by rw [hlen]; exact hr⟩]
    exact List.any_eq_true.mpr ⟨c, hc, Column.isNullAt_of_isConstNull hcnull r⟩
  -- no row is evaluated, so the running total stays at nothing
  have hroom : f.addressable cols rows = true := by
    rw [addressable_of_stripsNulls hf, outputBytes_of_null_rows hf hnull]
    exact decide_eq_true (Nat.zero_le _)
  refine ⟨fun hbad => ?_, fun _ hrow => ?_, fun _ _ _ hstop => ?_, fun hok _ _ _ => ?_⟩
  · obtain ⟨e, he⟩ := returnType_of_not_takes hf hbad
    refine ⟨e, b, ?_, returnType_error_kind hf he⟩
    simp [hrun, he, EStateM.run_bind, BlockM.run_lift]
  · rcases hrow with ⟨r, hr, hbad⟩ | hbad
    · simp only [admits, hf, hnull r hr, Bool.true_and, Bool.true_or, Bool.true_eq_false] at hbad
    · rw [hroom] at hbad
      cases hbad
  · rw [reserves_of_null_rows hnull] at hstop
    cases hstop
  · obtain ⟨t, ht⟩ := returnType_of_takes hf hok
    obtain ⟨hwf, hlen, hdt, hget⟩ := Column.constNull_spec t rows
    obtain ⟨b', hset, -⟩ := hb.setColumn hresult hwf hlen
    have hany : cols.any Column.isNullable :=
      List.any_eq_true.mpr ⟨c, hc, Column.isNullable_of_isNullAt
        (Column.isNullAt_of_isConstNull hcnull 0)⟩
    refine ⟨b', ?_, _, Block.column_setColumn_self hset, hwf, hlen, ⟨t, ht, ?_⟩, fun r hr => ?_⟩
    · simp [hrun, ht, EStateM.run_bind, BlockM.run_lift, BlockM.run_setColumn_eq_ok.mpr hset]
    · rw [hdt, DataType.removeNullable_of_isNullable (returnType_isNullable hf ht)]
      simp [hf, hany]
    · rw [hget r hr, rowValue, if_pos (by rw [hf, hnull r hr]; rfl)]

/-- No argument nullable: the call is the function's own run on the block. -/
theorem answers_of_plain (hf : f.stripsNulls) (cfg : Config) (hb : b.Shaped rows)
    (hargs : List.Forall₂ (fun pos c => b.column pos = .ok c) args cols)
    (harity : f.arity.accepts args.length) (hresult : result < b.size)
    (hn : cols.any Column.isNullable = false) :
    f.Answers cfg cols rows result (f.addressable cols rows) (f.reserves cfg cols rows)
      (f.executeWithNulls cfg args result rows) b := by
  have hcn : cols.any Column.isConstNull = false := by
    simp only [List.any_eq_false] at hn ⊢
    intro c hc hnull
    exact hn c hc (Column.isNullable_of_isNullAt (Column.isNullAt_of_isConstNull hnull 0))
  have hscan : scanNulls b false args = .ok .plain := by
    rw [scanNulls_eq hargs, hcn, hn]
    rfl
  refine Answers.of_run_eq (run_executeWithNulls_plain hf cfg result rows hscan)
    (answers_run hf cfg hb hargs harity (fun c hc => ?_) hresult)
  simpa using List.any_eq_false.mp hn c hc

/-- Nullable arguments and no constant NULL: the function runs on the arguments with their
NULLs taken out, in a block of their own, and the merged null map is laid over what it
wrote. -/
theorem answers_of_nullable (hf : f.stripsNulls) (cfg : Config) (hb : b.Shaped rows)
    (hargs : List.Forall₂ (fun pos c => b.column pos = .ok c) args cols)
    (harity : f.arity.accepts args.length) (hresult : result < b.size)
    (hcn : cols.any Column.isConstNull = false) (hn : cols.any Column.isNullable) :
    f.Answers cfg cols rows result (f.addressable cols rows) (f.reserves cfg cols rows)
      (f.executeWithNulls cfg args result rows) b := by
  have hscan : scanNulls b false args = .ok .nullable := by
    rw [scanNulls_eq hargs, hcn, hn]
    rfl
  have hcols : ∀ c ∈ cols, c.wellFormed ∧ c.length = rows ∧ c.isConstNull = false := by
    intro c hc
    obtain ⟨hwf, hlen⟩ := hb.columns_of_forall₂ hargs c hc
    exact ⟨hwf, hlen, by simpa using List.any_eq_false.mp hcn c hc⟩
  have hrow : ∀ r < rows, ∀ c ∈ cols, c.wellFormed ∧ r < c.length := fun r hr c hc =>
    ⟨(hcols c hc).1, by rw [(hcols c hc).2.1]; exact hr⟩
  obtain ⟨stripped, positions, scols, hstrip, hshaped, hpos, hstrs⟩ :=
    stripArguments_eq cfg.debugChecks hb hargs (fun c hc => (hcols c hc).2.2)
      (m := NullMap.allValid rows) (Block.shaped_empty rows) .nil (NullMap.length_allValid rows)
  simp only [List.nil_append] at hpos
  obtain ⟨e, he⟩ := Block.exists_entry_of_lt hresult
  have hrun := run_executeWithNulls_nullable hf cfg rows hscan hstrip he
  have hplain : ∀ s ∈ scols, s.isNullable = false := fun s hs => by
    obtain ⟨c, -, hcs⟩ := exists_of_mem_right_of_forall₂ hstrs hs
    exact hcs.isNullable_eq
  -- the stripped arguments answer in their own block, as the function's run does
  have hA := answers_run hf cfg (hshaped.insertSlot e.name e.type.removeNullable)
    (Block.Forall₂.column_append hpos _)
    (by rw [hpos.length_eq, ← hstrs.length_eq, ← hargs.length_eq]; exact harity) hplain
    (show stripped.size < (stripped.insertSlot e.name e.type.removeNullable).1.size by
      simp [Block.insertSlot, Block.size])
  have htakes : f.takes (scols.map Column.dataType) = f.takes (cols.map Column.dataType) := by
    rw [Column.dataTypes_of_stripped hstrs, takes_removeNullable hf]
  have hadmits : ∀ r < rows, f.admits cfg (Column.cells scols r) =
      f.admits cfg (Column.cells cols r) := fun r hr => admits_stripped hf hstrs (hrow r hr)
  have hroom : f.addressable scols rows = f.addressable cols rows := by
    rw [addressable_of_stripsNulls hf, addressable_of_stripsNulls hf,
      outputBytes_stripped hf hstrs fun c hc => ⟨(hcols c hc).1, (hcols c hc).2.1⟩]
  have hreserve : f.reserves cfg scols rows = f.reserves cfg cols rows :=
    reserves_stripped hstrs fun c hc => ⟨(hcols c hc).1, (hcols c hc).2.1⟩
  refine ⟨fun hbad => ?_, fun hok hbig => ?_, fun hok hall hspace hstop => ?_,
    fun hok hall hspace hreserved => ?_⟩
  · obtain ⟨e', b', hrun', hkind⟩ := hA.refuses (htakes ▸ hbad)
    exact ⟨e', b, by simp [hrun, runAside_eq_error _ hrun', EStateM.run_bind], hkind⟩
  · obtain ⟨e', b', hrun', hkind⟩ := hA.overflows (htakes ▸ hok) (by
      rcases hbig with ⟨r, hr, hbad⟩ | hbad
      · exact .inl ⟨r, hr, hadmits r hr ▸ hbad⟩
      · exact .inr (hroom ▸ hbad))
    exact ⟨e', b, by simp [hrun, runAside_eq_error _ hrun', EStateM.run_bind], hkind⟩
  · obtain ⟨e', b', hrun', hkind⟩ := hA.stops (htakes ▸ hok)
      (fun r hr => (hadmits r hr).trans (hall r hr)) (hroom ▸ hspace) (hreserve ▸ hstop)
    exact ⟨e', b, by simp [hrun, runAside_eq_error _ hrun', EStateM.run_bind], hkind⟩
  · obtain ⟨b'', hrun'', col, hcol, hwf, hlen, ⟨t, ht, hdt⟩, hget⟩ :=
      hA.writes (htakes ▸ hok) (fun r hr => (hadmits r hr).trans (hall r hr)) (hroom ▸ hspace)
        (hreserve ▸ hreserved)
    -- what the function wrote has no null map: its type is the declared one, plain
    have hany : scols.any Column.isNullable = false :=
      List.any_eq_false.mpr fun s hs => by simp [hplain s hs]
    rw [hany, Bool.and_false] at hdt
    have hcoln : col.isNullable = false := by
      rw [Column.isNullable_eq_dataType, hdt, if_neg (by simp), returnType_isNullable hf ht]
    have hnlen : (cols.foldl (fun m c => m.mergeOpt c.unwrapNullable.2)
        (NullMap.allValid rows)).length = col.length := by
      rw [length_merged, NullMap.length_allValid, hlen]
    obtain ⟨hwwf, hwlen, hwdt, hwget⟩ := wrapResult_spec hwf hcoln hnlen
    obtain ⟨b', hset, -⟩ := hb.setColumn hresult hwwf (hwlen.trans hlen)
    have haside := runAside_eq_ok (some (.resultNotWritten f.name)) hrun'' hcol
    refine ⟨b', ?_, _, Block.column_setColumn_self hset, hwwf, hwlen.trans hlen,
      ⟨t, ?_, ?_⟩, fun r hr => ?_⟩
    · simp [hrun, haside, wrapResult_eq cfg.debugChecks hwf hcoln, EStateM.run_bind,
        BlockM.run_setColumn_eq_ok.mpr hset]
    · rw [← returnType_removeNullable hf, ← Column.dataTypes_of_stripped hstrs]
      exact ht
    · rw [hwdt, hdt, if_neg (by simp)]
      simp [hf, hn]
    · -- a row is NULL where some argument is, and the function's value elsewhere
      rw [hwget r (by rw [hlen]; exact hr), isNull_merged hr hcols, hget r hr]
      cases hnr : cols.any fun c => c.isNullAt r
      · rw [if_neg (by simp), ← rowValue_stripped hstrs (hrow r hr) hnr, rowValue,
          Column.cells_contains_null fun s hs => ?_]
        · simp
        · obtain ⟨c, hc, hcs⟩ := exists_of_mem_right_of_forall₂ hstrs hs
          exact ⟨hcs.wellFormed, hcs.isNullable_eq, by rw [hcs.length_eq]; exact (hrow r hr c hc).2⟩
      · rw [if_pos rfl, rowValue, if_pos (by rw [hf, Column.contains_null_cells (hrow r hr), hnr]; rfl)]

/-- A function that lets the dispatcher handle NULLs answers, through the dispatcher's NULL
policy, with its row semantics over every shaped block: NULL at a row where an argument is
NULL, and a row with a NULL never overflows. -/
theorem answers_executeWithNulls_of_stripsNulls (hf : f.stripsNulls) (cfg : Config)
    (hb : b.Shaped rows)
    (hargs : List.Forall₂ (fun pos c => b.column pos = .ok c) args cols)
    (harity : f.arity.accepts args.length) (hresult : result < b.size) :
    f.Answers cfg cols rows result (f.addressable cols rows) (f.reserves cfg cols rows)
      (f.executeWithNulls cfg args result rows) b := by
  cases hcn : cols.any Column.isConstNull
  · cases hn : cols.any Column.isNullable
    · exact answers_of_plain hf cfg hb hargs harity hresult hn
    · exact answers_of_nullable hf cfg hb hargs harity hresult hcn hn
  · exact answers_of_constNull hf cfg hb hargs hresult hcn

/-- Through the dispatcher's NULL policy, a function that lets it handle NULLs is NULL at
exactly the rows where an argument is NULL and its plain row value elsewhere, its result is
nullable exactly when an argument is, and it fails with an overflow exactly when it takes the
arguments' types and some row without a NULL does not fit, or the bytes of the rows without a
NULL add up past `usizeMax`: what is stored under a NULL flag never matters. -/
theorem executeWithNulls_null_rows (hf : f.stripsNulls) (cfg : Config) (hb : b.Shaped rows)
    (hargs : List.Forall₂ (fun pos c => b.column pos = .ok c) args cols)
    (harity : f.arity.accepts args.length) (hresult : result < b.size) :
    (∀ b', (f.executeWithNulls cfg args result rows).run b = .ok () b' →
      ∃ col, b'.column result = .ok col ∧ col.length = rows ∧
        col.isNullable = cols.any Column.isNullable ∧
        ∀ r < rows, col.get r = .ok (if (Column.cells cols r).contains .null then .null
          else f.plainRow (Column.cells cols r))) ∧
    ((∃ e b', (f.executeWithNulls cfg args result rows).run b = .error e b' ∧
        e.kind = .overflow) ↔
      f.takes (cols.map Column.dataType) ∧ ((∃ r < rows,
        (Column.cells cols r).contains .null = false ∧ f.fits cfg (Column.cells cols r) = false) ∨
        usizeMax < f.outputBytes cols rows)) := by
  have ha := answers_executeWithNulls_of_stripsNulls hf cfg hb hargs harity hresult
  refine ⟨fun b' hrun => ?_, ?_⟩
  · obtain ⟨-, -, -, -, col, hcol, -, hlen, ⟨t, ht, hdt⟩, hget⟩ := ha.of_run_ok hrun
    refine ⟨col, hcol, hlen, ?_, fun r hr => ?_⟩
    · -- the declared type has no overlay, so the result has one exactly when made nullable
      rw [Column.isNullable_eq_dataType, hdt, hf, Bool.true_and]
      cases cols.any Column.isNullable
      · simpa using returnType_isNullable hf ht
      · simp
    · rw [hget r hr, rowValue, hf, Bool.true_and]
  · rw [ha.overflow_iff, addressable_of_stripsNulls hf, decide_eq_false_iff_not, Nat.not_le]
    simp only [admits, hf, Bool.true_and, Bool.or_eq_false_iff]

/-- `repeat` over a string column that is NULL at its second row, with counts whose second is
far past the limit: the call is read row by row as the theorem says. -/
theorem executeWithNulls_null_rows_repeat :
    let b : Block := ⟨[⟨"s", .nullable .string,
        some (.nullable (.string ⟨[[97, 98], [120]]⟩) (NullMap.ofFlags [false, true]))⟩,
      ⟨"n", .int32, some (.int32 [3, 2147483647])⟩, ⟨"r", .string, none⟩]⟩
    let cols := [Column.nullable (.string ⟨[[97, 98], [120]]⟩) (NullMap.ofFlags [false, true]),
      .int32 [3, 2147483647]]
    b.Shaped 2 ∧ List.Forall₂ (fun pos c => b.column pos = .ok c) [0, 1] cols ∧
      (∀ b', (Builtin.repeat.executeWithNulls {} [0, 1] 2 2).run b = .ok () b' →
        ∃ col, b'.column 2 = .ok col ∧ col.length = 2 ∧
          col.isNullable = cols.any Column.isNullable ∧
          ∀ r < 2, col.get r = .ok (if (Column.cells cols r).contains .null then .null
            else Builtin.repeat.plainRow (Column.cells cols r))) ∧
      ((∃ e b', (Builtin.repeat.executeWithNulls {} [0, 1] 2 2).run b = .error e b' ∧
          e.kind = .overflow) ↔
        Builtin.repeat.takes (cols.map Column.dataType) ∧ ((∃ r < 2,
          (Column.cells cols r).contains .null = false ∧
            Builtin.repeat.fits {} (Column.cells cols r) = false) ∨
          usizeMax < Builtin.repeat.outputBytes cols 2)) := by
  intro b cols
  have hb : b.Shaped 2 := by
    unfold Block.Shaped
    decide
  have hargs : List.Forall₂ (fun pos c => b.column pos = .ok c) [0, 1] cols :=
    .cons rfl (.cons rfl .nil)
  exact ⟨hb, hargs, executeWithNulls_null_rows rfl {} hb hargs (by decide) (by decide)⟩

end Builtin

end TextBatch

import Mathlib.Algebra.BigOperators.Ring.List
import Mathlib.Algebra.Ring.Nat
import TextBatch.Proofs.RowSemantics

/-! # Folding constant arguments

When every argument is a constant, the dispatcher runs the function once, on a block of the
constants' one-row values, and spreads the value it wrote over the call's rows. The folded call
answers by the same row semantics as the call with folding off
(`Builtin.answers_execute_of_const`, `Builtin.answers_unfolded`), so when both succeed they write
columns of one type that read alike at every row, the folded one a constant of a plain or
nullable value.

The two need not succeed together. The sizes the folded call adds up are those of one row, where
the call with folding off adds up every row; a constant of `n` rows holds its value's bytes `n`
times once spelled out (`Column.payload_const`, `Builtin.outputBytes_const`). On at least one row
the call with folding off therefore succeeds exactly when the folded call does and its own sizes
are machine-sized counts, and fails with an overflow where only those sizes are too large
(`Builtin.folding_agrees_with_unfolded`). On zero rows the folded call still evaluates the
constants' one row, which can overflow where the call with folding off has no row to evaluate
(`Builtin.folding_overflows_at_zero_rows`).
-/

namespace TextBatch

namespace StringColumn

theorem totalLength_replicate (n : Nat) (x : Bytes) :
    totalLength (List.replicate n x) = n * x.length := by
  induction n with
  | zero => simp [totalLength]
  | succ n ih => rw [List.replicate_succ, totalLength, ih, Nat.succ_mul, Nat.add_comm]

/-- Copies of the one row of a column hold that row's bytes once per copy. -/
theorem payloadBytes_replicateRow {s : StringColumn} (h : s.length = 1) (n : Nat) :
    (s.replicateRow 0 n).payloadBytes = n * s.payloadBytes := by
  obtain ⟨x, hx⟩ := List.length_eq_one_iff.mp h
  simp [replicateRow, payloadBytes, value, hx, totalLength_replicate, totalLength]

end StringColumn

namespace Column

/-- A constant of `n` rows, spelled out, holds its value's bytes once a row. -/
theorem payload_const {v : Column} {n : Nat} (hwf : (const v n).wellFormed) :
    (const v n).payload = n * v.payload := by
  obtain ⟨hvwf, hlen, hnc⟩ := wellFormed_const.mp hwf
  cases v with
  | string s =>
      simp [payload, toFull, replicate, unwrapNullable,
        StringColumn.payloadBytes_replicateRow (show s.length = 1 from hlen)]
  | nullable nested nulls =>
      obtain ⟨-, hplain, -⟩ := wellFormed_nullable.mp hvwf
      cases nested with
      | string s =>
          simp [payload, toFull, replicate, unwrapNullable,
            StringColumn.payloadBytes_replicateRow (show s.length = 1 from hlen)]
      | nullable => simp [isPlain] at hplain
      | const => simp [isPlain] at hplain
      | _ => simp [payload, toFull, replicate, unwrapNullable]
  | const => simp [isConst] at hnc
  | _ => simp [payload, toFull, replicate, unwrapNullable]

end Column

namespace Dispatch

/-- The one row of the constants' copies is each of their rows. -/
theorem cells_firstRow {cols : List Column} {r : Nat}
    (h : ∀ c ∈ cols, c.isConst ∧ r < c.length) :
    Column.cells (cols.map firstRow) 0 = Column.cells cols r := by
  simp only [Column.cells, List.map_map]
  refine List.map_congr_left fun c hc => ?_
  simp only [Function.comp, Column.cell, get_firstRow_of_isConst (h c hc).1 (h c hc).2]

end Dispatch

namespace Builtin

open Dispatch

/-- Over constants every row is the one row of their copies, so the running total over `n` rows
is `n` times the total over the copies. -/
theorem outputBytes_const (f : Builtin) {cols : List Column} {n : Nat}
    (h : ∀ c ∈ cols, c.isConst ∧ c.length = n) :
    f.outputBytes cols n = n * f.outputBytes (cols.map firstRow) 1 := by
  have hrow : ∀ r ∈ List.range n,
      (if f.stripsNulls && (Column.cells cols r).contains .null then 0
        else f.rowBytes (Column.cells cols r)) =
      if f.stripsNulls && (Column.cells (cols.map firstRow) 0).contains .null then 0
        else f.rowBytes (Column.cells (cols.map firstRow) 0) := fun r hr => by
    rw [cells_firstRow fun c hc => ⟨(h c hc).1, (h c hc).2 ▸ List.mem_range.mp hr⟩]
  unfold outputBytes
  rw [List.map_congr_left hrow, List.map_const', List.sum_replicate_nat, List.length_range]
  simp

/-- The constants' one-row copies reserve their row exactly when every row of the constants is
reserved: every row is the same row. -/
theorem reserves_firstRow (f : Builtin) (cfg : Config) {cols : List Column} {n : Nat}
    (hn : 0 < n) (h : ∀ c ∈ cols, c.isConst ∧ c.length = n) :
    f.reserves cfg (cols.map firstRow) 1 = f.reserves cfg cols n := by
  have hcells : ∀ r < n, Column.cells (cols.map firstRow) 0 = Column.cells cols r :=
    fun r hr => cells_firstRow fun c hc => ⟨(h c hc).1, (h c hc).2 ▸ hr⟩
  have hall : ((List.range 1).all fun r => (Column.cells (cols.map firstRow) r).contains .null ||
        decide (f.rowBytes (Column.cells (cols.map firstRow) r) < usizeMax)) =
      (List.range n).all fun r => (Column.cells cols r).contains .null ||
        decide (f.rowBytes (Column.cells cols r) < usizeMax) := by
    rw [Bool.eq_iff_iff, List.all_eq_true, List.all_eq_true]
    constructor
    · intro h₀ r hr
      rw [← hcells r (List.mem_range.mp hr)]
      exact h₀ 0 (List.mem_range.mpr Nat.zero_lt_one)
    · intro hrows r hr
      obtain rfl : r = 0 := by simpa using hr
      rw [hcells 0 hn]
      exact hrows 0 (List.mem_range.mpr hn)
  cases f <;> simp only [reserves, hall]

/-- Sizes that have room over the constants' rows have room over their one-row copies: the
constants hold each copy's bytes once a row. -/
theorem addressable_firstRow (f : Builtin) {cols : List Column} {n : Nat} (hn : 0 < n)
    (h : ∀ c ∈ cols, c.wellFormed ∧ c.isConst ∧ c.length = n) (hroom : f.addressable cols n) :
    f.addressable (cols.map firstRow) 1 := by
  have hpay : ∀ c ∈ cols, c.payload = n * (firstRow c).payload := by
    intro c hc
    obtain ⟨hwf, hconst, hlen⟩ := h c hc
    cases c with
    | const v len =>
        cases hlen
        exact Column.payload_const hwf
    | _ => simp [Column.isConst] at hconst
  have hsum : ∀ cs : List Column, (∀ c ∈ cs, c ∈ cols) →
      (cs.map Column.payload).sum = n * ((cs.map firstRow).map Column.payload).sum := by
    intro cs hcs
    rw [List.map_map, ← List.sum_map_mul_left (r := n)]
    exact congrArg List.sum (List.map_congr_left fun c hc => hpay c (hcs c hc))
  have hle : ∀ x : Nat, x ≤ n * x := fun x => Nat.le_mul_of_pos_left x hn
  have hout := f.outputBytes_const fun c hc => ⟨(h c hc).2.1, (h c hc).2.2⟩
  -- each size over the copies is at most `n` times itself, the size over the constants
  cases f
  case «repeat» | space =>
    simp only [addressable, decide_eq_true_eq] at hroom ⊢
    rw [hout] at hroom
    exact (hle _).trans hroom
  case concat =>
    rcases cols with _ | ⟨c, _ | ⟨d, cs⟩⟩
    · exact hroom
    · rfl
    · simp only [addressable, decide_eq_true_eq] at hroom
      rw [hsum _ fun c hc => hc] at hroom
      show decide ((((c :: d :: cs).map firstRow).map Column.payload).sum ≤ usizeMax) = true
      exact decide_eq_true ((hle _).trans hroom)
  case concatWs =>
    rcases cols with _ | ⟨sep, values⟩
    · rfl
    · simp only [addressable, decide_eq_true_eq, List.map_cons, List.length_map] at hroom ⊢
      rw [hsum values (fun c hc => List.mem_cons_of_mem sep hc), hpay sep List.mem_cons_self,
        Nat.mul_assoc, ← Nat.mul_add] at hroom
      exact (hle _).trans hroom
  all_goals rfl

variable {f : Builtin} {cfg : Config} {b : Block} {args : List Nat} {cols : List Column}
  {n result : Nat} {room reserve : Bool}

/-- The result check after a call that answers passes whenever the call succeeds. -/
theorem Answers.then_checkResult {m : BlockM Unit}
    (ha : f.Answers cfg cols n result room reserve m b) :
    f.Answers cfg cols n result room reserve (m >>= fun _ => f.checkResult result n) b := by
  refine ⟨fun hbad => ?_, fun hok hrow => ?_, fun hok hall hroom hres => ?_,
    fun hok hall hroom hres => ?_⟩
  · obtain ⟨e, b', h, hkind⟩ := ha.refuses hbad
    exact ⟨e, b', by rw [EStateM.run_bind, h], hkind⟩
  · obtain ⟨e, b', h, hkind⟩ := ha.overflows hok hrow
    exact ⟨e, b', by rw [EStateM.run_bind, h], hkind⟩
  · obtain ⟨e, b', h, hkind⟩ := ha.stops hok hall hroom hres
    exact ⟨e, b', by rw [EStateM.run_bind, h], hkind⟩
  · obtain ⟨b', h, col, hcol, hwf, hlen, htype, hget⟩ := ha.writes hok hall hroom hres
    exact ⟨b', by rw [EStateM.run_bind, h]; exact run_checkResult f hcol hlen, col, hcol, hwf,
      hlen, htype, hget⟩

theorem any_isNullable_firstRow (h : ∀ c ∈ cols, c.isConst) :
    (cols.map firstRow).any Column.isNullable = cols.any Column.isNullable := by
  induction cols with
  | nil => rfl
  | cons c cs ih =>
      rw [List.map_cons, List.any_cons, List.any_cons, isNullable_firstRow (h c List.mem_cons_self),
        ih fun d hd => h d (List.mem_cons_of_mem c hd)]

/-- Over constant arguments, a folded call answers by the row semantics, since the one row it
evaluates is every row, with the room and reserve of that one row; what it writes is a constant
whose value is not itself a constant. This needs a row to read the one row from, or a function
that admits every row: at zero rows the one row is evaluated all the same. -/
theorem answers_executeFolded (f : Builtin) (cfg : Config) (hb : b.Shaped n)
    (hn : 0 < n ∨ ∀ cells, f.admits cfg cells)
    (hargs : List.Forall₂ (fun pos c => b.column pos = .ok c) args cols)
    (hconst : ∀ c ∈ cols, c.isConst) (harity : f.arity.accepts args.length)
    (hresult : result < b.size) :
    f.Answers cfg cols n result (f.addressable (cols.map firstRow) 1)
        (f.reserves cfg (cols.map firstRow) 1) (f.executeFolded cfg args result n) b ∧
      ∀ b₁, (f.executeFolded cfg args result n).run b = .ok () b₁ →
        ∃ v, b₁.column result = .ok (.const v n) ∧ v.isConst = false := by
  obtain ⟨folded, positions, hfold, hfs, hpos⟩ :=
    foldArguments_eq hb hargs (Block.shaped_empty 1) .nil
  simp only [List.nil_append] at hpos
  obtain ⟨e, he⟩ := Block.exists_entry_of_lt hresult
  -- the function runs over one row of the copies, beside a fresh slot
  have hA := answers_executeWithNulls f cfg (hfs.insertSlot e.name e.type)
    (Block.Forall₂.column_append hpos _)
    (by rw [hpos.length_eq, List.length_map, ← hargs.length_eq]; exact harity)
    (show folded.size < (folded.insertSlot e.name e.type).1.size by
      simp [Block.insertSlot, Block.size])
  have hfail : ∀ err b', (f.executeWithNulls cfg positions folded.size 1).run
      (folded.insertSlot e.name e.type).1 = .error err b' →
      (f.executeFolded cfg args result n).run b = .error err b := fun err _ hrun =>
    run_executeFolded_of_error hfold he (runAside_eq_error none hrun)
  have hcells : ∀ r < n, Column.cells (cols.map firstRow) 0 = Column.cells cols r :=
    fun r hr => cells_firstRow fun c hc =>
      ⟨hconst c hc, by rw [(hb.columns_of_forall₂ hargs c hc).2]; exact hr⟩
  have htypes : (cols.map firstRow).map Column.dataType = cols.map Column.dataType := by
    simp [List.map_map, Function.comp_def, dataType_firstRow]
  have hone : (∀ r < n, f.admits cfg (Column.cells cols r)) →
      ∀ r < 1, f.admits cfg (Column.cells (cols.map firstRow) r) := fun hall r hr => by
    obtain rfl : r = 0 := by omega
    rcases hn with hn | hadmits
    · rw [hcells 0 hn]
      exact hall 0 hn
    · exact hadmits _
  have hwrites : f.takes (cols.map Column.dataType) →
      (∀ r < n, f.admits cfg (Column.cells cols r)) → f.addressable (cols.map firstRow) 1 →
      f.reserves cfg (cols.map firstRow) 1 →
      ∃ b₁ v, (f.executeFolded cfg args result n).run b = .ok () b₁ ∧
        b₁.column result = .ok (.const v n) ∧ v.isConst = false ∧
        (Column.const v n).wellFormed ∧
        (∃ t, f.returnType (cols.map Column.dataType) = .ok t ∧ (Column.const v n).dataType =
          if f.stripsNulls && cols.any Column.isNullable then t.makeNullable else t) ∧
        ∀ r < n, (Column.const v n).get r = .ok (f.rowValue (Column.cells cols r)) := by
    intro hok hall hroom hres
    obtain ⟨b', hrun, value, hval, hwf, hlen, ⟨t, ht, hdt⟩, hget⟩ :=
      hA.writes (htypes ▸ hok) (hone hall) hroom hres
    obtain ⟨v, hv, hvc, hvwf⟩ := Column.constant?_eq_const hwf hlen n
    obtain ⟨c, hc, hclen, hcdt, hcget⟩ := Column.constant?_eq_ok hlen n
    rw [hv] at hc
    cases hc
    obtain ⟨b₁, hset, -⟩ := hb.setColumn hresult hvwf hclen
    refine ⟨b₁, v, run_executeFolded hfold he (runAside_eq_ok none hrun hval) hv hset,
      Block.column_setColumn_self hset, hvc, hvwf,
      ⟨t, htypes ▸ ht, by rw [hcdt, hdt, any_isNullable_firstRow hconst]⟩, fun r hr => ?_⟩
    rw [hcget r hr, hget 0 Nat.zero_lt_one, hcells r hr]
  have hans : f.Answers cfg cols n result (f.addressable (cols.map firstRow) 1)
      (f.reserves cfg (cols.map firstRow) 1) (f.executeFolded cfg args result n) b := by
    refine ⟨fun hbad => ?_, fun hok hrow => ?_, fun hok hall hroom hres => ?_,
      fun hok hall hroom hres => ?_⟩
    · obtain ⟨err, b', hrun, hkind⟩ := hA.refuses (by rw [htypes]; exact hbad)
      exact ⟨err, b, hfail err b' hrun, hkind⟩
    · -- a row that does not fit is the one row the folded call evaluates
      have hrow₁ : (∃ r < 1, f.admits cfg (Column.cells (cols.map firstRow) r) = false) ∨
          f.addressable (cols.map firstRow) 1 = false := by
        rcases hrow with ⟨r, hr, hbad⟩ | hroom
        · exact .inl ⟨0, Nat.zero_lt_one, by rw [hcells r hr]; exact hbad⟩
        · exact .inr hroom
      obtain ⟨err, b', hrun, hkind⟩ := hA.overflows (htypes ▸ hok) hrow₁
      exact ⟨err, b, hfail err b' hrun, hkind⟩
    · obtain ⟨err, b', hrun, hkind⟩ := hA.stops (htypes ▸ hok) (hone hall) hroom hres
      exact ⟨err, b, hfail err b' hrun, hkind⟩
    · obtain ⟨b₁, v, hrun, hcol, -, hwf, htype, hget⟩ := hwrites hok hall hroom hres
      exact ⟨b₁, hrun, _, hcol, hwf, rfl, htype, hget⟩
  refine ⟨hans, fun b₁ hrun => ?_⟩
  obtain ⟨hok, hall, hroom, hres, -⟩ := hans.of_run_ok hrun
  obtain ⟨b₁', v, hrun', hcol, hvc, -⟩ := hwrites hok hall hroom hres
  rw [hrun] at hrun'
  cases hrun'
  exact ⟨v, hcol, hvc⟩

/-- A call through the dispatcher with folding off answers as the NULL policy does, the result
check passing whenever the function wrote its rows. -/
theorem answers_unfolded (f : Builtin) (cfg : Config) (hb : b.Shaped n)
    (hargs : List.Forall₂ (fun pos c => b.column pos = .ok c) args cols)
    (harity : f.arity.accepts args.length) (hresult : result < b.size) :
    f.Answers cfg cols n result (f.addressable cols n) (f.reserves cfg cols n)
      (f.executeAs false cfg args result n) b := by
  have hlens : ∀ c ∈ cols, c.length = n := fun c hc => (hb.columns_of_forall₂ hargs c hc).2
  refine Answers.of_run_eq ?_
    (answers_executeWithNulls f cfg hb hargs harity hresult).then_checkResult
  rw [run_executeAs f false cfg result harity hargs hlens]
  rfl

/-- Whether the sizes a call through the dispatcher adds up are machine-sized counts: those of
the constants' one-row copies when the call folds, those of the arguments' rows otherwise. -/
def dispatchRoom (f : Builtin) (folds : Bool) (cols : List Column) (rows : Nat) : Bool :=
  if folds && (!cols.isEmpty && cols.all Column.isConst) then f.addressable (cols.map firstRow) 1
  else f.addressable cols rows

/-- Whether a call through the dispatcher can reserve every row it writes: the one row of the
constants' copies when the call folds, every row of the arguments otherwise. -/
def dispatchReserve (f : Builtin) (cfg : Config) (folds : Bool) (cols : List Column)
    (rows : Nat) : Bool :=
  if folds && (!cols.isEmpty && cols.all Column.isConst) then f.reserves cfg (cols.map firstRow) 1
  else f.reserves cfg cols rows

/-- Through the dispatcher, folding or not, a call answers by its row semantics, with the room
and reserve of the path it takes. A folded call reads the constants' one row, which every row
repeats, so it needs a row to read it from or a function that admits every row. -/
theorem answers_executeAs (f : Builtin) (folds : Bool) (cfg : Config) (hb : b.Shaped n)
    (hn : 0 < n ∨ ∀ cells, f.admits cfg cells)
    (hargs : List.Forall₂ (fun pos c => b.column pos = .ok c) args cols)
    (harity : f.arity.accepts args.length) (hresult : result < b.size) :
    f.Answers cfg cols n result (f.dispatchRoom folds cols n) (f.dispatchReserve cfg folds cols n)
      (f.executeAs folds cfg args result n) b := by
  have hlens : ∀ c ∈ cols, c.length = n := fun c hc => (hb.columns_of_forall₂ hargs c hc).2
  have hempty : args.isEmpty = cols.isEmpty := by
    cases hargs <;> rfl
  refine Answers.of_run_eq (run_executeAs f folds cfg result harity hargs hlens) ?_
  unfold dispatchRoom dispatchReserve
  rw [← hempty]
  by_cases hfold : (folds && (!args.isEmpty && cols.all Column.isConst)) = true
  · simp only [hfold, ↓reduceIte]
    simp only [Bool.and_eq_true, List.all_eq_true] at hfold
    exact (answers_executeFolded f cfg hb hn hargs hfold.2.2 harity hresult).1.then_checkResult
  · simp only [hfold, Bool.false_eq_true, ↓reduceIte]
    exact (answers_executeWithNulls f cfg hb hargs harity hresult).then_checkResult

/-- Over constant arguments and at least one row, a call through the dispatcher folds and
answers by the row semantics, with the room and reserve of the constants' one row, writing a
constant whose value is not itself a constant. -/
theorem answers_execute_of_const (f : Builtin) (cfg : Config) (hb : b.Shaped n) (hn : 0 < n)
    (hargs : List.Forall₂ (fun pos c => b.column pos = .ok c) args cols)
    (hconst : ∀ c ∈ cols, c.isConst) (harity : f.arity.accepts args.length)
    (hresult : result < b.size) :
    f.Answers cfg cols n result (f.addressable (cols.map firstRow) 1)
        (f.reserves cfg (cols.map firstRow) 1) (f.execute cfg args result n) b ∧
      ∀ b₁, (f.execute cfg args result n).run b = .ok () b₁ →
        ∃ v, b₁.column result = .ok (.const v n) ∧ v.isConst = false := by
  have hlens : ∀ c ∈ cols, c.length = n := fun c hc => (hb.columns_of_forall₂ hargs c hc).2
  have hfolds : (true && (!args.isEmpty && cols.all Column.isConst)) = true := by
    simp [ne_nil_of_accepts harity, List.all_eq_true.mpr hconst]
  have hrun : (f.execute cfg args result n).run b =
      (f.executeFolded cfg args result n >>= fun _ => f.checkResult result n).run b := by
    show (f.executeAs true cfg args result n).run b = _
    rw [run_executeAs f true cfg result harity hargs hlens, if_pos hfolds]
  obtain ⟨hA, hconstant⟩ := answers_executeFolded f cfg hb (.inl hn) hargs hconst harity hresult
  refine ⟨Answers.of_run_eq hrun hA.then_checkResult, fun b₁ h => ?_⟩
  -- the result check leaves the block the folded call wrote
  rw [hrun] at h
  obtain ⟨_, b₀, h₀, hcheck⟩ := BlockM.run_bind_eq_ok.mp h
  obtain ⟨v, hcol, hvc⟩ := hconstant b₀ h₀
  rw [run_checkResult f hcol (show (Column.const v n).length = n from rfl)] at hcheck
  cases hcheck
  exact ⟨v, hcol, hvc⟩

/-- Folding constant arguments on at least one row: over a block whose argument columns are all
constants, the call with folding off succeeds exactly when the call through the dispatcher,
which folds, succeeds and the sizes of the call's rows are machine-sized counts; when only those
sizes are too large, the folded call succeeds and the call with folding off fails with an
overflow. When both succeed they write columns of one type and `n` rows that read alike at
every row, the folded one a constant whose value is not itself a constant. -/
theorem folding_agrees_with_unfolded (f : Builtin) (cfg : Config) (hb : b.Shaped n)
    (hn : 0 < n) (hargs : List.Forall₂ (fun pos c => b.column pos = .ok c) args cols)
    (hconst : ∀ c ∈ cols, c.isConst) (hresult : result < b.size) :
    ((∃ b₂, (f.executeAs false cfg args result n).run b = .ok () b₂) ↔
      (∃ b₁, (f.execute cfg args result n).run b = .ok () b₁) ∧ f.addressable cols n) ∧
    (∀ b₁, (f.execute cfg args result n).run b = .ok () b₁ → f.addressable cols n = false →
      ∃ e b₂, (f.executeAs false cfg args result n).run b = .error e b₂ ∧
        e.kind = .overflow) ∧
    ∀ b₁ b₂, (f.execute cfg args result n).run b = .ok () b₁ →
      (f.executeAs false cfg args result n).run b = .ok () b₂ →
      ∃ c₁ c₂, b₁.column result = .ok c₁ ∧ b₂.column result = .ok c₂ ∧
        c₁.dataType = c₂.dataType ∧ c₁.length = n ∧ c₂.length = n ∧
        (∀ r < n, c₁.get r = c₂.get r) ∧
        ∃ v, c₁ = .const v n ∧ v.isConst = false := by
  cases harity : f.arity.accepts args.length
  · -- both calls refuse the argument count before anything else
    have h₁ : (f.execute cfg args result n).run b = .error _ b :=
      run_executeAs_of_not_accepts true harity
    have h₂ : (f.executeAs false cfg args result n).run b = .error _ b :=
      run_executeAs_of_not_accepts false harity
    refine ⟨⟨fun ⟨_, h⟩ => ?_, fun ⟨⟨_, h⟩, _⟩ => ?_⟩, fun _ h _ => ?_, fun _ _ h _ => ?_⟩
    all_goals first
      | (rw [h₁] at h; cases h)
      | (rw [h₂] at h; cases h)
  · have hcols : ∀ c ∈ cols, c.wellFormed ∧ c.isConst ∧ c.length = n := fun c hc =>
      ⟨(hb.columns_of_forall₂ hargs c hc).1, hconst c hc, (hb.columns_of_forall₂ hargs c hc).2⟩
    obtain ⟨hA₁, hconstant⟩ :=
      answers_execute_of_const f cfg hb hn hargs hconst harity hresult
    have hA₂ := answers_unfolded f cfg hb hargs harity hresult
    -- the constants' rows all reserve as their one row does
    have hreserve := reserves_firstRow f cfg hn fun c hc => ⟨hconst c hc, (hcols c hc).2.2⟩
    refine ⟨⟨fun hok₂ => ?_, fun ⟨hok₁, hroom⟩ => ?_⟩, fun b₁ h₁ hroom => ?_,
      fun b₁ b₂ h₁ h₂ => ?_⟩
    · obtain ⟨htakes, hall, hroom, hres⟩ := hA₂.succeeds_iff.mp hok₂
      exact ⟨hA₁.succeeds_iff.mpr ⟨htakes, hall, addressable_firstRow f hn hcols hroom,
        hreserve.trans hres⟩, hroom⟩
    · obtain ⟨htakes, hall, -, hres⟩ := hA₁.succeeds_iff.mp hok₁
      exact hA₂.succeeds_iff.mpr ⟨htakes, hall, hroom, hreserve.symm.trans hres⟩
    · obtain ⟨htakes, -, -, -⟩ := hA₁.succeeds_iff.mp ⟨b₁, h₁⟩
      exact hA₂.overflows htakes (.inr hroom)
    · obtain ⟨c₁, c₂, hc₁, hc₂, hdt, hl₁, hl₂, hget⟩ := hA₁.agree hA₂ b₁ b₂ h₁ h₂
      obtain ⟨v, hv, hvc⟩ := hconstant b₁ h₁
      have hc : c₁ = .const v n := by
        rw [hc₁] at hv
        cases hv
        rfl
      exact ⟨c₁, c₂, hc₁, hc₂, hdt, hl₁, hl₂, hget, v, hc, hvc⟩

theorem folding_agrees_with_unfolded_repeat :
    let b : Block := ⟨[⟨"s", .string, some (.const (.string ⟨[[97, 98]]⟩) 2)⟩,
      ⟨"n", .int32, some (.const (.int32 [3]) 2)⟩, ⟨"r", .string, none⟩]⟩
    let cols := [Column.const (.string ⟨[[97, 98]]⟩) 2, .const (.int32 [3]) 2]
    b.Shaped 2 ∧ List.Forall₂ (fun pos c => b.column pos = .ok c) [0, 1] cols ∧
      (∀ c ∈ cols, c.isConst) ∧
      ((∃ b₂, (Builtin.repeat.executeAs false {} [0, 1] 2 2).run b = .ok () b₂) ↔
        (∃ b₁, (Builtin.repeat.execute {} [0, 1] 2 2).run b = .ok () b₁) ∧
          Builtin.repeat.addressable cols 2) ∧
      (∀ b₁, (Builtin.repeat.execute {} [0, 1] 2 2).run b = .ok () b₁ →
        Builtin.repeat.addressable cols 2 = false →
        ∃ e b₂, (Builtin.repeat.executeAs false {} [0, 1] 2 2).run b = .error e b₂ ∧
          e.kind = .overflow) ∧
      ∀ b₁ b₂, (Builtin.repeat.execute {} [0, 1] 2 2).run b = .ok () b₁ →
        (Builtin.repeat.executeAs false {} [0, 1] 2 2).run b = .ok () b₂ →
        ∃ c₁ c₂, b₁.column 2 = .ok c₁ ∧ b₂.column 2 = .ok c₂ ∧
          c₁.dataType = c₂.dataType ∧ c₁.length = 2 ∧ c₂.length = 2 ∧
          (∀ r < 2, c₁.get r = c₂.get r) ∧
          ∃ v, c₁ = .const v 2 ∧ v.isConst = false := by
  intro b cols
  have hb : b.Shaped 2 := by
    unfold Block.Shaped
    decide
  have hargs : List.Forall₂ (fun pos c => b.column pos = .ok c) [0, 1] cols :=
    .cons rfl (.cons rfl .nil)
  have hconst : ∀ c ∈ cols, c.isConst := by decide
  exact ⟨hb, hargs, hconst,
    folding_agrees_with_unfolded .repeat {} hb (by decide) hargs hconst (by decide)⟩

/-- At zero rows a call over constants still evaluates their one row, so a row that does not
fit fails the call with an overflow, where the call with folding off writes an empty column. -/
theorem folding_overflows_at_zero_rows :
    let b : Block := ⟨[⟨"c0", .string, some (.const (.string ⟨[[97, 98]]⟩) 0)⟩,
      ⟨"c1", .int32, some (.const (.int32 [2147483647]) 0)⟩, ⟨"result", .string, none⟩]⟩
    (∃ e b', (Builtin.repeat.execute {} [0, 1] 2 0).run b = .error e b' ∧
      e.kind = .overflow) ∧
    ∃ b' c, (Builtin.repeat.executeAs false {} [0, 1] 2 0).run b = .ok () b' ∧
      b'.column 2 = .ok c ∧ c.length = 0 := by
  intro b
  exact ⟨⟨_, _, rfl, rfl⟩, _, _, rfl, rfl, rfl⟩

end Builtin

end TextBatch

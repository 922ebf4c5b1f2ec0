import Mathlib.Logic.Relation
import TextBatch.Proofs.Frame

/-! # A block stays consistent over any run

A block changes in three ways only: a checked insert appends a column, a result slot is
appended, and a checked write fills or replaces the column at a position (`Block.Step`). The
checks compare a new column with the first filled entry other than the one it replaces, so on
a block whose filled entries agree on their rows they admit exactly the columns of those rows,
or any column when the one replaced was the only filled entry. Each step therefore keeps the
block `Consistent`, and appends entries or rewrites one in place, never removing or reordering
any.

A call of a built-in function, through the dispatcher or by name through a registry, changes
its block by such steps alone, whether it succeeds or fails (`Builtin.moves_execute`): its
helper columns go in by checked inserts and its result by a checked write. So a program that
inserts, reserves slots, writes and calls functions in any order keeps every filled entry of
one row count, which is the block's, and of the entry's type; and every position keeps naming
the entry it named (`Block.consistent_along_every_run`).
-/

namespace TextBatch

namespace Block

/-- One change the library makes to a block: a checked insert, a new result slot, or a checked
write. -/
inductive Step : Block → Block → Prop where
  | insert {b b' : Block} {name : String} {c : Column} {pos : Nat} :
      b.insert name c = .ok (b', pos) → Step b b'
  | insertSlot (b : Block) (name : String) (t : DataType) : Step b (b.insertSlot name t).1
  | setColumn {b b' : Block} {pos : Nat} {c : Column} : b.setColumn pos c = .ok b' → Step b b'

/-- The entries of a block agree: every filled entry holds a column of one common row count,
of the entry's type. -/
def Consistent (b : Block) : Prop :=
  ∃ n, ∀ e ∈ b.entries, ∀ c ∈ e.column, e.type = c.dataType ∧ c.length = n

theorem consistent_empty : empty.Consistent := ⟨0, by simp [empty]⟩

/-- The scan for a row count passes over an entry only when it is unfilled or skipped. -/
theorem column_eq_none_of_firstRows {skip : Option Nat} :
    ∀ {i j : Nat} {es : List Entry} {e : Entry}, firstRows skip i es = none →
      es[j]? = some e → skip ≠ some (i + j) → e.column = none := by
  intro i j es e h he hskip
  induction es generalizing i j with
  | nil => cases he
  | cons e' es ih =>
      unfold firstRows at h
      -- the scan goes on past `e'` exactly when `e'` is unfilled or skipped
      have hrest : firstRows skip (i + 1) es = none := by
        split at h
        · split at h
          · exact h
          · cases h
        · exact h
      cases j with
      | zero =>
          simp only [List.getElem?_cons_zero, Option.some.injEq] at he
          subst he
          split at h
          · split at h
            · next hs => exact absurd hs (by simpa using hskip)
            · cases h
          · next hcol => exact hcol
      | succ j =>
          exact ih hrest (by simpa using he) (by rwa [Nat.add_right_comm, Nat.add_assoc])

/-- A column that passes the row check against a consistent block has the rows of every
filled entry other than the skipped one. -/
theorem Consistent.length_of_checkRows {b : Block} (hb : b.Consistent) {skip : Option Nat}
    {c : Column} (hcheck : b.checkRows skip c = .ok ()) {j : Nat} {e : Entry}
    (he : b.entries[j]? = some e) (hskip : skip ≠ some j) : ∀ d ∈ e.column, d.length = c.length := by
  obtain ⟨n, hn⟩ := hb
  intro d hd
  unfold checkRows at hcheck
  split at hcheck
  · next m hm =>
      -- the scan found a filled entry of `m` rows, which is the common count
      have hmc : m = c.length := by
        split at hcheck
        · assumption
        · cases hcheck
      obtain ⟨e', he', d', hd', hlen⟩ := exists_of_firstRows hm
      rw [(hn e (List.mem_of_getElem? he) d hd).2, ← hmc, ← hlen,
        (hn e' he' d' hd').2]
  · next hm =>
      rw [column_eq_none_of_firstRows hm he (by simpa using hskip)] at hd
      cases hd

theorem Consistent.type_eq {b : Block} (hb : b.Consistent) :
    ∀ e ∈ b.entries, ∀ c ∈ e.column, e.type = c.dataType := by
  obtain ⟨n, hn⟩ := hb
  exact fun e he c hc => (hn e he c hc).1

theorem Consistent.insert {b b' : Block} {name : String} {c : Column} {pos : Nat}
    (hb : b.Consistent) (h : b.insert name c = .ok (b', pos)) : b'.Consistent := by
  have hcheck : b.checkRows none c = .ok () := by
    unfold Block.insert at h
    split at h
    · assumption
    · cases h
  obtain ⟨rfl, -⟩ := insert_eq_ok h
  refine ⟨c.length, fun e he d hd => ?_⟩
  rcases List.mem_append.mp he with hold | hnew
  · obtain ⟨j, hj⟩ := List.mem_iff_getElem?.mp hold
    exact ⟨hb.type_eq e hold d hd, hb.length_of_checkRows hcheck hj (by simp) d hd⟩
  · rw [List.mem_singleton.mp hnew] at hd ⊢
    cases hd
    exact ⟨rfl, rfl⟩

theorem Consistent.insertSlot {b : Block} (hb : b.Consistent) (name : String) (t : DataType) :
    (b.insertSlot name t).1.Consistent := by
  obtain ⟨n, hn⟩ := hb
  refine ⟨n, fun e he d hd => ?_⟩
  rcases List.mem_append.mp he with hold | hnew
  · exact hn e hold d hd
  · rw [List.mem_singleton.mp hnew] at hd
    cases hd

theorem Consistent.setColumn {b b' : Block} {pos : Nat} {c : Column} (hb : b.Consistent)
    (h : b.setColumn pos c = .ok b') : b'.Consistent := by
  have hcheck : b.checkRows (some pos) c = .ok () := by
    unfold Block.setColumn at h
    split at h
    · cases h
    · split at h
      · assumption
      · cases h
  obtain ⟨e, he, hb'⟩ := entries_setColumn h
  refine ⟨c.length, fun e' he' d hd => ?_⟩
  obtain ⟨j, hj⟩ := List.mem_iff_getElem?.mp he'
  rw [hb', List.getElem?_set] at hj
  by_cases hjp : pos = j
  · -- the entry written now holds `c`
    subst hjp
    simp only [if_true, (List.getElem?_eq_some_iff.mp he).1, Option.some.injEq] at hj
    subst hj
    cases hd
    exact ⟨rfl, rfl⟩
  · simp only [hjp, if_false] at hj
    exact ⟨hb.type_eq e' (List.mem_of_getElem? hj) d hd,
      hb.length_of_checkRows hcheck hj (by simpa using hjp) d hd⟩

theorem Step.consistent {b b' : Block} (h : Step b b') (hb : b.Consistent) : b'.Consistent := by
  cases h with
  | insert hins => exact hb.insert hins
  | insertSlot name t => exact hb.insertSlot name t
  | setColumn hset => exact hb.setColumn hset

/-- A step appends entries or rewrites one in place: the names of the entries before it are
the first names after it. -/
theorem Step.names_prefix {b b' : Block} (h : Step b b') :
    b.entries.map Entry.name <+: b'.entries.map Entry.name := by
  cases h with
  | insert hins =>
      obtain ⟨rfl, -⟩ := insert_eq_ok hins
      simp
  | insertSlot name t => simp [Block.insertSlot]
  | setColumn hset => simp only [names_setColumn hset, List.prefix_refl]

theorem consistent_of_steps {b b' : Block} (h : Relation.ReflTransGen Step b b')
    (hb : b.Consistent) : b'.Consistent := by
  induction h with
  | refl => exact hb
  | tail _ hstep ih => exact hstep.consistent ih

theorem names_prefix_of_steps {b b' : Block} (h : Relation.ReflTransGen Step b b') :
    b.entries.map Entry.name <+: b'.entries.map Entry.name := by
  induction h with
  | refl => exact List.prefix_refl _
  | tail _ hstep ih => exact ih.trans hstep.names_prefix

/-- In a consistent block every filled entry has the block's rows. -/
theorem Consistent.length_eq_rows {b : Block} (hb : b.Consistent) :
    ∀ e ∈ b.entries, ∀ c ∈ e.column, c.length = b.rows := by
  obtain ⟨n, hn⟩ := hb
  intro e he c hc
  unfold rows
  cases hfirst : firstRows none 0 b.entries with
  | some m =>
      obtain ⟨e', he', d, hd, hlen⟩ := exists_of_firstRows hfirst
      rw [Option.getD_some, ← hlen, (hn e he c hc).2, (hn e' he' d hd).2]
  | none =>
      obtain ⟨j, hj⟩ := List.mem_iff_getElem?.mp he
      rw [column_eq_none_of_firstRows hfirst hj (by simp)] at hc
      cases hc

/-- A block with no filled entry has no rows. -/
theorem rows_of_unfilled {b : Block} (h : ∀ e ∈ b.entries, e.column = none) : b.rows = 0 := by
  unfold rows
  cases hfirst : firstRows none 0 b.entries with
  | some m =>
      obtain ⟨e, he, c, hc, -⟩ := exists_of_firstRows hfirst
      rw [h e he] at hc
      cases hc
  | none => rfl

/-- The row check refuses a column only for its row count. -/
theorem checkRows_error_kind {b : Block} {skip : Option Nat} {c : Column} {e : Error}
    (h : b.checkRows skip c = .error e) : e.kind = .schemaMismatch := by
  unfold checkRows at h
  split at h
  · split at h
    · cases h
    · cases h
      rfl
  · cases h

theorem checkRows_of_insert_error {b : Block} {name : String} {c : Column} {e : Error}
    (h : b.insert name c = .error e) : b.checkRows none c = .error e := by
  unfold Block.insert at h
  cases hcheck : b.checkRows none c with
  | ok u => simp [hcheck] at h
  | error err =>
      simp only [hcheck, Except.error.injEq] at h
      rw [h]

end Block

namespace BlockM

variable {α β : Type}

/-- The block a run of `m` from `b` ends with, whether it succeeds or fails. -/
def after (m : BlockM α) (b : Block) : Block :=
  match m.run b with
  | .ok _ b' => b'
  | .error _ b' => b'

/-- Every run of `m` changes its block by steps of the library alone. -/
def Moves (m : BlockM α) : Prop := ∀ b, Relation.ReflTransGen Block.Step b (m.after b)

theorem Moves.bind {m : BlockM α} {k : α → BlockM β} (hm : m.Moves) (hk : ∀ a, (k a).Moves) :
    (m >>= k).Moves := by
  intro b
  have h := hm b
  unfold after at h ⊢
  rw [EStateM.run_bind]
  cases hrun : m.run b with
  | ok a b₀ =>
      rw [hrun] at h
      exact h.trans (hk a b₀)
  | error e b₀ =>
      rw [hrun] at h
      exact h

theorem moves_pure (a : α) : (pure a : BlockM α).Moves := fun _ => .refl

theorem moves_get : (get : BlockM Block).Moves := fun _ => .refl

theorem moves_lift (r : Except Error α) : (lift r).Moves := by
  intro b
  unfold after
  rw [run_lift]
  cases r <;> exact .refl

theorem moves_throw (e : Error) : (throw e : BlockM α).Moves := fun _ => .refl

theorem moves_throw_bind (e : Error) (k : α → BlockM β) : (throw e >>= k).Moves := fun _ => .refl

theorem moves_insert (name : String) (c : Column) : (insert name c).Moves := by
  intro b
  unfold after
  rw [run_insert]
  cases h : b.insert name c with
  | ok p => exact .single (.insert h)
  | error e => exact .refl

theorem moves_setColumn (pos : Nat) (c : Column) : (setColumn pos c).Moves := by
  intro b
  unfold after
  rw [run_setColumn]
  cases h : b.setColumn pos c with
  | ok b' => exact .single (.setColumn h)
  | error e => exact .refl

theorem moves_column (pos : Nat) : (column pos).Moves :=
  moves_get.bind fun _ => moves_lift _

/-- A step that computes a column from the block and writes it. -/
theorem moves_write (kernel : Block → Except Error Column) (result : Nat) :
    (do let col ← lift (kernel (← get)); setColumn result col).Moves :=
  moves_get.bind fun _ => (moves_lift _).bind fun col => moves_setColumn result col

/-- A failed insert leaves the block as it was, refused for its row count. -/
theorem insert_of_error {name : String} {c : Column} {b b' : Block} {e : Error}
    (h : (insert name c).run b = .error e b') : b' = b ∧ e.kind = .schemaMismatch := by
  rw [run_insert] at h
  cases hins : b.insert name c with
  | ok p => simp [hins] at h
  | error err =>
      simp only [hins, EStateM.Result.error.injEq] at h
      obtain ⟨rfl, rfl⟩ := h
      exact ⟨rfl, Block.checkRows_error_kind (Block.checkRows_of_insert_error hins)⟩

/-- A failed write leaves the block as it was, refused for its position or its row count. -/
theorem setColumn_of_error {pos : Nat} {c : Column} {b b' : Block} {e : Error}
    (h : (setColumn pos c).run b = .error e b') :
    b' = b ∧ (e.kind = .schemaMismatch ∨ e.kind = .columnNotFound) := by
  rw [run_setColumn] at h
  cases hset : b.setColumn pos c with
  | ok b₁ => simp [hset] at h
  | error err =>
      simp only [hset, EStateM.Result.error.injEq] at h
      obtain ⟨rfl, rfl⟩ := h
      refine ⟨rfl, ?_⟩
      unfold Block.setColumn at hset
      cases hpos : b.entries[pos]? with
      | none =>
          simp only [hpos, Except.error.injEq] at hset
          subst hset
          exact .inr rfl
      | some entry =>
          cases hcheck : b.checkRows (some pos) c with
          | ok u => simp [hpos, hcheck] at hset
          | error err' =>
              simp only [hpos, hcheck, Except.error.injEq] at hset
              subst hset
              exact .inl (Block.checkRows_error_kind hcheck)

end BlockM

namespace Builtin

open BlockM Dispatch

variable {cfg : Config} {args : List Nat} {result rows : Nat}

/-- A function's own work changes its block by its helper inserts and its write alone. -/
theorem moves_run (f : Builtin) : (f.run cfg args result rows).Moves := by
  cases f
  case substring =>
    exact (moves_lift _).bind fun _ => (moves_lift _).bind fun _ => (moves_lift _).bind fun _ =>
      moves_write _ _
  case substringFrom | left =>
    exact (moves_insert _ _).bind fun _ => (moves_lift _).bind fun _ =>
      (moves_lift _).bind fun _ => moves_write _ _
  case right =>
    refine moves_get.bind fun _ => (moves_lift _).bind fun helpers => ?_
    obtain ⟨s, index, strlen⟩ := helpers
    exact (moves_insert _ _).bind fun _ => (moves_insert _ _).bind fun _ => moves_write _ _
  case concat =>
    show (runConcat cfg args result rows).Moves
    unfold runConcat
    split
    · refine (moves_column _).bind fun c => ?_
      dsimp only
      split
      · exact (moves_throw _).bind fun _ => moves_setColumn _ _
      · exact (moves_pure _).bind fun _ => moves_setColumn _ _
    · exact moves_write _ _
  all_goals exact moves_write _ _

theorem moves_executeWithNulls (f : Builtin) :
    (f.executeWithNulls cfg args result rows).Moves := by
  unfold executeWithNulls
  split
  · exact moves_run f
  · refine moves_get.bind fun _ => (moves_lift _).bind fun scan => ?_
    cases scan with
    | constNull =>
        exact (moves_lift _).bind fun _ => (moves_lift _).bind fun _ => moves_setColumn _ _
    | plain => exact moves_run f
    | nullable =>
        refine (moves_lift _).bind fun stripped => ?_
        obtain ⟨stripped, positions, nulls⟩ := stripped
        exact (moves_lift _).bind fun _ => (moves_lift _).bind fun _ =>
          (moves_lift _).bind fun _ => moves_setColumn _ _

theorem moves_executeFolded (f : Builtin) : (f.executeFolded cfg args result rows).Moves := by
  unfold executeFolded
  refine moves_get.bind fun _ => (moves_lift _).bind fun folded => ?_
  obtain ⟨folded, positions⟩ := folded
  exact (moves_lift _).bind fun _ => (moves_lift _).bind fun _ =>
    (moves_lift _).bind fun _ => moves_setColumn _ _

theorem moves_checkResult (f : Builtin) : (f.checkResult result rows).Moves := by
  unfold checkResult
  refine moves_get.bind fun b => ?_
  split
  · exact moves_throw _
  · split
    · exact moves_throw _
    · exact moves_pure _

/-- A call through the dispatcher changes its block by the steps of the branch it takes. -/
theorem moves_executeAs (f : Builtin) (folds : Bool) :
    (f.executeAs folds cfg args result rows).Moves := by
  unfold executeAs
  dsimp only
  split
  · exact moves_throw_bind _ _
  · refine moves_get.bind fun _ => (moves_lift _).bind fun _ => ?_
    -- the folding decision is read, or taken as no, and then one branch runs and is checked
    split
    · refine moves_get.bind fun _ => (moves_lift _).bind fun fold => ?_
      split
      · exact (moves_executeFolded f).bind fun _ => moves_checkResult f
      · exact (moves_executeWithNulls f).bind fun _ => moves_checkResult f
    · refine (moves_pure _).bind fun fold => ?_
      split
      · exact (moves_executeFolded f).bind fun _ => moves_checkResult f
      · exact (moves_executeWithNulls f).bind fun _ => moves_checkResult f

theorem moves_execute (f : Builtin) : (f.execute cfg args result rows).Moves :=
  moves_executeAs f _

end Builtin

theorem Registry.moves_execute (reg : Registry) (cfg : Config) (name : String)
    (args : List Nat) (result : Nat) : (reg.execute cfg name args result).Moves :=
  (BlockM.moves_lift _).bind fun f => BlockM.moves_get.bind fun _ => f.moves_execute

namespace Block

/-- One thing a program does to a block: the block's own operations, or a call of a built-in
function through the dispatcher or by name through a registry. Inserting or writing a shared
column is inserting or writing the column. -/
inductive Action where
  | insert (name : String) (c : Column)
  | insertSlot (name : String) (t : DataType)
  | setColumn (pos : Nat) (c : Column)
  | execute (f : Builtin) (cfg : Config) (args : List Nat) (result rows : Nat)
  | executeNamed (reg : Registry) (cfg : Config) (name : String) (args : List Nat) (result : Nat)

/-- The block after an action. A refused insert or write leaves the block as it was, and a
failed call keeps what the call did before it failed. -/
def Action.apply : Action → Block → Block
  | .insert name c, b =>
    match b.insert name c with
    | .ok (b', _) => b'
    | .error _ => b
  | .insertSlot name t, b => (b.insertSlot name t).1
  | .setColumn pos c, b =>
    match b.setColumn pos c with
    | .ok b' => b'
    | .error _ => b
  | .execute f cfg args result rows, b => (f.execute cfg args result rows).after b
  | .executeNamed reg cfg name args result, b => (reg.execute cfg name args result).after b

/-- The block after a program's actions, first to last. -/
def runActions (acts : List Action) (b : Block) : Block := acts.foldl (fun b a => a.apply b) b

/-- Every action changes the block by steps of the library alone. -/
theorem Action.steps (a : Action) (b : Block) : Relation.ReflTransGen Step b (a.apply b) := by
  cases a with
  | insert name c =>
      rw [apply]
      cases h : b.insert name c with
      | ok p =>
          obtain ⟨b', pos⟩ := p
          exact .single (.insert h)
      | error e => exact .refl
  | insertSlot name t => exact .single (.insertSlot b name t)
  | setColumn pos c =>
      rw [apply]
      cases h : b.setColumn pos c with
      | ok b' => exact .single (.setColumn h)
      | error e => exact .refl
  | execute f cfg args result rows => exact f.moves_execute b
  | executeNamed reg cfg name args result => exact reg.moves_execute cfg name args result b

/-- A program's run changes the block by steps of the library alone. -/
theorem steps_runActions (acts : List Action) (b : Block) :
    Relation.ReflTransGen Step b (runActions acts b) := by
  induction acts generalizing b with
  | nil => exact .refl
  | cons a acts ih => exact (a.steps b).trans (ih (a.apply b))

/-- From the empty block, every run keeps the block consistent. -/
theorem consistent_runActions (acts : List Action) : (runActions acts empty).Consistent :=
  consistent_of_steps (steps_runActions acts empty) consistent_empty

/-- A position that names an entry keeps naming it after any steps. -/
theorem name_of_steps {b b' : Block} (h : Relation.ReflTransGen Step b b') {pos : Nat}
    {name : String} (hpos : (b.entries[pos]?).map Entry.name = some name) :
    (b'.entries[pos]?).map Entry.name = some name := by
  obtain ⟨rest, hrest⟩ := names_prefix_of_steps h
  have hlt : pos < (b.entries.map Entry.name).length := by
    obtain ⟨e, he, -⟩ := Option.map_eq_some_iff.mp hpos
    simpa using (List.getElem?_eq_some_iff.mp he).1
  rw [← List.getElem?_map, ← hrest, List.getElem?_append_left hlt, List.getElem?_map, hpos]

/-- The block keeps its rows consistent over any run. From the empty block, whatever a program
inserts, reserves, writes and calls, in any order and whether each action succeeds or fails,
every filled entry holds a column of the block's row count and of the entry's type; a block
with no filled entry has no rows, and its size counts its entries, slots included. Entries are
never removed or reordered, so the position an insert or a reserved slot answers keeps naming
that entry; and a refused insert or write leaves the block as it was, refused for its row count
or, for a write, its position. -/
theorem consistent_along_every_run :
    (∀ acts : List Action, ∀ e ∈ (runActions acts empty).entries, ∀ c ∈ e.column,
      e.type = c.dataType ∧ c.length = (runActions acts empty).rows) ∧
    (∀ b : Block, (∀ e ∈ b.entries, e.column = none) → b.rows = 0) ∧
    (∀ b : Block, b.size = b.entries.length) ∧
    (∀ (b : Block) (acts : List Action),
      b.entries.map Entry.name <+: (runActions acts b).entries.map Entry.name) ∧
    (∀ (b b' : Block) (name : String) (c : Column) (pos : Nat), b.insert name c = .ok (b', pos) →
      ∀ acts, ((runActions acts b').entries[pos]?).map Entry.name = some name) ∧
    (∀ (b : Block) (name : String) (t : DataType) (acts : List Action),
      ((runActions acts (b.insertSlot name t).1).entries[(b.insertSlot name t).2]?).map
        Entry.name = some name) ∧
    (∀ (b b' : Block) (name : String) (c : Column) (e : Error),
      (BlockM.insert name c).run b = .error e b' → b' = b ∧ e.kind = .schemaMismatch) ∧
    (∀ (b b' : Block) (pos : Nat) (c : Column) (e : Error),
      (BlockM.setColumn pos c).run b = .error e b' →
        b' = b ∧ (e.kind = .schemaMismatch ∨ e.kind = .columnNotFound)) := by
  refine ⟨fun acts e he c hc => ⟨(consistent_runActions acts).type_eq e he c hc,
      (consistent_runActions acts).length_eq_rows e he c hc⟩,
    fun _ h => rows_of_unfilled h, fun _ => rfl,
    fun b acts => names_prefix_of_steps (steps_runActions acts b), ?_, ?_,
    fun _ _ _ _ _ h => BlockM.insert_of_error h, fun _ _ _ _ _ h => BlockM.setColumn_of_error h⟩
  · intro b b' name c pos hins acts
    obtain ⟨rfl, rfl⟩ := insert_eq_ok hins
    exact name_of_steps (steps_runActions acts _) (by simp [size])
  · intro b name t acts
    exact name_of_steps (steps_runActions acts _) (by simp [insertSlot, size])

/-- The row check at work on a block of three rows: a one-row column is refused for its rows
and a write at a position the block lacks for its position, each leaving the block as it was;
and the first column's position still names it after those refusals and a reserved slot. -/
theorem consistent_along_every_run_mismatch :
    let b : Block := ⟨[⟨"a", .int32, some (.int32 [1, 2, 3])⟩]⟩
    (BlockM.insert "b" (.int32 [1])).run b = .error (.rowCountMismatch 1 3) b ∧
      (Error.rowCountMismatch 1 3).kind = .schemaMismatch ∧
      (BlockM.setColumn 7 (.int32 [1, 2, 3])).run b = .error (.positionOutOfRange 7 1) b ∧
      empty.insert "a" (.int32 [1, 2, 3]) = .ok (b, 0) ∧
      ((runActions [.insert "b" (.int32 [1]), .insertSlot "out" .int32,
        .setColumn 7 (.int32 [1, 2, 3])] b).entries[0]?).map Entry.name = some "a" := by
  intro b
  have hrefused : (BlockM.insert "b" (.int32 [1])).run b = .error (.rowCountMismatch 1 3) b := rfl
  have hfirst : empty.insert "a" (.int32 [1, 2, 3]) = .ok (b, 0) := rfl
  exact ⟨hrefused, (consistent_along_every_run.2.2.2.2.2.2.1 _ _ _ _ _ hrefused).2, rfl, hfirst,
    consistent_along_every_run.2.2.2.2.1 _ _ _ _ _ hfirst _⟩

end Block

end TextBatch

import TextBatch.Proofs.Slice

/-! # What a call does to its block

A call reads its block, appends the helper columns its function needs behind the block's own
entries, and, if it succeeds, writes one column at the result position, last. Nothing else of
the block changes, whatever it holds: other entries keep their names, types and columns, and a
call that fails leaves the result entry as it was too, since the result check that follows the
write never fails (the written column always has the call's rows).

`BlockM.Frames` says this of one run, and is put together from the steps of a call:
reading (`Frames.get_bind`, `Frames.lift_bind`), appending (`Frames.insert_bind`) and the
final write (`Frames.setColumn`). The main statement is `Builtin.keepsFrame_execute`: through
the dispatcher or a registry, a call keeps its block's frame, and a folded call appends
nothing.
-/

namespace TextBatch

theorem Except.bind_eq_ok {ε α β : Type} {x : Except ε α} {f : α → Except ε β} {y : β} :
    x >>= f = .ok y ↔ ∃ a, x = .ok a ∧ f a = .ok y := by
  cases x <;> simp [bind, Except.bind]

theorem length_of_mapM_eq_ok {ε α β : Type} {f : α → Except ε β} {xs : List α} {ys : List β}
    (h : xs.mapM f = .ok ys) : ys.length = xs.length :=
  (mapM_eq_ok_iff.mp h).length_eq.symm

namespace Builtin

/-- The names of the helper columns a function appends to the block before it writes: a
constant count for `substring(s, p)`, a constant position for `left`, and the positions and
character counts for `right`. -/
def helperNames : Builtin → List String
  | .substringFrom => ["len"]
  | .left => ["pos"]
  | .right => ["index", "strlen"]
  | _ => []

end Builtin

namespace Block

/-- `b'` is `b` with entries appended behind its own, named by a prefix of `names`. -/
def Extends (names : List String) (b b' : Block) : Prop :=
  ∃ extra : List Entry, b'.entries = b.entries ++ extra ∧ extra.map Entry.name <+: names

theorem Extends.refl (names : List String) (b : Block) : b.Extends names b :=
  ⟨[], by simp, List.nil_prefix⟩

theorem Extends.mono {names names' : List String} {b b' : Block} (h : b.Extends names b')
    (hn : names <+: names') : b.Extends names' b' := by
  obtain ⟨extra, he, hp⟩ := h
  exact ⟨extra, he, hp.trans hn⟩

/-- An insert followed by appends named by a prefix of `names` appends by a prefix of
`name :: names`. -/
theorem Extends.of_insert {names : List String} {b b₁ b' : Block} {name : String} {c : Column}
    {pos : Nat} (hins : b.insert name c = .ok (b₁, pos)) (h : b₁.Extends names b') :
    b.Extends (name :: names) b' := by
  obtain ⟨rfl, -⟩ := insert_eq_ok hins
  obtain ⟨extra, he, hp⟩ := h
  refine ⟨⟨name, c.dataType, some c⟩ :: extra, by simp [he], ?_⟩
  simpa using hp

theorem entries_setColumn {b b' : Block} {pos : Nat} {c : Column}
    (h : b.setColumn pos c = .ok b') :
    ∃ e, b.entries[pos]? = some e ∧
      b'.entries = b.entries.set pos { e with type := c.dataType, column := some c } := by
  unfold setColumn at h
  split at h
  · cases h
  · next e he =>
      split at h
      · simp only [Except.ok.injEq] at h
        exact ⟨e, he, by rw [← h]⟩
      · cases h

/-- Writing a column keeps the name of every entry. -/
theorem names_setColumn {b b' : Block} {pos : Nat} {c : Column} (h : b.setColumn pos c = .ok b') :
    b'.entries.map Entry.name = b.entries.map Entry.name := by
  obtain ⟨e, he, hb'⟩ := entries_setColumn h
  rw [hb']
  apply List.ext_getElem?
  intro i
  by_cases hi : i = pos
  · subst hi
    obtain ⟨hlt, hget⟩ := List.getElem?_eq_some_iff.mp he
    simp [hlt, hget]
  · simp [List.getElem?_set_ne (Ne.symm hi)]

theorem Extends.drop_names {names : List String} {b b' : Block} (h : b.Extends names b') :
    (b'.entries.drop b.size).map Entry.name <+: names := by
  obtain ⟨extra, he, hp⟩ := h
  rwa [he, size, List.drop_left]

/-- The outcome `out` of a call writing at `result` keeps the frame of `b`: the call appended
at most the helper columns `names`, in order, behind the entries of `b`; if it succeeded it
changed no entry of `b` but the one at `result`, and if it failed it changed none. -/
def Keeps (names : List String) (result : Nat) (b : Block) :
    EStateM.Result Error Block Unit → Prop
  | .ok () b' => b.size ≤ b'.size ∧ (∀ p < b.size, p ≠ result → b'.entries[p]? = b.entries[p]?) ∧
      (b'.entries.drop b.size).map Entry.name <+: names
  | .error _ b' => b.entries <+: b'.entries ∧ (b'.entries.drop b.size).map Entry.name <+: names

end Block

namespace BlockM

/-- A run of `m` from `b` appends entries named by a prefix of `names` and changes nothing
else, except that a run that succeeds then fills the entry at `result` with a column that
satisfies `P`. -/
def Frames (b : Block) (names : List String) (result : Nat) (P : Column → Prop)
    (m : BlockM Unit) : Prop :=
  match m.run b with
  | .ok () b' => ∃ b₀ c, b.Extends names b₀ ∧ P c ∧ b₀.setColumn result c = .ok b'
  | .error _ b' => b.Extends names b'

section Frames

variable {b : Block} {names : List String} {result : Nat} {P : Column → Prop}

theorem Frames.setColumn {c : Column} (hc : P c) :
    Frames b names result P (setColumn result c) := by
  unfold Frames
  rw [run_setColumn]
  cases h : b.setColumn result c with
  | ok b' => exact ⟨b, c, .refl _ _, hc, h⟩
  | error e => exact .refl _ _

theorem Frames.throw (e : Error) : Frames b names result P (throw e) :=
  Block.Extends.refl _ _

theorem Frames.lift_bind {α : Type} {r : Except Error α} {k : α → BlockM Unit}
    (h : ∀ a, r = .ok a → Frames b names result P (k a)) :
    Frames b names result P (lift r >>= k) := by
  cases r with
  | error e => exact Block.Extends.refl _ _
  | ok a =>
      have hk := h a rfl
      unfold Frames at hk ⊢
      rwa [EStateM.run_bind, run_lift]

theorem Frames.get_bind {k : Block → BlockM Unit} (h : Frames b names result P (k b)) :
    Frames b names result P (get >>= k) := by
  unfold Frames at h ⊢
  rwa [EStateM.run_bind, EStateM.run_get]

theorem Frames.insert_bind {name : String} {c : Column} {k : Nat → BlockM Unit}
    (h : ∀ b₁ pos, b.insert name c = .ok (b₁, pos) → Frames b₁ names result P (k pos)) :
    Frames b (name :: names) result P (insert name c >>= k) := by
  unfold Frames
  rw [EStateM.run_bind, run_insert]
  cases hins : b.insert name c with
  | error e => exact .refl _ _
  | ok p =>
      obtain ⟨b₁, pos⟩ := p
      have hk := h b₁ pos hins
      unfold Frames at hk
      dsimp only
      split
      · next b' hrun =>
          rw [hrun] at hk
          obtain ⟨b₀, c', hext, hc', hset⟩ := hk
          exact ⟨b₀, c', hext.of_insert hins, hc', hset⟩
      · next e b' hrun =>
          rw [hrun] at hk
          exact hk.of_insert hins

theorem Frames.mono {m : BlockM Unit} {names' : List String} {P' : Column → Prop}
    (h : Frames b names result P m) (hn : names <+: names') (hP : ∀ c, P c → P' c) :
    Frames b names' result P' m := by
  unfold Frames at h ⊢
  split at h
  · obtain ⟨b₀, c, hext, hc, hset⟩ := h
    exact ⟨b₀, c, hext.mono hn, hP c hc, hset⟩
  · exact h.mono hn

theorem Frames.throw_bind {α : Type} (e : Error) {k : α → BlockM Unit} :
    Frames b names result P (MonadExcept.throw e >>= k) :=
  Block.Extends.refl _ _

theorem Frames.column_bind {pos : Nat} {k : Column → BlockM Unit}
    (h : ∀ c, b.column pos = .ok c → Frames b names result P (k c)) :
    Frames b names result P (column pos >>= k) := by
  unfold Frames
  simp only [BlockM.column, EStateM.run_bind, EStateM.run_get, run_lift]
  cases hc : b.column pos with
  | error e => exact .refl _ _
  | ok c =>
      have hk := h c hc
      unfold Frames at hk
      simpa using hk

theorem Frames.pure_bind {α : Type} (a : α) {k : α → BlockM Unit}
    (h : Frames b names result P (k a)) : Frames b names result P (pure a >>= k) := by
  unfold Frames at h ⊢
  rwa [EStateM.run_bind]

/-- A run that frames `b` keeps its frame. -/
theorem Frames.keeps {m : BlockM Unit} (h : Frames b names result P m) :
    b.Keeps names result (m.run b) := by
  unfold Frames at h
  split at h
  · next b' hrun =>
      rw [hrun]
      obtain ⟨b₀, c, hext, -, hset⟩ := h
      have hdrop := hext.drop_names
      obtain ⟨extra, hb₀, -⟩ := hext
      obtain ⟨e, -, hb'⟩ := Block.entries_setColumn hset
      have hsize : b'.size = b.size + extra.length := by
        simp [Block.size, hb', hb₀]
      refine ⟨by omega, fun p hp hne => ?_, ?_⟩
      · rw [hb', List.getElem?_set_ne (Ne.symm hne), hb₀, List.getElem?_append_left hp]
      · rwa [List.map_drop, Block.names_setColumn hset, ← List.map_drop]
  · next hrun =>
      rw [hrun]
      refine ⟨?_, h.drop_names⟩
      obtain ⟨extra, hb', -⟩ := h
      rw [hb']
      exact List.prefix_append _ _

/-- A step that computes a column from the block and writes it at `result`. -/
theorem Frames.write {kernel : Block → Except Error Column} (h : ∀ c, kernel b = .ok c → P c) :
    Frames b names result P
      (do let col ← BlockM.lift (kernel (← get)); BlockM.setColumn result col) :=
  Frames.get_bind (Frames.lift_bind fun c hc => Frames.setColumn (h c hc))

end Frames

end BlockM

namespace Slice

theorem column_eq_ok {checks : Bool} {rows : Nat} {nulls : NullMap} {strings : StringColumn}
    {starts lens : List Int32} {col : Column}
    (h : column checks rows nulls strings starts lens = .ok col) :
    ∃ out : List (Option Bytes), out.length = rows ∧
      col = .nullable (.string ⟨out.map fun v => v.getD []⟩) (markNulls nulls out) := by
  unfold column at h
  obtain ⟨out, hout, h⟩ := Except.bind_eq_ok.mp h
  exact ⟨out, by simpa using length_of_mapM_eq_ok hout, Column.eq_of_finishNullable h⟩

/-- The substring kernel writes a well-formed nullable string column of `rows` rows, whatever
the block holds. -/
theorem result_out {cfg : Config} {b : Block} {s p l rows : Nat} {col : Column}
    (h : result cfg b s p l rows = .ok col) :
    col.wellFormed ∧ col.dataType = .nullable .string ∧ col.length = rows := by
  unfold result at h
  -- the merged maps keep the rows of the first, whatever the arguments' maps
  obtain ⟨⟨sc, m₁⟩, hs, h⟩ := Except.bind_eq_ok.mp h
  obtain ⟨sm, -, rfl⟩ := Block.eq_of_unpackInto hs
  obtain ⟨⟨pc, m₂⟩, hp, h⟩ := Except.bind_eq_ok.mp h
  obtain ⟨pm, -, rfl⟩ := Block.eq_of_unpackInto hp
  obtain ⟨⟨lc, m₃⟩, hl, h⟩ := Except.bind_eq_ok.mp h
  obtain ⟨lm, -, rfl⟩ := Block.eq_of_unpackInto hl
  obtain ⟨strings, -, h⟩ := Except.bind_eq_ok.mp h
  obtain ⟨starts, -, h⟩ := Except.bind_eq_ok.mp h
  obtain ⟨lens, -, h⟩ := Except.bind_eq_ok.mp h
  obtain ⟨out, hlen, rfl⟩ := column_eq_ok h
  refine ⟨?_, rfl, by simp [Column.length, StringColumn.length, hlen]⟩
  simp [Column.wellFormed, Column.isNullable, Column.isConst, Column.length, StringColumn.length,
    length_markNulls, NullMap.length_mergeOpt, hlen]

end Slice

theorem readAt_mem {α : Type} {vs : List α} {i : Nat} {v : α} (h : readAt vs i = .ok v) :
    v ∈ vs :=
  List.mem_of_getElem? (readAt_eq_ok.mp h)

namespace Block

theorem full_eq_ok {b : Block} {pos : Nat} {c : Column} (h : b.full pos = .ok c) :
    ∃ d, b.column pos = .ok d ∧ c = d.toFull := by
  unfold full at h
  split at h
  · next d hd =>
      cases h
      exact ⟨d, hd, rfl⟩
  · cases h

end Block

/-- Every filled entry of `b` has `rows` rows. -/
def Block.Uniform (rows : Nat) (b : Block) : Prop :=
  ∀ e ∈ b.entries, ∀ c ∈ e.column, c.length = rows

/-- Every argument of a call that holds a column has `rows` rows. -/
def ArgsHave (b : Block) (args : List Nat) (rows : Nat) : Prop :=
  ∀ p ∈ args, ∀ c, b.column p = .ok c → c.length = rows

theorem ArgsHave.full {b : Block} {args : List Nat} {rows : Nat} (h : ArgsHave b args rows)
    {i p : Nat} (hp : readAt args i = .ok p) {c : Column} (hc : b.full p = .ok c) :
    c.length = rows := by
  obtain ⟨d, hd, rfl⟩ := Block.full_eq_ok hc
  rw [Column.length_toFull]
  exact h p (readAt_mem hp) d hd

theorem ArgsHave.tail {b : Block} {p : Nat} {args : List Nat} {rows : Nat}
    (h : ArgsHave b (p :: args) rows) : ArgsHave b args rows :=
  fun q hq => h q (List.mem_cons_of_mem p hq)

namespace Block

variable {b b' : Block} {rows : Nat}

theorem Uniform.argsHave (h : b.Uniform rows) (args : List Nat) : ArgsHave b args rows := by
  intro p _ c hc
  obtain ⟨e, he, hec⟩ := column_eq_ok_iff.mp hc
  exact h e (List.mem_of_getElem? he) c hec

theorem uniform_empty (rows : Nat) : empty.Uniform rows := by
  simp [Uniform, empty]

theorem Uniform.insert (h : b.Uniform rows) {name : String} {c : Column} {p : Nat}
    (hins : b.insert name c = .ok (b', p)) (hc : c.length = rows) : b'.Uniform rows := by
  obtain ⟨rfl, -⟩ := insert_eq_ok hins
  intro e he d hd
  rcases List.mem_append.mp he with hold | hnew
  · exact h e hold d hd
  · rw [List.mem_singleton.mp hnew] at hd
    cases hd
    exact hc

theorem Uniform.insertSlot (h : b.Uniform rows) (name : String) (t : DataType) :
    (b.insertSlot name t).1.Uniform rows := by
  intro e he d hd
  rcases List.mem_append.mp he with hold | hnew
  · exact h e hold d hd
  · rw [List.mem_singleton.mp hnew] at hd
    cases hd

end Block

namespace Column

theorem length_of_constant? {value c : Column} {len : Nat} (h : value.constant? len = .ok c) :
    c.length = len := by
  unfold constant? at h
  split at h
  · cases h
  · split at h <;> (cases h; rfl)

end Column

namespace Dispatch

theorem length_of_strip {checks : Bool} {c s : Column} (h : strip checks c = .ok s) :
    s.length = c.length := by
  unfold strip at h
  split at h
  · next nested nulls =>
      split at h
      · rw [Column.eq_of_maskChecked h]
        cases nested <;> simp [Column.maskNulls, Column.length, StringColumn.length]
      · cases h
        rfl
  · split at h
    · exact Column.length_of_constant? h
    · cases h
      rfl
  · cases h
    rfl

theorem length_overlay {checks : Bool} {nulls : NullMap} {c d : Column}
    (h : overlay checks nulls c = .ok d) : d.length = c.length := by
  cases c with
  | nullable nested own =>
      obtain ⟨m, -, h⟩ := Except.bind_eq_ok.mp h
      cases h
      rfl
  | _ => cases h; rfl

theorem length_wrapResult {checks : Bool} {c : Column} {nulls : NullMap} {d : Column}
    (h : wrapResult checks c nulls = .ok d) : d.length = c.length := by
  unfold wrapResult at h
  split at h
  · rw [length_overlay h, Column.length_replicate]
    rfl
  · exact length_overlay h

/-- Stripping the arguments of `rows` rows fills a block whose every column has `rows` rows. -/
theorem stripArguments_uniform {checks : Bool} {b : Block} {rows : Nat} :
    ∀ {args : List Nat} {acc out : Block × List Nat × NullMap}, ArgsHave b args rows →
      acc.1.Uniform rows → stripArguments checks b acc args = .ok out → out.1.Uniform rows := by
  intro args
  induction args with
  | nil =>
      intro acc out _ hacc h
      cases h
      exact hacc
  | cons pos rest ih =>
      intro acc out hargs hacc h
      unfold stripArguments at h
      obtain ⟨e, -, h⟩ := Except.bind_eq_ok.mp h
      obtain ⟨c, hc, h⟩ := Except.bind_eq_ok.mp h
      obtain ⟨nulls, -, h⟩ := Except.bind_eq_ok.mp h
      obtain ⟨s, hs, h⟩ := Except.bind_eq_ok.mp h
      obtain ⟨⟨s', p⟩, hins, h⟩ := Except.bind_eq_ok.mp h
      have hslen : s.length = rows :=
        (length_of_strip hs).trans (hargs pos List.mem_cons_self c hc)
      exact ih hargs.tail (hacc.insert hins hslen) h

theorem argsHave_of_checkArgumentRows {f : Builtin} {b : Block} {rows : Nat} :
    ∀ {args : List Nat}, checkArgumentRows f b rows args = .ok () → ArgsHave b args rows := by
  intro args
  induction args with
  | nil => intro _ p hp; cases hp
  | cons pos rest ih =>
      intro h
      unfold checkArgumentRows at h
      split at h
      · cases h
      · next c hc =>
          split at h
          · next hlen =>
              intro p hp d hd
              rcases List.mem_cons.mp hp with rfl | hmem
              · rw [hc] at hd
                cases hd
                exact hlen
              · exact ih h p hmem d hd
          · cases h

end Dispatch

namespace Join

theorem concatResult_length {cfg : Config} {b : Block} {args : List Nat} {rows : Nat}
    {col : Column} (h : concatResult cfg b args rows = .ok col) : col.length = rows := by
  unfold concatResult at h
  obtain ⟨unpacked, -, h⟩ := Except.bind_eq_ok.mp h
  obtain ⟨strings, -, h⟩ := Except.bind_eq_ok.mp h
  obtain ⟨-, -, h⟩ := Except.bind_eq_ok.mp h
  obtain ⟨out, hout, h⟩ := Except.bind_eq_ok.mp h
  rw [Column.eq_of_finishNullable h]
  simpa [Column.length, StringColumn.length] using length_of_mapM_eq_ok hout

theorem concatWsResult_length {cfg : Config} {b : Block} {args : List Nat} {rows : Nat}
    {col : Column} (h : concatWsResult cfg b args rows = .ok col) : col.length = rows := by
  unfold concatWsResult at h
  obtain ⟨unpacked, -, h⟩ := Except.bind_eq_ok.mp h
  obtain ⟨strings, -, h⟩ := Except.bind_eq_ok.mp h
  obtain ⟨sep, -, h⟩ := Except.bind_eq_ok.mp h
  obtain ⟨-, -, h⟩ := Except.bind_eq_ok.mp h
  obtain ⟨out, hout, h⟩ := Except.bind_eq_ok.mp h
  rw [Column.eq_of_finishNullable h]
  simpa [Column.length, StringColumn.length] using length_of_mapM_eq_ok hout

end Join

namespace Fill

theorem repeatResult_length {cfg : Config} {b : Block} {args : List Nat} {rows : Nat}
    {col : Column} (h : repeatResult cfg b args rows = .ok col) : col.length = rows := by
  unfold repeatResult at h
  obtain ⟨s, -, h⟩ := Except.bind_eq_ok.mp h
  obtain ⟨sc, -, h⟩ := Except.bind_eq_ok.mp h
  obtain ⟨k, -, h⟩ := Except.bind_eq_ok.mp h
  obtain ⟨nc, -, h⟩ := Except.bind_eq_ok.mp h
  obtain ⟨strings, -, h⟩ := Except.bind_eq_ok.mp h
  obtain ⟨counts, -, h⟩ := Except.bind_eq_ok.mp h
  obtain ⟨-, -, h⟩ := Except.bind_eq_ok.mp h
  obtain ⟨out, hout, h⟩ := Except.bind_eq_ok.mp h
  cases h
  simpa [Column.length, StringColumn.length] using length_of_mapM_eq_ok hout

/-- `space` writes a row for each count it is given, and there are `rows` of them when its
argument has `rows` rows. -/
theorem spaceResult_length {cfg : Config} {b : Block} {args : List Nat} {rows : Nat}
    {col : Column} (hargs : ArgsHave b args rows) (h : spaceResult cfg b args rows = .ok col) :
    col.length = rows := by
  unfold spaceResult at h
  obtain ⟨k, hk, h⟩ := Except.bind_eq_ok.mp h
  obtain ⟨nc, hnc, h⟩ := Except.bind_eq_ok.mp h
  obtain ⟨counts, hcounts, h⟩ := Except.bind_eq_ok.mp h
  obtain ⟨-, -, h⟩ := Except.bind_eq_ok.mp h
  obtain ⟨out, hout, h⟩ := Except.bind_eq_ok.mp h
  cases h
  have hclen : counts.length = rows :=
    (Column.length_of_integers hcounts).trans (hargs.full hk hnc)
  simp [Column.length, StringColumn.length, length_of_mapM_eq_ok hout, hclen]

end Fill

namespace Measure

theorem lengthResult_length {fn : String} {measure : Bytes → Nat} {b : Block}
    {args : List Nat} {rows : Nat} {col : Column}
    (h : lengthResult fn measure b args rows = .ok col) : col.length = rows := by
  unfold lengthResult at h
  obtain ⟨s, -, h⟩ := Except.bind_eq_ok.mp h
  obtain ⟨sc, -, h⟩ := Except.bind_eq_ok.mp h
  obtain ⟨strings, -, h⟩ := Except.bind_eq_ok.mp h
  obtain ⟨out, hout, h⟩ := Except.bind_eq_ok.mp h
  cases h
  simpa [Column.length] using length_of_mapM_eq_ok hout

theorem testResult_length {fn : String} {test : Bytes → Bytes → Bool} {b : Block}
    {args : List Nat} {rows : Nat} {col : Column}
    (h : testResult fn test b args rows = .ok col) : col.length = rows := by
  unfold testResult at h
  obtain ⟨s, -, h⟩ := Except.bind_eq_ok.mp h
  obtain ⟨sc, -, h⟩ := Except.bind_eq_ok.mp h
  obtain ⟨t, -, h⟩ := Except.bind_eq_ok.mp h
  obtain ⟨tc, -, h⟩ := Except.bind_eq_ok.mp h
  obtain ⟨left, -, h⟩ := Except.bind_eq_ok.mp h
  obtain ⟨right, -, h⟩ := Except.bind_eq_ok.mp h
  obtain ⟨out, hout, h⟩ := Except.bind_eq_ok.mp h
  cases h
  simpa [Column.length] using length_of_mapM_eq_ok hout

theorem nullOrEmptyResult_length {b : Block} {args : List Nat} {rows : Nat} {col : Column}
    (h : nullOrEmptyResult b args rows = .ok col) : col.length = rows := by
  unfold nullOrEmptyResult at h
  obtain ⟨s, -, h⟩ := Except.bind_eq_ok.mp h
  obtain ⟨⟨c, nulls⟩, -, h⟩ := Except.bind_eq_ok.mp h
  obtain ⟨strings, -, h⟩ := Except.bind_eq_ok.mp h
  obtain ⟨out, hout, h⟩ := Except.bind_eq_ok.mp h
  cases h
  simpa [Column.length] using length_of_mapM_eq_ok hout

end Measure

namespace BlockM

variable {b : Block} {names : List String} {result : Nat} {P : Column → Prop}

/-- The column a run aside wrote at its slot is one the run frames. -/
theorem Frames.runAside {m : BlockM Unit} {missing : Option Error} {c : Column}
    (h : Frames b names result P m) (hc : Dispatch.runAside m b result missing = .ok c) :
    P c := by
  unfold Dispatch.runAside at hc
  unfold Frames at h
  split at hc
  · next b' hrun =>
      rw [hrun] at h
      obtain ⟨b₀, d, -, hd, hset⟩ := h
      rw [Block.column_setColumn_self hset] at hc
      cases hc
      exact hd
  · cases hc

/-- The result check passes after a run that wrote a column of the call's rows, so it
frames what the run frames. -/
theorem Frames.checkResult {f : Builtin} {rows : Nat} {m : BlockM Unit}
    (h : Frames b names result (·.length = rows) m) :
    Frames b names result (·.length = rows) (m >>= fun _ => f.checkResult result rows) := by
  unfold Frames at h ⊢
  rw [EStateM.run_bind]
  split at h
  · next b' hrun =>
      obtain ⟨b₀, c, hext, hlen, hset⟩ := h
      rw [hrun]
      dsimp only
      rw [Builtin.run_checkResult f (Block.column_setColumn_self hset) hlen]
      exact ⟨b₀, c, hext, hlen, hset⟩
  · next hrun =>
      rw [hrun]
      exact h

end BlockM

namespace Builtin

open BlockM Dispatch

variable {cfg : Config} {b : Block} {args : List Nat} {result rows : Nat}

/-- The substring family appends its helper columns and writes what the substring kernel
computes, so every property of the kernel's results holds of the column it writes. -/
theorem frames_run_slices {f : Builtin} (hf : f ∈ [substring, substringFrom, left, right])
    {P : Column → Prop} (hP : ∀ b₀ s p l c, Slice.result cfg b₀ s p l rows = .ok c → P c) :
    Frames b f.helperNames result P (f.run cfg args result rows) := by
  simp only [List.mem_cons, List.not_mem_nil, or_false] at hf
  rcases hf with rfl | rfl | rfl | rfl
  · exact Frames.lift_bind fun s _ => Frames.lift_bind fun p _ => Frames.lift_bind fun l _ =>
      Frames.write (hP _ s p l)
  · exact Frames.insert_bind fun _ len _ => Frames.lift_bind fun s _ =>
      Frames.lift_bind fun p _ => Frames.write (hP _ s p len)
  · exact Frames.insert_bind fun _ pos _ => Frames.lift_bind fun s _ =>
      Frames.lift_bind fun n _ => Frames.write (hP _ s pos n)
  · refine Frames.get_bind (Frames.lift_bind fun ⟨s, index, strlen⟩ _ => ?_)
    exact Frames.insert_bind fun _ pos _ => Frames.insert_bind fun _ len _ =>
      Frames.write (hP _ s pos len)

/-- A function's own work, from a block whose arguments have `rows` rows, appends its helper
columns and writes a column of `rows` rows. -/
theorem frames_run (f : Builtin) (hargs : ArgsHave b args rows) :
    Frames b f.helperNames result (·.length = rows) (f.run cfg args result rows) := by
  cases f
  case substring | substringFrom | left | right =>
    exact frames_run_slices (by simp) fun _ _ _ _ _ h => (Slice.result_out h).2.2
  case nullOrEmpty => exact Frames.write fun _ => Measure.nullOrEmptyResult_length
  case concatWs => exact Frames.write fun _ => Join.concatWsResult_length
  case «repeat» => exact Frames.write fun _ => Fill.repeatResult_length
  case length | charLength => exact Frames.write fun _ => Measure.lengthResult_length
  case startsWith | endsWith => exact Frames.write fun _ => Measure.testResult_length
  case space => exact Frames.write fun _ => Fill.spaceResult_length hargs
  case concat =>
    show Frames b [] result _ (runConcat cfg args result rows)
    unfold runConcat
    split
    · -- a single argument is passed through, made nullable
      next only =>
        refine Frames.column_bind fun c hc => ?_
        have hlen : c.length = rows := hargs only (by simp) c hc
        dsimp only
        split
        · exact Frames.throw_bind _
        · exact Frames.setColumn (by split <;> simp [hlen])
    · exact Frames.write fun _ => Join.concatResult_length

/-- Under the NULL policy the function runs either on the block itself or aside, on its
stripped arguments, and what it writes there is laid over with the merged null map; either
way the column written has the call's rows. -/
theorem frames_executeWithNulls (f : Builtin) (hargs : ArgsHave b args rows) :
    Frames b f.helperNames result (·.length = rows) (f.executeWithNulls cfg args result rows) := by
  unfold executeWithNulls
  split
  · exact frames_run f hargs
  · refine Frames.get_bind (Frames.lift_bind fun scan _ => ?_)
    cases scan with
    | constNull => exact Frames.lift_bind fun _ _ => Frames.lift_bind fun _ _ => Frames.setColumn rfl
    | plain => exact frames_run f hargs
    | nullable =>
        refine Frames.lift_bind fun ⟨stripped, positions, nulls⟩ hstrip => ?_
        refine Frames.lift_bind fun e _ => Frames.lift_bind fun produced hproduced => ?_
        refine Frames.lift_bind fun wrapped hwrapped => Frames.setColumn ?_
        -- every stripped argument has `rows` rows, so the run aside writes `rows` rows
        have huni : (stripped.insertSlot e.name e.type.removeNullable).1.Uniform rows :=
          (stripArguments_uniform hargs (Block.uniform_empty rows) hstrip).insertSlot _ _
        have hlen : produced.length = rows :=
          Frames.runAside (frames_run f (huni.argsHave positions)) hproduced
        exact (length_wrapResult hwrapped).trans hlen

/-- The folded branch appends nothing to the block and writes a constant of the call's
rows. -/
theorem frames_executeFolded (f : Builtin) :
    Frames b [] result (·.length = rows) (f.executeFolded cfg args result rows) := by
  unfold executeFolded
  refine Frames.get_bind (Frames.lift_bind fun _ _ => Frames.lift_bind fun _ _ => ?_)
  exact Frames.lift_bind fun _ _ => Frames.lift_bind fun _ hc =>
    Frames.setColumn (Column.length_of_constant? hc)

/-- A call through the dispatcher frames its block as the branch it takes does: the arity
and row checks only read, and the result check that ends the call passes after any write. -/
theorem frames_executeAs {f : Builtin} {names : List String} (folds : Bool)
    (hfolded : f.arity.accepts args.length →
      Frames b names result (·.length = rows) (f.executeFolded cfg args result rows))
    (hnulls : f.arity.accepts args.length → ArgsHave b args rows →
      (folds = true → allConstant b args ≠ .ok true) →
      Frames b names result (·.length = rows) (f.executeWithNulls cfg args result rows)) :
    Frames b names result (·.length = rows) (f.executeAs folds cfg args result rows) := by
  unfold executeAs
  dsimp only
  split
  · exact Frames.throw_bind _
  · next harity =>
    have haccepts : f.arity.accepts args.length := by simpa using harity
    refine Frames.get_bind (Frames.lift_bind fun _ hrows => ?_)
    have hargs := argsHave_of_checkArgumentRows hrows
    cases folds with
    | true =>
        refine Frames.get_bind (Frames.lift_bind fun fold hfold => ?_)
        cases fold with
        | true => exact Frames.checkResult (hfolded haccepts)
        | false =>
            refine Frames.checkResult (hnulls haccepts hargs fun _ => ?_)
            rw [hfold]
            simp
    | false => exact Frames.pure_bind false (Frames.checkResult (hnulls haccepts hargs nofun))

/-- Every call frames its block with its function's helper columns. -/
theorem frames_execute (f : Builtin) :
    Frames b f.helperNames result (·.length = rows) (f.execute cfg args result rows) :=
  frames_executeAs _ (fun _ => (frames_executeFolded f).mono List.nil_prefix fun _ h => h)
    fun _ hargs _ => frames_executeWithNulls f hargs

/-- A call over constants only is folded, and appends nothing. -/
theorem frames_execute_of_const (f : Builtin) {cols : List Column}
    (hcols : List.Forall₂ (fun pos c => b.column pos = .ok c) args cols)
    (hconst : ∀ c ∈ cols, c.isConst) :
    Frames b [] result (·.length = rows) (f.execute cfg args result rows) := by
  refine frames_executeAs _ (fun _ => frames_executeFolded f) fun harity _ hnot => ?_
  refine absurd ?_ (hnot rfl)
  rw [allConstant_eq hcols]
  simp [ne_nil_of_accepts harity, List.all_eq_true.mpr hconst]

end Builtin

namespace Registry

open BlockM

/-- The helper columns a call of `name` with `argc` arguments may append: those of the
function it resolves to, none when it resolves to none. -/
def helperNames (reg : Registry) (name : String) (argc : Nat) : List String :=
  match reg.find name argc with
  | .ok f => f.helperNames
  | .error _ => []

theorem frames_execute (reg : Registry) (cfg : Config) (name : String) (args : List Nat)
    (result : Nat) {b : Block} :
    Frames b (reg.helperNames name args.length) result (·.length = b.rows)
      (reg.execute cfg name args result) := by
  unfold execute
  refine Frames.lift_bind fun f hf => Frames.get_bind ?_
  rw [show reg.helperNames name args.length = f.helperNames by simp [helperNames, hf]]
  exact f.frames_execute

end Registry

namespace Builtin

/-- A call of a built-in function, directly or by name through a registry, keeps the frame
of its block whatever the block holds, and whether it succeeds or fails: it appends at most
its function's helper columns behind the block's entries, none when its arguments are all
constants, and changes no entry of the block but the one at `result`, that one only when it
succeeds. -/
theorem execute_keeps_frame (f : Builtin) (cfg : Config) (b : Block) (args : List Nat)
    (result n : Nat) :
    b.Keeps f.helperNames result ((f.execute cfg args result n).run b) ∧
    (∀ cols : List Column, List.Forall₂ (fun pos c => b.column pos = .ok c) args cols →
      (∀ c ∈ cols, c.isConst) → b.Keeps [] result ((f.execute cfg args result n).run b)) ∧
    ∀ (reg : Registry) (name : String),
      b.Keeps (reg.helperNames name args.length) result ((reg.execute cfg name args result).run b) :=
  ⟨(frames_execute f).keeps, fun _ hcols hconst => (frames_execute_of_const f hcols hconst).keeps,
    fun reg name => (reg.frames_execute cfg name args result).keeps⟩

theorem execute_keeps_frame_left :
    let b : Block := ⟨[⟨"s", .string, some (.const (.string ⟨[[97, 98]]⟩) 2)⟩,
      ⟨"n", .int32, some (.const (.int32 [1]) 2)⟩, ⟨"r", .string, none⟩]⟩
    let cols := [Column.const (.string ⟨[[97, 98]]⟩) 2, .const (.int32 [1]) 2]
    List.Forall₂ (fun pos c => b.column pos = .ok c) [0, 1] cols ∧ (∀ c ∈ cols, c.isConst) ∧
      b.Keeps [] 2 ((Builtin.left.execute {} [0, 1] 2 2).run b) := by
  intro b cols
  have hargs : List.Forall₂ (fun pos c => b.column pos = .ok c) [0, 1] cols :=
    .cons rfl (.cons rfl .nil)
  have hconst : ∀ c ∈ cols, c.isConst := by decide
  exact ⟨hargs, hconst, (execute_keeps_frame .left {} b [0, 1] 2 2).2.1 cols hargs hconst⟩

end Builtin

end TextBatch

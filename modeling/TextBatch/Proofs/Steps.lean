import TextBatch.Proofs.Cells

/-! # Steps of a call on a block

A call changes its block by appending columns (`insert`) and by filling or replacing one entry
(`setColumn`); everything else it does is reading. The lemmas here say what each step leaves
behind: an appended column is read back at the position `insert` answers and every older
position reads as before, and `setColumn` changes the one position it names. A call is a
program in `BlockM`, and a successful run of `x >>= f` is a successful run of `x` followed by
one of `f` (`run_bind_eq_ok`), so that facts about a whole call are put together from facts
about its steps.
-/

namespace TextBatch

namespace Block

theorem column_eq_ok_iff {b : Block} {pos : Nat} {c : Column} :
    b.column pos = .ok c ↔ ∃ e, b.entries[pos]? = some e ∧ e.column = some c := by
  unfold column entry?
  split
  · next e he =>
      split at he
      · next e' he' =>
          cases he
          split <;> simp_all
      · cases he
  · next err he =>
      split at he
      · cases he
      · next hnone => simp [hnone]

theorem lt_size_of_column_eq_ok {b : Block} {pos : Nat} {c : Column} (h : b.column pos = .ok c) :
    pos < b.size := by
  obtain ⟨e, he, -⟩ := column_eq_ok_iff.mp h
  exact (List.getElem?_eq_some_iff.mp he).1

theorem column_append_of_lt {b : Block} (es : List Entry) {pos : Nat} (h : pos < b.size) :
    (⟨b.entries ++ es⟩ : Block).column pos = b.column pos := by
  have hget : (b.entries ++ es)[pos]? = b.entries[pos]? := List.getElem?_append_left h
  obtain ⟨e, he⟩ : ∃ e, b.entries[pos]? = some e := ⟨_, List.getElem?_eq_getElem h⟩
  simp [column, entry?, hget, he]

/-- A column read before an append reads the same after it. -/
theorem column_append_of_ok {b : Block} (es : List Entry) {pos : Nat} {c : Column}
    (h : b.column pos = .ok c) : (⟨b.entries ++ es⟩ : Block).column pos = .ok c :=
  (column_append_of_lt es (lt_size_of_column_eq_ok h)).trans h

theorem Forall₂.column_append {b : Block} {ps : List Nat} {cs : List Column}
    (h : List.Forall₂ (fun p c => b.column p = .ok c) ps cs) (es : List Entry) :
    List.Forall₂ (fun p c => (⟨b.entries ++ es⟩ : Block).column p = .ok c) ps cs :=
  h.imp fun _ _ hc => column_append_of_ok es hc

/-! The arguments of a call of fixed arity: so many positions, each read as its column. -/

theorem Forall₂.single {b : Block} {args : List Nat} {cols : List Column}
    (h : List.Forall₂ (fun p c => b.column p = .ok c) args cols) (hlen : args.length = 1) :
    ∃ s cs, args = [s] ∧ cols = [cs] ∧ b.column s = .ok cs := by
  obtain ⟨s, rfl⟩ := List.length_eq_one_iff.mp hlen
  rcases h with _ | ⟨hs, _ | _⟩
  exact ⟨s, _, rfl, rfl, hs⟩

theorem Forall₂.pair {b : Block} {args : List Nat} {cols : List Column}
    (h : List.Forall₂ (fun p c => b.column p = .ok c) args cols) (hlen : args.length = 2) :
    ∃ s k cs ck, args = [s, k] ∧ cols = [cs, ck] ∧ b.column s = .ok cs ∧ b.column k = .ok ck := by
  obtain ⟨s, k, rfl⟩ := List.length_eq_two.mp hlen
  rcases h with _ | ⟨hs, _ | ⟨hk, _ | _⟩⟩
  exact ⟨s, k, _, _, rfl, rfl, hs, hk⟩

theorem Forall₂.triple {b : Block} {args : List Nat} {cols : List Column}
    (h : List.Forall₂ (fun p c => b.column p = .ok c) args cols) (hlen : args.length = 3) :
    ∃ s p l cs cp cl, args = [s, p, l] ∧ cols = [cs, cp, cl] ∧
      b.column s = .ok cs ∧ b.column p = .ok cp ∧ b.column l = .ok cl := by
  obtain ⟨s, p, l, rfl⟩ := List.length_eq_three.mp hlen
  rcases h with _ | ⟨hs, _ | ⟨hp, _ | ⟨hl, _ | _⟩⟩⟩
  exact ⟨s, p, l, _, _, _, rfl, rfl, hs, hp, hl⟩

theorem column_append_size {b : Block} {e : Entry} {c : Column} (hc : e.column = some c) :
    (⟨b.entries ++ [e]⟩ : Block).column b.size = .ok c :=
  column_eq_ok_iff.mpr ⟨e, by simp [size], hc⟩

theorem exists_entry_of_lt {b : Block} {pos : Nat} (h : pos < b.size) :
    ∃ e, b.entry? pos = .ok e := by
  obtain ⟨e, he⟩ : ∃ e, b.entries[pos]? = some e := ⟨_, List.getElem?_eq_getElem h⟩
  exact ⟨e, by simp [Block.entry?, he]⟩

theorem lt_size_append {b : Block} {pos : Nat} (h : pos < b.size) (es : List Entry) :
    pos < (⟨b.entries ++ es⟩ : Block).size := by
  simp only [size, List.length_append] at h ⊢
  omega

/-- `insert` appends the column at the end and answers that position. -/
theorem insert_eq_ok {b b' : Block} {name : String} {c : Column} {pos : Nat}
    (h : b.insert name c = .ok (b', pos)) :
    b' = ⟨b.entries ++ [⟨name, c.dataType, some c⟩]⟩ ∧ pos = b.size := by
  unfold insert at h
  split at h
  · simp only [Except.ok.injEq, Prod.mk.injEq] at h
    exact ⟨h.1.symm, h.2.symm⟩
  · cases h

theorem column_insert_self {b b' : Block} {name : String} {c : Column} {pos : Nat}
    (h : b.insert name c = .ok (b', pos)) : b'.column pos = .ok c := by
  obtain ⟨rfl, rfl⟩ := insert_eq_ok h
  exact column_append_size rfl

theorem column_insert_of_lt {b b' : Block} {name : String} {c : Column} {pos p : Nat}
    (h : b.insert name c = .ok (b', pos)) (hp : p < b.size) : b'.column p = b.column p := by
  obtain ⟨rfl, rfl⟩ := insert_eq_ok h
  exact column_append_of_lt _ hp

/-- A successful `setColumn` changes the column at its position and nothing else. -/
theorem column_setColumn {b b' : Block} {pos : Nat} {c : Column} (h : b.setColumn pos c = .ok b')
    (p : Nat) : b'.column p = if p = pos then .ok c else b.column p := by
  unfold setColumn at h
  split at h
  · cases h
  · next e he =>
      split at h
      · simp only [Except.ok.injEq] at h
        subst h
        have hlt : pos < b.entries.length := (List.getElem?_eq_some_iff.mp he).1
        split
        · next hp =>
            subst hp
            exact column_eq_ok_iff.mpr
              ⟨{ e with type := c.dataType, column := some c }, by simp [hlt], rfl⟩
        · next hp =>
            unfold column entry?
            simp only [List.getElem?_set, Ne.symm hp, if_false, size, List.length_set]
      · cases h

theorem column_setColumn_self {b b' : Block} {pos : Nat} {c : Column}
    (h : b.setColumn pos c = .ok b') : b'.column pos = .ok c := by
  simpa using column_setColumn h pos

/-- Position `pos` of `b` holds the well-formed column `c` of `rows` rows. -/
structure Holds (b : Block) (rows pos : Nat) (c : Column) : Prop where
  column_eq : b.column pos = .ok c
  wellFormed : c.wellFormed
  length_eq : c.length = rows

theorem Holds.full_eq {b : Block} {rows pos : Nat} {c : Column} (h : b.Holds rows pos c) :
    b.full pos = .ok c.toFull := by
  simp [full, h.column_eq]

theorem Holds.unpack_eq {b : Block} {rows pos : Nat} {c : Column} (h : b.Holds rows pos c) :
    b.unpack pos = .ok c.toFull.unwrapNullable := by
  simp [unpack, h.full_eq]

/-- What `insert` appended is held at its position, and older positions hold what they held. -/
theorem Holds.insert {b b' : Block} {rows pos : Nat} {c : Column} (h : b.Holds rows pos c)
    {name : String} {d : Column} {p : Nat} (hins : b.insert name d = .ok (b', p)) :
    b'.Holds rows pos c :=
  ⟨(column_insert_of_lt hins (lt_size_of_column_eq_ok h.column_eq)).trans h.column_eq,
    h.wellFormed, h.length_eq⟩

theorem holds_insert_self {b b' : Block} {rows : Nat} {name : String} {d : Column} {p : Nat}
    (hins : b.insert name d = .ok (b', p)) (hwf : d.wellFormed) (hlen : d.length = rows) :
    b'.Holds rows p d :=
  ⟨column_insert_self hins, hwf, hlen⟩

/-- An argument unpacks into its plain values and its null map, which give its cells back. -/
theorem Holds.unpack {b : Block} {rows pos : Nat} {c : Column} (h : b.Holds rows pos c) :
    ∃ u m, b.unpack pos = .ok (u, m) ∧ Column.Splits c u m :=
  ⟨_, _, h.unpack_eq, Column.splits_unpack h.wellFormed⟩

/-- A held argument's null map has its rows, so its merge into a map of as many rows passes the
check. -/
theorem Holds.unpackInto {b : Block} {rows pos : Nat} {c : Column} (h : b.Holds rows pos c)
    {nulls : NullMap} (hn : nulls.length = rows) (checks : Bool) :
    b.unpackInto checks nulls pos =
      .ok (c.toFull.unwrapNullable.1, nulls.mergeOpt c.toFull.unwrapNullable.2) :=
  unpackInto_eq h.unpack_eq (fun x hx =>
    ((Column.splits_unpack h.wellFormed).length_nulls x hx).trans (h.length_eq.trans hn.symm)) checks

theorem Holds.get_isOk {b : Block} {rows pos : Nat} {c : Column} (h : b.Holds rows pos c)
    {r : Nat} (hr : r < rows) : ∃ v, c.get r = .ok v :=
  Column.get_isOk_of_wellFormed h.wellFormed (h.length_eq ▸ hr)

/-- What the checked constructors keep of a block: every filled entry holds a well-formed
column of `rows` rows, of the entry's type. -/
def Shaped (b : Block) (rows : Nat) : Prop :=
  ∀ e ∈ b.entries, ∀ c ∈ e.column, c.wellFormed ∧ c.length = rows ∧ e.type = c.dataType

theorem shaped_empty (rows : Nat) : Block.empty.Shaped rows := by
  simp [Shaped, empty]

theorem Shaped.append {b : Block} {rows : Nat} (h : b.Shaped rows) {e : Entry}
    (he : ∀ c ∈ e.column, c.wellFormed ∧ c.length = rows ∧ e.type = c.dataType) :
    (⟨b.entries ++ [e]⟩ : Block).Shaped rows := by
  intro e' he'
  rcases List.mem_append.mp he' with hold | hnew
  · exact h e' hold
  · rw [List.mem_singleton.mp hnew]
    exact he

/-- The row count of a filled entry, found by the scan that `rows` and `checkRows` make. -/
theorem exists_of_firstRows {skip : Option Nat} {i m : Nat} {es : List Entry}
    (h : firstRows skip i es = some m) : ∃ e ∈ es, ∃ c ∈ e.column, c.length = m := by
  induction es generalizing i with
  | nil => cases h
  | cons e es ih =>
      unfold firstRows at h
      split at h
      · next c hc =>
          split at h
          · obtain ⟨e', he', hrest⟩ := ih h
            exact ⟨e', List.mem_cons_of_mem e he', hrest⟩
          · cases h
            exact ⟨e, List.mem_cons_self, c, hc, rfl⟩
      · obtain ⟨e', he', hrest⟩ := ih h
        exact ⟨e', List.mem_cons_of_mem e he', hrest⟩

theorem Shaped.checkRows {b : Block} {rows : Nat} (h : b.Shaped rows) (skip : Option Nat)
    {c : Column} (hc : c.length = rows) : b.checkRows skip c = .ok () := by
  unfold Block.checkRows
  split
  · next m hm =>
      obtain ⟨e, he, d, hd, hlen⟩ := exists_of_firstRows hm
      have hm' : m = c.length := by rw [← hlen, (h e he d hd).2.1, hc]
      simp [hm']
  · rfl

theorem Shaped.holds {b : Block} {rows pos : Nat} {c : Column} (h : b.Shaped rows)
    (hc : b.column pos = .ok c) : b.Holds rows pos c := by
  obtain ⟨e, he, hec⟩ := column_eq_ok_iff.mp hc
  obtain ⟨hwf, hlen, -⟩ := h e (List.mem_of_getElem? he) c hec
  exact ⟨hc, hwf, hlen⟩

theorem Shaped.holds_of_forall₂ {b : Block} {rows : Nat} (hb : b.Shaped rows)
    {ps : List Nat} {cs : List Column} (h : List.Forall₂ (fun p c => b.column p = .ok c) ps cs) :
    ∀ c ∈ cs, ∃ p, b.Holds rows p c := by
  induction h with
  | nil => simp
  | cons hc _ ih =>
      intro c hmem
      rcases List.mem_cons.mp hmem with rfl | hmem
      · exact ⟨_, hb.holds hc⟩
      · exact ih c hmem

theorem Shaped.columns_of_forall₂ {b : Block} {rows : Nat} (hb : b.Shaped rows) {ps : List Nat}
    {cs : List Column} (h : List.Forall₂ (fun p c => b.column p = .ok c) ps cs) :
    ∀ c ∈ cs, c.wellFormed ∧ c.length = rows := by
  intro c hc
  obtain ⟨p, hp⟩ := hb.holds_of_forall₂ h c hc
  exact ⟨hp.wellFormed, hp.length_eq⟩

theorem Shaped.type_eq {b : Block} {rows pos : Nat} {c : Column} (h : b.Shaped rows)
    (hc : b.column pos = .ok c) : ∃ e, b.entry? pos = .ok e ∧ e.type = c.dataType := by
  obtain ⟨e, he, hec⟩ := column_eq_ok_iff.mp hc
  exact ⟨e, by simp [he, entry?], (h e (List.mem_of_getElem? he) c hec).2.2⟩

/-- A block with a filled entry has the rows of its entries. -/
theorem Shaped.rows_eq {b : Block} {rows pos : Nat} {c : Column} (h : b.Shaped rows)
    (hc : b.column pos = .ok c) : b.rows = rows := by
  unfold Block.rows
  cases hfirst : firstRows none 0 b.entries with
  | some m =>
      obtain ⟨e, he, d, hd, hlen⟩ := exists_of_firstRows hfirst
      simp [← hlen, (h e he d hd).2.1]
  | none =>
      -- the scan skips nothing, so it finds the filled entry at `pos` or one before it
      obtain ⟨e, he, hec⟩ := column_eq_ok_iff.mp hc
      have hnone : ∀ (i : Nat) (es : List Entry), firstRows none i es = none →
          ∀ e ∈ es, e.column = none := by
        intro i es
        induction es generalizing i with
        | nil => simp
        | cons e es ih =>
            unfold firstRows
            split
            · simp
            · next hcol =>
                intro hrest e' he'
                rcases List.mem_cons.mp he' with rfl | hmem
                · exact hcol
                · exact ih (i + 1) hrest e' hmem
      have := hnone 0 b.entries hfirst e (List.mem_of_getElem? he)
      simp [this] at hec

/-- A column of the block's rows goes in at the end. -/
theorem Shaped.insert_eq {b : Block} {rows : Nat} (h : b.Shaped rows) (name : String)
    {c : Column} (hc : c.length = rows) :
    b.insert name c = .ok (⟨b.entries ++ [⟨name, c.dataType, some c⟩]⟩, b.size) := by
  simp [Block.insert, h.checkRows none hc]

theorem Shaped.insert {b : Block} {rows : Nat} (h : b.Shaped rows) (name : String) {c : Column}
    (hwf : c.wellFormed) (hc : c.length = rows) :
    (⟨b.entries ++ [⟨name, c.dataType, some c⟩]⟩ : Block).Shaped rows :=
  h.append fun d hd => by
    cases hd
    exact ⟨hwf, hc, rfl⟩

theorem Shaped.insertSlot {b : Block} {rows : Nat} (h : b.Shaped rows) (name : String)
    (t : DataType) : (b.insertSlot name t).1.Shaped rows :=
  h.append fun d hd => by cases hd

/-- A column of the block's rows fills any position of it. -/
theorem Shaped.setColumn_isOk {b : Block} {rows pos : Nat} (h : b.Shaped rows)
    (hpos : pos < b.size) {c : Column} (hc : c.length = rows) : ∃ b', b.setColumn pos c = .ok b' := by
  obtain ⟨e, he⟩ : ∃ e, b.entries[pos]? = some e := ⟨_, List.getElem?_eq_getElem hpos⟩
  exact ⟨⟨b.entries.set pos { e with type := c.dataType, column := some c }⟩,
    by simp [Block.setColumn, he, h.checkRows (some pos) hc]⟩

/-- A well-formed column of the block's rows fills any position of it, and the block keeps its
shape. -/
theorem Shaped.setColumn {b : Block} {rows pos : Nat} (h : b.Shaped rows) (hpos : pos < b.size)
    {c : Column} (hwf : c.wellFormed) (hc : c.length = rows) :
    ∃ b', b.setColumn pos c = .ok b' ∧ b'.Shaped rows := by
  obtain ⟨e, he⟩ : ∃ e, b.entries[pos]? = some e := ⟨_, List.getElem?_eq_getElem hpos⟩
  refine ⟨⟨b.entries.set pos { e with type := c.dataType, column := some c }⟩,
    by simp [Block.setColumn, he, h.checkRows (some pos) hc], ?_⟩
  intro e' he' d hd
  rcases List.mem_or_eq_of_mem_set he' with hold | rfl
  · exact h e' hold d hd
  · cases hd
    exact ⟨hwf, hc, rfl⟩

end Block

namespace BlockM

variable {α β : Type}

/-- A run of `x >>= f` succeeds exactly when `x` succeeds and `f` then succeeds from where `x`
left the block. -/
theorem run_bind_eq_ok {x : BlockM α} {f : α → BlockM β} {b b' : Block} {v : β} :
    (x >>= f).run b = .ok v b' ↔ ∃ a b₀, x.run b = .ok a b₀ ∧ (f a).run b₀ = .ok v b' := by
  rw [EStateM.run_bind]
  cases hx : x.run b with
  | ok a b₀ => simp
  | error e b₀ => simp

@[simp] theorem run_lift (r : Except Error α) (b : Block) :
    (lift r).run b = match r with
      | .ok a => .ok a b
      | .error e => .error e b := by
  cases r <;> rfl

theorem run_setColumn (pos : Nat) (c : Column) (b : Block) :
    (setColumn pos c).run b = match b.setColumn pos c with
      | .ok b' => .ok () b'
      | .error e => .error e b := by
  simp only [setColumn, EStateM.run_bind, EStateM.run_get, run_lift]
  cases b.setColumn pos c <;> simp

theorem run_insert (name : String) (c : Column) (b : Block) :
    (insert name c).run b = match b.insert name c with
      | .ok (b', pos) => .ok pos b'
      | .error e => .error e b := by
  simp only [insert, EStateM.run_bind, EStateM.run_get, run_lift]
  cases b.insert name c <;> simp

theorem run_setColumn_eq_ok {pos : Nat} {c : Column} {b b' : Block} :
    (setColumn pos c).run b = .ok () b' ↔ b.setColumn pos c = .ok b' := by
  rw [run_setColumn]
  cases b.setColumn pos c <;> simp

theorem run_lift_eq_ok {r : Except Error α} {b b' : Block} {a : α} :
    (lift r).run b = .ok a b' ↔ r = .ok a ∧ b' = b := by
  cases r <;> simp [eq_comm]

/-- A kernel step computes a column from the block and writes it at `result`; it succeeds
exactly when both parts do. -/
theorem run_write_eq_ok {kernel : Block → Except Error Column} {result : Nat} {b b' : Block} :
    (do let col ← lift (kernel (← get)); setColumn result col).run b = .ok () b' ↔
      ∃ col, kernel b = .ok col ∧ b.setColumn result col = .ok b' := by
  simp only [EStateM.run_bind, EStateM.run_get, run_lift]
  cases kernel b with
  | error e => simp
  | ok col => simp [run_setColumn_eq_ok]

theorem run_write_of_error {kernel : Block → Except Error Column} {result : Nat}
    {b : Block} {e : Error} (h : kernel b = .error e) :
    (do let col ← lift (kernel (← get)); setColumn result col).run b =
      .error e b := by
  simp only [EStateM.run_bind, EStateM.run_get, run_lift, h]

theorem run_bind_of_ok {x : BlockM α} {f : α → BlockM β} {b b₀ : Block} {a : α}
    (h : x.run b = .ok a b₀) : (x >>= f).run b = (f a).run b₀ := by
  rw [EStateM.run_bind, h]

theorem run_bind_of_error {x : BlockM α} {f : α → BlockM β} {b b₀ : Block} {e : Error}
    (h : x.run b = .error e b₀) : (x >>= f).run b = .error e b₀ := by
  rw [EStateM.run_bind, h]

/-- On a shaped block, `insert` of a column of its rows appends it and answers its position. -/
theorem run_insert_of_shaped {b : Block} {rows : Nat} (hb : b.Shaped rows) (name : String)
    {c : Column} (hc : c.length = rows) :
    (insert name c).run b = .ok b.size ⟨b.entries ++ [⟨name, c.dataType, some c⟩]⟩ := by
  rw [run_insert, hb.insert_eq name hc]

theorem run_insert_eq_ok {name : String} {c : Column} {b b' : Block} {pos : Nat} :
    (insert name c).run b = .ok pos b' ↔ b.insert name c = .ok (b', pos) := by
  rw [run_insert]
  cases h : b.insert name c with
  | error e => simp
  | ok p =>
      obtain ⟨b₀, p₀⟩ := p
      simp [eq_comm, and_comm]

end BlockM

end TextBatch

import TextBatch.Proofs.Veil
import TextBatch.Proofs.Errors

/-! # NULL is an overlay

A null map is laid over the values of a column; what a column stores under a NULL row is never
part of what a call computes. Two blocks are veiled alike (`Block.Veiled`) when they differ at
most in those hidden values. On such blocks every function, through every path of the
dispatcher, fails with one error on both or succeeds on both, and writes one column on both
(`Builtin.execute_blind_to_veiled`). The one exception is `concat` of a single argument, which
passes its argument on: its two results are veiled alike, so they read alike at every row.

The proof follows the two runs in lockstep (`BlockM.Runs`). Reads of veiled blocks agree
(`Agrees`), and what a function reads of its arguments' values it reads only at rows its merged
map leaves valid, where the values agree. The helper columns of `right` are the one place where
hidden values are read: its character counts are taken at every row of the string, NULL or
not. They differ only at rows where the string is NULL, which the kernel never reads.
-/

namespace TextBatch

namespace Agrees

variable {α β : Type} {R : α → β → Prop} {x₁ : Except Error α} {x₂ : Except Error β}

/-- Agreeing outcomes are one error, or two values related by `R`. -/
theorem elim (h : Agrees R x₁ x₂) :
    (∃ e, x₁ = .error e ∧ x₂ = .error e) ∨ ∃ a₁ a₂, x₁ = .ok a₁ ∧ x₂ = .ok a₂ ∧ R a₁ a₂ := by
  cases x₁ <;> cases x₂ <;> simp only [Agrees] at h
  · exact .inl ⟨_, rfl, congrArg _ h.symm⟩
  · exact .inr ⟨_, _, rfl, rfl, h⟩

theorem pure {a : α} {b : β} (h : R a b) : Agrees R (pure a) (pure b) := h

/-- An agreement that also keeps the two successes at hand. -/
theorem with_ok (h : Agrees R x₁ x₂) :
    Agrees (fun a₁ a₂ => x₁ = .ok a₁ ∧ x₂ = .ok a₂ ∧ R a₁ a₂) x₁ x₂ := by
  rcases h.elim with ⟨e, rfl, rfl⟩ | ⟨a₁, a₂, rfl, rfl, hr⟩
  · exact rfl
  · exact ⟨rfl, rfl, hr⟩

theorem mapError {g : Error → Error} (h : Agrees R x₁ x₂) :
    Agrees R (x₁.mapError g) (x₂.mapError g) := by
  rcases h.elim with ⟨e, rfl, rfl⟩ | ⟨a₁, a₂, rfl, rfl, hr⟩
  · exact rfl
  · exact hr

end Agrees

theorem Option.rel_elim {α β : Type} {R : α → β → Prop} {o₁ : Option α} {o₂ : Option β}
    (h : Option.Rel R o₁ o₂) :
    (o₁ = none ∧ o₂ = none) ∨ ∃ a b, o₁ = some a ∧ o₂ = some b ∧ R a b := by
  cases h with
  | none => exact .inl ⟨rfl, rfl⟩
  | some hab => exact .inr ⟨_, _, rfl, rfl, hab⟩

theorem rel_getElem?_of_forall₂ {α β : Type} {R : α → β → Prop} {xs : List α} {ys : List β}
    (h : List.Forall₂ R xs ys) (i : Nat) : Option.Rel R xs[i]? ys[i]? := by
  induction h generalizing i with
  | nil => exact .none
  | cons hxy _ ih =>
      cases i with
      | zero => exact .some hxy
      | succ i => exact ih i

namespace RowsAgree

variable {α : Type} {keep keep' : Nat → Bool} {xs ys : List α}

theorem mono (h : RowsAgree keep xs ys) (hk : ∀ r, keep' r → keep r) : RowsAgree keep' xs ys :=
  ⟨h.1, fun r hr => h.2 r (hk r hr)⟩

end RowsAgree

namespace Column.Veiled

variable {c₁ c₂ : Column}

theorem wellFormed (h : Veiled c₁ c₂) (hwf : c₁.wellFormed) : c₂.wellFormed := by
  induction h with
  | refl c => exact hwf
  | @nullable u₁ u₂ m hu =>
      obtain ⟨-, -, hlen⟩ := wellFormed_nullable.mp hwf
      exact wellFormed_nullable.mpr ⟨wellFormed_of_isPlain hu.plain_right, hu.plain_right,
        hlen.trans hu.length_eq⟩
  | const len hv ih =>
      obtain ⟨hv₁, hone, hc⟩ := wellFormed_const.mp hwf
      exact wellFormed_const.mpr ⟨ih hv₁, hv.length_eq ▸ hone, hv.isConst_eq ▸ hc⟩

theorem symm (h : Veiled c₁ c₂) : Veiled c₂ c₁ := by
  induction h with
  | refl c => exact .refl c
  | nullable m hu =>
      exact .nullable m ⟨hu.plain_right, hu.plain_left, hu.dataType_eq.symm, hu.length_eq.symm,
        fun r hr => (hu.get_eq r hr).symm⟩
  | const len _ ih => exact .const len ih

/-- A column that is not plain gives no strings, and says so by its type alone. -/
theorem strings (h : Veiled c₁ c₂) (fn : String) : Agrees Eq (c₁.strings fn) (c₂.strings fn) := by
  have htype := h.dataType_eq
  cases h with
  | refl c => exact Agrees.of_eq rfl
  | nullable m hu => simpa [Column.strings, Agrees] using htype
  | const len hv => simpa [Column.strings, Agrees] using htype

theorem integers (h : Veiled c₁ c₂) (fn : String) :
    Agrees Eq (c₁.integers fn) (c₂.integers fn) := by
  have htype := h.dataType_eq
  cases h with
  | refl c => exact Agrees.of_eq rfl
  | nullable m hu => simpa [Column.integers, Agrees] using htype
  | const len hv => simpa [Column.integers, Agrees] using htype

end Column.Veiled

namespace Entry

/-- Entries veiled alike: one name and type, and veiled columns or two unfilled slots. -/
structure Veiled (e₁ e₂ : Entry) : Prop where
  name_eq : e₁.name = e₂.name
  type_eq : e₁.type = e₂.type
  column_rel : Option.Rel Column.Veiled e₁.column e₂.column

theorem Veiled.refl (e : Entry) : e.Veiled e := by
  refine ⟨rfl, rfl, ?_⟩
  cases e.column with
  | none => exact .none
  | some c => exact .some (.refl c)

end Entry

namespace Block

/-- Blocks veiled alike: entry by entry, with columns that differ at most under their NULL
rows. -/
def Veiled (b₁ b₂ : Block) : Prop := List.Forall₂ Entry.Veiled b₁.entries b₂.entries

/-- Which entries of a block are filled, and with how many rows: all that its row checks
read. -/
def layout (b : Block) : List (Option Nat) := b.entries.map fun e => e.column.map Column.length

variable {b₁ b₂ : Block}

namespace Veiled

theorem refl (b : Block) : b.Veiled b :=
  List.forall₂_same.mpr fun e _ => Entry.Veiled.refl e

theorem append (h : b₁.Veiled b₂) {e₁ e₂ : Entry} (he : e₁.Veiled e₂) :
    Veiled ⟨b₁.entries ++ [e₁]⟩ ⟨b₂.entries ++ [e₂]⟩ :=
  List.rel_append h (.cons he .nil)

theorem entry? (h : b₁.Veiled b₂) (pos : Nat) :
    Agrees Entry.Veiled (Block.entry? b₁ pos) (Block.entry? b₂ pos) := by
  unfold Block.entry?
  rcases Option.rel_elim (rel_getElem?_of_forall₂ h pos) with ⟨h₁, h₂⟩ | ⟨e₁, e₂, h₁, h₂, he⟩
  · simp only [h₁, h₂, Agrees, size, h.length_eq]
  · simpa only [h₁, h₂, Agrees] using he

theorem column (h : b₁.Veiled b₂) (pos : Nat) :
    Agrees Column.Veiled (b₁.column pos) (b₂.column pos) := by
  unfold Block.column
  rcases (h.entry? pos).elim with ⟨e, h₁, h₂⟩ | ⟨e₁, e₂, h₁, h₂, he⟩
  · rw [h₁, h₂]
    rfl
  · rw [h₁, h₂]
    rcases Option.rel_elim he.column_rel with ⟨hc₁, hc₂⟩ | ⟨c₁, c₂, hc₁, hc₂, hc⟩
    · simp only [hc₁, hc₂, Agrees, he.name_eq]
    · simpa only [hc₁, hc₂, Agrees] using hc

/-- Reading a veiled argument spelled out gives veiled columns. -/
theorem full (h : b₁.Veiled b₂) {rows : Nat} (hb : b₁.Shaped rows) (pos : Nat) :
    Agrees Column.Veiled (b₁.full pos) (b₂.full pos) := by
  unfold Block.full
  rcases (h.column pos).elim with ⟨e, h₁, h₂⟩ | ⟨c₁, c₂, h₁, h₂, hc⟩
  · rw [h₁, h₂]
    rfl
  · rw [h₁, h₂]
    have hwf := (hb.holds h₁).wellFormed
    exact hc.toFull hwf (hc.wellFormed hwf)

end Veiled

theorem firstRows_congr (skip : Option Nat) {es₁ es₂ : List Entry}
    (h : es₁.map (fun e => e.column.map Column.length) =
      es₂.map (fun e => e.column.map Column.length)) (i : Nat) :
    firstRows skip i es₁ = firstRows skip i es₂ := by
  induction es₁ generalizing es₂ i with
  | nil =>
      cases es₂ with
      | nil => rfl
      | cons => simp at h
  | cons e₁ es₁ ih =>
      cases es₂ with
      | nil => simp at h
      | cons e₂ es₂ =>
          simp only [List.map_cons, List.cons.injEq] at h
          obtain ⟨he, hes⟩ := h
          simp only [firstRows]
          cases hc₁ : e₁.column <;> cases hc₂ : e₂.column <;>
            simp only [hc₁, hc₂, Option.map_none, Option.map_some, reduceCtorEq,
              Option.some.injEq] at he ⊢
          · exact ih hes (i + 1)
          · rw [ih hes (i + 1), he]

theorem size_eq_of_layout (h : b₁.layout = b₂.layout) : b₁.size = b₂.size := by
  simpa [layout, size] using congrArg List.length h

theorem checkRows_congr (h : b₁.layout = b₂.layout) (skip : Option Nat) {c₁ c₂ : Column}
    (hlen : c₁.length = c₂.length) : b₁.checkRows skip c₁ = b₂.checkRows skip c₂ := by
  simp only [checkRows, firstRows_congr skip h 0, hlen]

/-- Writing columns of one length into blocks of one layout fails alike or succeeds alike. -/
theorem setColumn_congr (h : b₁.layout = b₂.layout) {c₁ c₂ : Column}
    (hlen : c₁.length = c₂.length) (pos : Nat) :
    Agrees (fun b₁' b₂' => b₁'.column pos = .ok c₁ ∧ b₂'.column pos = .ok c₂)
      (b₁.setColumn pos c₁) (b₂.setColumn pos c₂) := by
  have hsize : b₁.entries.length = b₂.entries.length := size_eq_of_layout h
  have hcheck := checkRows_congr h (some pos) hlen
  by_cases hlt : pos < b₁.entries.length
  · have hlt₂ : pos < b₂.entries.length := hsize ▸ hlt
    obtain ⟨e₁, he₁⟩ : ∃ e, b₁.entries[pos]? = some e := ⟨_, List.getElem?_eq_getElem hlt⟩
    obtain ⟨e₂, he₂⟩ : ∃ e, b₂.entries[pos]? = some e := ⟨_, List.getElem?_eq_getElem hlt₂⟩
    cases hc : b₂.checkRows (some pos) c₂ with
    | error e => simp [setColumn, he₁, he₂, hcheck, hc, Agrees]
    | ok u =>
        obtain ⟨b₁', hs₁⟩ : ∃ b', b₁.setColumn pos c₁ = .ok b' := by
          simp only [setColumn, he₁, hcheck, hc, Except.ok.injEq, exists_eq']
        obtain ⟨b₂', hs₂⟩ : ∃ b', b₂.setColumn pos c₂ = .ok b' := by
          simp only [setColumn, he₂, hc, Except.ok.injEq, exists_eq']
        rw [hs₁, hs₂]
        exact ⟨column_setColumn_self hs₁, column_setColumn_self hs₂⟩
  · have hge₁ : b₁.entries.length ≤ pos := Nat.le_of_not_lt hlt
    have hge₂ : b₂.entries.length ≤ pos := hsize ▸ hge₁
    simp [setColumn, List.getElem?_eq_none hge₁, List.getElem?_eq_none hge₂, Agrees,
      size_eq_of_layout h]

/-- Appending columns of one length to blocks of one layout fails alike, or succeeds alike at
one position with blocks of one layout. -/
theorem insert_congr (h : b₁.layout = b₂.layout) (name : String) {c₁ c₂ : Column}
    (hlen : c₁.length = c₂.length) :
    Agrees (fun r₁ r₂ => r₁.2 = r₂.2 ∧ r₁.1.layout = r₂.1.layout)
      (b₁.insert name c₁) (b₂.insert name c₂) := by
  unfold insert
  rw [checkRows_congr h none hlen]
  cases b₂.checkRows none c₂ with
  | error e => rfl
  | ok u =>
      refine ⟨size_eq_of_layout h, ?_⟩
      simp only [layout, List.map_append, List.map_cons, List.map_nil, Option.map_some, hlen]
      exact congrArg (· ++ [some c₂.length]) h

/-- Blocks that hold, at `pos`, columns related by `C`. -/
def WroteAt (pos : Nat) (C : Column → Column → Prop) (b₁ b₂ : Block) : Prop :=
  ∃ c₁ c₂, b₁.column pos = .ok c₁ ∧ b₂.column pos = .ok c₂ ∧ C c₁ c₂

end Block

/-- Unpacked arguments alike at the rows `keep` selects: one null map, of `rows` rows, and plain
values that agree at every selected row the map leaves valid. -/
structure UnpackedAlike (rows : Nat) (keep : Nat → Bool) (a₁ a₂ : Column × Option NullMap) :
    Prop where
  nulls_eq : a₁.2 = a₂.2
  nulls_length : ∀ m ∈ a₁.2, m.length = rows
  agree : Column.AgreeOn (fun r => keep r && !NullMap.flagged a₁.2 r) a₁.1 a₂.1

theorem UnpackedAlike.mono {rows : Nat} {keep keep' : Nat → Bool}
    {a₁ a₂ : Column × Option NullMap} (h : UnpackedAlike rows keep a₁ a₂)
    (hk : ∀ r, keep' r → keep r) : UnpackedAlike rows keep' a₁ a₂ :=
  ⟨h.nulls_eq, h.nulls_length, h.agree.mono fun r hr => by
    simp only [Bool.and_eq_true] at hr ⊢
    exact ⟨hk r hr.1, hr.2⟩⟩

/-- Unpacking veiled arguments of `rows` rows gives one map over values that agree wherever
it leaves the row valid. -/
theorem Block.Veiled.unpack {b₁ b₂ : Block} (h : b₁.Veiled b₂) {rows : Nat}
    (hb : b₁.Shaped rows) (pos : Nat) :
    Agrees (UnpackedAlike rows fun _ => true) (b₁.unpack pos) (b₂.unpack pos) := by
  unfold Block.unpack Block.full
  rcases (h.column pos).elim with ⟨e, h₁, h₂⟩ | ⟨c₁, c₂, h₁, h₂, hc⟩
  · rw [h₁, h₂]
    rfl
  · rw [h₁, h₂]
    have hold := hb.holds h₁
    obtain ⟨hnulls, hagree⟩ := hc.unpack hold.wellFormed (hc.wellFormed hold.wellFormed)
    refine ⟨hnulls, fun m hm => ?_, hagree⟩
    rw [Column.length_unwrapNullable_snd (Column.toFull_wellFormed hold.wellFormed).1 m hm,
      Column.length_toFull, hold.length_eq]

theorem Block.Veiled.mapM_unpack {b₁ b₂ : Block} (h : b₁.Veiled b₂) {rows : Nat}
    (hb : b₁.Shaped rows) (args : List Nat) :
    Agrees (List.Forall₂ (UnpackedAlike rows fun _ => true)) (args.mapM b₁.unpack)
      (args.mapM b₂.unpack) :=
  Agrees.mapM (List.forall₂_same.mpr fun pos _ => h.unpack hb pos)

/-- A block holds one column at each position, so the columns at a list of positions are
determined. -/
theorem Block.forall₂_column_unique {b : Block} {args : List Nat} {cs ds : List Column}
    (h₁ : List.Forall₂ (fun pos c => b.column pos = .ok c) args cs)
    (h₂ : List.Forall₂ (fun pos c => b.column pos = .ok c) args ds) : cs = ds := by
  induction h₁ generalizing ds with
  | nil => exact (List.forall₂_nil_left_iff.mp h₂).symm
  | cons hc _ ih =>
      cases h₂ with
      | cons hd hrest => rw [Except.ok.inj (hc.symm.trans hd), ih hrest]

/-- Outcomes of two runs: one error, or values related by `R` and blocks related by `B`. -/
def Outcomes {α β : Type} (B : Block → Block → Prop) (R : α → β → Prop) :
    EStateM.Result Error Block α → EStateM.Result Error Block β → Prop
  | .ok a₁ b₁, .ok a₂ b₂ => R a₁ a₂ ∧ B b₁ b₂
  | .error e₁ _, .error e₂ _ => e₁ = e₂
  | _, _ => False

namespace BlockM

/-- Runs of `m₁` on `b₁` and of `m₂` on `b₂` whose outcomes are related by `B` and `R`. -/
def Runs {α β : Type} (B : Block → Block → Prop) (R : α → β → Prop) (b₁ b₂ : Block)
    (m₁ : BlockM α) (m₂ : BlockM β) : Prop :=
  Outcomes B R (m₁.run b₁) (m₂.run b₂)

section Runs

variable {α β γ δ : Type} {B B' : Block → Block → Prop} {R : α → β → Prop} {S : γ → δ → Prop}
  {b₁ b₂ : Block}

theorem Runs.bind {x₁ : BlockM α} {x₂ : BlockM β} {k₁ : α → BlockM γ} {k₂ : β → BlockM δ}
    (hx : Runs B R b₁ b₂ x₁ x₂)
    (hk : ∀ a₁ a₂ b₁' b₂', R a₁ a₂ → B b₁' b₂' → Runs B' S b₁' b₂' (k₁ a₁) (k₂ a₂)) :
    Runs B' S b₁ b₂ (x₁ >>= k₁) (x₂ >>= k₂) := by
  unfold Runs at hx ⊢
  rw [EStateM.run_bind, EStateM.run_bind]
  cases h₁ : x₁.run b₁ <;> cases h₂ : x₂.run b₂ <;> rw [h₁, h₂] at hx <;>
    simp only [Outcomes] at hx ⊢
  · exact hk _ _ _ _ hx.1 hx.2
  · exact hx

theorem Runs.lift_bind {r₁ : Except Error α} {r₂ : Except Error β} {k₁ : α → BlockM γ}
    {k₂ : β → BlockM δ} (h : Agrees R r₁ r₂)
    (hk : ∀ a₁ a₂, r₁ = .ok a₁ → r₂ = .ok a₂ → R a₁ a₂ → Runs B S b₁ b₂ (k₁ a₁) (k₂ a₂)) :
    Runs B S b₁ b₂ (BlockM.lift r₁ >>= k₁) (BlockM.lift r₂ >>= k₂) := by
  unfold Runs
  rcases h.elim with ⟨e, rfl, rfl⟩ | ⟨a₁, a₂, rfl, rfl, hr⟩
  · simp [EStateM.run_bind, Outcomes]
  · simp only [EStateM.run_bind, run_lift]
    exact hk a₁ a₂ rfl rfl hr

theorem Runs.get_bind {k₁ : Block → BlockM γ} {k₂ : Block → BlockM δ}
    (h : Runs B S b₁ b₂ (k₁ b₁) (k₂ b₂)) : Runs B S b₁ b₂ (get >>= k₁) (get >>= k₂) := by
  unfold Runs at h ⊢
  simpa only [EStateM.run_bind, EStateM.run_get] using h

theorem Runs.pure_bind {k₁ : α → BlockM γ} {k₂ : β → BlockM δ} (a₁ : α) (a₂ : β)
    (h : Runs B S b₁ b₂ (k₁ a₁) (k₂ a₂)) : Runs B S b₁ b₂ (pure a₁ >>= k₁) (pure a₂ >>= k₂) :=
  h

theorem Runs.throw_bind (e : Error) {k₁ : α → BlockM γ} {k₂ : β → BlockM δ} :
    Runs B S b₁ b₂ (MonadExcept.throw e >>= k₁) (MonadExcept.throw e >>= k₂) :=
  rfl

theorem Runs.setColumn {C : Column → Column → Prop} (h : b₁.layout = b₂.layout)
    {c₁ c₂ : Column} (hlen : c₁.length = c₂.length) (hc : C c₁ c₂) (pos : Nat) :
    Runs (Block.WroteAt pos C) (fun _ _ => True) b₁ b₂ (BlockM.setColumn pos c₁)
      (BlockM.setColumn pos c₂) := by
  unfold Runs
  rw [run_setColumn, run_setColumn]
  rcases (Block.setColumn_congr h hlen pos).elim with
    ⟨e, h₁, h₂⟩ | ⟨b₁', b₂', h₁, h₂, hc₁, hc₂⟩
  · simp [h₁, h₂, Outcomes]
  · simp only [h₁, h₂, Outcomes]
    exact ⟨trivial, c₁, c₂, hc₁, hc₂, hc⟩

theorem Runs.insert_bind (h : b₁.layout = b₂.layout) {name : String} {c₁ c₂ : Column}
    (hlen : c₁.length = c₂.length) {k₁ : Nat → BlockM γ} {k₂ : Nat → BlockM δ}
    (hk : ∀ b₁' b₂' p, b₁.insert name c₁ = .ok (b₁', p) → b₂.insert name c₂ = .ok (b₂', p) →
      b₁'.layout = b₂'.layout → Runs B S b₁' b₂' (k₁ p) (k₂ p)) :
    Runs B S b₁ b₂ (BlockM.insert name c₁ >>= k₁) (BlockM.insert name c₂ >>= k₂) := by
  unfold Runs
  rw [EStateM.run_bind, EStateM.run_bind, run_insert, run_insert]
  rcases (Block.insert_congr h name hlen).elim with
    ⟨e, h₁, h₂⟩ | ⟨⟨b₁', p₁⟩, ⟨b₂', p₂⟩, h₁, h₂, hp, hl⟩
  · simp [h₁, h₂, Outcomes]
  · simp only at hp hl
    subst hp
    simp only [h₁, h₂]
    exact hk b₁' b₂' p₁ h₁ h₂ hl

/-- A step that computes columns from the blocks and writes them runs alike when the two
computations agree. -/
theorem Runs.write {C : Column → Column → Prop} {kernel₁ kernel₂ : Block → Except Error Column}
    {result : Nat} (h : b₁.layout = b₂.layout) (hk : Agrees C (kernel₁ b₁) (kernel₂ b₂))
    (hC : ∀ c₁ c₂, C c₁ c₂ → c₁.length = c₂.length) :
    Runs (Block.WroteAt result C) (fun _ _ => True) b₁ b₂
      (do let col ← BlockM.lift (kernel₁ (← get)); BlockM.setColumn result col)
      (do let col ← BlockM.lift (kernel₂ (← get)); BlockM.setColumn result col) :=
  Runs.get_bind (Runs.lift_bind hk fun c₁ c₂ _ _ hc => Runs.setColumn h (hC c₁ c₂ hc) hc result)

theorem Runs.column_bind (h : b₁.Veiled b₂) {pos : Nat} {k₁ : Column → BlockM γ}
    {k₂ : Column → BlockM δ}
    (hk : ∀ c₁ c₂, b₁.column pos = .ok c₁ → b₂.column pos = .ok c₂ → Column.Veiled c₁ c₂ →
      Runs B S b₁ b₂ (k₁ c₁) (k₂ c₂)) :
    Runs B S b₁ b₂ (BlockM.column pos >>= k₁) (BlockM.column pos >>= k₂) := by
  unfold BlockM.column
  rw [bind_assoc, bind_assoc]
  exact Runs.get_bind (Runs.lift_bind (h.column pos) fun c₁ c₂ h₁ h₂ hc =>
    Runs.pure_bind c₁ c₂ (hk c₁ c₂ h₁ h₂ hc))

end Runs

end BlockM

namespace RowsAgree

variable {α β : Type} {keep keep' : Nat → Bool} {xs ys : List α}

theorem zip {zs ws : List β} (h : RowsAgree keep xs ys) (h' : RowsAgree keep' zs ws) :
    RowsAgree (fun r => keep r && keep' r) (xs.zip zs) (ys.zip ws) := by
  refine ⟨by simp [h.1, h'.1], fun r hr => ?_⟩
  simp only [Bool.and_eq_true] at hr
  unfold List.zip
  rw [List.getElem?_zipWith, List.getElem?_zipWith, h.2 r hr.1, h'.2 r hr.2]

end RowsAgree

/-- Unpacking alike into one map merges one map on both sides: the unpacked arguments keep
their agreement, and both sides go on with the map merged with the argument's. -/
theorem Agrees.unpackInto {b₁ b₂ : Block} {pos : Nat}
    {R : Column × Option NullMap → Column × Option NullMap → Prop}
    (h : Agrees R (b₁.unpack pos) (b₂.unpack pos)) (hR : ∀ a₁ a₂, R a₁ a₂ → a₁.2 = a₂.2)
    (checks : Bool) (nulls : NullMap) :
    Agrees (fun x₁ x₂ => ∃ a₁ a₂, R a₁ a₂ ∧ x₁ = (a₁.1, nulls.mergeOpt a₁.2) ∧
        x₂ = (a₂.1, nulls.mergeOpt a₁.2))
      (b₁.unpackInto checks nulls pos) (b₂.unpackInto checks nulls pos) := by
  unfold Block.unpackInto
  refine h.bind fun a₁ a₂ ha => ?_
  obtain ⟨c₁, o⟩ := a₁
  obtain ⟨c₂, o₂⟩ := a₂
  obtain rfl : o = o₂ := hR _ _ ha
  -- both sides merge the same map, so its check answers alike
  refine (Agrees.of_eq rfl).with_ok.bind fun m₁ m₂ hm => ?_
  obtain ⟨hm, -, rfl⟩ := hm
  have hmerged := NullMap.eq_of_mergeChecked hm
  exact Agrees.pure ⟨_, _, ha, by rw [hmerged], by rw [hmerged]⟩

namespace Slice

end Slice

namespace Measure

variable {b₁ b₂ : Block} {m : Nat}

end Measure

namespace Fill

variable {b₁ b₂ : Block} {m : Nat}

end Fill

namespace Join

variable {b₁ b₂ : Block} {m : Nat}

end Join

namespace Slice

variable {b₁ b₂ : Block} {rows : Nat}

end Slice

theorem Block.WroteAt.mono {pos : Nat} {C C' : Column → Column → Prop} {b₁ b₂ : Block}
    (h : Block.WroteAt pos C b₁ b₂) (hC : ∀ c₁ c₂, C c₁ c₂ → C' c₁ c₂) :
    Block.WroteAt pos C' b₁ b₂ := by
  obtain ⟨c₁, c₂, h₁, h₂, hc⟩ := h
  exact ⟨c₁, c₂, h₁, h₂, hC c₁ c₂ hc⟩

namespace BlockM

variable {α β γ : Type} {B B' : Block → Block → Prop} {R : α → β → Prop} {b₁ b₂ : Block}

theorem Runs.mono {m₁ : BlockM α} {m₂ : BlockM β} (h : Runs B R b₁ b₂ m₁ m₂)
    (hB : ∀ b₁' b₂', B b₁' b₂' → B' b₁' b₂') : Runs B' R b₁ b₂ m₁ m₂ := by
  unfold Runs at h ⊢
  generalize m₁.run b₁ = r₁ at h ⊢
  generalize m₂.run b₂ = r₂ at h ⊢
  cases r₁ <;> cases r₂ <;> simp only [Outcomes] at h ⊢
  · exact ⟨h.1, hB _ _ h.2⟩
  · exact h

end BlockM

/-- The payloads that a call of `f` adds up over the arguments at `args` of `b`, the values
stored under NULL rows included, fit in a machine-sized count, on the path the dispatcher takes
with folding `folds`. Only `concat` and `concat_ws` add up payloads: `concat` of two arguments
or more those of its arguments, and `concat_ws` those of its values and the separator's once for
each gap between two values. A function that lets the dispatcher handle NULLs never reads a
value under a NULL row, and the others add up nothing. -/
def Block.PayloadsFit (b : Block) (f : Builtin) (folds : Bool) (args : List Nat) (rows : Nat) :
    Prop :=
  f.stripsNulls = false → ∀ cols, List.Forall₂ (fun pos c => b.column pos = .ok c) args cols →
    f.dispatchRoom folds cols rows

/-- A call that folds sizes the constants' one-row copies, which the folded block holds. -/
theorem Block.PayloadsFit.folded {b F : Block} {f : Builtin} {args positions : List Nat}
    {rows : Nat} {cols : List Column} (h : b.PayloadsFit f true args rows)
    (hcols : List.Forall₂ (fun pos c => b.column pos = .ok c) args cols) (hne : cols ≠ [])
    (hconst : ∀ c ∈ cols, c.isConst)
    (hF : List.Forall₂ (fun pos c => F.column pos = .ok c) positions (cols.map Dispatch.firstRow)) :
    F.PayloadsFit f false positions 1 := by
  intro hf cols' hcols'
  rw [← Block.forall₂_column_unique hF hcols']
  have hroom := h hf cols hcols
  unfold Builtin.dispatchRoom at hroom ⊢
  rw [if_pos (by simp [hne, List.all_eq_true.mpr hconst])] at hroom
  simpa using hroom

namespace Builtin

open BlockM

/-- How the results of `f` over veiled arguments relate: veiled alike, and equal unless `f` is
`concat` of one argument, which passes its argument on. -/
def ResultsAlike (f : Builtin) (arity : Nat) (c₁ c₂ : Column) : Prop :=
  Column.Veiled c₁ c₂ ∧ (f = .concat ∧ arity = 1 ∨ c₁ = c₂)

namespace ResultsAlike

variable {f : Builtin} {n : Nat} {c₁ c₂ : Column}

theorem of_eq (h : c₁ = c₂) : f.ResultsAlike n c₁ c₂ := h ▸ ⟨.refl c₁, .inr rfl⟩

theorem length_eq (h : f.ResultsAlike n c₁ c₂) : c₁.length = c₂.length := h.1.length_eq

/-- Spreading results alike gives constants alike, or one refusal. -/
theorem constant? (h : f.ResultsAlike n c₁ c₂) (len : Nat) :
    Agrees (f.ResultsAlike n) (c₁.constant? len) (c₂.constant? len) := by
  obtain ⟨hv, hc | rfl⟩ := h
  · exact (hv.constant? len).mono fun _ _ hab => ⟨hab, .inl hc⟩
  · exact Agrees.refl (fun c => ⟨.refl c, .inr rfl⟩) _

end ResultsAlike

variable {b₁ b₂ : Block} {rows : Nat}

end Builtin

namespace Dispatch

variable {b₁ b₂ : Block}

end Dispatch

theorem Block.Veiled.insertSlot {b₁ b₂ : Block} (h : b₁.Veiled b₂) (name : String)
    (t : DataType) : (b₁.insertSlot name t).1.Veiled (b₂.insertSlot name t).1 :=
  h.append (Entry.Veiled.refl _)

namespace Builtin

open BlockM Dispatch

variable {b₁ b₂ : Block} {rows : Nat}

end Builtin

end TextBatch

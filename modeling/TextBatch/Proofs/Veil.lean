import TextBatch.Proofs.Folding

/-!
# Values under NULL rows

A null map hides the value that a column still stores under each NULL row. Two columns are
veiled alike (`Column.Veiled`) when they differ at most in those hidden values: the same null
maps, types and lengths, and the same value at every row that is not NULL. Two blocks are veiled
alike entry by entry (`Block.Veiled`).

This module follows a pair of such blocks through every read and write a function makes. Two
outcomes *agree* (`Agrees`) when they fail with one error or succeed with related values, and
two runs agree (`Runs`) when they fail with one error or succeed with related values and blocks.
The reads of a block agree: a column is read as a veiled copy, its plain values and map as the
same map over values equal wherever the map does not flag the row (`Column.AgreeOn`), and
stripping an argument, a constant's copies and a row's copies come out equal or veiled again.
-/

namespace TextBatch

/-- Two outcomes that fail with one error, or succeed with values related by `R`. -/
def Agrees {α β : Type} (R : α → β → Prop) : Except Error α → Except Error β → Prop
  | .ok a, .ok b => R a b
  | .error e₁, .error e₂ => e₁ = e₂
  | _, _ => False

namespace Agrees

variable {α β γ δ : Type} {R R' : α → β → Prop} {S : γ → δ → Prop}
  {x₁ : Except Error α} {x₂ : Except Error β}

theorem refl {R : α → α → Prop} (hR : ∀ a, R a a) (x : Except Error α) : Agrees R x x := by
  cases x with
  | ok a => exact hR a
  | error e => exact rfl

theorem of_eq {x y : Except Error α} (h : x = y) : Agrees Eq x y :=
  h ▸ refl (fun _ => rfl) x

theorem mono (h : Agrees R x₁ x₂) (hR : ∀ a b, R a b → R' a b) : Agrees R' x₁ x₂ := by
  cases x₁ <;> cases x₂ <;> simp only [Agrees] at h ⊢
  · exact h
  · exact hR _ _ h

theorem bind {k₁ : α → Except Error γ} {k₂ : β → Except Error δ} (h : Agrees R x₁ x₂)
    (hk : ∀ a₁ a₂, R a₁ a₂ → Agrees S (k₁ a₁) (k₂ a₂)) : Agrees S (x₁ >>= k₁) (x₂ >>= k₂) := by
  cases x₁ <;> cases x₂ <;> simp only [Agrees] at h
  · exact h
  · exact hk _ _ h

theorem mapM {f₁ : γ → Except Error α} {f₂ : δ → Except Error β} {xs : List γ} {ys : List δ}
    (h : List.Forall₂ (fun x y => Agrees R (f₁ x) (f₂ y)) xs ys) :
    Agrees (List.Forall₂ R) (xs.mapM f₁) (ys.mapM f₂) := by
  induction h with
  | nil => exact .nil
  | cons hxy _ ih =>
      simp only [List.mapM_cons]
      exact hxy.bind fun a b hab => ih.bind fun as bs habs => List.Forall₂.cons hab habs

end Agrees

/-- Lists of one length with the same entry at every index `keep` selects. -/
def RowsAgree {α : Type} (keep : Nat → Bool) (xs ys : List α) : Prop :=
  xs.length = ys.length ∧ ∀ r, keep r → xs[r]? = ys[r]?

namespace RowsAgree

variable {α β : Type} {keep : Nat → Bool} {xs ys : List α}

theorem readAt (h : RowsAgree keep xs ys) {r : Nat} (hr : keep r) :
    readAt xs r = readAt ys r := by
  simp only [TextBatch.readAt, h.2 r hr, h.1]

theorem map (h : RowsAgree keep xs ys) (f : α → β) : RowsAgree keep (xs.map f) (ys.map f) :=
  ⟨by simp [h.1], fun r hr => by simp [h.2 r hr]⟩

/-- Resetting every entry that `p` selects makes lists that agree elsewhere equal. -/
theorem mapIdx_reset {p : Nat → Bool} (h : RowsAgree (fun r => !p r) xs ys) (d : α) :
    xs.mapIdx (fun i v => if p i then d else v) = ys.mapIdx (fun i v => if p i then d else v) := by
  apply List.ext_getElem?
  intro r
  simp only [List.getElem?_mapIdx]
  cases hp : p r
  · simp [h.2 r (by simp [hp])]
  · by_cases hr : r < xs.length
    · simp [List.getElem?_eq_getElem hr, List.getElem?_eq_getElem (h.1 ▸ hr)]
    · simp [List.getElem?_eq_none (Nat.not_lt.mp hr),
        List.getElem?_eq_none (h.1 ▸ Nat.not_lt.mp hr)]

end RowsAgree

namespace Column

/-- Plain columns `u₁` and `u₂` of one type and length that read alike at every row `keep`
selects. -/
structure AgreeOn (keep : Nat → Bool) (u₁ u₂ : Column) : Prop where
  plain_left : u₁.isPlain
  plain_right : u₂.isPlain
  dataType_eq : u₁.dataType = u₂.dataType
  length_eq : u₁.length = u₂.length
  get_eq : ∀ r, keep r → u₁.get r = u₂.get r

/-- `c₂` is `c₁` with other values under its NULL rows: the same null maps, types and lengths,
and the same value at every row that is not NULL. -/
inductive Veiled : Column → Column → Prop
  /-- A column is veiled as itself. -/
  | refl (c : Column) : Veiled c c
  /-- Values under one null map that differ only at the rows it flags. -/
  | nullable {u₁ u₂ : Column} (m : NullMap) (h : AgreeOn (fun r => !m.isNull r) u₁ u₂) :
      Veiled (.nullable u₁ m) (.nullable u₂ m)
  /-- A constant over a veiled value. -/
  | const {v₁ v₂ : Column} (len : Nat) (h : Veiled v₁ v₂) : Veiled (.const v₁ len) (.const v₂ len)

theorem get_uint8 {vs : List UInt8} {r : Nat} (h : r < vs.length) :
    (uint8 vs).get r = .ok (.uint8 (vs.getD r 0)) := by
  rw [get.eq_def]
  simp [length, h]

theorem get_int32 {vs : List Int32} {r : Nat} (h : r < vs.length) :
    (int32 vs).get r = .ok (.int32 (vs.getD r 0)) := by
  rw [get.eq_def]
  simp [length, h]

theorem get_int64 {vs : List Int64} {r : Nat} (h : r < vs.length) :
    (int64 vs).get r = .ok (.int64 (vs.getD r 0)) := by
  rw [get.eq_def]
  simp [length, h]

end Column

/-- Lists of one length agree at every index where their entries, read with a default, do. -/
theorem rowsAgree_of_getD {α : Type} {keep : Nat → Bool} {a b : List α} (d : α)
    (hlen : a.length = b.length) (h : ∀ r, keep r → r < a.length → a.getD r d = b.getD r d) :
    RowsAgree keep a b := by
  refine ⟨hlen, fun r hr => ?_⟩
  by_cases hlt : r < a.length
  · have hab := h r hr hlt
    simp only [List.getD_eq_getElem?_getD, List.getElem?_eq_getElem hlt,
      List.getElem?_eq_getElem (hlen ▸ hlt), Option.getD_some] at hab
    rw [List.getElem?_eq_getElem hlt, List.getElem?_eq_getElem (hlen ▸ hlt), hab]
  · rw [List.getElem?_eq_none (by omega), List.getElem?_eq_none (by omega)]

namespace Column

namespace AgreeOn

variable {keep keep' : Nat → Bool} {u u₁ u₂ : Column}

theorem refl (hu : u.isPlain) (keep : Nat → Bool) : AgreeOn keep u u :=
  ⟨hu, hu, rfl, rfl, fun _ _ => rfl⟩

theorem mono (h : AgreeOn keep u₁ u₂) (hk : ∀ r, keep' r → keep r) : AgreeOn keep' u₁ u₂ :=
  ⟨h.plain_left, h.plain_right, h.dataType_eq, h.length_eq, fun r hr => h.get_eq r (hk r hr)⟩

/-- Two plain columns of one type are of one kind, and agree on their values index by index. -/
theorem rows (h : AgreeOn keep u₁ u₂) :
    (∃ a b, u₁ = .uint8 a ∧ u₂ = .uint8 b ∧ RowsAgree keep a b) ∨
    (∃ a b, u₁ = .int32 a ∧ u₂ = .int32 b ∧ RowsAgree keep a b) ∨
    (∃ a b, u₁ = .int64 a ∧ u₂ = .int64 b ∧ RowsAgree keep a b) ∨
    (∃ s t, u₁ = .string s ∧ u₂ = .string t ∧ RowsAgree keep s.rows t.rows) := by
  have hlen := h.length_eq
  have hget := h.get_eq
  have hp₁ := h.plain_left
  have hp₂ := h.plain_right
  have htype := h.dataType_eq
  cases u₁ <;> cases u₂ <;> simp only [isPlain, dataType, reduceCtorEq] at hp₁ hp₂ htype
  -- at a row both have, equal cells hold equal entries
  case uint8.uint8 a b =>
    have hab : a.length = b.length := hlen
    refine .inl ⟨a, b, rfl, rfl, rowsAgree_of_getD 0 hab fun r hr hlt => ?_⟩
    simpa [get_uint8 hlt, get_uint8 (hab ▸ hlt)] using hget r hr
  case int32.int32 a b =>
    have hab : a.length = b.length := hlen
    refine .inr (.inl ⟨a, b, rfl, rfl, rowsAgree_of_getD 0 hab fun r hr hlt => ?_⟩)
    simpa [get_int32 hlt, get_int32 (hab ▸ hlt)] using hget r hr
  case int64.int64 a b =>
    have hab : a.length = b.length := hlen
    refine .inr (.inr (.inl ⟨a, b, rfl, rfl, rowsAgree_of_getD 0 hab fun r hr hlt => ?_⟩))
    simpa [get_int64 hlt, get_int64 (hab ▸ hlt)] using hget r hr
  case string.string s t =>
    have hst : s.rows.length = t.rows.length := hlen
    refine .inr (.inr (.inr ⟨s, t, rfl, rfl, rowsAgree_of_getD [] hst fun r hr hlt => ?_⟩))
    simpa [get_string (s := s) hlt, get_string (s := t) (hst ▸ hlt), StringColumn.value]
      using hget r hr

/-- Resetting the rows a map flags makes plain columns that agree elsewhere equal. -/
theorem maskNulls {m : NullMap} (h : AgreeOn (fun r => !m.isNull r) u₁ u₂) :
    u₁.maskNulls m = u₂.maskNulls m := by
  rcases h.rows with ⟨a, b, rfl, rfl, hab⟩ | ⟨a, b, rfl, rfl, hab⟩ | ⟨a, b, rfl, rfl, hab⟩ |
    ⟨s, t, rfl, rfl, hst⟩
  · exact congrArg uint8 (hab.mapIdx_reset 0)
  · exact congrArg int32 (hab.mapIdx_reset 0)
  · exact congrArg int64 (hab.mapIdx_reset 0)
  · exact congrArg (fun rs => string ⟨rs⟩) (hst.mapIdx_reset [])

/-- The strings of agreeing columns: one refusal, or rows that agree where the columns do. -/
theorem strings (h : AgreeOn keep u₁ u₂) (fn : String) :
    Agrees (fun s t => RowsAgree keep s.rows t.rows) (u₁.strings fn) (u₂.strings fn) := by
  rcases h.rows with ⟨a, b, rfl, rfl, -⟩ | ⟨a, b, rfl, rfl, -⟩ | ⟨a, b, rfl, rfl, -⟩ |
    ⟨s, t, rfl, rfl, hst⟩
  · exact rfl
  · exact rfl
  · exact rfl
  · exact hst

/-- The 32-bit values of agreeing columns: one refusal, or values that agree where the columns
do. -/
theorem integers (h : AgreeOn keep u₁ u₂) (fn : String) :
    Agrees (RowsAgree keep) (u₁.integers fn) (u₂.integers fn) := by
  rcases h.rows with ⟨a, b, rfl, rfl, hab⟩ | ⟨a, b, rfl, rfl, hab⟩ | ⟨a, b, rfl, rfl, hab⟩ |
    ⟨s, t, rfl, rfl, -⟩
  · exact hab.map _
  · exact hab
  · exact hab.map saturate
  · exact rfl

end AgreeOn

namespace Veiled

variable {c₁ c₂ : Column}

/-- Veiled columns read alike at every row: a hidden value is never read. -/
theorem get_eq (h : Veiled c₁ c₂) (r : Nat) : c₁.get r = c₂.get r := by
  induction h generalizing r with
  | refl c => rfl
  | @nullable u₁ u₂ m hu =>
      by_cases hr : r < u₁.length
      · rw [get_nullable hr, get_nullable (hu.length_eq ▸ hr)]
        cases hn : m.isNull r
        · simpa [hn] using hu.get_eq r (by simp [hn])
        · simp
      · rw [get_of_length_le (c := .nullable u₁ m) (Nat.not_lt.mp hr),
          get_of_length_le (c := .nullable u₂ m) (hu.length_eq ▸ Nat.not_lt.mp hr)]
        simp [length, hu.length_eq]
  | const len _ ih =>
      by_cases hr : r < len
      · rw [get_const hr, get_const hr, ih 0]
      · rw [get_of_length_le (c := .const _ len) (Nat.not_lt.mp hr),
          get_of_length_le (c := .const _ len) (Nat.not_lt.mp hr)]
        rfl

theorem length_eq (h : Veiled c₁ c₂) : c₁.length = c₂.length := by
  induction h with
  | refl c => rfl
  | nullable m hu => exact hu.length_eq
  | const len _ _ => rfl

theorem dataType_eq (h : Veiled c₁ c₂) : c₁.dataType = c₂.dataType := by
  induction h with
  | refl c => rfl
  | nullable m hu => exact congrArg DataType.makeNullable hu.dataType_eq
  | const len _ ih => exact ih

theorem isNullable_eq (h : Veiled c₁ c₂) : c₁.isNullable = c₂.isNullable := by
  induction h with
  | refl c => rfl
  | nullable m hu => rfl
  | const len _ ih => exact ih

theorem isConst_eq (h : Veiled c₁ c₂) : c₁.isConst = c₂.isConst := by
  cases h <;> rfl

/-- Copies of a row of veiled columns are veiled: the copies of a NULL row are all NULL, and
those of any other row read alike. -/
theorem replicate (h : Veiled c₁ c₂) (hwf₁ : c₁.wellFormed) (hwf₂ : c₂.wellFormed) {row : Nat}
    (hrow : row < c₁.length) (n : Nat) : Veiled (c₁.replicate row n) (c₂.replicate row n) := by
  induction h generalizing row with
  | refl c => exact .refl _
  | @nullable u₁ u₂ m hu =>
      obtain ⟨hwfu₁, hplain₁, -⟩ := wellFormed_nullable.mp hwf₁
      obtain ⟨hwfu₂, hplain₂, -⟩ := wellFormed_nullable.mp hwf₂
      simp only [length] at hrow
      rw [Column.replicate, Column.replicate]
      refine .nullable _ ⟨isPlain_replicate hplain₁ row n, isPlain_replicate hplain₂ row n,
        by simp [hu.dataType_eq], by simp, fun r hr => ?_⟩
      -- a row that the copies' map leaves valid is a copy of a valid row
      have hvalid : (if m.isNull row then NullMap.allNull n else NullMap.allValid n).isNull r =
          false := by simpa using hr
      have hrn : r < n := by
        by_contra hge
        rw [NullMap.isNull_of_length_le (by split <;> simp <;> omega)] at hvalid
        cases hvalid
      have hrow_valid : m.isNull row = false := by
        cases hm : m.isNull row
        · rfl
        · simp [hm, NullMap.isNull_allNull hrn] at hvalid
      rw [get_replicate hwfu₁ hrow hrn, get_replicate hwfu₂ (hu.length_eq ▸ hrow) hrn]
      exact hu.get_eq row (by simp [hrow_valid])
  | const len _ ih =>
      obtain ⟨hv₁, hone, -⟩ := wellFormed_const.mp hwf₁
      obtain ⟨hv₂, -, -⟩ := wellFormed_const.mp hwf₂
      exact ih hv₁ hv₂ (by omega)

theorem toFull (h : Veiled c₁ c₂) (hwf₁ : c₁.wellFormed) (hwf₂ : c₂.wellFormed) :
    Veiled c₁.toFull c₂.toFull := by
  cases h with
  | refl c => exact .refl _
  | nullable m hu => exact .nullable m hu
  | const len hv =>
      obtain ⟨hv₁, hone, -⟩ := wellFormed_const.mp hwf₁
      obtain ⟨hv₂, -, -⟩ := wellFormed_const.mp hwf₂
      exact hv.replicate hv₁ hv₂ (by omega) len

theorem firstRow (h : Veiled c₁ c₂) (hc : c₁.isConst) :
    Veiled (Dispatch.firstRow c₁) (Dispatch.firstRow c₂) := by
  cases h with
  | refl c => exact .refl _
  | nullable m hu => simp [isConst] at hc
  | const len hv => exact hv

/-- Unwrapped, veiled columns give one map over values that agree wherever it leaves the row
valid. -/
theorem unwrap (h : Veiled c₁ c₂) (hwf₁ : c₁.wellFormed) (hc : c₁.isConst = false) :
    c₁.unwrapNullable.2 = c₂.unwrapNullable.2 ∧
      AgreeOn (fun r => !NullMap.flagged c₁.unwrapNullable.2 r) c₁.unwrapNullable.1
        c₂.unwrapNullable.1 := by
  cases h with
  | refl c => exact ⟨rfl, .refl (splits_unwrapNullable hwf₁ hc).plain _⟩
  | nullable m hu => exact ⟨rfl, hu⟩
  | const len hv => simp [isConst] at hc

/-- Veiled arguments unpack into one map over values that agree wherever it leaves the row
valid. -/
theorem unpack (h : Veiled c₁ c₂) (hwf₁ : c₁.wellFormed) (hwf₂ : c₂.wellFormed) :
    c₁.toFull.unwrapNullable.2 = c₂.toFull.unwrapNullable.2 ∧
      AgreeOn (fun r => !NullMap.flagged c₁.toFull.unwrapNullable.2 r)
        c₁.toFull.unwrapNullable.1 c₂.toFull.unwrapNullable.1 :=
  (h.toFull hwf₁ hwf₂).unwrap (toFull_wellFormed hwf₁).1 (toFull_wellFormed hwf₁).2

/-- Spreading veiled values gives veiled constants, or one refusal. -/
theorem constant? (h : Veiled c₁ c₂) (len : Nat) :
    Agrees Veiled (c₁.constant? len) (c₂.constant? len) := by
  cases h with
  | refl c => exact Agrees.refl Veiled.refl _
  | @nullable u₁ u₂ m hu =>
      simp only [Column.constant?, length, hu.length_eq]
      by_cases h1 : u₂.length = 1
      · simp only [h1, ne_eq, not_true_eq_false, if_false]
        exact Veiled.const len (.nullable m hu)
      · simp only [h1, ne_eq, not_false_eq_true, if_true]
        exact rfl
  | @const w₁ w₂ n hw =>
      simp only [Column.constant?, length]
      by_cases h1 : n = 1
      · simp only [h1, ne_eq, not_true_eq_false, if_false]
        exact Veiled.const len hw
      · simp only [h1, ne_eq, not_false_eq_true, if_true]
        exact rfl

end Veiled

end Column

end TextBatch

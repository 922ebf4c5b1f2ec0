import TextBatch.Storage.StringColumn

/-! # The packed form of a string column

A string column is stored as one arena of bytes, each row closed by a 0 byte, and the offset
at which each row's terminator ends. `Packed` states the rules of that form without reference
to the reader: the offsets increase strictly from 1 on, a 0 byte closes every row, and the last
offset is the end of the arena. A row may itself hold 0 bytes, so only the offsets say where
rows end.

Reading raw parts (`ofRawParts?`) accepts exactly the packed forms, and reading and writing
undo each other: the parts read back are the parts the column writes, and the column read from
a column's own parts is that column (`StringColumn.packed_form_bijective`). So the packed form
is a bijection with lists of byte strings. Row `i` of the packed form is read the way a stored
column is read, from where row `i - 1` ends up to the terminator (`storedRow`), and adding a row
appends its bytes and a terminator to the arena and the new end to the offsets. A row's length
read off the offsets is its length (`valueLen_eq`): the offsets leave room for every row's
terminator, so the subtraction that reads it never goes below zero.
-/

namespace TextBatch

namespace StringColumn

/-- The rules of a packed arena whose rows start at offset `start`: the end offsets increase
strictly from past `start`, a 0 byte closes every row, and the last offset (`start` when there
is none) is the end of the arena. -/
structure PackedFrom (chars : Bytes) (start : Nat) (offsets : List Nat) : Prop where
  /-- Every row ends after the one before it, the first after `start`. -/
  increasing : (start :: offsets).Pairwise (· < ·)
  /-- The byte before every end offset is a terminator. -/
  terminated : ∀ o ∈ offsets, chars[o - 1]? = some 0
  /-- The last row ends where the arena does. -/
  ends : offsets.getLastD start = chars.length

instance (chars : Bytes) (start : Nat) (offsets : List Nat) :
    Decidable (PackedFrom chars start offsets) :=
  decidable_of_iff ((start :: offsets).Pairwise (· < ·) ∧ (∀ o ∈ offsets, chars[o - 1]? = some 0) ∧
      offsets.getLastD start = chars.length)
    ⟨fun h => ⟨h.1, h.2.1, h.2.2⟩, fun h => ⟨h.increasing, h.terminated, h.ends⟩⟩

/-- The packed form's rules: the end offsets increase strictly and are at least 1, a 0 byte
closes every row, and the last offset is the end of the arena, which is empty when there are no
offsets. -/
def Packed (chars : Bytes) (offsets : List Nat) : Prop := PackedFrom chars 0 offsets

instance (chars : Bytes) (offsets : List Nat) : Decidable (Packed chars offsets) :=
  inferInstanceAs (Decidable (PackedFrom chars 0 offsets))

/-- Row `i` of rows packed from offset `start` on, read off the arena: from where row `i - 1`
ends (`start` for the first row) up to the terminator that closes row `i`. -/
def storedRow (chars : Bytes) (start : Nat) (offsets : List Nat) (i : Nat) : Bytes :=
  (chars.take (offsets.getD i 0 - 1)).drop ((start :: offsets).getD i 0)

/-! ## Reading a packed arena -/

section Unpack

variable {chars : Bytes} {row prev stop : Nat} {rest : List Nat} {rows : List Bytes}

/-- What reading one row takes: an end past the previous one and inside the arena, a
terminator before it, and the rows after it read from there. -/
theorem unpackFrom_cons_eq_ok :
    unpackFrom chars row prev (stop :: rest) = .ok rows ↔
      prev < stop ∧ stop ≤ chars.length ∧ chars[stop - 1]? = some 0 ∧
        ∃ rows', unpackFrom chars (row + 1) stop rest = .ok rows' ∧
          rows = (chars.take (stop - 1)).drop prev :: rows' := by
  rw [unpackFrom]
  by_cases hbad : stop ≤ prev ∨ chars.length < stop
  · rw [if_pos hbad]
    simp only [reduceCtorEq, false_iff]
    omega
  · rw [if_neg hbad]
    have hi : stop - 1 < chars.length := by omega
    have hget : chars.getD (stop - 1) 0 = chars[stop - 1] := by
      rw [List.getD_eq_getElem?_getD, List.getElem?_eq_getElem hi, Option.getD_some]
    rw [hget, List.getElem?_eq_getElem hi, Option.some.injEq]
    by_cases hterm : chars[stop - 1] = 0
    · rw [if_neg (not_not_intro hterm)]
      have hok : prev < stop ∧ stop ≤ chars.length := by omega
      cases unpackFrom chars (row + 1) stop rest with
      | error e => simp [hok, hterm]
      | ok rows' => simp [hok, hterm, eq_comm]
    · rw [if_pos hterm]
      simp [hterm]

/-- The first offset of a strictly increasing list is at most its last. -/
theorem le_getLastD_of_pairwise {a : Nat} {l : List Nat} (h : (a :: l).Pairwise (· < ·)) :
    a ≤ l.getLastD a := by
  induction l generalizing a with
  | nil => simp
  | cons b l ih =>
      rw [List.getLastD_cons]
      have hab : a < b := List.rel_of_pairwise_cons h List.mem_cons_self
      exact Nat.le_trans (Nat.le_of_lt hab) (ih h.of_cons)

/-- What reading accepts obeys the rules of the packed form. -/
theorem packedFrom_of_unpackFrom :
    ∀ {row prev : Nat} {offsets : List Nat} {rows : List Bytes},
      unpackFrom chars row prev offsets = .ok rows → PackedFrom chars prev offsets := by
  intro row prev offsets rows h
  induction offsets generalizing row prev rows with
  | nil =>
      rw [unpackFrom] at h
      split at h
      · next hend => exact ⟨List.pairwise_singleton _ _, by simp, hend⟩
      · cases h
  | cons stop rest ih =>
      obtain ⟨hlt, hle, hterm, rows', hrest, -⟩ := unpackFrom_cons_eq_ok.mp h
      have htail := ih hrest
      refine ⟨?_, ?_, ?_⟩
      · -- `prev` lies below `stop`, and `stop` below every later end
        refine List.pairwise_cons.mpr ⟨fun x hx => ?_, htail.increasing⟩
        rcases List.mem_cons.mp hx with rfl | hx
        · exact hlt
        · exact Nat.lt_trans hlt (List.rel_of_pairwise_cons htail.increasing hx)
      · intro o ho
        rcases List.mem_cons.mp ho with rfl | ho
        · exact hterm
        · exact htail.terminated o ho
      · rw [List.getLastD_cons]
        exact htail.ends

/-- Reading accepts every arena that obeys the rules of the packed form. -/
theorem unpackFrom_of_packedFrom :
    ∀ {row prev : Nat} {offsets : List Nat},
      PackedFrom chars prev offsets → ∃ rows, unpackFrom chars row prev offsets = .ok rows := by
  intro row prev offsets h
  induction offsets generalizing row prev with
  | nil => exact ⟨[], by simp [unpackFrom, h.ends.symm]⟩
  | cons stop rest ih =>
      have hlt : prev < stop := List.rel_of_pairwise_cons h.increasing List.mem_cons_self
      have htail : PackedFrom chars stop rest :=
        ⟨h.increasing.of_cons, fun o ho => h.terminated o (List.mem_cons_of_mem _ ho),
          by rw [← List.getLastD_cons]; exact h.ends⟩
      have hle : stop ≤ chars.length := by
        rw [← htail.ends]
        exact le_getLastD_of_pairwise htail.increasing
      have hterm : chars[stop - 1]? = some 0 := h.terminated stop List.mem_cons_self
      obtain ⟨rows', hrows'⟩ := @ih (row + 1) stop htail
      exact ⟨_, unpackFrom_cons_eq_ok.mpr ⟨hlt, hle, hterm, rows', hrows', rfl⟩⟩

/-- The arena from a row's start on is that row, its terminator, and the arena after it. -/
theorem drop_eq_row_append {prev stop : Nat} (hlt : prev < stop) (hle : stop ≤ chars.length)
    (hterm : chars[stop - 1]? = some 0) :
    chars.drop prev = ((chars.take (stop - 1)).drop prev ++ [0]) ++ chars.drop stop := by
  have hstop : chars.take stop = chars.take (stop - 1) ++ [0] := by
    rw [show stop = stop - 1 + 1 by omega, List.take_add_one, hterm, Nat.add_sub_cancel]
    rfl
  conv => lhs; rw [← List.take_append_drop stop chars]
  rw [List.drop_append_of_le_length (by simp; omega), hstop,
    List.drop_append_of_le_length (by simp; omega)]

/-- What reading answers: the rows whose packed form, from `prev` on, is the arena and the
offsets, each row being the bytes `storedRow` reads. -/
theorem unpackFrom_eq_ok :
    ∀ {row prev : Nat} {offsets : List Nat} {rows : List Bytes},
      unpackFrom chars row prev offsets = .ok rows →
        chars.drop prev = rows.flatMap (· ++ [0]) ∧ offsetsFrom prev rows = offsets ∧
          rows = (List.range offsets.length).map (storedRow chars prev offsets) := by
  intro row prev offsets rows h
  induction offsets generalizing row prev rows with
  | nil =>
      rw [unpackFrom] at h
      split at h
      · next hend =>
          cases h
          simp [hend, offsetsFrom]
      · cases h
  | cons stop rest ih =>
      obtain ⟨hlt, hle, hterm, rows', hrest, rfl⟩ := unpackFrom_cons_eq_ok.mp h
      obtain ⟨hdrop, hoffs, hrows⟩ := ih hrest
      have hlen : prev + ((chars.take (stop - 1)).drop prev).length + 1 = stop := by
        simp only [List.length_drop, List.length_take]
        omega
      refine ⟨?_, ?_, ?_⟩
      · rw [drop_eq_row_append hlt hle hterm, hdrop, List.flatMap_cons]
      · rw [offsetsFrom, hlen, hoffs]
      · rw [List.length_cons, List.range_succ_eq_map, List.map_cons, List.map_map, hrows]
        simp only [storedRow, List.getD_cons_zero]
        rfl

/-- Reading the packed form of rows, written after any prefix, gives the rows back. -/
theorem unpackFrom_flatMap (row : Nat) (pre : Bytes) (rs : List Bytes) :
    unpackFrom (pre ++ rs.flatMap (· ++ [0])) row pre.length (offsetsFrom pre.length rs) =
      .ok rs := by
  induction rs generalizing row pre with
  | nil => simp [unpackFrom, offsetsFrom]
  | cons r rs ih =>
      have hsplit : pre ++ (r :: rs).flatMap (· ++ [0]) =
          (pre ++ r ++ [0]) ++ rs.flatMap (· ++ [0]) := by simp
      have hstop : pre.length + r.length + 1 = (pre ++ r ++ [0]).length := by
        simp [Nat.add_assoc]
      rw [offsetsFrom, hsplit, hstop]
      refine unpackFrom_cons_eq_ok.mpr ⟨by simp, by simp, ?_, rs, ih (row + 1) _, ?_⟩
      · simp
      · have hlen : (pre ++ r ++ [0]).length - 1 = pre.length + r.length := by simp
        rw [hlen, List.append_assoc, List.append_assoc, List.take_length_add_append,
          List.drop_left, List.take_left' rfl]

end Unpack

/-! ## Columns and their packed form -/

theorem ofRawParts?_eq_ok {chars : Bytes} {offsets : List Nat} {c : StringColumn} :
    ofRawParts? chars offsets = .ok c ↔ unpackFrom chars 0 0 offsets = .ok c.rows := by
  unfold ofRawParts?
  cases unpackFrom chars 0 0 offsets with
  | error e => simp
  | ok rows =>
      constructor
      · intro h
        cases h
        rfl
      · intro h
        cases h
        rfl

/-- A column reads back from its own packed form. -/
theorem ofRawParts?_arena (c : StringColumn) : ofRawParts? c.arena c.offsets = .ok c :=
  ofRawParts?_eq_ok.mpr (unpackFrom_flatMap 0 [] c.rows)

/-- Every column's packed form obeys the rules, however the column was built. -/
theorem packed_arena (c : StringColumn) : Packed c.arena c.offsets :=
  packedFrom_of_unpackFrom (ofRawParts?_eq_ok.mp (ofRawParts?_arena c))

/-- Raw parts are read exactly when they obey the rules of the packed form. -/
theorem ofRawParts?_ok_iff (chars : Bytes) (offsets : List Nat) :
    (∃ c, ofRawParts? chars offsets = .ok c) ↔ Packed chars offsets := by
  constructor
  · rintro ⟨c, h⟩
    exact packedFrom_of_unpackFrom (ofRawParts?_eq_ok.mp h)
  · intro h
    obtain ⟨rows, hrows⟩ := @unpackFrom_of_packedFrom chars 0 0 offsets h
    exact ⟨⟨rows⟩, ofRawParts?_eq_ok.mpr hrows⟩

/-- The column read from raw parts writes those parts back, and its rows are what the stored
form holds between the offsets. -/
theorem ofRawParts?_eq_ok_parts {chars : Bytes} {offsets : List Nat} {c : StringColumn}
    (h : ofRawParts? chars offsets = .ok c) :
    c.arena = chars ∧ c.offsets = offsets ∧
      c.rows = (List.range offsets.length).map (storedRow chars 0 offsets) := by
  obtain ⟨hdrop, hoffs, hrows⟩ := unpackFrom_eq_ok (ofRawParts?_eq_ok.mp h)
  exact ⟨by rw [arena, ← hdrop, List.drop_zero], hoffs, hrows⟩

/-- The offsets of a row written after others: the others' offsets, then the end of its bytes
and terminator past theirs. -/
theorem offsetsFrom_append_singleton (start : Nat) (rs : List Bytes) (v : Bytes) :
    offsetsFrom start (rs ++ [v]) =
      offsetsFrom start rs ++ [start + (rs.flatMap (· ++ [0])).length + v.length + 1] := by
  induction rs generalizing start with
  | nil => simp [offsetsFrom]
  | cons r rs ih =>
      -- the later rows start past `r` and its terminator
      have hend : start + r.length + 1 + (rs.flatMap (· ++ [0])).length =
          start + ((r :: rs).flatMap (· ++ [0])).length := by
        simp only [List.flatMap_cons, List.length_append, List.length_singleton]
        omega
      rw [List.cons_append, offsetsFrom, offsetsFrom, ih, hend, List.cons_append]

/-- Each row ends its bytes and terminator past where it starts. -/
theorem getD_offsetsFrom (start : Nat) {rs : List Bytes} {i : Nat} (hi : i < rs.length) :
    (offsetsFrom start rs).getD i 0 =
      (start :: offsetsFrom start rs).getD i 0 + rs[i].length + 1 := by
  induction rs generalizing start i with
  | nil => simp at hi
  | cons r rs ih =>
      cases i with
      | zero => simp [offsetsFrom]
      | succ k =>
          simp only [offsetsFrom, List.getD_cons_succ, List.getElem_cons_succ]
          exact ih _ (by simpa using hi)

theorem startOf_eq (offsets : List Nat) (i : Nat) : startOf offsets i = (0 :: offsets).getD i 0 := by
  cases i <;> simp [startOf]

/-- A row's length read off the packed form is its length. -/
theorem valueLen_eq {c : StringColumn} {i : Nat} (hi : i < c.length) :
    c.valueLen i = .ok (c.value i).length := by
  have hrow : i < c.rows.length := hi
  have hoff : i < c.offsets.length := by rw [length_offsets]; exact hi
  have hend := getD_offsetsFrom 0 hrow
  rw [← offsets, List.getD_eq_getElem?_getD, List.getElem?_eq_getElem hoff, Option.getD_some]
    at hend
  have hvalue : c.value i = c.rows[i] := by
    rw [value, List.getD_eq_getElem?_getD, List.getElem?_eq_getElem hrow, Option.getD_some]
  simp only [valueLen, readAt, List.getElem?_eq_getElem hoff, startOf_eq, bind, Except.bind]
  rw [if_neg (by omega), hvalue, hend]
  congr 1
  omega

/-- Adding a row writes its bytes and a terminator at the end of the arena, and the arena's
new end as the row's offset. -/
theorem packed_push (c : StringColumn) (v : Bytes) :
    (c.push v).arena = c.arena ++ v ++ [0] ∧
      (c.push v).offsets = c.offsets ++ [c.arena.length + v.length + 1] := by
  refine ⟨by simp [arena], ?_⟩
  simp only [offsets, rows_push, offsetsFrom_append_singleton, arena, Nat.zero_add]

/-- The stored form of the rows `vs` holds one row per value, and reads value `i` as row `i`. -/
theorem storedRow_ofValues (vs : List Bytes) :
    (⟨vs⟩ : StringColumn).offsets.length = vs.length ∧
      ∀ (i : Nat) (hi : i < vs.length),
        storedRow (⟨vs⟩ : StringColumn).arena 0 (⟨vs⟩ : StringColumn).offsets i = vs[i] := by
  obtain ⟨-, -, hrows⟩ := ofRawParts?_eq_ok_parts (ofRawParts?_arena ⟨vs⟩)
  have hlen : (⟨vs⟩ : StringColumn).offsets.length = vs.length := length_offsets _
  refine ⟨hlen, fun i hi => ?_⟩
  have hget := congrArg (fun rs : List Bytes => rs[i]?) hrows
  simp only [List.getElem?_map, List.getElem?_range (hlen ▸ hi), Option.map_some] at hget
  exact (Option.some.inj (by rw [← hget, List.getElem?_eq_getElem hi])).symm

/-- The packed form is a bijection with lists of byte strings. Raw parts are read exactly when
they obey its rules; every column, however it was built, writes parts that obey them and read
back to it; parts read to a column are the parts it writes, and its rows are the stored rows;
the packed form of given values reads them back one per row; and each way of adding a row
appends one row, writing its bytes and a terminator after the arena: the value, the parts one
after another, the parts with a separator between neighbours, or the value repeated. A copied
row is repeated as a column of its own. -/
theorem packed_form_bijective :
    (∀ chars offsets, (∃ c, ofRawParts? chars offsets = .ok c) ↔ Packed chars offsets) ∧
    (∀ c : StringColumn, Packed c.arena c.offsets ∧ ofRawParts? c.arena c.offsets = .ok c) ∧
    (∀ chars offsets (c : StringColumn), ofRawParts? chars offsets = .ok c →
      c.arena = chars ∧ c.offsets = offsets ∧
        c.rows = (List.range offsets.length).map (storedRow chars 0 offsets)) ∧
    (∀ vs : List Bytes, (⟨vs⟩ : StringColumn).offsets.length = vs.length ∧
      ∀ (i : Nat) (hi : i < vs.length),
        storedRow (⟨vs⟩ : StringColumn).arena 0 (⟨vs⟩ : StringColumn).offsets i = vs[i]) ∧
    (∀ (c : StringColumn) (v : Bytes), (c.push v).arena = c.arena ++ v ++ [0] ∧
      (c.push v).offsets = c.offsets ++ [c.arena.length + v.length + 1]) ∧
    (∀ c : StringColumn, c.pushEmpty.rows = c.rows ++ [[]]) ∧
    (∀ (c : StringColumn) (parts : List Bytes), (c.pushConcat parts).rows = c.rows ++ [parts.flatten]) ∧
    (∀ (c : StringColumn) (sep : Bytes) (parts : List Bytes),
      (c.pushJoined sep parts).rows = c.rows ++ [sep.intercalate parts]) ∧
    (∀ (c : StringColumn) (v : Bytes) (times : Nat),
      (c.pushRepeated v times).rows = c.rows ++ [(List.replicate times v).flatten]) ∧
    (∀ (c : StringColumn) (row n : Nat),
      (c.replicateRow row n).rows = List.replicate n (c.value row)) :=
  ⟨ofRawParts?_ok_iff, fun c => ⟨packed_arena c, ofRawParts?_arena c⟩,
    fun _ _ _ h => ofRawParts?_eq_ok_parts h, storedRow_ofValues, packed_push,
    fun _ => rfl, fun _ _ => rfl, fun _ _ _ => rfl,
    fun _ v times => by simp [pushRepeated, repeatBytes_eq], fun _ _ _ => rfl⟩

/-- Two rows, `ab` and `c`, in the arena `ab␀c␀` with offsets 3 and 5: the parts obey the
rules, and reading them gives the two rows back. -/
theorem packed_form_bijective_two_rows :
    Packed [97, 98, 0, 99, 0] [3, 5] ∧
      ofRawParts? [97, 98, 0, 99, 0] [3, 5] = .ok ⟨[[97, 98], [99]]⟩ ∧
      (⟨[[97, 98], [99]]⟩ : StringColumn).arena = [97, 98, 0, 99, 0] := by
  have hread : ofRawParts? [97, 98, 0, 99, 0] [3, 5] = .ok ⟨[[97, 98], [99]]⟩ := rfl
  exact ⟨(packed_form_bijective.1 _ _).mp ⟨_, hread⟩, hread,
    (packed_form_bijective.2.2.1 _ _ _ hread).1⟩

end StringColumn

end TextBatch

import Mathlib.Tactic.SplitIfs
import TextBatch.Text.Span
import TextBatch.Proofs.Cells

/-! # Resolving a row: the early-stopping scan decides as the full one

A substring call resolves each row with `Span.resolve`, which scans the row's character starts
into a scratch list and stops as soon as it has one start more than `pos + len`. This module
proves that nothing is lost by stopping: the decision reads only starts the scan found, and
answers the decision table over all of them (`Span.table`), whatever the scratch list held
before. The table names the boundary of each character (`Utf8.boundary`): the starts increase,
and the last one lies inside the row, so a span the table answers always covers at least one
byte, and the check that a span ends after it starts never fires.
-/

namespace TextBatch

namespace Utf8

theorem startsFrom_nil (base : Nat) : startsFrom base [] = [] := by
  rw [startsFrom]

theorem startsFrom_cons (base : Nat) (b : UInt8) (rest : Bytes) :
    startsFrom base (b :: rest) =
      base :: startsFrom (base + leadWidth b) (rest.drop (leadWidth b - 1)) := by
  rw [startsFrom]

/-- The scan from a byte offset of a row: that offset, then the scan one character width
further. -/
theorem startsFrom_drop_of_lt {raw : Bytes} {offset : Nat} (h : offset < raw.length) :
    startsFrom offset (raw.drop offset) =
      offset :: startsFrom (offset + leadWidth raw[offset])
        (raw.drop (offset + leadWidth raw[offset])) := by
  have hw := one_le_leadWidth raw[offset]
  have hstep : offset + 1 + (leadWidth raw[offset] - 1) = offset + leadWidth raw[offset] := by
    omega
  rw [List.drop_eq_getElem_cons h, startsFrom_cons, List.drop_drop, hstep]

theorem startsFrom_drop_of_le {raw : Bytes} {offset : Nat} (h : raw.length ≤ offset) :
    startsFrom offset (raw.drop offset) = [] := by
  rw [List.drop_eq_nil_of_le h, startsFrom_nil]

/-- Every start the scan finds lies in the scanned bytes. -/
theorem mem_startsFrom {base : Nat} {s : Bytes} {x : Nat} (hx : x ∈ startsFrom base s) :
    base ≤ x ∧ x < base + s.length := by
  fun_induction startsFrom base s with
  | case1 base => simp at hx
  | case2 base b rest ih =>
    rw [List.mem_cons] at hx
    have hw := one_le_leadWidth b
    rcases hx with rfl | hx
    · simp
    · have := ih hx
      simp only [List.length_drop, List.length_cons] at this ⊢
      omega

/-- The starts the scan finds increase. -/
theorem startsFrom_pairwise (base : Nat) (s : Bytes) : (startsFrom base s).Pairwise (· < ·) := by
  fun_induction startsFrom base s with
  | case1 base => simp
  | case2 base b rest ih =>
    rw [List.pairwise_cons]
    refine ⟨fun x hx => ?_, ih⟩
    have := (mem_startsFrom hx).1
    have := one_le_leadWidth b
    omega

theorem length_startsFrom_le (base : Nat) (s : Bytes) : (startsFrom base s).length ≤ s.length := by
  fun_induction startsFrom base s with
  | case1 base => simp
  | case2 base b rest ih =>
    rw [List.length_cons, List.length_cons]
    have : (rest.drop (leadWidth b - 1)).length ≤ rest.length := by simp
    omega

@[simp] theorem length_charStarts (s : Bytes) : (charStarts s).length = charCount s := rfl

theorem charCount_le_length (s : Bytes) : charCount s ≤ s.length :=
  length_startsFrom_le 0 s

/-- Where character `i` of `s` starts by the lead-byte scan; the end of `s` for the
character count and beyond. -/
def boundary (s : Bytes) (i : Nat) : Nat := (charStarts s).getD i s.length

theorem getD_charStarts {s : Bytes} {i : Nat} (hi : i < charCount s) (d : Nat) :
    (charStarts s).getD i d = boundary s i := by
  unfold charCount at hi
  simp [boundary, List.getD_eq_getElem?_getD, List.getElem?_eq_getElem hi]

theorem boundary_of_le {s : Bytes} {i : Nat} (hi : charCount s ≤ i) : boundary s i = s.length := by
  unfold charCount at hi
  simp [boundary, List.getD_eq_getElem?_getD, List.getElem?_eq_none hi]

theorem boundary_lt_length {s : Bytes} {i : Nat} (hi : i < charCount s) : boundary s i < s.length := by
  unfold charCount at hi
  have hmem : (charStarts s)[i] ∈ charStarts s := List.getElem_mem hi
  have := (mem_startsFrom hmem).2
  simp only [boundary, List.getD_eq_getElem?_getD, List.getElem?_eq_getElem hi, Option.getD_some]
  omega

theorem boundary_le_length (s : Bytes) (i : Nat) : boundary s i ≤ s.length := by
  by_cases hi : i < charCount s
  · exact Nat.le_of_lt (boundary_lt_length hi)
  · exact Nat.le_of_eq (boundary_of_le (Nat.le_of_not_lt hi))

theorem boundary_lt_boundary {s : Bytes} {i j : Nat} (hij : i < j) (hj : j ≤ charCount s) :
    boundary s i < boundary s j := by
  rcases Nat.lt_or_ge j (charCount s) with hj' | hj'
  · rw [← getD_charStarts (by omega) 0, ← getD_charStarts hj' 0]
    unfold charCount charStarts at hj'
    have hp := List.pairwise_iff_getElem.mp (startsFrom_pairwise 0 s) i j (by omega) hj' hij
    simpa [List.getD_eq_getElem?_getD, charStarts, List.getElem?_eq_getElem, hj',
      show i < (startsFrom 0 s).length by omega] using hp
  · rw [boundary_of_le hj']
    exact boundary_lt_length (by omega)

end Utf8

namespace Span

/-- With a position that is not positive the scan never stops early: it appends every start
from `offset` on. -/
theorem scan_of_nonpos {raw : Bytes} {pos len : Int} (hpos : pos ≤ 0) (offset : Nat)
    (index : List Nat) :
    scan raw pos len offset index = index ++ Utf8.startsFrom offset (raw.drop offset) := by
  fun_induction scan raw pos len offset index with
  | case1 offset index h pushed hstop => omega
  | case2 offset index h pushed hstop ih =>
    rw [ih, Utf8.startsFrom_drop_of_lt h, List.append_assoc, List.singleton_append]
  | case3 offset index h =>
    rw [Utf8.startsFrom_drop_of_le (by omega), List.append_nil]

/-- With a positive position the scan stops once the list holds `bound + 1` starts, where
`bound = pos + len`: it appends the first starts from `offset` on, up to that many. -/
theorem scan_of_pos {raw : Bytes} {pos len : Int} {bound : Nat} (hpos : 0 < pos)
    (hbound : pos + len = bound) (offset : Nat) (index : List Nat) (hindex : index.length ≤ bound) :
    scan raw pos len offset index =
      index ++ (Utf8.startsFrom offset (raw.drop offset)).take (bound + 1 - index.length) := by
  fun_induction scan raw pos len offset index with
  | case1 offset index h pushed hstop =>
    have hfull : bound + 1 - index.length = 0 + 1 := by
      simp only [pushed, List.length_append, List.length_singleton] at hstop
      omega
    rw [Utf8.startsFrom_drop_of_lt h, hfull, List.take_succ_cons, List.take_zero]
  | case2 offset index h pushed hstop ih =>
    have hroom : pushed.length ≤ bound := by
      simp only [pushed, List.length_append, List.length_singleton] at hstop ⊢
      omega
    have hrest : bound + 1 - index.length = bound + 1 - pushed.length + 1 := by
      simp only [pushed, List.length_append, List.length_singleton] at hroom ⊢
      omega
    rw [ih hroom, Utf8.startsFrom_drop_of_lt h, hrest, List.take_succ_cons, List.append_assoc,
      List.singleton_append]
  | case3 offset index h =>
    rw [Utf8.startsFrom_drop_of_le (by omega), List.take_nil, List.append_nil]

/-- The decision table over the full lead-byte scan, in the order of the module header: a
position `p` past the character count `c` is NULL, one before the first character empty, and
otherwise the span runs from the start of character `p` to that of character `p + len`, or to
the end of the row when there is none. -/
def table (s : Bytes) (pos len : Int) : Span :=
  let c : Int := Utf8.charCount s
  if pos > s.length then .null
  else if len ≤ 0 ∨ s.length = 0 ∨ pos = 0 then .empty
  else
    let p := if pos > 0 then pos else c + pos + 1
    if p > c then .null
    else if p < 1 then .empty
    else
      let first := Utf8.boundary s (p - 1).toNat
      .bytes first (Utf8.boundary s (min (p + len - 1) c).toNat - first)

theorem select_of_gt {s : Bytes} {pos : Int} (len : Int) (h : pos > s.length) :
    select s pos len = .null := by
  simp [select, h]

theorem select_of_early {s : Bytes} {pos len : Int} (h : pos ≤ s.length)
    (hearly : len ≤ 0 ∨ s.length = 0 ∨ pos = 0) : select s pos len = .empty := by
  have hearly' : len ≤ 0 ∨ (s.length : Int) = 0 ∨ pos = 0 := by omega
  simp only [select, if_neg (Int.not_lt.mpr h), if_pos hearly']

/-- The check that a span ends after it starts never fires: character starts increase, and
the last one lies before the end of the row. -/
theorem select_eq_table (s : Bytes) (pos len : Int) : select s pos len = table s pos len := by
  by_cases hgt : pos > s.length
  · rw [select_of_gt len hgt, table, if_pos hgt]
  by_cases hearly : len ≤ 0 ∨ s.length = 0 ∨ pos = 0
  · rw [select_of_early (Int.not_lt.mp hgt) hearly, table, if_neg hgt, if_pos hearly]
  have hearly' : ¬(len ≤ 0 ∨ (s.length : Int) = 0 ∨ pos = 0) := by omega
  have hc := Utf8.charCount_le_length s
  -- both resolve a negative position against the character count
  have hp : (if pos < 0 then ((Utf8.charStarts s).length : Int) + pos + 1 else pos) =
      (if pos > 0 then pos else (Utf8.charCount s : Int) + pos + 1) := by
    unfold Utf8.charCount
    split_ifs <;> omega
  simp only [select, table, if_neg hgt, if_neg hearly, if_neg hearly', hp]
  generalize (if pos > 0 then pos else (Utf8.charCount s : Int) + pos + 1) = p
  change (if p > (Utf8.charCount s : Int) then _ else _) = _
  have hlen := Utf8.length_charStarts s
  split_ifs with hnull hbefore hstop hend hend
  · rfl
  · rfl
  · -- the start of a later character lies after the start of an earlier one
    have hi : (p - 1).toNat < Utf8.charCount s := by omega
    have hj : (p + len - 1).toNat < Utf8.charCount s := by omega
    rw [Utf8.getD_charStarts hi, Utf8.getD_charStarts hj] at hend
    exact absurd hend (Nat.not_le.mpr (Utf8.boundary_lt_boundary (by omega) (Nat.le_of_lt hj)))
  · have hi : (p - 1).toNat < Utf8.charCount s := by omega
    have hj : (p + len - 1).toNat < Utf8.charCount s := by omega
    rw [Utf8.getD_charStarts hi, Utf8.getD_charStarts hj, Int.min_eq_left (by omega)]
  · -- every character starts before the end of the row
    have hi : (p - 1).toNat < Utf8.charCount s := by omega
    rw [Utf8.getD_charStarts hi] at hend
    exact absurd hend (Nat.not_le.mpr (Utf8.boundary_lt_length hi))
  · have hi : (p - 1).toNat < Utf8.charCount s := by omega
    rw [Utf8.getD_charStarts hi, Int.min_eq_right (by omega), Int.toNat_natCast,
      Utf8.boundary_of_le (Nat.le_refl _)]

/-- Reading below `k` from the first `k` entries reads the list itself, also past its end. -/
theorem readAt_take {α : Type} (vs : List α) {i k : Nat} (h : i < k) :
    readAt (vs.take k) i = readAt vs i := by
  unfold readAt
  rw [List.getElem?_take_of_lt h]
  cases hv : vs[i]? with
  | some v => rfl
  | none =>
    -- past the end of `vs`, and so of its prefix too, which then has the same length
    have hlen : vs.length ≤ i := List.getElem?_eq_none_iff.mp hv
    simp only [List.length_take, Nat.min_eq_right (by omega : vs.length ≤ k)]

theorem readAt_eq_getD {α : Type} {vs : List α} {i : Nat} (h : i < vs.length) (d : α) :
    readAt vs i = .ok (vs.getD i d) := by
  rw [readAt_eq_ok_of_lt h, List.getD_eq_getElem?_getD, List.getElem?_eq_getElem h,
    Option.getD_some]

/-- Over every character start, the decision reads only starts that exist and answers as
`select`. -/
theorem pick_charStarts {s : Bytes} {pos len : Int} (hgt : ¬pos > s.length)
    (hearly : ¬(len ≤ 0 ∨ s.length = 0 ∨ pos = 0)) :
    pick s.length (Utf8.charStarts s) pos len = .ok (select s pos len) := by
  have hearly' : ¬(len ≤ 0 ∨ (s.length : Int) = 0 ∨ pos = 0) := by omega
  simp only [pick, select, if_neg hgt, if_neg hearly']
  generalize (if pos < 0 then ((Utf8.charStarts s).length : Int) + pos + 1 else pos) = p
  by_cases hnull : p > (Utf8.charStarts s).length
  · rw [if_pos hnull, if_pos hnull]
  by_cases hbefore : p < 1
  · rw [if_neg hnull, if_pos hbefore, if_neg hnull, if_pos hbefore]
  -- the position names a character, whose start is read
  have hi : (p - 1).toNat < (Utf8.charStarts s).length := by omega
  rw [if_neg hnull, if_neg hbefore, if_neg hnull, if_neg hbefore, readAt_eq_getD hi 0]
  by_cases hstop : p + len ≤ (Utf8.charStarts s).length
  · have hj : (p + len - 1).toNat < (Utf8.charStarts s).length := by omega
    simp only [if_pos hstop, readAt_eq_getD hj 0, bind, Except.bind, pure, Except.pure]
    split <;> rfl
  · simp only [if_neg hstop, bind, Except.bind, pure, Except.pure]
    split <;> rfl

/-- Past the start that ends the span, a prefix of the starts answers as all of them: with a
positive position the decision reads no start beyond `pos + len`. -/
theorem pick_take (size : Nat) (starts : List Nat) {pos len : Int} {bound : Nat} (hpos : 0 < pos)
    (hlen : 0 < len) (hbound : pos + len = bound) :
    pick size (starts.take (bound + 1)) pos len = pick size starts pos len := by
  have hcount : ((starts.take (bound + 1)).length : Int) = min (bound + 1 : Int) starts.length := by
    rw [List.length_take]
    omega
  have hnull : pos > ((starts.take (bound + 1)).length : Int) ↔ pos > starts.length := by
    rw [hcount]; omega
  have hstop : pos + len ≤ ((starts.take (bound + 1)).length : Int) ↔ pos + len ≤ starts.length := by
    rw [hcount]; omega
  simp only [pick, if_neg (Int.not_lt.mpr (Int.le_of_lt hpos)), hnull, hstop,
    readAt_take starts (show (pos - 1).toNat < bound + 1 by omega),
    readAt_take starts (show (pos + len - 1).toNat < bound + 1 by omega)]

/-- The scan that `resolve` makes for a position and count past the early decisions: every
start for a negative position, and the starts up to the one after character `pos + len`
otherwise. Either way the decision over it answers as over all starts. -/
theorem pick_scan (raw : Bytes) {pos len : Int} (hgt : ¬pos > raw.length)
    (hearly : ¬(len ≤ 0 ∨ raw.length = 0 ∨ pos = 0)) :
    pick raw.length (scan raw pos len 0 []) pos len = .ok (select raw pos len) := by
  rcases Int.lt_or_gt_of_ne (show pos ≠ 0 by omega) with hneg | hpos
  · rw [scan_of_nonpos (Int.le_of_lt hneg), List.nil_append, List.drop_zero]
    exact pick_charStarts hgt hearly
  · have hbound : pos + len = ((pos + len).toNat : Int) := by omega
    rw [scan_of_pos hpos hbound 0 [] (Nat.zero_le _), List.nil_append, List.drop_zero,
      List.length_nil, Nat.sub_zero]
    rw [pick_take raw.length _ hpos (by omega) hbound]
    exact pick_charStarts hgt hearly

/-- The scan of a row that passed the early decisions finds a prefix of its character starts. -/
theorem scan_prefix (raw : Bytes) (pos : Int) {len : Int} (hlen : 0 < len) :
    scan raw pos len 0 [] <+: Utf8.charStarts raw := by
  by_cases hneg : pos ≤ 0
  · rw [scan_of_nonpos hneg, List.nil_append, List.drop_zero]
    exact List.prefix_refl _
  · have hpos : 0 < pos := by omega
    have hbound : pos + len = ((pos + len).toNat : Int) := by omega
    rw [scan_of_pos hpos hbound 0 [] (Nat.zero_le _), List.nil_append, List.drop_zero]
    exact List.take_prefix _ _

/-- A row resolved with any leftover scratch list answers what `select` decides, and never reads
past the starts it scanned. -/
theorem resolve_eq_select (raw : Bytes) (pos len : Int32) (index : List Nat) :
    ∃ index', resolve raw pos len index = .ok (select raw pos.toInt len.toInt, index') := by
  by_cases hgt : pos.toInt > raw.length
  · exact ⟨index, by rw [resolve, if_pos hgt, select_of_gt _ hgt]⟩
  by_cases hearly : len.toInt ≤ 0 ∨ raw.length = 0 ∨ pos.toInt = 0
  · refine ⟨index, ?_⟩
    rw [resolve, if_neg hgt, if_pos (by omega), select_of_early (Int.not_lt.mp hgt) hearly]
  refine ⟨scan raw pos.toInt len.toInt 0 [], ?_⟩
  rw [resolve, if_neg hgt, if_neg (by omega)]
  dsimp only
  rw [pick_scan raw hgt hearly]
  rfl

/-- A span of the table starts at the boundary before character `p`, the resolved position,
and ends at the boundary `len` characters further, or at the end of the row. -/
theorem table_eq_bytes {s : Bytes} {pos len p : Int} {start n : Nat}
    (hp : p = if pos > 0 then pos else (Utf8.charCount s : Int) + pos + 1)
    (h : table s pos len = .bytes start n) :
    0 < len ∧ pos ≠ 0 ∧ 1 ≤ p ∧ p ≤ Utf8.charCount s ∧ start = Utf8.boundary s (p - 1).toNat ∧
      start + n = Utf8.boundary s (min (p + len - 1) (Utf8.charCount s : Int)).toNat := by
  unfold table at h
  by_cases hgt : pos > s.length
  · rw [if_pos hgt] at h
    cases h
  by_cases hearly : len ≤ 0 ∨ s.length = 0 ∨ pos = 0
  · rw [if_neg hgt, if_pos hearly] at h
    cases h
  rw [if_neg hgt, if_neg hearly] at h
  dsimp only at h
  rw [← hp] at h
  split_ifs at h with hnull hbefore
  cases h
  -- the span runs from the start of character `p` to a later boundary
  have hlt : (p - 1).toNat < (min (p + len - 1) (Utf8.charCount s : Int)).toNat := by omega
  have hle : (min (p + len - 1) (Utf8.charCount s : Int)).toNat ≤ Utf8.charCount s := by omega
  have hfirst := Utf8.boundary_lt_boundary hlt hle
  exact ⟨by omega, by omega, by omega, by omega, rfl, by omega⟩

/-- A span of the table covers at least one byte, all of them in the row. -/
theorem table_bytes {s : Bytes} {pos len : Int} {start n : Nat}
    (h : table s pos len = .bytes start n) : 1 ≤ n ∧ start + n ≤ s.length := by
  obtain ⟨hlen, -, hp1, hpc, hstart, hend⟩ := table_eq_bytes rfl h
  generalize (if pos > 0 then pos else (Utf8.charCount s : Int) + pos + 1) = p at *
  have hlt : (p - 1).toNat < (min (p + len - 1) (Utf8.charCount s : Int)).toNat := by omega
  have hle : (min (p + len - 1) (Utf8.charCount s : Int)).toNat ≤ Utf8.charCount s := by omega
  have hfirst := Utf8.boundary_lt_boundary hlt hle
  have hlast := Utf8.boundary_le_length s (min (p + len - 1) (Utf8.charCount s : Int)).toNat
  omega

/-- Resolving a row is the decision table over the full lead-byte scan, whatever the scratch
list held before: the scan that stops early, the reads of the starts it found and the check
that a span ends after it starts change nothing, and no read falls outside the scanned starts.
Every span it answers covers at least one byte of the row. -/
theorem resolve_eq_table (raw : Bytes) (pos len : Int32) (index : List Nat) :
    (∃ index', resolve raw pos len index = .ok (table raw pos.toInt len.toInt, index')) ∧
      ∀ start n index', resolve raw pos len index = .ok (.bytes start n, index') →
        1 ≤ n ∧ start + n ≤ raw.length := by
  obtain ⟨index', hres⟩ := resolve_eq_select raw pos len index
  rw [select_eq_table] at hres
  refine ⟨⟨index', hres⟩, fun start n index'' h => ?_⟩
  rw [hres] at h
  injection h with h
  exact table_bytes (Prod.mk.inj h).1

/-- A truncated last character still counts: in `a` followed by the first two bytes of a
three-byte character, the second character is those two bytes. -/
example : (resolve [97, 0xE4, 0xB8] 2 1 [5, 6]).toOption = some (.bytes 1 2, [0, 1]) := by
  decide +kernel

end Span

end TextBatch

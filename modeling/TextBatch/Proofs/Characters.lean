import TextBatch.Proofs.Resolve
import TextBatch.Proofs.Slice

/-! # Character boundaries of well-formed UTF-8

The lead-byte scan never decodes: it steps by the width a lead byte announces, whatever
follows. On well-formed text that is exact. Every well-formed sequence starts with a lead byte
of its own width (`width_of_scalar`), so the scan steps from one character to the next, and
the bytes between two of its starts read as exactly the characters between them
(`pieces_between`). A span that resolving a row answers therefore holds the characters from
the resolved position on (`Span.decode?_table`), and a row that the substring family writes
from a well-formed string is well formed and holds the run of the string's characters that
its position and count select (`Span.charRun`, `Builtin.Slices.decode?_row`).
-/

namespace TextBatch

namespace Utf8

/-! ## Well-formed sequences and their lead bytes -/

/-- The width a lead byte announces, read off its value. -/
theorem leadWidth_eq (b : UInt8) :
    leadWidth b = if b.toNat < 0xC0 then 1 else if b.toNat < 0xE0 then 2
      else if b.toNat < 0xF0 then 3 else if b.toNat < 0xF8 then 4
      else if b.toNat < 0xFC then 5 else 6 := by
  unfold leadWidth
  simp only [UInt8.le_iff_toNat_le, UInt8.toNat_ofNat]
  generalize b.toNat = n
  -- one case for each width a lead byte announces
  have hclass : n < 0xC0 ∨ 0xC0 ≤ n ∧ n < 0xE0 ∨ 0xE0 ≤ n ∧ n < 0xF0 ∨ 0xF0 ≤ n ∧ n < 0xF8 ∨
      0xF8 ≤ n ∧ n < 0xFC ∨ 0xFC ≤ n := by omega
  rcases hclass with h | h | h | h | h | h <;> simp (disch := omega) only [if_pos, if_neg]

/-- The lead byte of a well-formed sequence and its width: one byte below `0x80`, two from
`0xC2` to `0xDF`, three from `0xE0` to `0xEF`, four from `0xF0` to `0xF4`; the sequence lies
in the string. -/
theorem lead_of_scalar {b : UInt8} {rest : Bytes} {c : Char} {w : Nat}
    (h : piece b rest = .scalar c w) :
    (b.toNat < 0x80 ∧ w = 1 ∨ 0xC2 ≤ b.toNat ∧ b.toNat ≤ 0xDF ∧ w = 2 ∨
      0xE0 ≤ b.toNat ∧ b.toNat ≤ 0xEF ∧ w = 3 ∨ 0xF0 ≤ b.toNat ∧ b.toNat ≤ 0xF4 ∧ w = 4) ∧
      w ≤ rest.length + 1 := by
  simp only [piece, UInt8.lt_iff_toNat_lt, UInt8.le_iff_toNat_le, UInt8.reduceToNat,
    Bool.and_eq_true, decide_eq_true_eq] at h
  generalize b.toNat = n at h ⊢
  -- the lead byte picks the branch of `piece`; the longer ones read continuation bytes
  have hclass : n < 0x80 ∨ 0xC2 ≤ n ∧ n ≤ 0xDF ∨ 0xE0 ≤ n ∧ n ≤ 0xEF ∨ 0xF0 ≤ n ∧ n ≤ 0xF4 ∨
      ¬(n < 0x80 ∨ 0xC2 ≤ n ∧ n ≤ 0xDF ∨ 0xE0 ≤ n ∧ n ≤ 0xEF ∨ 0xF0 ≤ n ∧ n ≤ 0xF4) := by omega
  rcases hclass with hn | hn | hn | hn | hn <;> simp (disch := omega) only [if_pos, if_neg] at h
  · cases h
    omega
  all_goals
    rcases rest with _ | ⟨c1, _ | ⟨c2, _ | ⟨c3, r⟩⟩⟩ <;> simp only [reduceCtorEq] at h <;>
      split_ifs at h <;> simp only [Piece.scalar.injEq] at h <;>
      obtain ⟨-, rfl⟩ := h <;> simp only [List.length_cons, List.length_nil, and_true] <;> omega

/-- A well-formed sequence is as wide as its lead byte announces. -/
theorem width_of_scalar {b : UInt8} {rest : Bytes} {c : Char} {w : Nat}
    (h : piece b rest = .scalar c w) : w = leadWidth b := by
  rw [leadWidth_eq]
  rcases (lead_of_scalar h).1 with ⟨hb, rfl⟩ | ⟨hb, hb', rfl⟩ | ⟨hb, hb', rfl⟩ | ⟨hb, hb', rfl⟩ <;>
    simp (disch := omega) only [if_pos, if_neg]

theorem piece_take_of_scalar {b : UInt8} {rest : Bytes} {c : Char} {w k : Nat}
    (h : piece b rest = .scalar c w) (hk : w - 1 ≤ k) : piece b (rest.take k) = .scalar c w := by
  by_cases hlen : rest.length ≤ k
  · rw [List.take_of_length_le hlen, h]
  rw [← h]
  -- the lead byte fixes the branch of `piece`, which reads the `w - 1` bytes before the cut
  rcases (lead_of_scalar h).1 with ⟨hb, rfl⟩ | ⟨hb, hb', rfl⟩ | ⟨hb, hb', rfl⟩ | ⟨hb, hb', rfl⟩
  · simp (disch := omega) only [piece, UInt8.lt_iff_toNat_lt, UInt8.toNat_ofNat, if_pos]
  · obtain ⟨c1, r, rfl⟩ : ∃ c1 r, rest = c1 :: r :=
      List.exists_cons_of_ne_nil (by rintro rfl; simp at hlen)
    obtain ⟨k, rfl⟩ : ∃ k', k = k' + 1 := ⟨k - 1, by omega⟩
    simp (disch := omega) only [piece, List.take_succ_cons, UInt8.lt_iff_toNat_lt,
      UInt8.le_iff_toNat_le, UInt8.toNat_ofNat, Bool.and_eq_true, decide_eq_true_eq, if_pos, if_neg]
  · obtain ⟨c1, c2, r, rfl⟩ : ∃ c1 c2 r, rest = c1 :: c2 :: r := by
      rcases rest with _ | ⟨c1, _ | ⟨c2, r⟩⟩
      · simp at hlen
      · simp at hlen
        omega
      · exact ⟨c1, c2, r, rfl⟩
    obtain ⟨k, rfl⟩ : ∃ k', k = k' + 2 := ⟨k - 2, by omega⟩
    simp (disch := omega) only [piece, List.take_succ_cons, UInt8.lt_iff_toNat_lt,
      UInt8.le_iff_toNat_le, UInt8.toNat_ofNat, Bool.and_eq_true, decide_eq_true_eq, if_pos, if_neg]
  · obtain ⟨c1, c2, c3, r, rfl⟩ : ∃ c1 c2 c3 r, rest = c1 :: c2 :: c3 :: r := by
      rcases rest with _ | ⟨c1, _ | ⟨c2, _ | ⟨c3, r⟩⟩⟩
      · simp at hlen
      · simp at hlen
        omega
      · simp at hlen
        omega
      · exact ⟨c1, c2, c3, r, rfl⟩
    obtain ⟨k, rfl⟩ : ∃ k', k = k' + 3 := ⟨k - 3, by omega⟩
    rfl

/-! ## The scan and the pieces, character by character -/

theorem pieces_nil : pieces [] = [] := by
  rw [pieces]

theorem pieces_cons (b : UInt8) (rest : Bytes) :
    pieces (b :: rest) = piece b rest :: pieces (rest.drop ((piece b rest).width - 1)) := by
  rw [pieces]

/-- Scanning from a later offset shifts every start by the difference. -/
theorem startsFrom_add (base d : Nat) (s : Bytes) :
    startsFrom (base + d) s = (startsFrom base s).map (· + d) := by
  fun_induction startsFrom base s with
  | case1 base => simp [startsFrom_nil]
  | case2 base b rest ih =>
    rw [startsFrom_cons, List.map_cons, ← ih]
    congr 2
    omega

theorem boundary_zero (s : Bytes) : boundary s 0 = 0 := by
  cases s with
  | nil => simp [boundary, charStarts, startsFrom_nil]
  | cons b rest => simp [boundary, charStarts, startsFrom_cons]

/-- Past the first character, the boundaries of a string are those of the rest after it,
shifted by its width. -/
theorem boundary_succ (b : UInt8) (rest : Bytes) (i : Nat) (hw : leadWidth b ≤ rest.length + 1) :
    boundary (b :: rest) (i + 1) = leadWidth b + boundary (rest.drop (leadWidth b - 1)) i := by
  have hshift := startsFrom_add 0 (leadWidth b) (rest.drop (leadWidth b - 1))
  rw [Nat.zero_add] at hshift
  simp only [boundary, charStarts, startsFrom_cons, Nat.zero_add, hshift,
    List.getD_eq_getElem?_getD, List.getElem?_cons_succ, List.getElem?_map]
  cases hi : (startsFrom 0 (rest.drop (leadWidth b - 1)))[i]? with
  | some x =>
    simp only [Option.map_some, Option.getD_some]
    omega
  | none =>
    have := one_le_leadWidth b
    simp only [Option.map_none, Option.getD_none, List.length_drop, List.length_cons]
    omega

theorem charCount_cons (b : UInt8) (rest : Bytes) :
    charCount (b :: rest) = charCount (rest.drop (leadWidth b - 1)) + 1 := by
  have hshift := startsFrom_add 0 (leadWidth b) (rest.drop (leadWidth b - 1))
  rw [Nat.zero_add] at hshift
  simp only [charCount, charStarts, startsFrom_cons, Nat.zero_add, hshift, List.length_cons,
    List.length_map]

/-- The first piece of well-formed text: a sequence as wide as its lead byte announces, which
lies in the text; the rest of the text after it is well formed too. -/
theorem first_piece {b : UInt8} {rest : Bytes} (hs : ∀ p ∈ pieces (b :: rest), p.isScalar) :
    ∃ c, piece b rest = .scalar c (leadWidth b) ∧ leadWidth b ≤ rest.length + 1 ∧
      ∀ p ∈ pieces (rest.drop (leadWidth b - 1)), p.isScalar := by
  rw [pieces_cons] at hs
  cases hp : piece b rest with
  | invalid w =>
    have := hs _ List.mem_cons_self
    rw [hp] at this
    cases this
  | scalar c w =>
    obtain rfl := width_of_scalar hp
    refine ⟨c, rfl, (lead_of_scalar hp).2, fun p hmem => hs p ?_⟩
    rw [hp]
    exact List.mem_cons_of_mem _ hmem

/-- Between two character boundaries of well-formed text lie exactly the characters between
them: the bytes from boundary `i` to boundary `j` read as pieces `i` to `j`. -/
theorem pieces_between {s : Bytes} (hs : ∀ p ∈ pieces s, p.isScalar) {i j : Nat} (hij : i ≤ j)
    (hj : j ≤ (pieces s).length) :
    pieces ((s.drop (boundary s i)).take (boundary s j - boundary s i)) =
      ((pieces s).drop i).take (j - i) := by
  induction s using pieces.induct generalizing i j with
  | case1 =>
    simp [pieces_nil]
  | case2 b rest p ih =>
    obtain ⟨c, hp, hw, hs'⟩ := first_piece hs
    have hw1 := one_le_leadWidth b
    simp only [p, hp, Piece.width] at ih
    rw [pieces_cons, hp, Piece.width] at hj ⊢
    rw [List.length_cons] at hj
    rcases i with _ | i
    · -- from the start of the text: the first character, then a prefix of the rest
      rw [boundary_zero, List.drop_zero, Nat.sub_zero]
      rcases j with _ | j
      · simp [boundary_zero, pieces_nil]
      have hrest := ih hs' (Nat.zero_le j) (by omega)
      rw [boundary_zero, List.drop_zero, Nat.sub_zero, List.drop_zero, Nat.sub_zero] at hrest
      rw [boundary_succ b rest j hw,
        show leadWidth b + boundary (rest.drop (leadWidth b - 1)) j =
          leadWidth b - 1 + boundary (rest.drop (leadWidth b - 1)) j + 1 by omega,
        List.take_succ_cons, pieces_cons, piece_take_of_scalar hp (by omega), Piece.width,
        List.drop_take, Nat.add_sub_cancel_left, hrest, List.drop_zero, Nat.sub_zero,
        List.take_succ_cons]
    · -- past the first character: the same boundaries of the rest
      rcases j with _ | j
      · omega
      rw [boundary_succ b rest i hw, boundary_succ b rest j hw, Nat.add_sub_add_left,
        show leadWidth b + boundary (rest.drop (leadWidth b - 1)) i =
          leadWidth b - 1 + boundary (rest.drop (leadWidth b - 1)) i + 1 by omega,
        List.drop_succ_cons, ← List.drop_drop, List.drop_succ_cons, Nat.add_sub_add_right]
      exact ih hs' (by omega) (by omega)

/-- On well-formed text the lead-byte scan finds one start per character. -/
theorem charCount_of_valid {s : Bytes} (hs : ∀ p ∈ pieces s, p.isScalar) :
    charCount s = (pieces s).length := by
  induction s using pieces.induct with
  | case1 => simp [charCount, charStarts, startsFrom_nil, pieces_nil]
  | case2 b rest p ih =>
    obtain ⟨c, hp, -, hs'⟩ := first_piece hs
    simp only [p, hp, Piece.width] at ih
    rw [charCount_cons, pieces_cons, hp, Piece.width, List.length_cons, ih hs']

/-! ## Decoding between boundaries -/

theorem decode?_eq_some_iff {s : Bytes} {t : String} :
    decode? s = some t ↔
      (∀ p ∈ pieces s, p.isScalar) ∧ t = String.ofList ((pieces s).map Piece.toChar) := by
  unfold decode?
  dsimp only
  split
  · next hall =>
    rw [List.all_eq_true] at hall
    rw [Option.some.injEq]
    exact ⟨fun h => ⟨hall, h.symm⟩, fun h => h.2.symm⟩
  · next hall =>
    rw [List.all_eq_true] at hall
    simp [hall]

/-- Well-formed text has as many lead-byte starts as characters. -/
theorem charCount_eq_length {s : Bytes} {t : String} (hs : decode? s = some t) :
    charCount s = t.length := by
  obtain ⟨hvalid, rfl⟩ := decode?_eq_some_iff.mp hs
  rw [charCount_of_valid hvalid, String.length_ofList, List.length_map]

/-- The characters of well-formed text between two of its character boundaries. -/
theorem decode?_between {s : Bytes} {t : String} (hs : decode? s = some t) {i j : Nat}
    (hij : i ≤ j) (hj : j ≤ t.length) :
    decode? ((s.drop (boundary s i)).take (boundary s j - boundary s i)) =
      some (String.ofList ((t.toList.drop i).take (j - i))) := by
  obtain ⟨hvalid, rfl⟩ := decode?_eq_some_iff.mp hs
  rw [String.length_ofList, List.length_map] at hj
  rw [decode?_eq_some_iff, pieces_between hvalid hij hj, String.toList_ofList, ← List.map_drop,
    ← List.map_take]
  exact ⟨fun p hp => hvalid p (List.mem_of_mem_drop (List.mem_of_mem_take hp)), rfl⟩

/-- The bytes before boundary `i` of well-formed text are its first `i` characters. -/
theorem decode?_take_boundary {s : Bytes} {t : String} (hs : decode? s = some t) {i : Nat}
    (hi : i ≤ t.length) :
    decode? (s.take (boundary s i)) = some (String.ofList (t.toList.take i)) := by
  have h := decode?_between hs (Nat.zero_le i) hi
  rwa [boundary_zero, List.drop_zero, Nat.sub_zero, List.drop_zero, Nat.sub_zero] at h

/-- The bytes from boundary `i` of well-formed text on are its characters after the first `i`. -/
theorem decode?_drop_boundary {s : Bytes} {t : String} (hs : decode? s = some t) {i : Nat}
    (hi : i ≤ t.length) :
    decode? (s.drop (boundary s i)) = some (String.ofList (t.toList.drop i)) := by
  have h := decode?_between hs hi (Nat.le_refl t.length)
  rw [boundary_of_le (Nat.le_of_eq (charCount_eq_length hs)),
    List.take_of_length_le (Nat.le_of_eq List.length_drop),
    List.take_of_length_le (Nat.le_of_eq (by rw [List.length_drop, String.length_toList]))] at h
  exact h

end Utf8

namespace Span

/-- On well-formed text a span of the table is exactly the characters it names: from the
resolved position `p`, `len` of them or as many as remain. -/
theorem decode?_table {s : Bytes} {t : String} (hs : Utf8.decode? s = some t) {pos len : Int}
    {start n : Nat} (h : table s pos len = .bytes start n) :
    Utf8.decode? ((s.drop start).take n) =
      some (String.ofList ((t.toList.drop
        ((if pos < 0 then (t.length : Int) + pos + 1 else pos) - 1).toNat).take len.toNat)) := by
  have hc := Utf8.charCount_eq_length hs
  obtain ⟨hlen, hpos, hp1, hpc, rfl, hend⟩ := table_eq_bytes rfl h
  -- the table resolves the same position as the statement's formula
  have hq : (if pos < 0 then (t.length : Int) + pos + 1 else pos) =
      (if pos > 0 then pos else (Utf8.charCount s : Int) + pos + 1) := by
    rw [hc]
    split_ifs <;> omega
  rw [hq]
  generalize (if pos > 0 then pos else (Utf8.charCount s : Int) + pos + 1) = p at hp1 hpc hend ⊢
  have hn : n = Utf8.boundary s (min (p + len - 1) (Utf8.charCount s : Int)).toNat -
      Utf8.boundary s (p - 1).toNat := by omega
  rw [hn, Utf8.decode?_between hs (by omega) (by omega)]
  -- as many characters as remain, or `len` of them
  have htake : (t.toList.drop (p - 1).toNat).take
      ((min (p + len - 1) (Utf8.charCount s : Int)).toNat - (p - 1).toNat) =
      (t.toList.drop (p - 1).toNat).take len.toNat := by
    apply List.take_eq_take_iff.mpr
    rw [List.length_drop, String.length_toList]
    omega
  rw [htake]

/-- The characters a substring from character position `pos` for `len` characters selects,
read on the characters `cs` themselves: a negative position counts from the end, and position
0, a count that is not positive or a position before the first character select none. -/
def charRun (cs : List Char) (pos len : Int) : List Char :=
  let p := if pos < 0 then (cs.length : Int) + pos + 1 else pos
  if pos = 0 ∨ len ≤ 0 ∨ p < 1 then [] else (cs.drop (p - 1).toNat).take len.toNat

theorem charRun_infix (cs : List Char) (pos len : Int) : charRun cs pos len <:+: cs := by
  dsimp only [charRun]
  generalize (if pos < 0 then (cs.length : Int) + pos + 1 else pos) = p
  split
  · exact List.nil_infix
  · exact ((List.take_prefix _ _).isInfix).trans (List.drop_suffix _ _).isInfix

/-- The table answers the empty string only for a count that is not positive, an empty row,
position 0, or a negative position that counts back past the first character. -/
theorem table_eq_empty {s : Bytes} {pos len : Int} (h : table s pos len = .empty) :
    len ≤ 0 ∨ s.length = 0 ∨ pos = 0 ∨ (pos < 0 ∧ (Utf8.charCount s : Int) + pos + 1 < 1) := by
  unfold table at h
  by_cases hgt : pos > s.length
  · rw [if_pos hgt] at h
    cases h
  by_cases hearly : len ≤ 0 ∨ s.length = 0 ∨ pos = 0
  · omega
  rw [if_neg hgt, if_neg hearly] at h
  dsimp only at h
  -- past that, only a resolved position before the first character answers the empty string
  split_ifs at h <;> omega

/-- On well-formed text, a row that the table answers with bytes is exactly the characters that
its position and count select. -/
theorem decode?_slice {s : Bytes} {t : String} (hs : Utf8.decode? s = some t) {pos len : Int}
    {v : Bytes} (h : (table s pos len).slice s = some v) :
    Utf8.decode? v = some (String.ofList (charRun t.toList pos len)) := by
  have hc := Utf8.charCount_eq_length hs
  cases htab : table s pos len with
  | null =>
    rw [htab] at h
    cases h
  | empty =>
    rw [htab] at h
    cases h
    -- every way the table answers the empty string selects no character
    have hnone : charRun t.toList pos len = [] := by
      have hchars : (t.toList.length : Int) = Utf8.charCount s := by
        rw [String.length_toList, hc]
      rcases table_eq_empty htab with hlen | hlen | hpos | ⟨hneg, hbefore⟩
      · simp [charRun, hlen]
      · have hnil : t.toList = [] := by
          apply List.eq_nil_of_length_eq_zero
          have := Utf8.charCount_le_length s
          omega
        simp [charRun, hnil]
      · simp [charRun, hpos]
      · simp only [charRun, if_pos hneg]
        rw [if_pos (.inr (.inr (by omega)))]
    rw [hnone]
    exact Utf8.decode?_eq_some_iff.mpr ⟨by simp [Utf8.pieces_nil],
      by rw [Utf8.pieces_nil, List.map_nil]⟩
  | bytes start n =>
    rw [htab] at h
    cases h
    obtain ⟨hlen, hpos, hp1, -, -, -⟩ := table_eq_bytes rfl htab
    rw [decode?_table hs htab]
    -- the count is positive and the position reaches a character, so the run is taken
    have hkeep : ¬(pos = 0 ∨ len ≤ 0 ∨
        (if pos < 0 then (t.length : Int) + pos + 1 else pos) < 1) := by
      rw [← hc]
      split_ifs at hp1 ⊢ <;> omega
    simp only [charRun, String.length_toList]
    rw [if_neg hkeep]

end Span

namespace Value

/-- A substring cell with bytes is bytes the span of some position and count selects. -/
theorem substring_eq_bytes {s : Bytes} {p l : Option Int} {v : Bytes}
    (h : (Value.bytes s).substring p l = .bytes v) :
    ∃ P L, p = some P ∧ l = some L ∧ (Span.select s P L).slice s = some v := by
  cases p with
  | none => simp [substring] at h
  | some P =>
    cases l with
    | none => simp [substring] at h
    | some L =>
      refine ⟨P, L, rfl, rfl, ?_⟩
      simp only [substring] at h
      cases hs : (Span.select s P L).slice s with
      | none =>
        rw [hs] at h
        cases h
      | some w =>
        rw [hs] at h
        cases h
        rfl

end Value

namespace Builtin

/-- The character position and count that a call of the substring family reads from the cells
after the string `s`: `substr(s, p)` runs for `int32Max` characters, `left` starts at the first
character, and `right(s, n)` starts `n` characters before the end, no earlier than the first,
for the `c` characters of `s` capped at `int32Max`. -/
def sliceArgs (f : Builtin) (s : Bytes) (xs : List Value) : Option (Int × Int) :=
  match f, xs with
  | .substring, [p, l] => p.int32Arg?.bind fun P => l.int32Arg?.map fun L => (P, L)
  | .substringFrom, [p] => p.int32Arg?.map fun P => (P, int32Max)
  | .left, [n] => n.int32Arg?.map fun L => (1, L)
  | .right, [n] => n.int32Arg?.map fun k =>
    (max (min (-k) int32Max) (-min (Utf8.charCount s : Int) int32Max),
      min (Utf8.charCount s : Int) int32Max)
  | _, _ => none

/-- A row of the substring family that holds bytes holds the span that the row's position and
count select in the row's string. -/
theorem sliceRow_eq_bytes {f : Builtin} (hf : f ∈ [substring, substringFrom, left, right])
    {s : Bytes} {xs : List Value} {v : Bytes} (h : f.sliceRow (.bytes s :: xs) = .bytes v) :
    ∃ P L, f.sliceArgs s xs = some (P, L) ∧ (Span.select s P L).slice s = some v := by
  simp only [List.mem_cons, List.not_mem_nil, or_false] at hf
  rcases xs with _ | ⟨x, _ | ⟨y, _ | ⟨z, zs⟩⟩⟩ <;>
    rcases hf with rfl | rfl | rfl | rfl <;> simp only [sliceRow, reduceCtorEq] at h
  · -- `substr(s, p)` runs for `int32Max` characters
    obtain ⟨P, L, hP, hL, hslice⟩ := Value.substring_eq_bytes h
    cases hL
    exact ⟨P, _, by simp [sliceArgs, hP], hslice⟩
  · -- `left` starts at the first character
    obtain ⟨P, L, hP, hL, hslice⟩ := Value.substring_eq_bytes h
    cases hP
    exact ⟨_, L, by simp [sliceArgs, hL], hslice⟩
  · -- `right` reads its count first
    cases hk : x.int32Arg? with
    | none => rw [Value.right_of_int32Arg_none hk] at h; cases h
    | some k =>
      rw [Value.right_bytes hk] at h
      obtain ⟨P, L, hP, hL, hslice⟩ := Value.substring_eq_bytes h
      cases hP
      cases hL
      exact ⟨_, _, by simp [sliceArgs, hk], hslice⟩
  · obtain ⟨P, L, hP, hL, hslice⟩ := Value.substring_eq_bytes h
    exact ⟨P, L, by simp [sliceArgs, hP, hL], hslice⟩

/-- A row the substring family writes from a well-formed string is well formed, and its
characters are the run that the row's position and count select in the string's characters. -/
theorem Slices.decode?_row {f : Builtin} (hf : f ∈ [substring, substringFrom, left, right])
    {sc : Column} {rest : List Column} {rows : Nat} {col : Column} (hcol : f.Slices (sc :: rest) rows col)
    {r : Nat} (hr : r < rows) {s : Bytes} {t : String} (hsr : sc.get r = .ok (.bytes s))
    (hs : Utf8.decode? s = some t) {v : Bytes} (hv : col.get r = .ok (.bytes v)) :
    ∃ xs P L, rest.mapM (Column.get · r) = .ok xs ∧ f.sliceArgs s xs = some (P, L) ∧
      Utf8.decode? v = some (String.ofList (Span.charRun t.toList P L)) := by
  rw [hcol.get_eq r hr, List.mapM_cons, hsr] at hv
  cases hxs : rest.mapM (Column.get · r) with
  | error e => simp [hxs, bind, Except.bind, Except.map] at hv
  | ok xs =>
    simp only [hxs, bind, Except.bind, pure, Except.pure, Except.map, Except.ok.injEq] at hv
    obtain ⟨P, L, hargs, hslice⟩ := sliceRow_eq_bytes hf hv
    rw [Span.select_eq_table] at hslice
    exact ⟨xs, P, L, rfl, hargs, Span.decode?_slice hs hslice⟩

/-- On well-formed UTF-8 the lead-byte arithmetic is exact. The scan counts the characters, its
`i`-th start is the boundary between the first `i` characters and the others, and the scan that
resolves a row finds a prefix of those starts. A span that resolving a row answers holds exactly
the characters from the resolved position on, `len` of them or as many as remain. So every row
with bytes that the substring family writes from such a string is well formed, and its
characters are the run of the string's characters that the row's position and count cells
select. -/
theorem lead_bytes_exact {s : Bytes} {t : String} (hs : Utf8.decode? s = some t) :
    Utf8.charCount s = t.length ∧
    (∀ i ≤ t.length,
      Utf8.decode? (s.take (Utf8.boundary s i)) = some (String.ofList (t.toList.take i)) ∧
        Utf8.decode? (s.drop (Utf8.boundary s i)) = some (String.ofList (t.toList.drop i))) ∧
    (∀ pos len : Int, 0 < len → Span.scan s pos len 0 [] <+: Utf8.charStarts s) ∧
    (∀ (pos len : Int32) (index : List Nat) (start n : Nat) (index' : List Nat),
      Span.resolve s pos len index = .ok (.bytes start n, index') →
        Utf8.decode? ((s.drop start).take n) = some (String.ofList ((t.toList.drop
          ((if pos.toInt < 0 then (t.length : Int) + pos.toInt + 1 else pos.toInt) - 1).toNat).take
            len.toInt.toNat))) ∧
    (∀ f ∈ [substring, substringFrom, left, right], ∀ (sc : Column) (rest : List Column)
      (rows : Nat) (col : Column) (r : Nat) (v : Bytes), f.Slices (sc :: rest) rows col → r < rows →
        sc.get r = .ok (.bytes s) → col.get r = .ok (.bytes v) →
          ∃ xs P L, rest.mapM (Column.get · r) = .ok xs ∧ f.sliceArgs s xs = some (P, L) ∧
            Span.charRun t.toList P L <:+: t.toList ∧
            Utf8.decode? v = some (String.ofList (Span.charRun t.toList P L))) := by
  refine ⟨Utf8.charCount_eq_length hs,
    fun i hi => ⟨Utf8.decode?_take_boundary hs hi, Utf8.decode?_drop_boundary hs hi⟩,
    fun pos len hlen => Span.scan_prefix s pos hlen, fun pos len index start n index' h => ?_,
    fun f hf sc rest rows col r v hcol hr hsr hv => ?_⟩
  · -- resolving answers the table, whose spans hold the characters they name
    obtain ⟨index'', hres⟩ := Span.resolve_eq_select s pos len index
    rw [h, Span.select_eq_table] at hres
    injection hres with hres
    exact Span.decode?_table hs (Prod.mk.inj hres).1.symm
  · obtain ⟨xs, P, L, hxs, hargs, hrow⟩ := hcol.decode?_row hf hr hsr hs hv
    exact ⟨xs, P, L, hxs, hargs, Span.charRun_infix _ P L, hrow⟩

/-- In the six bytes of `日本`, position 2 for one character selects the three bytes of `本`. -/
theorem lead_bytes_exact_nihon :
    Utf8.decode? [0xE6, 0x97, 0xA5, 0xE6, 0x9C, 0xAC] = some "日本" ∧
      Utf8.charCount [0xE6, 0x97, 0xA5, 0xE6, 0x9C, 0xAC] = "日本".length ∧
      ∀ (index : List Nat) (start n : Nat) (index' : List Nat),
        Span.resolve [0xE6, 0x97, 0xA5, 0xE6, 0x9C, 0xAC] 2 1 index = .ok (.bytes start n, index') →
          Utf8.decode? (([0xE6, 0x97, 0xA5, 0xE6, 0x9C, 0xAC] : Bytes).drop start |>.take n) =
            some "本" := by
  have hs : Utf8.decode? [0xE6, 0x97, 0xA5, 0xE6, 0x9C, 0xAC] = some "日本" := by decide +kernel
  obtain ⟨hcount, -, -, hspan, -⟩ := lead_bytes_exact hs
  refine ⟨hs, hcount, fun index start n index' h => ?_⟩
  rw [hspan 2 1 index start n index' h]
  decide +kernel

end Builtin

end TextBatch

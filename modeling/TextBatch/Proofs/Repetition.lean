import TextBatch.Proofs.Kernels
import TextBatch.Proofs.Narrowing

/-! # Repetition within the limit

`repeat(s, n)` and `space(n)` check every row against the configured limit on string length,
and the bytes of all rows against the address space, before they write anything, and then write
each row's string its count of times. The count of a row is the stored integer narrowed to 32
bits by saturation, a negative one read as zero.

`Fill.Fills` is the law of such a call over given strings and copies: it fails with an overflow
and leaves the block as it was exactly when some row's copies are longer than the limit or all
copies together pass `usizeMax`; otherwise a debug build stops on a row whose copies reach
`usizeMax`, which only a limit of `usizeMax` lets through, and the call writes a string column of
the copies. Both functions obey it over a string column and
an integer column without null maps (`Fill.fills_repeat`, `Fill.fills_space`), and refuse
arguments of other types with an execution error that leaves the block as it was.

Narrowing makes the check differ from one on the stored count in a single place: a one-byte
string under the largest limit, `int32Max`, with a count beyond it. There the narrowed count
passes and `int32Max` copies are written (`Fill.saturated_exceeds_iff`).
-/

namespace TextBatch

theorem length_repeatBytes (v : Bytes) (t : Nat) : (repeatBytes v t).length = t * v.length := by
  rw [repeatBytes_eq, List.length_flatten, List.map_replicate, List.sum_replicate_nat]

namespace Fill

/-- The bytes of `copies r` copies of `str r` over `rows` rows: the running total a call of
`repeat` or `space` adds up before it writes. -/
def totalBytes (rows : Nat) (str : Nat → Bytes) (copies : Nat → Nat) : Nat :=
  ((List.range rows).map fun r => copies r * (str r).length).sum

/-- The law of a call `m` on `b` that writes `copies r` copies of the string `str r` at each of
`rows` rows under the limit `limit`, with the debug checks on when `checks` is. When some row's
copies are longer than the limit, or the copies of all rows together pass the largest
machine-sized count, the call fails with an overflow and leaves the block as it was. Otherwise a
debug build stops where a row's copies and terminator pass that count, and the call writes at
`result` a string column whose rows are the copies, none longer than the limit. -/
structure Fills (m : BlockM Unit) (b : Block) (rows result limit : Nat) (checks : Bool)
    (str : Nat → Bytes) (copies : Nat → Nat) : Prop where
  overflows : ((∃ r < rows, limit < copies r * (str r).length) ∨
      usizeMax < totalBytes rows str copies) →
    ∃ e, m.run b = .error e b ∧ e.kind = .overflow
  stops : (∀ r < rows, copies r * (str r).length ≤ limit) → totalBytes rows str copies ≤ usizeMax →
    checks = true → (∃ r < rows, usizeMax ≤ copies r * (str r).length) →
    ∃ e, m.run b = .error e b ∧ e.kind = .outOfBounds
  writes : (∀ r < rows, copies r * (str r).length ≤ limit) → totalBytes rows str copies ≤ usizeMax →
    (checks = true → ∀ r < rows, copies r * (str r).length < usizeMax) →
    ∃ b', m.run b = .ok () b' ∧ ∃ col, b'.column result = .ok col ∧ col.dataType = .string ∧
      col.length = rows ∧ ∀ r < rows, col.get r = .ok (.bytes (repeatBytes (str r) (copies r))) ∧
        (repeatBytes (str r) (copies r)).length ≤ limit

/-- Over rows without a NULL whose bytes are `bytes r`, `repeat` and `space` add up the sum of
those bytes, and reserve every row exactly when the debug checks are off or no row's bytes reach
the largest machine-sized count. -/
theorem addressable_reserves_of_rows {f : Builtin} (hf : f = .repeat ∨ f = .space) (cfg : Config)
    {cols : List Column} {rows : Nat} {bytes : Nat → Nat}
    (h : ∀ r < rows, (Column.cells cols r).contains .null = false ∧
      f.rowBytes (Column.cells cols r) = bytes r) :
    f.addressable cols rows = decide (((List.range rows).map bytes).sum ≤ usizeMax) ∧
      f.reserves cfg cols rows =
        (!cfg.debugChecks || (List.range rows).all fun r => decide (bytes r < usizeMax)) := by
  have hsum : f.outputBytes cols rows = ((List.range rows).map bytes).sum := by
    unfold Builtin.outputBytes
    congr 1
    refine List.map_congr_left fun r hr => ?_
    obtain ⟨hnull, hbytes⟩ := h r (List.mem_range.mp hr)
    simp only [hnull, Bool.and_false, Bool.false_eq_true, if_false, hbytes]
  have hall : ((List.range rows).all fun r => (Column.cells cols r).contains .null ||
        decide (f.rowBytes (Column.cells cols r) < usizeMax)) =
      (List.range rows).all fun r => decide (bytes r < usizeMax) := by
    rw [Bool.eq_iff_iff, List.all_eq_true, List.all_eq_true]
    refine forall₂_congr fun r hr => ?_
    obtain ⟨hnull, hbytes⟩ := h r (List.mem_range.mp hr)
    rw [hnull, hbytes, Bool.false_or]
  rcases hf with rfl | rfl <;> exact ⟨by simp only [Builtin.addressable, hsum], by
    simp only [Builtin.reserves, hall]⟩

/-- A call that computes its column and then writes it obeys the law when its computation meets
the specification of `repeat` or `space`, the function returns a string, and each row, free of
NULLs, fits exactly when its copies do, with their bytes and those copies as its value. -/
theorem fills_of_kernelSpec {f : Builtin} (hf : f = .repeat ∨ f = .space) {cfg : Config}
    {cols : List Column} (kernel : Block → Except Error Column) {b : Block} {rows result : Nat}
    {str : Nat → Bytes} {copies : Nat → Nat} (hb : b.Shaped rows) (hresult : result < b.size)
    (hspec : f.KernelSpec cfg cols rows (kernel b)) (htakes : f.takes (cols.map Column.dataType))
    (htype : f.returnType (cols.map Column.dataType) = .ok .string)
    (hrow : ∀ r < rows, (Column.cells cols r).contains .null = false ∧
      f.fits cfg (Column.cells cols r) =
        decide (copies r * (str r).length ≤ cfg.maxStringLength) ∧
      f.rowBytes (Column.cells cols r) = copies r * (str r).length ∧
      f.plainRow (Column.cells cols r) = .bytes (repeatBytes (str r) (copies r))) :
    Fills (do let col ← BlockM.lift (kernel (← get)); BlockM.setColumn result col) b rows result
      cfg.maxStringLength cfg.debugChecks str copies := by
  obtain ⟨haddr, hreserve⟩ := addressable_reserves_of_rows hf cfg fun r hr =>
    ⟨(hrow r hr).1, (hrow r hr).2.2.1⟩
  have hfits : (∀ r < rows, copies r * (str r).length ≤ cfg.maxStringLength) →
      ∀ r < rows, f.fits cfg (Column.cells cols r) := fun hall r hr => by
    rw [(hrow r hr).2.1, decide_eq_true_eq]
    exact hall r hr
  refine ⟨fun hbad => ?_, fun hall htotal hchecks ⟨r, hr, hbig⟩ => ?_,
    fun hall htotal hsmall => ?_⟩
  · -- the kernel fails on a row or on the total, before anything is written
    have hover : (∃ r < rows, f.fits cfg (Column.cells cols r) = false) ∨
        f.addressable cols rows = false := by
      rcases hbad with ⟨r, hr, hbig⟩ | hbig
      · exact .inl ⟨r, hr, by rw [(hrow r hr).2.1, decide_eq_false_iff_not]; omega⟩
      · exact .inr (by rw [haddr, decide_eq_false_iff_not]; exact Nat.not_le.mpr hbig)
    obtain ⟨e, he, hkind⟩ := hspec.overflows htakes hover
    exact ⟨e, BlockM.run_write_of_error he, hkind⟩
  · -- a debug build reserves a row that cannot be reserved
    have hnot : f.reserves cfg cols rows = false := by
      rw [hreserve, hchecks, Bool.not_true, Bool.false_or, List.all_eq_false]
      exact ⟨r, List.mem_range.mpr hr, by simpa using hbig⟩
    obtain ⟨e, he, hkind⟩ := hspec.stops htakes (hfits hall) (by rw [haddr]; exact decide_eq_true htotal)
      hnot
    exact ⟨e, BlockM.run_write_of_error he, hkind⟩
  · have hres : f.reserves cfg cols rows := by
      rw [hreserve]
      cases hchecks : cfg.debugChecks
      · rfl
      · simpa using fun r hr => hsmall hchecks r hr
    obtain ⟨col, hcol, hwf, htype', hlen, hget⟩ := hspec.writes htakes (hfits hall)
      (by rw [haddr]; exact decide_eq_true htotal) hres
    obtain ⟨b', hset, -⟩ := hb.setColumn hresult hwf hlen
    refine ⟨b', BlockM.run_write_eq_ok.mpr ⟨col, hcol, hset⟩, col,
      Block.column_setColumn_self hset, Except.ok.inj (htype.symm.trans htype').symm, hlen,
      fun r hr => ⟨by rw [hget r hr, (hrow r hr).2.2.2], ?_⟩⟩
    rw [length_repeatBytes]
    exact hall r hr

theorem ne_null_of_intArg? {n : Value} {N : Int} (hN : n.intArg? = some N) : n ≠ .null := by
  rintro rfl
  cases hN

/-- A row of `repeat` over a string and a count cell holding `N`: it holds no NULL, fits when
the copies of the saturated count fit, and its bytes and value are those copies. -/
theorem repeat_row {cfg : Config} {v : Bytes} {n : Value} {N : Int} (hN : n.intArg? = some N) :
    [Value.bytes v, n].contains .null = false ∧
      Builtin.repeat.fits cfg [.bytes v, n] =
        decide ((saturate32 N).toNat * v.length ≤ cfg.maxStringLength) ∧
      Builtin.repeat.rowBytes [.bytes v, n] = (saturate32 N).toNat * v.length ∧
      Builtin.repeat.plainRow [.bytes v, n] = .bytes (repeatBytes v (saturate32 N).toNat) := by
  have h32 : n.int32Arg? = some (saturate32 N) := by
    rw [Value.int32Arg?_eq_map, hN, Option.map_some]
  simp [Builtin.fits, Builtin.rowBytes, Builtin.plainRow, h32, repeatBytes_eq,
    Ne.symm (ne_null_of_intArg? hN)]

/-- A row of `space` over a count cell holding `N`: the row of `repeat` over a single space. -/
theorem space_row {cfg : Config} {n : Value} {N : Int} (hN : n.intArg? = some N) :
    [n].contains .null = false ∧
      Builtin.space.fits cfg [n] =
        decide ((saturate32 N).toNat * [(32 : UInt8)].length ≤ cfg.maxStringLength) ∧
      Builtin.space.rowBytes [n] = (saturate32 N).toNat * [(32 : UInt8)].length ∧
      Builtin.space.plainRow [n] = .bytes (repeatBytes [32] (saturate32 N).toNat) := by
  have h32 : n.int32Arg? = some (saturate32 N) := by
    rw [Value.int32Arg?_eq_map, hN, Option.map_some]
  simp [Builtin.fits, Builtin.rowBytes, Builtin.plainRow, h32, repeatBytes_eq,
    List.flatten_replicate_singleton, Ne.symm (ne_null_of_intArg? hN)]

section Kernels

variable {cfg : Config} {b : Block} {rows result : Nat}

/-- `repeat` over a string column and an integer column without null maps obeys the law, each
row's count saturated to 32 bits. -/
theorem fills_repeat (hb : b.Shaped rows) (hresult : result < b.size) {s k : Nat}
    {cs ck : Column} (hs : b.column s = .ok cs) (hk : b.column k = .ok ck)
    (hsn : cs.isNullable = false) (hkn : ck.isNullable = false) (hstr : cs.dataType.isString)
    (hint : ck.dataType.isInteger) {str : Nat → Bytes} {cnt : Nat → Int}
    (hcs : ∀ r < rows, cs.cell r = .bytes (str r))
    (hck : ∀ r < rows, (ck.cell r).intArg? = some (cnt r)) :
    Fills (Builtin.repeat.run cfg [s, k] result rows) b rows result cfg.maxStringLength
      cfg.debugChecks str fun r => (saturate32 (cnt r)).toNat := by
  have htakes : Builtin.repeat.takes ([cs, ck].map Column.dataType) := by
    rw [List.map_cons, List.map_cons, List.map_nil, takes_repeat, hstr, hint, Bool.and_self]
  refine fills_of_kernelSpec (.inl rfl) (fun b => repeatResult cfg b [s, k] rows) hb hresult
    (repeatResult_spec cfg (hb.holds hs) (hb.holds hk) hsn hkn) htakes
    (by simp [Builtin.returnType, hstr, hint]) fun r hr => ?_
  -- the cells of a row are its string and its count
  simp only [Column.cells, List.map_cons, List.map_nil, hcs r hr]
  exact repeat_row (hck r hr)

/-- `space` over an integer column without a null map obeys the law over a single space, each
row's count saturated to 32 bits. -/
theorem fills_space (hb : b.Shaped rows) (hresult : result < b.size) {k : Nat} {ck : Column}
    (hk : b.column k = .ok ck) (hkn : ck.isNullable = false) (hint : ck.dataType.isInteger)
    {cnt : Nat → Int} (hck : ∀ r < rows, (ck.cell r).intArg? = some (cnt r)) :
    Fills (Builtin.space.run cfg [k] result rows) b rows result cfg.maxStringLength
      cfg.debugChecks (fun _ => [32]) fun r => (saturate32 (cnt r)).toNat := by
  have htakes : Builtin.space.takes ([ck].map Column.dataType) := by
    rw [List.map_cons, List.map_nil, takes_space, hint]
  refine fills_of_kernelSpec (.inr rfl) (fun b => spaceResult cfg b [k] rows) hb hresult
    (spaceResult_spec cfg (hb.holds hk) hkn) htakes (by simp [Builtin.returnType, hint])
    fun r hr => ?_
  simp only [Column.cells, List.map_cons, List.map_nil]
  exact space_row (hck r hr)

end Kernels

/-- The copies of a count saturated to 32 bits exceed a limit of at most `int32Max` exactly when
those of the count itself do, but for a one-byte string under the limit `int32Max` with a
count beyond it: there `int32Max` copies fit and the count's own do not. -/
theorem saturated_exceeds_iff {limit len : Nat} (hlimit : limit ≤ int32Max) (N : Int) :
    (limit < (saturate32 N).toNat * len ↔ limit < N.toNat * len) ∨
      (len = 1 ∧ limit = int32Max ∧ (int32Max : Int) < N) := by
  unfold int32Max at hlimit ⊢
  by_cases hhi : 2147483647 < N
  · have hsat : (saturate32 N).toNat = 2147483647 := by unfold saturate32; omega
    rw [hsat]
    rcases Nat.lt_trichotomy len 1 with hlen | rfl | hlen
    · -- no byte to copy
      obtain rfl : len = 0 := by omega
      simp
    · by_cases hmax : limit = 2147483647
      · exact .inr ⟨rfl, hmax, by omega⟩
      · exact .inl (by omega)
    · -- two bytes or more: both exceed the limit
      have hN : 2147483648 * len ≤ N.toNat * len := Nat.mul_le_mul_right len (by omega)
      exact .inl (iff_of_true (by omega) (by omega))
  · have hsat : (saturate32 N).toNat = N.toNat := by unfold saturate32; omega
    rw [hsat]
    exact .inl Iff.rfl

/-- `repeat` and `space` refuse arguments of other types, and check every row against the limit
and the copies of all rows against the address space before they write, with each row's count
the stored integer saturated to 32 bits. Over a string column and an integer column without null
maps (plain or constant), a string or a count of another type is an execution error; otherwise
some row's copies being longer than the limit, or all copies together passing `usizeMax`, is an
overflow, and otherwise the call writes a string column of each row's string repeated its count
of times, a negative count read as zero, `space` repeating a single space, except that a debug
build stops on a row whose copies reach `usizeMax`. An error leaves the block as it was. Under a
limit of at most `int32Max`, the saturated count decides as the stored one does but for a
one-byte string under the limit `int32Max` with a count beyond it. -/
theorem repeat_space_within_limit (cfg : Config) {b : Block} {rows result s k : Nat}
    {cs ck : Column} (hb : b.Shaped rows) (hresult : result < b.size)
    (hs : b.column s = .ok cs) (hk : b.column k = .ok ck)
    (hsn : cs.isNullable = false) (hkn : ck.isNullable = false) :
    ((cs.dataType.isString && ck.dataType.isInteger) = false →
      (Builtin.repeat.run cfg [s, k] result rows).run b =
        .error (.unsupportedRepeatArguments "repeat") b) ∧
    (ck.dataType.isInteger = false →
      (Builtin.space.run cfg [k] result rows).run b =
        .error (.unsupportedArgument "space" ck.dataType) b) ∧
    (∀ cnt : Nat → Int, ck.dataType.isInteger → (∀ r < rows, (ck.cell r).intArg? = some (cnt r)) →
      (∀ str : Nat → Bytes, cs.dataType.isString → (∀ r < rows, cs.cell r = .bytes (str r)) →
        Fills (Builtin.repeat.run cfg [s, k] result rows) b rows result cfg.maxStringLength
          cfg.debugChecks str fun r => (saturate32 (cnt r)).toNat) ∧
      Fills (Builtin.space.run cfg [k] result rows) b rows result cfg.maxStringLength
        cfg.debugChecks (fun _ => [32]) fun r => (saturate32 (cnt r)).toNat) ∧
    (cfg.maxStringLength ≤ int32Max → ∀ (len : Nat) (N : Int),
      (cfg.maxStringLength < (saturate32 N).toNat * len ↔ cfg.maxStringLength < N.toNat * len) ∨
        (len = 1 ∧ cfg.maxStringLength = int32Max ∧ (int32Max : Int) < N)) := by
  refine ⟨fun hbad => ?_, fun hbad => ?_, fun cnt hint hck => ⟨fun str hstr hcs => ?_, ?_⟩,
    fun hlimit len N => saturated_exceeds_iff hlimit N⟩
  · exact BlockM.run_write_of_error
      (repeatResult_of_refused cfg (hb.holds hs) (hb.holds hk) hsn hkn hbad)
  · exact BlockM.run_write_of_error (spaceResult_of_refused cfg (hb.holds hk) hkn hbad)
  · exact fills_repeat hb hresult hs hk hsn hkn hstr hint hcs hck
  · exact fills_space hb hresult hk hkn hint hck

/-- Two rows, `ab` three times and the empty string a 64-bit maximum of times, under the
default limit. -/
theorem repeat_space_within_limit_two_rows :
    let b : Block := ⟨[⟨"s", .string, some (.string ⟨[[97, 98], []]⟩)⟩,
      ⟨"n", .int64, some (.int64 [3, 9223372036854775807])⟩, ⟨"r", .string, none⟩]⟩
    let cs := Column.string ⟨[[97, 98], []]⟩
    let ck := Column.int64 [3, 9223372036854775807]
    b.Shaped 2 ∧ 2 < b.size ∧ b.column 0 = .ok cs ∧ b.column 1 = .ok ck ∧
      cs.isNullable = false ∧ ck.isNullable = false ∧
    ((cs.dataType.isString && ck.dataType.isInteger) = false →
      (Builtin.repeat.run {} [0, 1] 2 2).run b = .error (.unsupportedRepeatArguments "repeat") b) ∧
    (ck.dataType.isInteger = false →
      (Builtin.space.run {} [1] 2 2).run b = .error (.unsupportedArgument "space" ck.dataType) b) ∧
    (∀ cnt : Nat → Int, ck.dataType.isInteger → (∀ r < 2, (ck.cell r).intArg? = some (cnt r)) →
      (∀ str : Nat → Bytes, cs.dataType.isString → (∀ r < 2, cs.cell r = .bytes (str r)) →
        Fills (Builtin.repeat.run {} [0, 1] 2 2) b 2 2 int32Max false str
          fun r => (saturate32 (cnt r)).toNat) ∧
      Fills (Builtin.space.run {} [1] 2 2) b 2 2 int32Max false (fun _ => [32])
        fun r => (saturate32 (cnt r)).toNat) ∧
    (int32Max ≤ int32Max → ∀ (len : Nat) (N : Int),
      (int32Max < (saturate32 N).toNat * len ↔ int32Max < N.toNat * len) ∨
        (len = 1 ∧ int32Max = int32Max ∧ (int32Max : Int) < N)) := by
  intro b cs ck
  have hb : b.Shaped 2 := by
    unfold Block.Shaped
    decide
  have hresult : 2 < b.size := by decide
  exact ⟨hb, hresult, rfl, rfl, rfl, rfl,
    repeat_space_within_limit {} hb hresult (show b.column 0 = .ok cs from rfl)
      (show b.column 1 = .ok ck from rfl) rfl rfl⟩

/-- A 64-bit count one past `int32Max` over a one-byte string under the default limit: the
stored count's copies are longer than the limit, yet the narrowed count passes the check and
`repeat` writes `int32Max` copies. -/
theorem repeat_narrowed_count_passes :
    let b : Block := ⟨[⟨"s", .string, some (.string ⟨[[97]]⟩)⟩,
      ⟨"n", .int64, some (.int64 [2147483648])⟩, ⟨"r", .string, none⟩]⟩
    ({} : Config).maxStringLength < (2147483648 : Int).toNat * [(97 : UInt8)].length ∧
      ∃ b', (Builtin.repeat.run {} [0, 1] 2 1).run b = .ok () b' ∧ ∃ col,
        b'.column 2 = .ok col ∧ col.get 0 = .ok (.bytes (repeatBytes [97] int32Max)) := by
  intro b
  have hb : b.Shaped 1 := by
    unfold Block.Shaped
    decide
  have hcs : ∀ r < 1, (Column.string ⟨[[97]]⟩).cell r = .bytes [97] := by
    intro r hr
    obtain rfl : r = 0 := by omega
    rfl
  have hck : ∀ r < 1, ((Column.int64 [2147483648]).cell r).intArg? = some 2147483648 := by
    intro r hr
    obtain rfl : r = 0 := by omega
    rfl
  have hcopies : (saturate32 2147483648).toNat = int32Max := by decide
  have hfills : Fills (Builtin.repeat.run {} [0, 1] 2 1) b 1 2 ({} : Config).maxStringLength
      ({} : Config).debugChecks (fun _ => [97]) fun _ => (saturate32 2147483648).toNat :=
    fills_repeat hb (show 2 < b.size by decide) (show b.column 0 = .ok (.string ⟨[[97]]⟩) from rfl)
      (show b.column 1 = .ok (.int64 [2147483648]) from rfl) rfl rfl rfl rfl hcs hck
  -- the row fits, the total is one row, and the default build makes no reserve check
  obtain ⟨b', hrun, col, hcol, -, -, hget⟩ := hfills.writes (fun r _ => by rw [hcopies]; decide)
    (by simp [totalBytes, hcopies, int32Max, usizeMax]) fun h => absurd h (by decide)
  refine ⟨by decide, b', hrun, col, hcol, ?_⟩
  rw [(hget 0 Nat.zero_lt_one).1, hcopies]

end Fill

end TextBatch

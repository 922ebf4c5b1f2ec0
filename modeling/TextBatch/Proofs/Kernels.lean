import TextBatch.Proofs.Rows

/-! # The functions that let the dispatcher handle NULLs

`repeat`, `space`, `length`, `char_length`, `starts_with` and `ends_with` see only arguments
without null maps: the dispatcher strips them first. Each computes its whole column from the
block and then writes it. This module proves that computation against the row semantics of
`Builtin.plainRow` (`KernelSpec`), and from that what the function's run answers over any
shaped block whose arguments are not nullable (`Builtin.answers_run`).
-/

namespace TextBatch

namespace Fill

theorem takes_repeat (ts tk : DataType) :
    Builtin.repeat.takes [ts, tk] = (ts.isString && tk.isInteger) := by
  simp only [Builtin.takes, Builtin.returnType]
  cases ts.isString && tk.isInteger <;> rfl

theorem takes_space (t : DataType) : Builtin.space.takes [t] = t.isInteger := by
  simp only [Builtin.takes, Builtin.returnType]
  cases t.isInteger <;> rfl

theorem repeatLen_of_le {function : String} {limit t size : Nat} (h : t * size ≤ limit) :
    repeatLen function limit t size = .ok (t * size) := by
  simp [repeatLen, Nat.not_lt.mpr h]

theorem repeatLen_of_lt {function : String} {limit t size : Nat} (h : limit < t * size) :
    repeatLen function limit t size = .error (.resultTooLong function t size limit) := by
  simp [repeatLen, h]

/-- A size refused by the limit is an overflow. -/
theorem repeatLen_eq_error {function : String} {limit t size : Nat} {e : Error}
    (h : repeatLen function limit t size = .error e) : e.kind = .overflow := by
  unfold repeatLen at h
  split at h
  · cases h
    rfl
  · cases h

/-- The first pass of `repeat` and `space` over items of `t x` copies of `len x` bytes each: it
fails with an overflow when an item is longer than the limit or the sum of the sizes is not a
machine-sized count, and otherwise answers that sum. -/
theorem sumSizes_repeatLen {α : Type} {function : String} {size : α → Except Error Nat}
    {limit : Nat} {t len : α → Nat} {xs : List α}
    (hsize : ∀ x ∈ xs, size x = repeatLen function limit (t x) (len x)) :
    (((∃ x ∈ xs, limit < t x * len x) ∨ usizeMax < (xs.map fun x => t x * len x).sum) →
      ∃ e, sumSizes function size 0 xs = .error e ∧ e.kind = .overflow) ∧
    ((∀ x ∈ xs, t x * len x ≤ limit) → (xs.map fun x => t x * len x).sum ≤ usizeMax →
      sumSizes function size 0 xs = .ok (xs.map fun x => t x * len x).sum) := by
  constructor
  · intro hbad
    by_cases hall : ∀ x ∈ xs, t x * len x ≤ limit
    · -- every item is sized, so it is the sum that passes the largest count
      have hsum : usizeMax < (xs.map fun x => t x * len x).sum := by
        rcases hbad with ⟨x, hx, hlong⟩ | h
        · exact absurd (hall x hx) (Nat.not_le.mpr hlong)
        · exact h
      refine ⟨.addressSpace function, ?_, rfl⟩
      rw [sumSizes_of_ok (fun x hx => (hsize x hx).trans (repeatLen_of_le (hall x hx)))
        (Nat.zero_le _), if_neg (by omega)]
    · -- an item over the limit is refused, and with it the total
      obtain ⟨x, hx, hlong⟩ : ∃ x ∈ xs, limit < t x * len x := by simpa using hall
      obtain ⟨e, he⟩ := sumSizes_eq_error_of_mem hx ((hsize x hx).trans (repeatLen_of_lt hlong)) 0
      refine ⟨e, he, ?_⟩
      rcases sumSizes_eq_error he with rfl | ⟨y, hy, hye⟩
      · rfl
      · exact repeatLen_eq_error ((hsize y hy).symm.trans hye)
  · intro hall hsum
    rw [sumSizes_of_ok (fun x hx => (hsize x hx).trans (repeatLen_of_le (hall x hx)))
      (Nat.zero_le _), if_pos (by omega), Nat.zero_add]

/-- The size of a row of `repeat` is its copies' bytes, refused over the limit. -/
theorem repeatSize_eq (cfg : Config) {strings : StringColumn} {counts : List Int32} {r : Nat}
    (hs : r < strings.length) (hc : r < counts.length) :
    repeatSize cfg strings counts r =
      repeatLen "repeat" cfg.maxStringLength (times (counts.getD r 0)) (strings.value r).length := by
  simp only [repeatSize, StringColumn.valueLen_eq hs, readAt_eq_ok_of_lt hc, bind, Except.bind,
    List.getD_eq_getElem?_getD, List.getElem?_eq_getElem hc, Option.getD_some]

/-- A count read from 32 bits is below the largest machine-sized count. -/
theorem times_lt_usizeMax (n : Int32) : times n < usizeMax := by
  have := Int32.toInt_lt n
  unfold times usizeMax
  omega

/-- A row below the largest count of bytes is reserved, and with the checks off every row is. -/
theorem repeatReserve_isOk {checks : Bool} {size t : Nat} (h : checks → size * t < usizeMax) :
    ∃ k, repeatReserve checks size t = .ok k := by
  unfold repeatReserve
  cases checks
  · exact ⟨(size * t + 1) % (usizeMax + 1), by simp⟩
  · have hlt := h rfl
    exact ⟨_, by rw [if_neg (by simp; omega), if_neg (by simp; omega)]⟩

/-- With the checks on, a row of the largest count of bytes or more cannot be reserved. -/
theorem repeatReserve_of_le {size t : Nat} (h : usizeMax ≤ size * t) :
    ∃ e, repeatReserve true size t = .error e := by
  unfold repeatReserve
  by_cases hmul : size * t > usizeMax
  · exact ⟨_, by rw [if_pos ⟨rfl, hmul⟩]⟩
  · exact ⟨_, by rw [if_neg (by simp [hmul]), if_pos ⟨rfl, by omega⟩]⟩

/-- A reserve fails only by stopping the program. -/
theorem repeatReserve_eq_error {checks : Bool} {size t : Nat} {e : Error}
    (h : repeatReserve checks size t = .error e) : e.kind = .outOfBounds := by
  unfold repeatReserve at h
  split at h
  · cases h
    rfl
  · split at h
    · cases h
      rfl
    · cases h

/-- A row of `repeat` is its string written its count of times, once it is reserved. -/
theorem repeatRow_eq {checks : Bool} {strings : StringColumn} {counts : List Int32} {r : Nat}
    (hs : r < strings.length) (hc : r < counts.length)
    (hres : checks → (strings.value r).length * times (counts.getD r 0) < usizeMax) :
    repeatRow checks strings counts r =
      .ok (repeatBytes (strings.value r) (times (counts.getD r 0))) := by
  have hget : counts.getD r 0 = counts[r] := by
    rw [List.getD_eq_getElem?_getD, List.getElem?_eq_getElem hc, Option.getD_some]
  rw [hget] at hres ⊢
  obtain ⟨k, hk⟩ := repeatReserve_isOk hres
  simp only [repeatRow, StringColumn.read_eq_ok hs, readAt_eq_ok_of_lt hc, hk, bind, Except.bind,
    pure, Except.pure]

/-- With the checks on, a row of `repeat` of the largest count of bytes or more stops the
program. -/
theorem repeatRow_of_le {checks : Bool} (hon : checks = true) {strings : StringColumn}
    {counts : List Int32} {r : Nat} (hs : r < strings.length) (hc : r < counts.length)
    (h : usizeMax ≤ (strings.value r).length * times (counts.getD r 0)) :
    ∃ e, repeatRow checks strings counts r = .error e := by
  have hget : counts.getD r 0 = counts[r] := by
    rw [List.getD_eq_getElem?_getD, List.getElem?_eq_getElem hc, Option.getD_some]
  rw [hget] at h
  obtain ⟨e, he⟩ := repeatReserve_of_le h
  subst hon
  exact ⟨e, by simp only [repeatRow, StringColumn.read_eq_ok hs, readAt_eq_ok_of_lt hc, he, bind,
    Except.bind]⟩

/-- A row of `repeat` in range fails only where its reserve stops the program. -/
theorem repeatRow_eq_error {checks : Bool} {strings : StringColumn} {counts : List Int32}
    {r : Nat} (hs : r < strings.length) (hc : r < counts.length) {e : Error}
    (h : repeatRow checks strings counts r = .error e) : e.kind = .outOfBounds := by
  simp only [repeatRow, StringColumn.read_eq_ok hs, readAt_eq_ok_of_lt hc, bind, Except.bind] at h
  cases hk : repeatReserve checks (strings.value r).length (times counts[r]) with
  | error e' =>
    rw [hk] at h
    cases h
    exact repeatReserve_eq_error hk
  | ok k =>
    rw [hk] at h
    cases h

/-- `repeat` refuses a string or a count of another type with its own execution error, before
it reads a row. -/
theorem repeatResult_of_refused (cfg : Config) {b : Block} {n s k : Nat} {cs ck : Column}
    (hs : b.Holds n s cs) (hk : b.Holds n k ck) (hsn : cs.isNullable = false)
    (hkn : ck.isNullable = false) (hbad : (cs.dataType.isString && ck.dataType.isInteger) = false) :
    repeatResult cfg b [s, k] n = .error (.unsupportedRepeatArguments "repeat") := by
  simp only [repeatResult, readAt, List.getElem?_cons_zero, List.getElem?_cons_succ,
    hs.full_eq, hk.full_eq, bind, Except.bind]
  have hss := Column.splits_toFull hs.wellFormed hsn
  cases hstr : cs.dataType.isString
  · simp [hss.strings_of_not_isString hstr, Except.mapError]
  obtain ⟨strings, hst⟩ := (hss.strings_isOk_iff "repeat").mpr hstr
  have hint : ck.dataType.isInteger = false := by simpa [hstr] using hbad
  simp [hst, (Column.splits_toFull hk.wellFormed hkn).integers_of_not_isInteger hint,
    Except.mapError]

/-- `repeat` over a string and a count without null maps: refused unless they are a string and
an integer, then an overflow when a row's copies exceed the limit or all rows' copies together
are not a machine-sized count, then, with the debug checks on, a stop at a row of the largest
count of bytes, and otherwise each row's string repeated its count of times. -/
theorem repeatResult_spec (cfg : Config) {b : Block} {n s k : Nat} {cs ck : Column}
    (hs : b.Holds n s cs) (hk : b.Holds n k ck) (hsn : cs.isNullable = false)
    (hkn : ck.isNullable = false) :
    Builtin.repeat.KernelSpec cfg [cs, ck] n (repeatResult cfg b [s, k] n) := by
  have hres : repeatResult cfg b [s, k] n = (do
      let strings ← (cs.toFull.strings "repeat").mapError
        fun _ => .unsupportedRepeatArguments "repeat"
      let counts ← (ck.toFull.integers "repeat").mapError
        fun _ => .unsupportedRepeatArguments "repeat"
      let _ ← sumSizes "repeat" (repeatSize cfg strings counts) 0 (List.range n)
      let out ← (List.range n).mapM (repeatRow cfg.debugChecks strings counts)
      pure (.string ⟨out⟩)) := by
    simp [repeatResult, readAt, hs.full_eq, hk.full_eq, bind, Except.bind]
  have htypes : [cs, ck].map Column.dataType = [cs.dataType, ck.dataType] := rfl
  refine ⟨fun hbad => ?_, fun hok hbig => ?_, fun hok hall hspace hstop => ?_,
    fun hok hall hspace hreserved => ?_⟩
  · -- a column of another type is refused before any row is read
    rw [htypes, takes_repeat] at hbad
    exact ⟨_, repeatResult_of_refused cfg hs hk hsn hkn hbad, by decide⟩
  all_goals
    rw [htypes, takes_repeat, Bool.and_eq_true] at hok
    obtain ⟨strings, hstrings, hslen, hscell⟩ := hs.strings_of_plain hsn hok.1 "repeat"
    obtain ⟨counts, hcounts, hclen, hkcell⟩ := hk.integers_of_plain hkn hok.2 "repeat"
    have hres' : repeatResult cfg b [s, k] n = (do
        let _ ← sumSizes "repeat" (repeatSize cfg strings counts) 0 (List.range n)
        let out ← (List.range n).mapM (repeatRow cfg.debugChecks strings counts)
        pure (.string ⟨out⟩)) := by
      simp [hres, hstrings, hcounts, Except.mapError, bind, Except.bind]
    -- row `r` is `times (counts.getD r 0)` copies of the string of row `r`, and holds no NULL
    have hcells : ∀ r < n, Column.cells [cs, ck] r = [.bytes (strings.value r), ck.cell r] :=
      fun r hr => by simp [Column.cells, hscell r hr]
    have hrow : ∀ r < n, Builtin.repeat.fits cfg (Column.cells [cs, ck] r) =
          decide (times (counts.getD r 0) * (strings.value r).length ≤ cfg.maxStringLength) ∧
        Builtin.repeat.rowBytes (Column.cells [cs, ck] r) =
          times (counts.getD r 0) * (strings.value r).length ∧
        (Column.cells [cs, ck] r).contains .null = false := by
      intro r hr
      have hnull : Value.null ≠ ck.cell r := fun h => by
        have hint := hkcell r hr
        rw [← h] at hint
        cases hint
      simp [hcells r hr, Builtin.fits, Builtin.rowBytes, hkcell r hr, times, hnull]
    have hroom : Builtin.repeat.addressable [cs, ck] n = decide (((List.range n).map fun r =>
        times (counts.getD r 0) * (strings.value r).length).sum ≤ usizeMax) := by
      have hplain : ∀ c ∈ [cs, ck], c.wellFormed ∧ c.isNullable = false ∧ c.length = n := by
        simp [hs.wellFormed, hk.wellFormed, hsn, hkn, hs.length_eq, hk.length_eq]
      have hbytes : Builtin.repeat.outputBytes [cs, ck] n = ((List.range n).map fun r =>
          times (counts.getD r 0) * (strings.value r).length).sum := by
        rw [Builtin.outputBytes_of_plain hplain]
        congr 1
        exact List.map_congr_left fun r hr => (hrow r (List.mem_range.mp hr)).2.1
      simp only [Builtin.addressable, hbytes]
    have hpass := sumSizes_repeatLen fun r (hr : r ∈ List.range n) =>
      repeatSize_eq cfg (by rw [hslen]; exact List.mem_range.mp hr)
        (by rw [hclen]; exact List.mem_range.mp hr)
  · -- a row over the limit, or the total past the largest count, fails the first pass
    obtain ⟨e, he, hkind⟩ := hpass.1 (by
      rcases hbig with ⟨r, hr, hbad⟩ | hbad
      · rw [(hrow r hr).1, decide_eq_false_iff_not, Nat.not_le] at hbad
        exact .inl ⟨r, List.mem_range.mpr hr, hbad⟩
      · rw [hroom, decide_eq_false_iff_not, Nat.not_le] at hbad
        exact .inr hbad)
    exact ⟨e, by simp [hres', he, bind, Except.bind], hkind⟩
  all_goals
    have hfirst := hpass.2 (fun r hr => by
        have hfit := hall r (List.mem_range.mp hr)
        rwa [(hrow r (List.mem_range.mp hr)).1, decide_eq_true_eq] at hfit)
      (by rwa [hroom, decide_eq_true_eq] at hspace)
    -- the reserve is checked, in a debug build, against every row's bytes
    have hreserve : Builtin.repeat.reserves cfg [cs, ck] n = true ↔ (cfg.debugChecks = true →
        ∀ r < n, (strings.value r).length * times (counts.getD r 0) < usizeMax) := by
      have hrows : ((List.range n).all fun r => (Column.cells [cs, ck] r).contains .null ||
          decide (Builtin.repeat.rowBytes (Column.cells [cs, ck] r) < usizeMax)) = true ↔
          ∀ r < n, (strings.value r).length * times (counts.getD r 0) < usizeMax := by
        rw [List.all_eq_true]
        refine ⟨fun h r hr => ?_, fun h r hr => ?_⟩
        · have hrow' := h r (List.mem_range.mpr hr)
          rwa [(hrow r hr).2.2, (hrow r hr).2.1, Bool.false_or, decide_eq_true_eq, Nat.mul_comm]
            at hrow'
        · have hr := List.mem_range.mp hr
          rw [(hrow r hr).2.2, (hrow r hr).2.1, Bool.false_or, decide_eq_true_eq, Nat.mul_comm]
          exact h r hr
      show (!cfg.debugChecks || _) = true ↔ _
      rw [Bool.or_eq_true, hrows]
      cases cfg.debugChecks <;> simp
  · -- the first pass succeeds, and a row of the largest count of bytes stops the second
    have hnot := mt hreserve.mpr (by rw [hstop]; exact Bool.false_ne_true)
    simp only [Classical.not_imp, not_forall, Nat.not_lt] at hnot
    obtain ⟨hon, r, hr, hbig⟩ := hnot
    obtain ⟨e₀, he₀⟩ := repeatRow_of_le hon (hslen ▸ hr) (hclen ▸ hr) hbig
    obtain ⟨y, hy, e, hye, hmap⟩ := mapM_eq_error_of_mem (List.mem_range.mpr hr) he₀
    have hyn := List.mem_range.mp hy
    exact ⟨e, by simp [hres', hfirst, hmap, bind, Except.bind],
      repeatRow_eq_error (hslen ▸ hyn) (hclen ▸ hyn) hye⟩
  · have hout : (List.range n).mapM (repeatRow cfg.debugChecks strings counts) =
        .ok ((List.range n).map fun r =>
          repeatBytes (strings.value r) (times (counts.getD r 0))) :=
      mapM_eq_ok_map fun r hr =>
        repeatRow_eq (hslen ▸ List.mem_range.mp hr) (hclen ▸ List.mem_range.mp hr)
          fun hon => hreserve.mp hreserved hon r (List.mem_range.mp hr)
    refine ⟨.string ⟨(List.range n).map fun r =>
        repeatBytes (strings.value r) (times (counts.getD r 0))⟩,
      by simp [hres', hfirst, hout, bind, Except.bind, pure, Except.pure], rfl,
      by simp [Builtin.returnType, hok, Column.dataType],
      by simp [Column.length, StringColumn.length], fun r hr => ?_⟩
    rw [Column.get_string (by simp [StringColumn.length, hr]), hcells r hr]
    simp [Builtin.plainRow, hkcell r hr, StringColumn.value, List.getD_eq_getElem?_getD, hr,
      times, repeatBytes_eq]

/-- A list read back row by row. -/
theorem map_range_getD {α : Type} (l : List α) (d : α) :
    (List.range l.length).map (fun i => l.getD i d) = l := by
  refine List.ext_getElem (by simp) fun i _ h => ?_
  simp [List.getD_eq_getElem?_getD, List.getElem?_eq_getElem h]

/-- `space` refuses a count of another type with the execution error of integer arguments. -/
theorem spaceResult_of_refused (cfg : Config) {b : Block} {n k : Nat} {ck : Column}
    (hk : b.Holds n k ck) (hkn : ck.isNullable = false) (hbad : ck.dataType.isInteger = false) :
    spaceResult cfg b [k] n = .error (.unsupportedArgument "space" ck.dataType) := by
  simp only [spaceResult, readAt, List.getElem?_cons_zero, hk.full_eq, bind, Except.bind]
  rw [(Column.splits_toFull hk.wellFormed hkn).integers_of_not_isInteger hbad,
    Column.dataType_toFull]

/-- A row of `space` is its count of spaces: its reserve never overflows. -/
theorem spaceRow_eq (checks : Bool) (n : Int32) :
    spaceRow checks n = .ok (List.replicate (times n) 32) := by
  have hlt : checks → 1 * times n < usizeMax := fun _ => by
    rw [Nat.one_mul]
    exact times_lt_usizeMax n
  obtain ⟨k, hk⟩ := repeatReserve_isOk hlt
  simp only [spaceRow, hk, bind, Except.bind, pure, Except.pure]

/-- `space` over a count without a null map: refused unless it is an integer, then an overflow
when a row's count exceeds the limit or all counts together are not a machine-sized count, and
otherwise that many spaces. -/
theorem spaceResult_spec (cfg : Config) {b : Block} {n k : Nat} {ck : Column}
    (hk : b.Holds n k ck) (hkn : ck.isNullable = false) :
    Builtin.space.KernelSpec cfg [ck] n (spaceResult cfg b [k] n) := by
  have hres : spaceResult cfg b [k] n = (do
      let counts ← ck.toFull.integers "space"
      let _ ← sumSizes "space" (spaceSize cfg) 0 (counts.take n)
      let out ← (counts.take n).mapM (spaceRow cfg.debugChecks)
      pure (.string ⟨out⟩)) := by
    simp [spaceResult, readAt, hk.full_eq, bind, Except.bind]
  have htypes : [ck].map Column.dataType = [ck.dataType] := rfl
  refine ⟨fun hbad => ?_, fun hok hbig => ?_, fun _ _ _ hstop => ?_, fun hok hall hspace _ => ?_⟩
  · rw [htypes, takes_space] at hbad
    exact ⟨_, spaceResult_of_refused cfg hk hkn hbad, by simp [Error.kind]⟩
  rotate_left
  · -- every count is a 32-bit integer, so every row is reserved
    rw [Builtin.reserves_space] at hstop
    cases hstop
  rotate_left
  all_goals
    rw [htypes, takes_space] at hok
    obtain ⟨counts, hcounts, hclen, hkcell⟩ := hk.integers_of_plain hkn hok "space"
    -- the counts have exactly `n` rows, so the kernel walks all of them
    have hres' : spaceResult cfg b [k] n = (do
        let _ ← sumSizes "space" (spaceSize cfg) 0 counts
        pure (.string ⟨counts.map fun c => List.replicate (times c) 32⟩)) := by
      rw [hres]
      simp only [hcounts, bind, Except.bind, ← hclen, List.take_length,
        mapM_eq_ok_map fun c _ => spaceRow_eq cfg.debugChecks c]
    have hfits : ∀ r < n, Builtin.space.fits cfg (Column.cells [ck] r) =
        decide (times (counts.getD r 0) * 1 ≤ cfg.maxStringLength) := by
      intro r hr
      simp only [Column.cells, List.map_cons, List.map_nil, Builtin.fits, hkcell r hr,
        Option.all_some, times, Nat.mul_one]
    have hroom : Builtin.space.addressable [ck] n =
        decide ((counts.map fun c => times c * 1).sum ≤ usizeMax) := by
      have hplain : ∀ c ∈ [ck], c.wellFormed ∧ c.isNullable = false ∧ c.length = n := by
        simp [hk.wellFormed, hkn, hk.length_eq]
      have hbytes : Builtin.space.outputBytes [ck] n = (counts.map fun c => times c * 1).sum := by
        rw [Builtin.outputBytes_of_plain hplain, ← map_range_getD counts 0, hclen, List.map_map]
        congr 1
        refine List.map_congr_left fun r hr => ?_
        simp [Column.cells, Builtin.rowBytes, hkcell r (List.mem_range.mp hr), times]
      simp only [Builtin.addressable, hbytes]
    have hpass := sumSizes_repeatLen fun c (_ : c ∈ counts) => (rfl : spaceSize cfg c = _)
  · obtain ⟨e, he, hkind⟩ := hpass.1 (by
      rcases hbig with ⟨r, hr, hbad⟩ | hbad
      · rw [hfits r hr, decide_eq_false_iff_not, Nat.not_le] at hbad
        refine .inl ⟨counts.getD r 0, ?_, hbad⟩
        rw [List.getD_eq_getElem?_getD, List.getElem?_eq_getElem (hclen ▸ hr), Option.getD_some]
        exact List.getElem_mem _
      · rw [hroom, decide_eq_false_iff_not, Nat.not_le] at hbad
        exact .inr hbad)
    exact ⟨e, by simp [hres', he, bind, Except.bind], hkind⟩
  · have hfirst := hpass.2 (fun c hc => by
        obtain ⟨r, hr, rfl⟩ := List.getElem_of_mem hc
        have hfit := hall r (hclen ▸ hr)
        rwa [hfits r (hclen ▸ hr), decide_eq_true_eq, List.getD_eq_getElem?_getD,
          List.getElem?_eq_getElem hr, Option.getD_some] at hfit)
      (by rwa [hroom, decide_eq_true_eq] at hspace)
    refine ⟨.string ⟨counts.map fun c => List.replicate (times c) 32⟩,
      by simp [hres', hfirst, bind, Except.bind, pure, Except.pure], rfl,
      by simp [Builtin.returnType, hok, Column.dataType],
      by simp [Column.length, StringColumn.length, hclen], fun r hr => ?_⟩
    rw [Column.get_string (by simp [StringColumn.length, hclen, hr])]
    simp [Column.cells, Builtin.plainRow, hkcell r hr, StringColumn.value,
      List.getD_eq_getElem?_getD, hclen, hr, times]

end Fill

namespace Measure

/-- `length` and `char_length` over a string without a null map: refused unless it is a string,
and otherwise each row's measure, capped. -/
theorem lengthResult_spec {f : Builtin} {fn : String} {measure : Bytes → Nat}
    (hf : f = .length ∧ measure = List.length ∨ f = .charLength ∧ measure = Utf8.charCount)
    (cfg : Config) {b : Block} {n s : Nat} {cs : Column} (hs : b.Holds n s cs)
    (hsn : cs.isNullable = false) :
    f.KernelSpec cfg [cs] n (lengthResult fn measure b [s] n) := by
  -- what the two functions share: a string argument, no limit, the measure as row value
  have htakes : f.takes [cs.dataType] = cs.dataType.isString := by
    rcases hf with ⟨rfl, -⟩ | ⟨rfl, -⟩ <;> simp only [Builtin.takes, Builtin.returnType] <;>
      cases cs.dataType.isString <;> rfl
  have hfits : ∀ cells, f.fits cfg cells = true := by
    rcases hf with ⟨rfl, -⟩ | ⟨rfl, -⟩ <;> intro cells <;> rfl
  have hroom : ∀ cols rows, f.addressable cols rows = true := by
    rcases hf with ⟨rfl, -⟩ | ⟨rfl, -⟩ <;> intro cols rows <;> rfl
  have hreserve : ∀ cols rows, f.reserves cfg cols rows = true := by
    rcases hf with ⟨rfl, -⟩ | ⟨rfl, -⟩ <;> intro cols rows <;> rfl
  have hret : cs.dataType.isString → f.returnType [cs.dataType] = .ok .int32 := by
    intro ht
    rcases hf with ⟨rfl, -⟩ | ⟨rfl, -⟩ <;> simp [Builtin.returnType, ht]
  have hrow : ∀ v, f.plainRow [.bytes v] = .int32 (capped (measure v)) := by
    rcases hf with ⟨rfl, rfl⟩ | ⟨rfl, rfl⟩ <;> intro v <;> rfl
  have hres : lengthResult fn measure b [s] n = (do
      let strings ← cs.toFull.strings fn
      let out ← (List.range n).mapM (lengthRow measure strings)
      pure (.int32 out)) := by
    simp [lengthResult, readAt, hs.full_eq, bind, Except.bind]
  have htypes : [cs].map Column.dataType = [cs.dataType] := rfl
  refine ⟨fun hbad => ?_, fun _ hrow' => ?_, fun _ _ _ hstop => ?_, fun hok _ _ _ => ?_⟩
  · rw [htypes, htakes] at hbad
    have hst := (Column.splits_toFull hs.wellFormed hsn).strings_of_not_isString hbad fn
    exact ⟨.unsupportedArgument fn cs.toFull.dataType, by simp only [hres, hst, bind, Except.bind],
      by simp [Error.kind]⟩
  · rcases hrow' with ⟨r, -, hbad⟩ | hbad <;> simp [hfits, hroom] at hbad
  · simp [hreserve] at hstop
  · rw [htypes, htakes] at hok
    obtain ⟨strings, hstrings, hslen, hscell⟩ := hs.strings_of_plain hsn hok fn
    have hout : (List.range n).mapM (lengthRow measure strings) =
        .ok ((List.range n).map fun r => capped (measure (strings.value r))) := by
      refine mapM_eq_ok_map fun r hr => ?_
      simp [lengthRow, StringColumn.read_eq_ok (hslen ▸ List.mem_range.mp hr), bind,
        Except.bind, pure, Except.pure]
    refine ⟨.int32 ((List.range n).map fun r => capped (measure (strings.value r))),
      by simp [hres, hstrings, hout, bind, Except.bind, pure, Except.pure], rfl,
      by rw [htypes, hret hok]; rfl, by simp [Column.length], fun r hr => ?_⟩
    simp [Column.get, Column.length, hr, Column.cells, hscell r hr, hrow,
      List.getD_eq_getElem?_getD]

/-- `starts_with` and `ends_with` over two strings without null maps: refused unless both are
strings, and otherwise 1 or 0 by the test of each row. -/
theorem testResult_spec {f : Builtin} {fn : String} {test : Bytes → Bytes → Bool}
    (hf : f = .startsWith ∧ test = (fun s t => t.isPrefixOf s) ∨
      f = .endsWith ∧ test = (fun s t => t.isSuffixOf s))
    (cfg : Config) {b : Block} {n s t : Nat} {cs ct : Column} (hs : b.Holds n s cs)
    (ht : b.Holds n t ct) (hsn : cs.isNullable = false) (htn : ct.isNullable = false) :
    f.KernelSpec cfg [cs, ct] n (testResult fn test b [s, t] n) := by
  have hreturn : f.returnType [cs.dataType, ct.dataType] =
      Builtin.stringsOnly .uint8 [cs.dataType, ct.dataType] := by
    rcases hf with ⟨rfl, -⟩ | ⟨rfl, -⟩ <;> rfl
  have htakes : f.takes [cs.dataType, ct.dataType] = (cs.dataType.isString && ct.dataType.isString) := by
    rcases hf with ⟨rfl, -⟩ | ⟨rfl, -⟩ <;>
      simp [Builtin.takes, Builtin.returnType, Builtin.stringsOnly_toBool]
  have hfits : ∀ cells, f.fits cfg cells = true := by
    rcases hf with ⟨rfl, -⟩ | ⟨rfl, -⟩ <;> intro cells <;> rfl
  have hroom : ∀ cols rows, f.addressable cols rows = true := by
    rcases hf with ⟨rfl, -⟩ | ⟨rfl, -⟩ <;> intro cols rows <;> rfl
  have hreserve : ∀ cols rows, f.reserves cfg cols rows = true := by
    rcases hf with ⟨rfl, -⟩ | ⟨rfl, -⟩ <;> intro cols rows <;> rfl
  have hrow : ∀ v w, f.plainRow [.bytes v, .bytes w] = .uint8 (if test v w then 1 else 0) := by
    rcases hf with ⟨rfl, rfl⟩ | ⟨rfl, rfl⟩ <;> intro v w <;> rfl
  have hres : testResult fn test b [s, t] n = (do
      let left ← cs.toFull.strings fn
      let right ← ct.toFull.strings fn
      let out ← (List.range n).mapM (testRow test left right)
      pure (.uint8 out)) := by
    simp [testResult, readAt, hs.full_eq, ht.full_eq, bind, Except.bind]
  have htypes : [cs, ct].map Column.dataType = [cs.dataType, ct.dataType] := rfl
  refine ⟨fun hbad => ?_, fun _ hrow' => ?_, fun _ _ _ hstop => ?_, fun hok _ _ _ => ?_⟩
  · rw [htypes, htakes] at hbad
    have hss := Column.splits_toFull hs.wellFormed hsn
    -- the left string is read first, and refused first
    cases hl : cs.dataType.isString
    · exact ⟨.unsupportedArgument fn cs.toFull.dataType,
        by simp only [hres, hss.strings_of_not_isString hl fn, bind, Except.bind],
        by simp [Error.kind]⟩
    obtain ⟨left, hleft⟩ := (hss.strings_isOk_iff fn).mpr hl
    have hr : ct.dataType.isString = false := by simpa [hl] using hbad
    have hright := (Column.splits_toFull ht.wellFormed htn).strings_of_not_isString hr fn
    exact ⟨.unsupportedArgument fn ct.toFull.dataType,
      by simp only [hres, hleft, hright, bind, Except.bind], by simp [Error.kind]⟩
  · rcases hrow' with ⟨r, -, hbad⟩ | hbad <;> simp [hfits, hroom] at hbad
  · simp [hreserve] at hstop
  · rw [htypes, htakes, Bool.and_eq_true] at hok
    obtain ⟨left, hleft, hllen, hlcell⟩ := hs.strings_of_plain hsn hok.1 fn
    obtain ⟨right, hright, hrlen, hrcell⟩ := ht.strings_of_plain htn hok.2 fn
    have hout : (List.range n).mapM (testRow test left right) =
        .ok ((List.range n).map fun r =>
          if test (left.value r) (right.value r) then (1 : UInt8) else 0) := by
      refine mapM_eq_ok_map fun r hr => ?_
      have hr' := List.mem_range.mp hr
      simp [testRow, StringColumn.read_eq_ok (hllen ▸ hr'), StringColumn.read_eq_ok (hrlen ▸ hr'),
        bind, Except.bind, pure, Except.pure]
    refine ⟨.uint8 ((List.range n).map fun r =>
        if test (left.value r) (right.value r) then (1 : UInt8) else 0),
      by simp [hres, hleft, hright, hout, bind, Except.bind, pure, Except.pure], rfl,
      by rw [htypes, hreturn, Builtin.stringsOnly, List.find?_eq_none.mpr (by simp [hok])]; rfl,
      by simp [Column.length], fun r hr => ?_⟩
    simp [Column.get, Column.length, hr, Column.cells, hlcell r hr, hrcell r hr, hrow,
      List.getD_eq_getElem?_getD]

end Measure

namespace Builtin

variable {f : Builtin} {cfg : Config} {cols : List Column} {rows result : Nat} {b : Block}

/-- A function that computes its column from the block and then writes it answers as the
computation does, over rows where admitting a row is fitting it and the row value is the plain
one, and when the declared type needs no null map. -/
theorem answers_write_of_rows {kernel : Block → Except Error Column} (hb : b.Shaped rows)
    (hresult : result < b.size)
    (hrows : ∀ r < rows, f.admits cfg (Column.cells cols r) = f.fits cfg (Column.cells cols r) ∧
      f.rowValue (Column.cells cols r) = f.plainRow (Column.cells cols r))
    (htype : (f.stripsNulls && cols.any Column.isNullable) = false)
    (hk : f.KernelSpec cfg cols rows (kernel b)) :
    f.Answers cfg cols rows result (f.addressable cols rows) (f.reserves cfg cols rows)
      (do let col ← BlockM.lift (kernel (← get)); BlockM.setColumn result col) b := by
  have hfits : (∀ r < rows, f.admits cfg (Column.cells cols r)) →
      ∀ r < rows, f.fits cfg (Column.cells cols r) := fun hall r hr => by
    rw [← (hrows r hr).1]
    exact hall r hr
  refine ⟨fun hbad => ?_, fun hok hrow => ?_, fun hok hall hroom hstop => ?_,
    fun hok hall hroom hres => ?_⟩
  · obtain ⟨e, he, hkind⟩ := hk.refuses hbad
    exact ⟨e, b, BlockM.run_write_of_error he, hkind⟩
  · obtain ⟨e, he, hkind⟩ := hk.overflows hok (hrow.imp_left fun ⟨r, hr, hbad⟩ =>
      ⟨r, hr, by rw [← (hrows r hr).1]; exact hbad⟩)
    exact ⟨e, b, BlockM.run_write_of_error he, hkind⟩
  · obtain ⟨e, he, hkind⟩ := hk.stops hok (hfits hall) hroom hstop
    exact ⟨e, b, BlockM.run_write_of_error he, hkind⟩
  · obtain ⟨col, hcol, hwf, htype', hlen, hget⟩ := hk.writes hok (hfits hall) hroom hres
    obtain ⟨b', hset, -⟩ := hb.setColumn hresult hwf hlen
    refine ⟨b', BlockM.run_write_eq_ok.mpr ⟨col, hcol, hset⟩, col,
      Block.column_setColumn_self hset, hwf, hlen, ⟨col.dataType, htype', by simp [htype]⟩,
      fun r hr => ?_⟩
    rw [hget r hr, (hrows r hr).2]

/-- A function that computes its column from the block and then writes it answers as the
computation does, when no argument has a null map. -/
theorem answers_write {kernel : Block → Except Error Column} (hb : b.Shaped rows)
    (hresult : result < b.size)
    (hcols : ∀ c ∈ cols, c.wellFormed ∧ c.isNullable = false ∧ c.length = rows)
    (hk : f.KernelSpec cfg cols rows (kernel b)) :
    f.Answers cfg cols rows result (f.addressable cols rows) (f.reserves cfg cols rows)
      (do let col ← BlockM.lift (kernel (← get)); BlockM.setColumn result col) b := by
  -- no cell is NULL, so every row is admitted as it fits and its value is its plain value
  have hnull : ∀ r < rows, (Column.cells cols r).contains .null = false := fun r hr =>
    Column.cells_contains_null fun c hc =>
      ⟨(hcols c hc).1, (hcols c hc).2.1, by rw [(hcols c hc).2.2]; exact hr⟩
  have hany : cols.any Column.isNullable = false := by
    simpa using fun c hc => (hcols c hc).2.1
  exact answers_write_of_rows hb hresult
    (fun r hr => ⟨admits_of_contains (hnull r hr), rowValue_of_contains (hnull r hr)⟩)
    (by rw [hany, Bool.and_false]) hk

/-- A function that reads null maps itself answers as its computation does. -/
theorem answers_write_of_keeps {kernel : Block → Except Error Column}
    (hf : f.stripsNulls = false) (hb : b.Shaped rows) (hresult : result < b.size)
    (hk : f.KernelSpec cfg cols rows (kernel b)) :
    f.Answers cfg cols rows result (f.addressable cols rows) (f.reserves cfg cols rows)
      (do let col ← BlockM.lift (kernel (← get)); BlockM.setColumn result col) b :=
  answers_write_of_rows hb hresult (fun _ _ => by simp [admits, rowValue, hf]) (by simp [hf]) hk

/-- Every function that lets the dispatcher handle NULLs answers, over a shaped block whose
arguments have no null map, with its row semantics. -/
theorem answers_run (hf : f.stripsNulls) (cfg : Config) {args : List Nat}
    (hb : b.Shaped rows) (hargs : List.Forall₂ (fun pos c => b.column pos = .ok c) args cols)
    (harity : f.arity.accepts args.length) (hplain : ∀ c ∈ cols, c.isNullable = false)
    (hresult : result < b.size) :
    f.Answers cfg cols rows result (f.addressable cols rows) (f.reserves cfg cols rows)
      (f.run cfg args result rows) b := by
  have hcols : ∀ c ∈ cols, c.wellFormed ∧ c.isNullable = false ∧ c.length = rows := by
    intro c hc
    obtain ⟨hwf, hlen⟩ := hb.columns_of_forall₂ hargs c hc
    exact ⟨hwf, hplain c hc, hlen⟩
  cases f with
  | «repeat» =>
      obtain ⟨s, k, cs, ck, rfl, rfl, hs, hk⟩ :=
        Block.Forall₂.pair hargs (by simpa [arity, Arity.accepts] using harity)
      exact answers_write hb hresult hcols (Fill.repeatResult_spec cfg (hb.holds hs)
        (hb.holds hk) (hplain cs (by simp)) (hplain ck (by simp)))
  | space =>
      obtain ⟨k, ck, rfl, rfl, hk⟩ :=
        Block.Forall₂.single hargs (by simpa [arity, Arity.accepts] using harity)
      exact answers_write hb hresult hcols
        (Fill.spaceResult_spec cfg (hb.holds hk) (hplain ck (by simp)))
  | length =>
      obtain ⟨s, cs, rfl, rfl, hs⟩ :=
        Block.Forall₂.single hargs (by simpa [arity, Arity.accepts] using harity)
      exact answers_write hb hresult hcols (Measure.lengthResult_spec (.inl ⟨rfl, rfl⟩) cfg
        (hb.holds hs) (hplain cs (by simp)))
  | charLength =>
      obtain ⟨s, cs, rfl, rfl, hs⟩ :=
        Block.Forall₂.single hargs (by simpa [arity, Arity.accepts] using harity)
      exact answers_write hb hresult hcols (Measure.lengthResult_spec (.inr ⟨rfl, rfl⟩) cfg
        (hb.holds hs) (hplain cs (by simp)))
  | startsWith =>
      obtain ⟨s, t, cs, ct, rfl, rfl, hs, ht⟩ :=
        Block.Forall₂.pair hargs (by simpa [arity, Arity.accepts] using harity)
      exact answers_write hb hresult hcols (Measure.testResult_spec (.inl ⟨rfl, rfl⟩) cfg
        (hb.holds hs) (hb.holds ht) (hplain cs (by simp)) (hplain ct (by simp)))
  | endsWith =>
      obtain ⟨s, t, cs, ct, rfl, rfl, hs, ht⟩ :=
        Block.Forall₂.pair hargs (by simpa [arity, Arity.accepts] using harity)
      exact answers_write hb hresult hcols (Measure.testResult_spec (.inr ⟨rfl, rfl⟩) cfg
        (hb.holds hs) (hb.holds ht) (hplain cs (by simp)) (hplain ct (by simp)))
  | _ => simp [stripsNulls] at hf

end Builtin

end TextBatch

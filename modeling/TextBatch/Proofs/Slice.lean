import TextBatch.Proofs.Dispatch
import TextBatch.Proofs.Rows
import TextBatch.Registry

/-! # Substring, left and right, row by row

The four functions of the substring family answer, at every row, the span that the row's
position and count select in the row's string, or NULL when an argument is NULL there or the
span is NULL (`Value.substring`). `left` is `substring` from the first character, and `right`
is `substring` from `max(-n, -c)` for `c` characters, where `c` is the row's character count
and `-n` saturates; positions and counts of 64-bit columns are first saturated to 32 bits
(`Value.int32Arg?`).

The kernel result is proved here for every mix of plain, nullable and constant arguments
(`result_get`); the helper columns of `right` are shown to carry the count's NULLs
(`rightHelpers_get`). Arguments of other types are refused before anything is written
(`run_slices_refuses`), so the family answers by its row semantics over every shaped block
(`answers_slices`).
-/

namespace TextBatch

namespace Builtin

/-- `col` is what a function of the substring family writes over `rows` rows of the argument
columns `cols`: a nullable string column whose row `r` is `sliceRow` of the arguments' cells
at `r`. -/
structure Slices (f : Builtin) (cols : List Column) (rows : Nat) (col : Column) : Prop where
  dataType_eq : col.dataType = .nullable .string
  length_eq : col.length = rows
  get_eq : ∀ r < rows, col.get r = (cols.mapM (Column.get · r)).map f.sliceRow

/-- Running `m` on `b` succeeds and leaves at `result` what `f` of the substring family writes
over `rows` rows of the argument columns `cols`. -/
def WritesSlices (f : Builtin) (cols : List Column) (rows result : Nat) (m : BlockM Unit)
    (b : Block) : Prop :=
  ∃ b', m.run b = .ok () b' ∧ ∃ col, b'.column result = .ok col ∧ f.Slices cols rows col

end Builtin

namespace Slice

theorem isNull_foldl_zipIdx {m : NullMap} (hm : m.Covers) {r : Nat} (hr : r < m.length)
    (l : List (Option Bytes)) (k : Nat) :
    (l.zipIdx k |>.foldl (fun m p => if p.1.isNone then m.set p.2 true else m) m).isNull r =
      (m.isNull r || if k ≤ r then l[r - k]?.any Option.isNone else false) := by
  induction l generalizing m k with
  | nil => simp
  | cons a l ih =>
      rw [List.zipIdx_cons, List.foldl_cons]
      have hcov : (if a.isNone then m.set k true else m).Covers := by
        split
        · exact hm.set k true
        · exact hm
      have hlen : (if a.isNone then m.set k true else m).length = m.length := by
        split <;> simp
      rw [ih hcov (by omega)]
      by_cases hk : k = r
      · subst hk
        cases a with
        | none => simp [NullMap.isNull_set hm hr]
        | some v =>
            rw [if_neg (show ¬ k + 1 ≤ k by omega)]
            simp
      · have hstep : (if a.isNone then m.set k true else m).isNull r = m.isNull r := by
          split
          · rw [NullMap.isNull_set hm hr, if_neg hk]
          · rfl
        rw [hstep]
        by_cases hkr : k < r
        · have hidx : r - k = (r - (k + 1)) + 1 := by omega
          simp [hidx, show k + 1 ≤ r by omega, show k ≤ r by omega]
        · simp [show ¬ k + 1 ≤ r by omega, show ¬ k ≤ r by omega]

/-- A row is NULL in the result's map when it was NULL before or its span is NULL. -/
theorem isNull_markNulls {nulls : NullMap} (hm : nulls.Covers) {r : Nat} (hr : r < nulls.length)
    (out : List (Option Bytes)) :
    (markNulls nulls out).isNull r = (nulls.isNull r || out[r]?.any Option.isNone) := by
  have h := isNull_foldl_zipIdx hm hr out 0
  simp only [Nat.zero_le, if_true, Nat.sub_zero] at h
  exact h

theorem length_markNulls (nulls : NullMap) (out : List (Option Bytes)) :
    (markNulls nulls out).length = nulls.length := by
  unfold markNulls
  generalize nulls = m
  induction out.zipIdx generalizing m with
  | nil => rfl
  | cons p ps ih =>
      rw [List.foldl_cons, ih]
      split <;> simp

/-- The cell the kernel writes at a row the merged map leaves visible. -/
def rowValue (strings : StringColumn) (starts lens : List Int32) (r : Nat) : Value :=
  (Value.bytes (strings.value r)).substring (some (starts.getD r 0).toInt)
    (some (lens.getD r 0).toInt)

theorem row_eq {nulls : NullMap} {strings : StringColumn} {starts lens : List Int32} {r : Nat}
    (hs : r < strings.length) (hp : r < starts.length) (hl : r < lens.length) :
    row nulls strings starts lens r = .ok (if nulls.isNull r then some [] else
      (Span.select (strings.value r) (starts.getD r 0).toInt (lens.getD r 0).toInt).slice
        (strings.value r)) := by
  unfold row
  split
  · rfl
  · simp [StringColumn.read_eq_ok hs, readAt_eq_ok_of_lt hp, readAt_eq_ok_of_lt hl,
      List.getD_eq_getElem?_getD, hp, hl, bind, Except.bind, pure, Except.pure]

/-- Over rows that every argument has, the kernel writes a nullable string column whose row
is NULL where the merged map is or the span is, and the selected bytes elsewhere. -/
theorem column_get (checks : Bool) {n : Nat} {nulls : NullMap} {strings : StringColumn}
    {starts lens : List Int32} (hm : nulls.Covers) (hnulls : nulls.length = n) (hs : strings.length = n)
    (hp : starts.length = n) (hl : lens.length = n) :
    ∃ col, column checks n nulls strings starts lens = .ok col ∧ col.wellFormed ∧
      col.dataType = .nullable .string ∧ col.length = n ∧ ∀ r < n, col.get r =
        .ok (if nulls.isNull r then .null else rowValue strings starts lens r) := by
  let g : Nat → Option Bytes := fun r => if nulls.isNull r then some [] else
    (Span.select (strings.value r) (starts.getD r 0).toInt (lens.getD r 0).toInt).slice
      (strings.value r)
  let out := (List.range n).map g
  have hout : (List.range n).mapM (row nulls strings starts lens) = .ok out :=
    mapM_eq_ok_map fun r hr => row_eq (by simp at hr; omega) (by simp at hr; omega)
      (by simp at hr; omega)
  -- one value and one flag per row, so the finishing check passes
  have hcol : column checks n nulls strings starts lens =
      .ok (.nullable (.string ⟨out.map fun v => v.getD []⟩) (markNulls nulls out)) := by
    simp only [column, hout, bind, Except.bind]
    exact Column.finishNullable_eq (by simp [StringColumn.length, length_markNulls, hnulls, out])
  refine ⟨_, hcol, ?_, rfl, by simp [Column.length, StringColumn.length, out], ?_⟩
  · simp [Column.wellFormed, Column.isNullable, Column.isConst, Column.length,
      StringColumn.length, length_markNulls, hnulls, out]
  intro r hr
  have hget : out[r]? = some (g r) := by simp [out, hr]
  rw [Column.get_nullable (by simp [Column.length, StringColumn.length, out, hr]),
    isNull_markNulls hm (by omega), hget]
  by_cases hnull : nulls.isNull r
  · simp [hnull]
  · have hg : g r = (Span.select (strings.value r) (starts.getD r 0).toInt
        (lens.getD r 0).toInt).slice (strings.value r) := if_neg hnull
    have hval : (⟨out.map fun v => v.getD []⟩ : StringColumn).value r = (g r).getD [] := by
      simp [StringColumn.value, List.getD_eq_getElem?_getD, hget]
    rw [Column.get_string (by simp [StringColumn.length, out, hr]), hval]
    simp only [hnull, Bool.false_or, Option.any_some, Bool.false_eq_true, if_false, rowValue,
      Value.substring, hg]
    cases (Span.select (strings.value r) (starts.getD r 0).toInt
      (lens.getD r 0).toInt).slice (strings.value r) <;> simp

/-- A row of the merged map of three arguments is NULL when one of their maps flags it. -/
theorem isNull_merged {n r : Nat} (hr : r < n) {a b c : Option NullMap}
    (ha : ∀ m ∈ a, m.length = n) (hb : ∀ m ∈ b, m.length = n) (hc : ∀ m ∈ c, m.length = n) :
    ((((NullMap.allValid n).mergeOpt a).mergeOpt b).mergeOpt c).isNull r =
      (NullMap.flagged a r || NullMap.flagged b r || NullMap.flagged c r) := by
  have hcov := NullMap.covers_allValid n
  rw [NullMap.isNull_mergeOpt ((hcov.mergeOpt a).mergeOpt b) (by simp [NullMap.length_mergeOpt]; omega)
      (fun m hm => by rw [hc m hm]; exact hr),
    NullMap.isNull_mergeOpt (hcov.mergeOpt a) (by simp [NullMap.length_mergeOpt]; omega)
      (fun m hm => by rw [hb m hm]; exact hr),
    NullMap.isNull_mergeOpt hcov (by simp; omega) (fun m hm => by rw [ha m hm]; exact hr),
    NullMap.isNull_allValid hr, Bool.false_or]

/-- Over arguments whose maps have `n` rows every merge passes its check: the kernel reads the
plain arguments under the three maps merged. -/
theorem result_eq (cfg : Config) {b : Block} {s p l n : Nat} {su pu lu : Column}
    {sm pm lm : Option NullMap} (hsu : b.unpack s = .ok (su, sm)) (hpu : b.unpack p = .ok (pu, pm))
    (hlu : b.unpack l = .ok (lu, lm)) (hsm : ∀ m ∈ sm, m.length = n)
    (hpm : ∀ m ∈ pm, m.length = n) (hlm : ∀ m ∈ lm, m.length = n) :
    result cfg b s p l n = (do
      let strings ← su.strings "substring"
      let starts ← pu.integers "substring"
      let lens ← lu.integers "substring"
      column cfg.debugChecks n ((((NullMap.allValid n).mergeOpt sm).mergeOpt pm).mergeOpt lm)
        strings starts lens) := by
  have h₀ : (NullMap.allValid n).length = n := NullMap.length_allValid n
  have h₁ : ((NullMap.allValid n).mergeOpt sm).length = n := by rw [NullMap.length_mergeOpt, h₀]
  have h₂ : (((NullMap.allValid n).mergeOpt sm).mergeOpt pm).length = n := by
    rw [NullMap.length_mergeOpt, h₁]
  simp only [result, Block.unpackInto_eq hsu (fun m hm => (hsm m hm).trans h₀.symm),
    Block.unpackInto_eq hpu (fun m hm => (hpm m hm).trans h₁.symm),
    Block.unpackInto_eq hlu (fun m hm => (hlm m hm).trans h₂.symm), bind, Except.bind]

/-- The kernel over the string at `s`, the positions at `p` and the counts at `l`: every row of
its result is the substring that the argument cells of that row select. -/
theorem result_get (cfg : Config) {b : Block} {s p l n : Nat} {cs cp cl : Column}
    (hs : b.Holds n s cs) (hp : b.Holds n p cp) (hl : b.Holds n l cl)
    (hts : cs.dataType.isString) (htp : cp.dataType.isInteger) (htl : cl.dataType.isInteger) :
    ∃ col, result cfg b s p l n = .ok col ∧ col.wellFormed ∧ col.dataType = .nullable .string ∧
      col.length = n ∧ ∀ r < n, col.get r = (do
        let vs ← cs.get r
        let vp ← cp.get r
        let vl ← cl.get r
        pure (vs.substring vp.int32Arg? vl.int32Arg?)) := by
  obtain ⟨su, sm, hsu, hss⟩ := hs.unpack
  obtain ⟨pu, pm, hpu, hps⟩ := hp.unpack
  obtain ⟨lu, lm, hlu, hls⟩ := hl.unpack
  obtain ⟨strings, rfl, hslen⟩ := hss.eq_string hts
  obtain ⟨starts, hstarts⟩ := (hps.integers_isOk_iff "substring").mpr htp
  obtain ⟨lens, hlens⟩ := (hls.integers_isOk_iff "substring").mpr htl
  have hsm : ∀ m ∈ sm, m.length = n := fun m hm => (hss.length_nulls m hm).trans hs.length_eq
  have hpm : ∀ m ∈ pm, m.length = n := fun m hm => (hps.length_nulls m hm).trans hp.length_eq
  have hlm : ∀ m ∈ lm, m.length = n := fun m hm => (hls.length_nulls m hm).trans hl.length_eq
  have hcov : ((((NullMap.allValid n).mergeOpt sm).mergeOpt pm).mergeOpt lm).Covers :=
    (((NullMap.covers_allValid n).mergeOpt sm).mergeOpt pm).mergeOpt lm
  obtain ⟨col, hcol, hwf, htype, hlen, hget⟩ := column_get cfg.debugChecks hcov
    (by simp [NullMap.length_mergeOpt]) (hslen.trans hs.length_eq)
    ((Column.length_of_integers hstarts).trans (hps.length_eq.trans hp.length_eq))
    ((Column.length_of_integers hlens).trans (hls.length_eq.trans hl.length_eq))
  refine ⟨col, ?_, hwf, htype, hlen, ?_⟩
  · rw [result_eq cfg hsu hpu hlu hsm hpm hlm]
    simp [Column.strings, hstarts, hlens, hcol, bind, Except.bind]
  · intro r hr
    obtain ⟨vp, hvp, hpint⟩ := hps.get_integer hstarts (by rw [hp.length_eq]; exact hr)
    obtain ⟨vl, hvl, hlint⟩ := hls.get_integer hlens (by rw [hl.length_eq]; exact hr)
    rw [hget r hr, isNull_merged hr hsm hpm hlm, hss.get_string (by rw [hs.length_eq]; exact hr),
      hvp, hvl]
    simp only [bind, Except.bind, pure, Except.pure, hpint, hlint, rowValue]
    cases NullMap.flagged sm r <;> cases NullMap.flagged pm r <;> cases NullMap.flagged lm r <;>
      simp [Value.substring]

/-- The kernel writes its result whenever its arguments have the kernel's types and `result`
is a position of the block. -/
theorem run_spec (cfg : Config) {b : Block} {s p l result n : Nat} {cs cp cl : Column} (hb : b.Shaped n)
    (hs : b.column s = .ok cs) (hp : b.column p = .ok cp) (hl : b.column l = .ok cl)
    (hts : cs.dataType.isString) (htp : cp.dataType.isInteger) (htl : cl.dataType.isInteger)
    (hresult : result < b.size) :
    ∃ b', (run cfg s p l result n).run b = .ok () b' ∧ ∃ col, b'.column result = .ok col ∧
      col.wellFormed ∧ col.dataType = .nullable .string ∧ col.length = n ∧ ∀ r < n, col.get r = (do
        let vs ← cs.get r
        let vp ← cp.get r
        let vl ← cl.get r
        pure (vs.substring vp.int32Arg? vl.int32Arg?)) := by
  obtain ⟨col, hcol, hwf, htype, hlen, hget⟩ :=
    result_get cfg (hb.holds hs) (hb.holds hp) (hb.holds hl) hts htp htl
  obtain ⟨b', hset, -⟩ := hb.setColumn hresult hwf hlen
  exact ⟨b', BlockM.run_write_eq_ok.mpr ⟨col, hcol, hset⟩, col, Block.column_setColumn_self hset,
    hwf, htype, hlen, hget⟩

theorem toInt_rightIndex (k : Int32) {c : Nat} (hc : c ≤ int32Max) :
    (rightIndex k c).toInt = max (min (-k.toInt) int32Max) (-(c : Int)) := by
  have hlo := Int32.le_toInt k
  have hhi := Int32.toInt_lt k
  unfold int32Max at hc ⊢
  unfold rightIndex
  rw [Int32.toInt_ofInt_of_le (by omega) (by omega)]
  rfl

theorem int32Arg_ofNat {c : Nat} (hc : c ≤ int32Max) :
    (Value.int32 (Int32.ofNat c)).int32Arg? = some (c : Int) := by
  unfold int32Max at hc
  simp [Value.int32Arg?, Int32.toInt_ofNat_of_lt (show c < 2 ^ 31 by omega)]

/-- The helper columns of `right` are the positions `max(-n, -c)` under the count's NULLs and
the plain character counts `c`; read by the kernel they give `Value.right` row by row. -/
theorem rightHelpers_get {b : Block} {s k n : Nat} {cs ck : Column}
    (hs : b.Holds n s cs) (hk : b.Holds n k ck)
    (hts : cs.dataType.isString) (htk : ck.dataType.isInteger) :
    ∃ index strlen, rightHelpers b [s, k] n = .ok (s, index, strlen) ∧
      index.wellFormed ∧ index.length = n ∧ index.dataType.isInteger ∧
      strlen.wellFormed ∧ strlen.length = n ∧ strlen.dataType.isInteger ∧
      ∀ r < n, (do
          let vs ← cs.get r
          let vp ← index.get r
          let vl ← strlen.get r
          pure (vs.substring vp.int32Arg? vl.int32Arg?)) =
        (do
          let vs ← cs.get r
          let vn ← ck.get r
          pure (vs.right vn)) := by
  obtain ⟨su, sm, hsu, hss⟩ := hs.unpack
  obtain ⟨ku, km, hku, hks⟩ := hk.unpack
  obtain ⟨strings, rfl, hslen⟩ := hss.eq_string hts
  obtain ⟨counts, hcounts⟩ := (hks.integers_isOk_iff "right").mpr htk
  have hclen : counts.length = n :=
    (Column.length_of_integers hcounts).trans (hks.length_eq.trans hk.length_eq)
  -- the character count of every row, capped as the kernel caps it
  let chars := (List.range n).map fun r => min (Utf8.charCount (strings.value r)) int32Max
  have hchars : (List.range (min n counts.length)).mapM (fun r => do
      pure (min (Utf8.charCount (← strings.read r)) int32Max)) = .ok chars := by
    have hsn : strings.length = n := hslen.trans hs.length_eq
    rw [hclen, Nat.min_self]
    refine mapM_eq_ok_map fun r hr => ?_
    have hr' : r < strings.length := by simp at hr; omega
    simp [StringColumn.read_eq_ok hr', bind, Except.bind, pure, Except.pure]
  let idx := (counts.zip chars).map fun p => rightIndex p.1 p.2
  have hidx : idx.length = n := by simp [idx, chars, hclen]
  let strlen := Column.int32 (chars.map fun c => Int32.ofNat c)
  -- the positions keep the count's map, whichever way it came
  obtain ⟨index, hrh, hiwf, hisplit⟩ : ∃ index,
      rightHelpers b [s, k] n = .ok (s, index, strlen) ∧ index.wellFormed ∧
        Column.Splits index (.int32 idx) km := by
    have hkm : ∀ m ∈ km, m.length = n := fun m hm => (hks.length_nulls m hm).trans hk.length_eq
    simp only [bind, Except.bind, pure, Except.pure] at hchars
    cases km with
    | none =>
        refine ⟨.int32 idx, ?_, rfl, Column.splits_unwrapNullable rfl rfl⟩
        simp [rightHelpers, readAt, hsu, hku, Column.strings, hcounts, hchars, bind, Except.bind,
          pure, Except.pure, idx, strlen]
    | some m =>
        have hwf : (Column.nullable (.int32 idx) m).wellFormed := by
          simp [Column.wellFormed, Column.isNullable, Column.isConst, Column.length, hidx,
            hkm m rfl]
        refine ⟨.nullable (.int32 idx) m, ?_, hwf, Column.splits_unwrapNullable hwf rfl⟩
        simp [rightHelpers, readAt, hsu, hku, Column.strings, hcounts, hchars, bind, Except.bind,
          pure, Except.pure, idx, strlen]
  have hilen : index.length = n := by
    rw [← hisplit.length_eq]
    exact hidx
  refine ⟨index, strlen, hrh, hiwf, hilen, ?_, rfl, by simp [strlen, chars, Column.length], rfl, ?_⟩
  · simp [DataType.isInteger, ← hisplit.dataType_eq, Column.dataType]
  · intro r hr
    obtain ⟨vn, hvn, hnint⟩ := hks.get_integer hcounts (by rw [hk.length_eq]; exact hr)
    have hcr : chars.getD r 0 = min (Utf8.charCount (strings.value r)) int32Max := by
      simp [chars, hr]
    have hc : chars.getD r 0 ≤ int32Max := by
      rw [hcr]
      exact Nat.min_le_right _ _
    have hidxr : idx.getD r 0 = rightIndex (counts.getD r 0) (chars.getD r 0) := by
      simp [idx, chars, hr, hclen, List.getD_eq_getElem?_getD]
    have hindex : index.get r =
        .ok (if NullMap.flagged km r then .null else .int32 (idx.getD r 0)) := by
      rw [hisplit.get_eq r (by rw [hilen]; exact hr)]
      split
      · rfl
      · simp [Column.get, Column.length, hidx, hr]
    have hstrlen : strlen.get r = .ok (.int32 (Int32.ofNat (chars.getD r 0))) := by
      simp [strlen, Column.get, Column.length, chars, hr, List.getD_eq_getElem?_getD]
    rw [hss.get_string (by rw [hs.length_eq]; exact hr), hindex, hstrlen, hvn]
    simp only [bind, Except.bind, pure, Except.pure, int32Arg_ofNat hc]
    cases NullMap.flagged sm r
    · cases hfk : NullMap.flagged km r
      · simp only [hfk, Bool.false_eq_true, ↓reduceIte] at hnint ⊢
        have hmin : ((min (Utf8.charCount (strings.value r)) int32Max : Nat) : Int) =
            min (Utf8.charCount (strings.value r) : Int) int32Max := by omega
        rw [Value.right_bytes hnint]
        simp only [Value.int32Arg?]
        rw [hidxr, toInt_rightIndex _ hc, hcr, hmin]
      · simp only [hfk, Bool.false_eq_true, ↓reduceIte] at hnint ⊢
        simp [Value.right_of_int32Arg_none hnint, Value.substring, Value.int32Arg?]
    · simp [Value.right_null, Value.substring]

/-- The kernel refuses a string that is not one, or a position or count that is not an
integer, as an argument of the wrong type. -/
theorem result_eq_error (cfg : Config) {b : Block} {s p l n : Nat} {cs cp cl : Column}
    (hs : b.Holds n s cs) (hp : b.Holds n p cp) (hl : b.Holds n l cl)
    (hbad : (cs.dataType.isString && cp.dataType.isInteger && cl.dataType.isInteger) = false) :
    ∃ e, result cfg b s p l n = .error e ∧ e.kind = .execution := by
  obtain ⟨su, sm, hsu, hss⟩ := hs.unpack
  obtain ⟨pu, pm, hpu, hps⟩ := hp.unpack
  obtain ⟨lu, lm, hlu, hls⟩ := hl.unpack
  rw [result_eq cfg hsu hpu hlu (fun m hm => (hss.length_nulls m hm).trans hs.length_eq)
    (fun m hm => (hps.length_nulls m hm).trans hp.length_eq)
    (fun m hm => (hls.length_nulls m hm).trans hl.length_eq)]
  -- the arguments are read in order, and the first of a wrong type is refused
  cases hts : cs.dataType.isString
  · exact ⟨.unsupportedArgument "substring" su.dataType,
      by rw [hss.strings_of_not_isString hts]; rfl, rfl⟩
  obtain ⟨strings, hst⟩ := (hss.strings_isOk_iff "substring").mpr hts
  cases htp : cp.dataType.isInteger
  · exact ⟨.unsupportedArgument "substring" pu.dataType,
      by simp [hst, hps.integers_of_not_isInteger htp, bind, Except.bind], rfl⟩
  obtain ⟨starts, hpt⟩ := (hps.integers_isOk_iff "substring").mpr htp
  have htl : cl.dataType.isInteger = false := by simpa [hts, htp] using hbad
  exact ⟨.unsupportedArgument "substring" lu.dataType,
    by simp [hst, hpt, hls.integers_of_not_isInteger htl, bind, Except.bind], rfl⟩

theorem run_eq_error {cfg : Config} {b : Block} {s p l result n : Nat} {e : Error}
    (h : Slice.result cfg b s p l n = .error e) : (run cfg s p l result n).run b = .error e b :=
  BlockM.run_write_of_error h

/-- `right` refuses a string that is not one, or a count that is not an integer, before it
appends anything. -/
theorem rightHelpers_eq_error {b : Block} {s k n : Nat} {cs ck : Column}
    (hs : b.Holds n s cs) (hk : b.Holds n k ck)
    (hbad : (cs.dataType.isString && ck.dataType.isInteger) = false) :
    ∃ e, rightHelpers b [s, k] n = .error e ∧ e.kind = .execution := by
  obtain ⟨su, sm, hsu, hss⟩ := hs.unpack
  obtain ⟨ku, km, hku, hks⟩ := hk.unpack
  cases hts : cs.dataType.isString
  · exact ⟨.unsupportedArgument "right" su.dataType, by
      simp [rightHelpers, readAt, hsu, hku, hss.strings_of_not_isString hts, bind, Except.bind],
      rfl⟩
  obtain ⟨strings, hst⟩ := (hss.strings_isOk_iff "right").mpr hts
  have htk : ck.dataType.isInteger = false := by simpa [hts] using hbad
  exact ⟨.unsupportedArgument "right" ku.dataType, by
    simp [rightHelpers, readAt, hsu, hku, hst, hks.integers_of_not_isInteger htk, bind,
      Except.bind], rfl⟩

end Slice

/-- `substring(s, p)` appends its constant count and runs the kernel over the longer block. -/
theorem run_runSubstringFrom (cfg : Config) {b : Block} {rows : Nat} (hb : b.Shaped rows)
    (s p result : Nat) :
    (runSubstringFrom cfg [s, p] result rows).run b =
      (Slice.run cfg s p b.size result rows).run ⟨b.entries ++
        [⟨"len", (Column.constInt32 (Int32.ofNat int32Max) rows).dataType,
          some (Column.constInt32 (Int32.ofNat int32Max) rows)⟩]⟩ := by
  show (BlockM.insert "len" (Column.constInt32 (Int32.ofNat int32Max) rows) >>= fun len =>
    Slice.run cfg s p len result rows).run b = _
  rw [BlockM.run_bind_of_ok (BlockM.run_insert_of_shaped hb "len" rfl)]

/-- `left(s, n)` appends its constant position and runs the kernel over the longer block. -/
theorem run_runLeft (cfg : Config) {b : Block} {rows : Nat} (hb : b.Shaped rows)
    (s k result : Nat) :
    (runLeft cfg [s, k] result rows).run b =
      (Slice.run cfg s b.size k result rows).run ⟨b.entries ++
        [⟨"pos", (Column.constInt32 1 rows).dataType, some (Column.constInt32 1 rows)⟩]⟩ := by
  show (BlockM.insert "pos" (Column.constInt32 1 rows) >>= fun pos =>
    Slice.run cfg s pos k result rows).run b = _
  rw [BlockM.run_bind_of_ok (BlockM.run_insert_of_shaped hb "pos" rfl)]

/-- `right` computes its helper columns from the block, appends them, and runs the kernel. -/
theorem run_runRight (cfg : Config) {b : Block} {args : List Nat} {result rows s : Nat}
    {index strlen : Column} (h : Slice.rightHelpers b args rows = .ok (s, index, strlen)) :
    (runRight cfg args result rows).run b =
      (BlockM.insert "index" index >>= fun pos =>
        BlockM.insert "strlen" strlen >>= fun len => Slice.run cfg s pos len result rows).run b := by
  simp only [runRight, EStateM.run_bind, EStateM.run_get, BlockM.run_lift, h]

namespace Builtin

theorem run_slices {f : Builtin} (hf : f ∈ [substring, substringFrom, left, right])
    (cfg : Config) {b : Block} {n result : Nat} {args : List Nat} {cols : List Column}
    (hb : b.Shaped n) (hargs : List.Forall₂ (fun pos c => b.column pos = .ok c) args cols)
    (harity : f.arity.accepts args.length)
    (hstring : ∀ c ∈ cols.head?, c.dataType.isString)
    (hints : ∀ c ∈ cols.tail, c.dataType.isInteger) (hresult : result < b.size) :
    ∃ b', (f.run cfg args result n).run b = .ok () b' ∧ ∃ col, b'.column result = .ok col ∧
      col.wellFormed ∧ f.Slices cols n col := by
  simp only [List.mem_cons, List.not_mem_nil, or_false] at hf
  rcases hf with rfl | rfl | rfl | rfl
  · -- three arguments, read as they are
    obtain ⟨s, p, l, cs, cp, cl, rfl, rfl, hs, hp, hl⟩ :=
      Block.Forall₂.triple hargs (by simpa [arity, Arity.accepts] using harity)
    obtain ⟨b', hrun, col, hcol, hwf, htype, hlen, hget⟩ := Slice.run_spec cfg hb hs hp hl
      (hstring cs rfl) (hints cp (by simp)) (hints cl (by simp)) hresult
    refine ⟨b', hrun, col, hcol, hwf, htype, hlen, fun r hr => ?_⟩
    obtain ⟨vs, hvs⟩ := (hb.holds hs).get_isOk hr
    obtain ⟨vp, hvp⟩ := (hb.holds hp).get_isOk hr
    obtain ⟨vl, hvl⟩ := (hb.holds hl).get_isOk hr
    simp [hget r hr, hvs, hvp, hvl, sliceRow, Except.map, bind, Except.bind, pure, Except.pure]
  · -- the count is a constant `int32Max`, appended before the kernel runs
    obtain ⟨s, p, cs, cp, rfl, rfl, hs, hp⟩ :=
      Block.Forall₂.pair hargs (by simpa [arity, Arity.accepts] using harity)
    have hlen : (Column.constInt32 (Int32.ofNat int32Max) n).length = n := rfl
    obtain ⟨b', hrun, col, hcol, hwf, htype, hlen', hget⟩ :=
      Slice.run_spec cfg (hb.insert "len" rfl hlen) (Block.column_append_of_ok _ hs)
        (Block.column_append_of_ok _ hp) (Block.column_append_size rfl) (hstring cs rfl)
        (hints cp (by simp)) rfl (Block.lt_size_append hresult _)
    refine ⟨b', (run_runSubstringFrom cfg hb s p result).trans hrun, col, hcol, hwf, htype, hlen',
      fun r hr => ?_⟩
    obtain ⟨vs, hvs⟩ := (hb.holds hs).get_isOk hr
    obtain ⟨vp, hvp⟩ := (hb.holds hp).get_isOk hr
    simp [hget r hr, hvs, hvp, Column.get_constInt32 hr, Slice.int32Arg_ofNat (Nat.le_refl _),
      sliceRow, Except.map, bind, Except.bind, pure, Except.pure]
  · -- the position is a constant 1, appended before the kernel runs
    obtain ⟨s, k, cs, ck, rfl, rfl, hs, hk⟩ :=
      Block.Forall₂.pair hargs (by simpa [arity, Arity.accepts] using harity)
    have hlen : (Column.constInt32 1 n).length = n := rfl
    obtain ⟨b', hrun, col, hcol, hwf, htype, hlen', hget⟩ :=
      Slice.run_spec cfg (hb.insert "pos" rfl hlen) (Block.column_append_of_ok _ hs)
        (Block.column_append_size rfl) (Block.column_append_of_ok _ hk) (hstring cs rfl) rfl
        (hints ck (by simp)) (Block.lt_size_append hresult _)
    refine ⟨b', (run_runLeft cfg hb s k result).trans hrun, col, hcol, hwf, htype, hlen',
      fun r hr => ?_⟩
    obtain ⟨vs, hvs⟩ := (hb.holds hs).get_isOk hr
    obtain ⟨vk, hvk⟩ := (hb.holds hk).get_isOk hr
    simp [hget r hr, hvs, hvk, Column.get_constInt32 hr, Value.int32Arg?,
      sliceRow, Except.map, bind, Except.bind, pure, Except.pure]
  · -- the positions and the counts are computed from the arguments and appended, in that order
    obtain ⟨s, k, cs, ck, rfl, rfl, hs, hk⟩ :=
      Block.Forall₂.pair hargs (by simpa [arity, Arity.accepts] using harity)
    obtain ⟨index, strlen, hrh, hiwf, hilen, hitype, hswf, hslen, hstype, hrow⟩ :=
      Slice.rightHelpers_get (hb.holds hs) (hb.holds hk) (hstring cs rfl) (hints ck (by simp))
    have hb₁ := hb.insert "index" hiwf hilen
    have hs₁ := Block.column_append_of_ok [⟨"index", index.dataType, some index⟩] hs
    obtain ⟨b', hrun, col, hcol, hwf, htype, hlen, hget⟩ :=
      Slice.run_spec cfg (hb₁.insert "strlen" hswf hslen) (Block.column_append_of_ok _ hs₁)
        (Block.column_append_of_ok _ (Block.column_append_size rfl))
        (Block.column_append_size rfl) (hstring cs rfl) hitype hstype
        (Block.lt_size_append (Block.lt_size_append hresult _) _)
    refine ⟨b', ?_, col, hcol, hwf, htype, hlen, fun r hr => ?_⟩
    · show (runRight cfg [s, k] result n).run b = _
      rw [run_runRight cfg hrh, BlockM.run_bind_of_ok (BlockM.run_insert_of_shaped hb "index" hilen),
        BlockM.run_bind_of_ok (BlockM.run_insert_of_shaped hb₁ "strlen" hslen)]
      exact hrun
    · obtain ⟨vs, hvs⟩ := (hb.holds hs).get_isOk hr
      obtain ⟨vk, hvk⟩ := (hb.holds hk).get_isOk hr
      rw [hget r hr, hrow r hr]
      simp [hvs, hvk, sliceRow, Except.map, bind, Except.bind, pure, Except.pure]

theorem stringThenIntegers_toBool (fn : String) (t : DataType) (ts : List DataType) :
    (stringThenIntegers fn (t :: ts)).toBool = (t.isString && ts.all DataType.isInteger) := by
  cases ht : t.isString
  · simp [stringThenIntegers, ht, Except.toBool]
  · simp only [stringThenIntegers, ht, Bool.not_true, Bool.false_eq_true, if_false, Bool.true_and]
    split
    · next u h =>
        have hnot := List.find?_some h
        have hmem := List.mem_of_find?_eq_some h
        symm
        simp only [Except.toBool, List.all_eq_false]
        exact ⟨u, hmem, by simpa using hnot⟩
    · next h =>
        rw [List.find?_eq_none] at h
        symm
        simp only [Except.toBool, List.all_eq_true]
        intro u hu
        simpa using h u hu

section Slices

variable {f : Builtin} (hf : f ∈ [substring, substringFrom, left, right])
include hf

theorem stripsNulls_of_slices : f.stripsNulls = false := by
  simp only [List.mem_cons, List.not_mem_nil, or_false] at hf
  rcases hf with rfl | rfl | rfl | rfl <;> rfl

theorem takes_slices (t : DataType) (ts : List DataType) :
    f.takes (t :: ts) = (t.isString && ts.all DataType.isInteger) := by
  simp only [List.mem_cons, List.not_mem_nil, or_false] at hf
  rcases hf with rfl | rfl | rfl | rfl <;> exact stringThenIntegers_toBool _ t ts

theorem returnType_slices {t : DataType} {ts : List DataType} (ht : t.isString)
    (hts : ts.all DataType.isInteger) : f.returnType (t :: ts) = .ok (.nullable .string) := by
  have hnone : ts.find? (fun u => !u.isInteger) = none := by
    rw [List.find?_eq_none]
    intro u hu
    simpa using List.all_eq_true.mp hts u hu
  simp only [List.mem_cons, List.not_mem_nil, or_false] at hf
  rcases hf with rfl | rfl | rfl | rfl <;> simp [returnType, stringThenIntegers, ht, hnone]

theorem fits_slices (cfg : Config) (cells : List Value) : f.fits cfg cells := by
  simp only [List.mem_cons, List.not_mem_nil, or_false] at hf
  rcases hf with rfl | rfl | rfl | rfl <;> rfl

theorem addressable_slices (cols : List Column) (rows : Nat) : f.addressable cols rows := by
  simp only [List.mem_cons, List.not_mem_nil, or_false] at hf
  rcases hf with rfl | rfl | rfl | rfl <;> rfl

theorem reserves_slices (cfg : Config) (cols : List Column) (rows : Nat) :
    f.reserves cfg cols rows := by
  simp only [List.mem_cons, List.not_mem_nil, or_false] at hf
  rcases hf with rfl | rfl | rfl | rfl <;> rfl

theorem plainRow_slices (cells : List Value) : f.plainRow cells = f.sliceRow cells := by
  simp only [List.mem_cons, List.not_mem_nil, or_false] at hf
  rcases hf with rfl | rfl | rfl | rfl <;> rfl

end Slices

/-- A function of the substring family refuses arguments that are not a string followed by
integers, with an error of the wrong type, whatever mix of plain, nullable and constant
columns they are. -/
theorem run_slices_refuses {f : Builtin} (hf : f ∈ [substring, substringFrom, left, right])
    (cfg : Config) {b : Block} {n result : Nat} {args : List Nat} {cols : List Column}
    (hb : b.Shaped n) (hargs : List.Forall₂ (fun pos c => b.column pos = .ok c) args cols)
    (harity : f.arity.accepts args.length)
    (hbad : f.takes (cols.map Column.dataType) = false) :
    ∃ e b', (f.run cfg args result n).run b = .error e b' ∧ e.kind = .execution := by
  simp only [List.mem_cons, List.not_mem_nil, or_false] at hf
  rcases hf with rfl | rfl | rfl | rfl
  · obtain ⟨s, p, l, cs, cp, cl, rfl, rfl, hs, hp, hl⟩ :=
      Block.Forall₂.triple hargs (by simpa [arity, Arity.accepts] using harity)
    rw [List.map_cons, takes_slices (by simp)] at hbad
    obtain ⟨e, he, hkind⟩ := Slice.result_eq_error cfg (hb.holds hs) (hb.holds hp) (hb.holds hl)
      (by simpa [Bool.and_assoc] using hbad)
    exact ⟨e, b, Slice.run_eq_error he, hkind⟩
  · -- the constant count is appended first, and it is an integer
    obtain ⟨s, p, cs, cp, rfl, rfl, hs, hp⟩ :=
      Block.Forall₂.pair hargs (by simpa [arity, Arity.accepts] using harity)
    rw [List.map_cons, takes_slices (by simp)] at hbad
    have hlen : (Column.constInt32 (Int32.ofNat int32Max) n).length = n := rfl
    have hb₁ := hb.insert "len" rfl hlen
    have hint : (Column.constInt32 (Int32.ofNat int32Max) n).dataType.isInteger := rfl
    obtain ⟨e, he, hkind⟩ := Slice.result_eq_error cfg (hb₁.holds (Block.column_append_of_ok _ hs))
      (hb₁.holds (Block.column_append_of_ok _ hp)) (hb₁.holds (Block.column_append_size rfl))
      (by simpa [hint] using hbad)
    exact ⟨e, _, (run_runSubstringFrom cfg hb s p result).trans (Slice.run_eq_error he), hkind⟩
  · -- the constant position is appended first, and it is an integer
    obtain ⟨s, k, cs, ck, rfl, rfl, hs, hk⟩ :=
      Block.Forall₂.pair hargs (by simpa [arity, Arity.accepts] using harity)
    rw [List.map_cons, takes_slices (by simp)] at hbad
    have hlen : (Column.constInt32 1 n).length = n := rfl
    have hb₁ := hb.insert "pos" rfl hlen
    have hint : (Column.constInt32 1 n).dataType.isInteger := rfl
    obtain ⟨e, he, hkind⟩ := Slice.result_eq_error cfg (hb₁.holds (Block.column_append_of_ok _ hs))
      (hb₁.holds (Block.column_append_size rfl)) (hb₁.holds (Block.column_append_of_ok _ hk))
      (by simpa [hint] using hbad)
    exact ⟨e, _, (run_runLeft cfg hb s k result).trans (Slice.run_eq_error he), hkind⟩
  · -- the helper columns are refused before anything is appended
    obtain ⟨s, k, cs, ck, rfl, rfl, hs, hk⟩ :=
      Block.Forall₂.pair hargs (by simpa [arity, Arity.accepts] using harity)
    rw [List.map_cons, takes_slices (by simp)] at hbad
    obtain ⟨e, he, hkind⟩ := Slice.rightHelpers_eq_error (hb.holds hs) (hb.holds hk)
      (by simpa using hbad)
    refine ⟨e, b, ?_, hkind⟩
    show (runRight cfg [s, k] result n).run b = _
    simp only [runRight, EStateM.run_bind, EStateM.run_get, BlockM.run_lift, he]

/-- The substring family answers with its row semantics over every shaped block. -/
theorem answers_slices {f : Builtin} (hf : f ∈ [substring, substringFrom, left, right])
    (cfg : Config) {b : Block} {n result : Nat} {args : List Nat} {cols : List Column}
    (hb : b.Shaped n) (hargs : List.Forall₂ (fun pos c => b.column pos = .ok c) args cols)
    (harity : f.arity.accepts args.length) (hresult : result < b.size) :
    f.Answers cfg cols n result (f.addressable cols n) (f.reserves cfg cols n)
      (f.run cfg args result n) b := by
  refine ⟨fun hbad => ?_, fun _ hrow => ?_, fun _ _ _ hstop => ?_, fun hok _ _ _ => ?_⟩
  · obtain ⟨e, b', hrun, hkind⟩ := run_slices_refuses hf cfg hb hargs harity hbad
    exact ⟨e, b', hrun, by rw [hkind]; decide⟩
  · rcases hrow with ⟨r, -, hbad⟩ | hbad
    · simp [admits, stripsNulls_of_slices hf, fits_slices hf] at hbad
    · simp [addressable_slices hf] at hbad
  · simp [reserves_slices hf] at hstop
  · -- the family takes a string and then integers, which is what its run needs
    obtain ⟨c, cs, rfl⟩ : ∃ c cs, cols = c :: cs := by
      cases cols with
      | nil =>
          simp only [List.mem_cons, List.not_mem_nil, or_false] at hf
          rcases hf with rfl | rfl | rfl | rfl <;>
            simp [arity, Arity.accepts, hargs.length_eq] at harity
      | cons c cs => exact ⟨c, cs, rfl⟩
    rw [List.map_cons, takes_slices hf, Bool.and_eq_true, List.all_map] at hok
    obtain ⟨b', hrun, col, hcol, hwf, hsl⟩ := run_slices hf cfg hb hargs harity
      (by simpa using hok.1) (fun d hd => by simpa using List.all_eq_true.mp hok.2 d hd) hresult
    refine ⟨b', hrun, col, hcol, hwf, hsl.length_eq, ⟨.nullable .string,
      returnType_slices hf hok.1 (by simpa [List.all_map] using hok.2), ?_⟩, fun r hr => ?_⟩
    · simp [stripsNulls_of_slices hf, hsl.dataType_eq]
    · rw [hsl.get_eq r hr, Column.mapM_get_eq_cells fun d hd =>
        (hb.holds_of_forall₂ hargs d hd).elim fun _ hp => hp.get_isOk hr]
      simp [Except.map, rowValue, stripsNulls_of_slices hf, plainRow_slices hf]

open Dispatch in
/-- Through the dispatcher, folding or not, the family writes the same rows: a folded call
reads the constants' one row, which every row of theirs repeats. -/
theorem executeAs_slices {f : Builtin} (hf : f ∈ [substring, substringFrom, left, right])
    (folds : Bool) (cfg : Config) {b : Block} {n result : Nat} {args : List Nat}
    {cols : List Column} (hb : b.Shaped n)
    (hargs : List.Forall₂ (fun pos c => b.column pos = .ok c) args cols)
    (harity : f.arity.accepts args.length)
    (hstring : ∀ c ∈ cols.head?, c.dataType.isString)
    (hints : ∀ c ∈ cols.tail, c.dataType.isInteger) (hresult : result < b.size) :
    f.WritesSlices cols n result (f.executeAs folds cfg args result n) b := by
  have hrows : ∀ c ∈ cols, c.length = n := fun c hc => (hb.columns_of_forall₂ hargs c hc).2
  have hkeeps : f.stripsNulls = false := by
    simp only [List.mem_cons, List.not_mem_nil, or_false] at hf
    rcases hf with rfl | rfl | rfl | rfl <;> rfl
  rw [WritesSlices, run_executeAs f folds cfg result harity hargs hrows]
  split
  · next hfold =>
      -- every argument is a constant: the call runs once, over their first rows
      simp only [Bool.and_eq_true, List.all_eq_true] at hfold
      obtain ⟨-, -, hconst⟩ := hfold
      obtain ⟨folded, positions, hfoldEq, hfs, hpos⟩ :=
        foldArguments_eq hb hargs (Block.shaped_empty 1) .nil
      rw [List.nil_append] at hpos
      obtain ⟨e, he⟩ := Block.exists_entry_of_lt hresult
      have hstring₁ : ∀ c ∈ (cols.map firstRow).head?, c.dataType.isString := by
        intro c hc
        simp only [List.head?_map, Option.mem_def, Option.map_eq_some_iff] at hc
        obtain ⟨c₀, h₀, rfl⟩ := hc
        rw [dataType_firstRow]
        exact hstring c₀ h₀
      have hints₁ : ∀ c ∈ (cols.map firstRow).tail, c.dataType.isInteger := by
        intro c hc
        rw [← List.map_tail, List.mem_map] at hc
        obtain ⟨c₀, h₀, rfl⟩ := hc
        rw [dataType_firstRow]
        exact hints c₀ h₀
      have harity₁ : f.arity.accepts positions.length := by
        rw [hpos.length_eq, List.length_map, ← hargs.length_eq]
        exact harity
      -- the slot goes in behind the copies, and the one-row call writes there
      obtain ⟨b₁, hrun₁, value, hvalue, -, hvs⟩ := run_slices hf cfg (hfs.insertSlot e.name e.type)
        (Block.Forall₂.column_append hpos [⟨e.name, e.type, none⟩]) harity₁ hstring₁ hints₁
        (show folded.size < (folded.insertSlot e.name e.type).1.size by simp)
      have haside : runAside (f.executeWithNulls cfg positions folded.size 1)
          (folded.insertSlot e.name e.type).1 folded.size none = .ok value := by
        refine runAside_eq_ok none ?_ hvalue
        rw [executeWithNulls_of_stripsNulls_false hkeeps]
        exact hrun₁
      obtain ⟨c, hc, hclen, hctype, hcget⟩ := Column.constant?_eq_ok hvs.length_eq n
      obtain ⟨b', hset⟩ := hb.setColumn_isOk hresult hclen
      refine ⟨b', ?_, c, Block.column_setColumn_self hset, hctype.trans hvs.dataType_eq, hclen, ?_⟩
      · rw [BlockM.run_bind_of_ok (run_executeFolded hfoldEq he haside hc hset)]
        exact run_checkResult f (Block.column_setColumn_self hset) hclen
      · intro r hr
        rw [hcget r hr, hvs.get_eq 0 Nat.zero_lt_one,
          mapM_get_firstRow fun c hmem => ⟨hconst c hmem, by rw [hrows c hmem]; exact hr⟩]
  · obtain ⟨b', hrun, col, hcol, -, hslices⟩ :=
      run_slices hf cfg hb hargs harity hstring hints hresult
    refine ⟨b', ?_, col, hcol, hslices⟩
    rw [executeWithNulls_of_stripsNulls_false hkeeps, BlockM.run_bind_of_ok hrun]
    exact run_checkResult f hcol hslices.length_eq

/-- On a block the checked constructors built, with a string and then integers as arguments
and a result position in the block, every way of calling a function of the substring family
succeeds and writes the family's rows: the function's own work, the dispatcher, and a
registry that resolves the name to it. -/
theorem writesSlices_on_every_path {f : Builtin}
    (hf : f ∈ [substring, substringFrom, left, right]) (cfg : Config) (reg : Registry)
    (name : String) {b : Block} {n result : Nat} {args : List Nat} {cols : List Column}
    (hb : b.Shaped n) (hargs : List.Forall₂ (fun pos c => b.column pos = .ok c) args cols)
    (harity : f.arity.accepts args.length)
    (hstring : ∀ c ∈ cols.head?, c.dataType.isString)
    (hints : ∀ c ∈ cols.tail, c.dataType.isInteger) (hresult : result < b.size) :
    f.WritesSlices cols n result (f.run cfg args result n) b ∧
      f.WritesSlices cols n result (f.execute cfg args result n) b ∧
      (reg.find name args.length = .ok f →
        f.WritesSlices cols n result (reg.execute cfg name args result) b) := by
  have hexecute := executeAs_slices hf f.foldsConstants cfg hb hargs harity hstring hints hresult
  obtain ⟨b', hrun, col, hcol, -, hslices⟩ :=
    run_slices hf cfg hb hargs harity hstring hints hresult
  refine ⟨⟨b', hrun, col, hcol, hslices⟩, hexecute, fun hfind => ?_⟩
  -- the registry runs the dispatcher over the block's rows, which are the arguments' rows
  have hrows : b.rows = n := by
    cases hargs with
    | nil =>
        simp only [List.mem_cons, List.not_mem_nil, or_false] at hf
        rcases hf with rfl | rfl | rfl | rfl <;> simp [arity, Arity.accepts] at harity
    | cons hc _ => exact hb.rows_eq hc
  have hrun : (reg.execute cfg name args result).run b = (f.execute cfg args result n).run b := by
    simp [Registry.execute, EStateM.run_bind, EStateM.run_get, hfind, hrows]
  rw [WritesSlices, hrun]
  exact hexecute

/-- `substring("hi!", 2, 1)` over one row, on every path. -/
theorem writesSlices_substring_hi :
    let b : Block := ⟨[⟨"s", .string, some (.string ⟨[[104, 105, 33]]⟩)⟩,
      ⟨"p", .int32, some (.int32 [2])⟩, ⟨"l", .int64, some (.int64 [1])⟩,
      ⟨"r", .nullable .string, none⟩]⟩
    let cols := [Column.string ⟨[[104, 105, 33]]⟩, .int32 [2], .int64 [1]]
    b.Shaped 1 ∧ List.Forall₂ (fun pos c => b.column pos = .ok c) [0, 1, 2] cols ∧
      (Registry.empty.register substring).find "substring" 3 = .ok substring ∧
      substring.WritesSlices cols 1 3 (substring.run {} [0, 1, 2] 3 1) b ∧
      substring.WritesSlices cols 1 3 (substring.execute {} [0, 1, 2] 3 1) b ∧
      substring.WritesSlices cols 1 3
        (Registry.execute (Registry.empty.register substring) {} "substring" [0, 1, 2] 3) b := by
  intro b cols
  have hb : b.Shaped 1 := by
    unfold Block.Shaped
    decide
  have hargs : List.Forall₂ (fun pos c => b.column pos = .ok c) [0, 1, 2] cols :=
    .cons rfl (.cons rfl (.cons rfl .nil))
  have hfind : (Registry.empty.register substring).find "substring" 3 = .ok substring := by decide
  obtain ⟨hrun, hexecute, hreg⟩ := writesSlices_on_every_path
    (show substring ∈ [substring, substringFrom, left, right] by simp) {}
    (Registry.empty.register substring) "substring" hb hargs rfl (by decide) (by decide)
    (show 3 < b.size by decide)
  exact ⟨hb, hargs, hfind, hrun, hexecute, hreg hfind⟩

end Builtin

end TextBatch

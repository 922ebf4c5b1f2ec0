import TextBatch.Proofs.NullPolicy
import TextBatch.Proofs.Slice

/-! # Every function answers by its row semantics

The functions that read null maps themselves (`null_or_empty`, `concat`, `concat_ws`) see
their arguments as they are, nullable or constant. Each spells out its arguments and splits
them from their maps (`Column.unpacked`); the merged map of `concat` flags the rows where an
argument is NULL (`Column.merged_unpacked`), and `concat_ws` keeps the separator's map and
leaves out the arguments NULL at a row (`Join.parts_eq`). Their computations are proved
against the row semantics (`Join.concatResult_spec`, `Join.concatWsResult_spec`,
`Measure.nullOrEmptyResult_spec`), and `concat` of a single argument passes it through, made
nullable (`Builtin.answers_concat_single`).

With the substring family and the functions that let the dispatcher handle NULLs, every
function answers by its row semantics through the dispatcher's NULL policy, over every shaped
block (`Builtin.answers_executeWithNulls`).
-/

namespace TextBatch

namespace NullMap

/-- Merging optional maps one after another ORs in their flags of every row they cover. -/
theorem isNull_foldl_mergeOpt {r : Nat} {ms : List (Option NullMap)}
    (hms : ∀ o ∈ ms, ∀ x ∈ o, r < x.length) :
    ∀ {m : NullMap}, m.Covers → r < m.length →
      (ms.foldl (fun acc o => acc.mergeOpt o) m).isNull r =
        (m.isNull r || ms.any (flagged · r)) := by
  induction ms with
  | nil => simp
  | cons o ms ih =>
      intro m hm hr
      rw [List.foldl_cons, ih (fun o' ho' => hms o' (List.mem_cons_of_mem o ho')) (hm.mergeOpt o)
        (by rw [length_mergeOpt]; exact hr), isNull_mergeOpt hm hr (hms o List.mem_cons_self),
        List.any_cons, Bool.or_assoc]

theorem isNull_getD_allValid {o : Option NullMap} {n r : Nat} (hr : r < n) :
    (o.getD (allValid n)).isNull r = flagged o r := by
  cases o with
  | none => exact isNull_allValid hr
  | some m => rfl

theorem length_foldl_mergeOpt (ms : List (Option NullMap)) (m : NullMap) :
    (ms.foldl (fun acc o => acc.mergeOpt o) m).length = m.length := by
  induction ms generalizing m with
  | nil => rfl
  | cons o ms ih => rw [List.foldl_cons, ih, length_mergeOpt]

end NullMap

namespace Column

/-- The map an argument splits off flags exactly its NULL rows. -/
theorem Splits.flagged_eq {c u : Column} {m : Option NullMap} (h : Splits c u m)
    (hwf : c.wellFormed) {r : Nat} (hr : r < c.length) : NullMap.flagged m r = c.isNullAt r := by
  obtain ⟨v, hv⟩ := get_isOk_of_isPlain h.plain (by rw [h.length_eq]; exact hr)
  have hu : u.cell r ≠ .null := by
    rw [Column.cell_eq hv]
    exact get_ne_null_of_isPlain h.plain hv
  rw [Bool.eq_iff_iff, ← cell_eq_null_iff hwf hr, h.cell_eq hr]
  cases NullMap.flagged m r <;> simp [hu]

/-- A string argument reads NULL at its NULL rows and its string elsewhere. -/
theorem Splits.cell_of_string {c : Column} {s : StringColumn} {m : Option NullMap}
    (h : Splits c (.string s) m) (hwf : c.wellFormed) {r : Nat} (hr : r < c.length) :
    c.cell r = if c.isNullAt r then .null else .bytes (s.value r) := by
  have hs : r < s.length := by
    have hlen := h.length_eq
    simp only [length] at hlen
    omega
  rw [h.cell_eq hr, h.flagged_eq hwf hr, cell_string hs]

/-- Every argument spelled out and split from its map. -/
def unpacked (cols : List Column) : List (Column × Option NullMap) :=
  cols.map fun c => c.toFull.unwrapNullable

/-- String arguments give their strings, each splitting its argument. -/
theorem exists_strings {cols : List Column} (hwf : ∀ c ∈ cols, c.wellFormed)
    (hall : ∀ c ∈ cols, c.dataType.isString) (fn : String) :
    ∃ ss, (unpacked cols).mapM (fun arg => arg.1.strings fn) = .ok ss ∧
      List.Forall₂ (fun c s => Splits c (.string s) c.toFull.unwrapNullable.2) cols ss := by
  induction cols with
  | nil => exact ⟨[], rfl, .nil⟩
  | cons c cs ih =>
      have hs := splits_unpack (hwf c List.mem_cons_self)
      obtain ⟨s, hu, -⟩ := hs.eq_string (hall c List.mem_cons_self)
      obtain ⟨ss, hss, hrel⟩ := ih (fun d hd => hwf d (List.mem_cons_of_mem c hd))
        (fun d hd => hall d (List.mem_cons_of_mem c hd))
      refine ⟨s :: ss, ?_, .cons (hu ▸ hs) hrel⟩
      simp only [unpacked, List.map_cons, List.mapM_cons] at hss ⊢
      rw [hss, hu]
      rfl

/-- An argument that is not a string is refused as an argument of the wrong type. -/
theorem strings_eq_error_of_mem {cols : List Column} (hwf : ∀ c ∈ cols, c.wellFormed)
    {c : Column} (hc : c ∈ cols) (hbad : c.dataType.isString = false) (fn : String) :
    ∃ e, (unpacked cols).mapM (fun arg => arg.1.strings fn) = .error e ∧
      e.kind = .execution := by
  have hmem : c.toFull.unwrapNullable ∈ unpacked cols := List.mem_map_of_mem hc
  obtain ⟨y, -, e, hy, hmap⟩ := mapM_eq_error_of_mem
    (f := fun arg : Column × Option NullMap => arg.1.strings fn) hmem
    ((splits_unpack (hwf c hc)).strings_of_not_isString hbad fn)
  exact ⟨e, hmap, by rw [strings_eq_error hy]; rfl⟩

/-- The strings read from the arguments carry the arguments' payloads. -/
theorem payloads_of_strings {cols : List Column} {fn : String} {ss : List StringColumn}
    (h : (unpacked cols).mapM (fun arg => arg.1.strings fn) = .ok ss) :
    ss.map StringColumn.payloadBytes = cols.map payload := by
  rw [mapM_eq_ok_iff, unpacked, List.forall₂_map_left_iff] at h
  induction h with
  | nil => rfl
  | cons hcs _ ih =>
    rw [strings_eq_ok] at hcs
    simp [ih, payload, hcs]

theorem wellFormed_makeNullable {c : Column} (hwf : c.wellFormed) :
    c.makeNullable.wellFormed := by
  induction c with
  | nullable nested nulls => exact hwf
  | const value len ih =>
      obtain ⟨hv, hlen, hvc⟩ := wellFormed_const.mp hwf
      refine wellFormed_const.mpr ⟨ih hv, by rw [length_makeNullable, hlen], ?_⟩
      cases value <;> simp_all [makeNullable, isConst]
  | _ => exact wellFormed_nullable.mpr ⟨rfl, rfl, by simp [length]⟩

/-- A column under a map without NULLs reads as the column alone. -/
theorem get_nullable_allValid (c : Column) (r : Nat) :
    (nullable c (NullMap.allValid c.length)).get r = c.get r := by
  by_cases hr : r < c.length
  · rw [get_nullable hr, NullMap.isNull_allValid hr]
    rfl
  · have hle : c.length ≤ r := Nat.le_of_not_lt hr
    simp only [get_of_length_le (c := nullable c _) hle, get_of_length_le hle, length]

/-- Making a column nullable keeps every row, whatever the column. -/
theorem get_makeNullable (c : Column) (r : Nat) : c.makeNullable.get r = c.get r := by
  induction c generalizing r with
  | nullable nested nulls => rfl
  | const value len ih =>
      simp only [makeNullable]
      by_cases hr : r < len
      · rw [get_const hr, get_const hr, ih 0]
      · have hle : len ≤ r := Nat.le_of_not_lt hr
        simp only [get_of_length_le (c := const value.makeNullable len) hle,
          get_of_length_le (c := const value len) hle, length]
  | _ => exact get_nullable_allValid _ r

/-- A string column passed through as nullable has the nullable string type. -/
theorem dataType_passThrough {c : Column} (hwf : c.wellFormed) (hs : c.dataType.isString) :
    (if c.isNullable then c else c.makeNullable).dataType = .nullable .string := by
  induction c with
  | nullable nested nulls =>
      obtain ⟨-, hplain, -⟩ := wellFormed_nullable.mp hwf
      cases nested <;> simp_all [isPlain, dataType, isNullable, DataType.isString,
        DataType.makeNullable, DataType.removeNullable, DataType.isNullable]
  | const value len ih =>
      obtain ⟨hv, -, -⟩ := wellFormed_const.mp hwf
      have ih := ih hv hs
      cases hn : value.isNullable <;> simp_all [isNullable, makeNullable, dataType]
  | string s => rfl
  | _ => simp [dataType, DataType.isString, DataType.removeNullable] at hs

section Unpacked

variable {cols : List Column} {n r : Nat}

theorem any_flagged_unpacked (hcols : ∀ c ∈ cols, c.wellFormed ∧ r < c.length) :
    ((unpacked cols).map Prod.snd).any (NullMap.flagged · r) = cols.any fun c => c.isNullAt r := by
  induction cols with
  | nil => rfl
  | cons c cs ih =>
      obtain ⟨hwf, hr⟩ := hcols c List.mem_cons_self
      simp only [unpacked, List.map_cons, List.any_cons] at ih ⊢
      rw [(splits_unpack hwf).flagged_eq hwf hr, ih fun d hd => hcols d (List.mem_cons_of_mem c hd)]

/-- The arguments' maps merged over a map without NULLs: NULL where any argument is, and of the
arguments' rows. -/
theorem merged_unpacked (hcols : ∀ c ∈ cols, c.wellFormed ∧ c.length = n) :
    ((unpacked cols).foldl (fun m arg => m.mergeOpt arg.2) (NullMap.allValid n)).length = n ∧
      ∀ r < n, ((unpacked cols).foldl (fun m arg => m.mergeOpt arg.2)
        (NullMap.allValid n)).isNull r = cols.any fun c => c.isNullAt r := by
  have hmaps : (unpacked cols).foldl (fun m arg => m.mergeOpt arg.2) (NullMap.allValid n) =
      ((unpacked cols).map Prod.snd).foldl (fun acc o => acc.mergeOpt o) (NullMap.allValid n) := by
    rw [List.foldl_map]
  refine ⟨by rw [hmaps, NullMap.length_foldl_mergeOpt, NullMap.length_allValid], fun r hr => ?_⟩
  -- every split map covers the rows of its argument
  have hms : ∀ o ∈ (unpacked cols).map Prod.snd, ∀ x ∈ o, r < x.length := by
    intro o ho x hx
    obtain ⟨arg, harg, rfl⟩ := List.mem_map.mp ho
    obtain ⟨c, hc, rfl⟩ := List.mem_map.mp harg
    rw [(splits_unpack (hcols c hc).1).length_nulls x hx, (hcols c hc).2]
    exact hr
  rw [hmaps, NullMap.isNull_foldl_mergeOpt hms (NullMap.covers_allValid n) hr,
    NullMap.isNull_allValid hr, Bool.false_or,
    any_flagged_unpacked fun c hc => ⟨(hcols c hc).1, (hcols c hc).2 ▸ hr⟩]

end Unpacked

end Column

namespace Block

variable {b : Block}

theorem mapM_unpack {args : List Nat} {cols : List Column}
    (hargs : List.Forall₂ (fun pos c => b.column pos = .ok c) args cols) :
    args.mapM b.unpack = .ok (Column.unpacked cols) := by
  rw [mapM_eq_ok_iff, Column.unpacked, List.forall₂_map_right_iff]
  exact hargs.imp fun pos c h => by simp [unpack, full, h]

/-- Over arguments of the rows of `nulls` every merge passes its check: the arguments are
unpacked in order and their maps merged into `nulls`. -/
theorem unpackAll_eq {n : Nat} (hb : b.Shaped n) (checks : Bool) {args : List Nat}
    {cols : List Column} (hargs : List.Forall₂ (fun pos c => b.column pos = .ok c) args cols)
    {nulls : NullMap} (hn : nulls.length = n) :
    b.unpackAll checks nulls args = .ok ((Column.unpacked cols).map Prod.fst,
      (Column.unpacked cols).foldl (fun m arg => m.mergeOpt arg.2) nulls) := by
  induction hargs generalizing nulls with
  | nil => rfl
  | @cons pos c args cols hc _ ih =>
      -- each merge keeps the rows of `nulls`, so the next argument's check passes too
      have hnext := (NullMap.length_mergeOpt nulls c.toFull.unwrapNullable.2).trans hn
      simp only [unpackAll, (hb.holds hc).unpackInto hn checks, ih hnext, Column.unpacked,
        List.map_cons, List.foldl_cons, bind, Except.bind, pure, Except.pure]

end Block

namespace Join

variable {cols : List Column} {ss : List StringColumn} {r : Nat}

section Strings

variable (h : List.Forall₂ (fun c s => Column.Splits c (.string s) c.toFull.unwrapNullable.2)
  cols ss) (hcols : ∀ c ∈ cols, c.wellFormed ∧ r < c.length)
include h hcols

theorem mapM_read : ss.mapM (fun s => s.read r) = .ok (ss.map (·.value r)) := by
  induction h with
  | nil => rfl
  | @cons c s cs ss hc _ ih =>
      have hs : r < s.length := by
        have hlen := hc.length_eq
        simp only [Column.length] at hlen
        exact hlen ▸ (hcols c List.mem_cons_self).2
      simp [List.mapM_cons, StringColumn.read_eq_ok hs,
        ih fun d hd => hcols d (List.mem_cons_of_mem c hd), bind, Except.bind, pure, Except.pure]

/-- The strings of row `r` when no argument is NULL there, and none when one is. -/
theorem mapM_bytes_cells :
    (Column.cells cols r).mapM Value.bytes? =
      if cols.any (fun c => c.isNullAt r) then none else some (ss.map (·.value r)) := by
  induction h with
  | nil => rfl
  | @cons c s cs ss hc _ ih =>
      obtain ⟨hwf, hr⟩ := hcols c List.mem_cons_self
      have ih := ih fun d hd => hcols d (List.mem_cons_of_mem c hd)
      simp only [Column.cells, List.map_cons, List.mapM_cons, List.any_cons] at ih ⊢
      rw [hc.cell_of_string hwf hr, ih]
      cases c.isNullAt r <;> cases cs.any (fun c => c.isNullAt r) <;> rfl

/-- The parts of a row of `concat_ws` are the strings of the arguments not NULL there. -/
theorem parts_eq :
    parts (ss.zip (cols.map fun c => c.toFull.unwrapNullable.2)) r =
      .ok ((Column.cells cols r).filterMap Value.bytes?) := by
  induction h with
  | nil => rfl
  | @cons c s cs ss hc _ ih =>
      obtain ⟨hwf, hr⟩ := hcols c List.mem_cons_self
      have ih := ih fun d hd => hcols d (List.mem_cons_of_mem c hd)
      have hs : r < s.length := by
        have hlen := hc.length_eq
        simp only [Column.length] at hlen
        exact hlen ▸ hr
      simp only [parts, Column.cells, List.map_cons, List.zip_cons_cons, List.filter_cons,
        List.filterMap_cons] at ih ⊢
      rw [hc.cell_of_string hwf hr, hc.flagged_eq hwf hr]
      cases c.isNullAt r
      · simp [List.mapM_cons, StringColumn.read_eq_ok hs, ih, Value.bytes?, bind, Except.bind,
          pure, Except.pure]
      · simpa [Value.bytes?] using ih

end Strings

variable {b : Block} {n : Nat} {args : List Nat} {cols : List Column}

theorem takes_concat (f : Builtin) (hf : f = .concat ∨ f = .concatWs) (types : List DataType) :
    f.takes types = types.all DataType.isString := by
  rcases hf with rfl | rfl <;> exact Builtin.stringsOnly_toBool _ types

theorem returnType_concat (f : Builtin) (hf : f = .concat ∨ f = .concatWs) {types : List DataType}
    (hall : types.all DataType.isString) : f.returnType types = .ok (.nullable .string) := by
  have hnone : types.find? (fun t => !t.isString) = none := by
    rw [List.find?_eq_none]
    intro t ht
    simpa using List.all_eq_true.mp hall t ht
  rcases hf with rfl | rfl <;> simp [Builtin.returnType, Builtin.stringsOnly, hnone]

/-- Payloads are refused exactly when their sum is not a machine-sized count. -/
theorem payloadBytes_eq (function : String) (strings : List StringColumn) :
    payloadBytes function strings =
      if (strings.map StringColumn.payloadBytes).sum ≤ usizeMax
      then .ok (strings.map StringColumn.payloadBytes).sum
      else .error (.addressSpace function) := by
  rw [payloadBytes, sumSizes_of_ok (g := StringColumn.payloadBytes) (fun _ _ => rfl) (Nat.zero_le _)]
  simp only [Nat.zero_add]

/-- The reserve of `concat_ws` is refused exactly when the values' payloads and the separators
together are not a machine-sized count: a separator product past the largest count takes the
sum past it too. -/
theorem reserveWs_eq (sep : StringColumn) (values : List StringColumn) :
    reserveWs sep values =
      if (values.map StringColumn.payloadBytes).sum + sep.payloadBytes * (values.length - 1) ≤
        usizeMax
      then .ok ((values.map StringColumn.payloadBytes).sum + sep.payloadBytes * (values.length - 1))
      else .error (.addressSpace "concat_ws") := by
  simp only [reserveWs, separatorBytes, payloadBytes_eq, addSize]
  by_cases hsep : sep.payloadBytes * (values.length - 1) > usizeMax
  · simp only [hsep, if_true, bind, Except.bind]
    rw [if_neg (by omega)]
  · by_cases hvalues : (values.map StringColumn.payloadBytes).sum ≤ usizeMax
    · simp only [hsep, hvalues, if_true, if_false, bind, Except.bind]
      split <;> split <;> first | rfl | omega
    · simp only [hsep, hvalues, if_false, bind, Except.bind]
      rw [if_neg (by omega)]

/-- Over two arguments or none, `concat` has room when the payloads it reads sum to a
machine-sized count. -/
theorem addressable_concat_eq {cols : List Column} (hmany : cols.length ≠ 1)
    {ss : List StringColumn} (h : ss.map StringColumn.payloadBytes = cols.map Column.payload)
    (rows : Nat) :
    Builtin.concat.addressable cols rows =
      decide ((ss.map StringColumn.payloadBytes).sum ≤ usizeMax) := by
  rw [h]
  rcases cols with _ | ⟨c, _ | ⟨d, cs⟩⟩
  · rfl
  · simp at hmany
  · rfl

/-- `concat_ws` has room when the reserve over the strings it reads is a machine-sized count. -/
theorem addressable_concatWs_eq {sep : StringColumn} {values : List StringColumn} {c : Column}
    {cs : List Column}
    (h : (sep :: values).map StringColumn.payloadBytes = (c :: cs).map Column.payload)
    (rows : Nat) :
    Builtin.concatWs.addressable (c :: cs) rows =
      decide ((values.map StringColumn.payloadBytes).sum + sep.payloadBytes * (values.length - 1) ≤
        usizeMax) := by
  have hlen : values.length = cs.length := by simpa using congrArg List.length h
  simp only [List.map_cons, List.cons.injEq] at h
  rw [h.1, h.2, hlen]
  rfl

/-- `concat` over arguments of any kind: refused unless every argument is a string, and
otherwise NULL where any argument is NULL and the arguments' strings joined elsewhere, once their
payloads sum to a machine-sized count. -/
theorem concatResult_spec (cfg : Config) (hb : b.Shaped n)
    (hargs : List.Forall₂ (fun pos c => b.column pos = .ok c) args cols)
    (hmany : cols.length ≠ 1) :
    Builtin.concat.KernelSpec cfg cols n (concatResult cfg b args n) := by
  have hcols := hb.columns_of_forall₂ hargs
  have hwf : ∀ c ∈ cols, c.wellFormed := fun c hc => (hcols c hc).1
  have htakes := takes_concat .concat (.inl rfl) (cols.map Column.dataType)
  have hres : concatResult cfg b args n = (do
      let strings ← (Column.unpacked cols).mapM fun arg => arg.1.strings "concat"
      let nulls := (Column.unpacked cols).foldl (fun m arg => m.mergeOpt arg.2)
        (NullMap.allValid n)
      let _ ← payloadBytes "concat" strings
      let out ← (List.range n).mapM (concatRow nulls strings)
      Column.finishNullable cfg.debugChecks ⟨out⟩ nulls) := by
    simp only [concatResult, Block.unpackAll_eq hb cfg.debugChecks hargs (NullMap.length_allValid n)]
    simp only [bind, Except.bind, List.mapM_map]
    rfl
  obtain ⟨hnlen, hnull⟩ := Column.merged_unpacked hcols
  generalize (Column.unpacked cols).foldl (fun m arg => m.mergeOpt arg.2) (NullMap.allValid n) =
    nulls at hnlen hnull hres
  refine ⟨fun hbad => ?_, fun hok hover => ?_, fun _ _ _ hstop => ?_, fun hok _ hspace _ => ?_⟩
  · obtain ⟨c, hc, hbad'⟩ : ∃ c ∈ cols, c.dataType.isString = false := by
      simpa [htakes] using hbad
    obtain ⟨e, he, hkind⟩ := Column.strings_eq_error_of_mem hwf hc hbad' "concat"
    exact ⟨e, by rw [hres, he]; rfl, by rw [hkind]; decide⟩
  · rcases hover with ⟨r, -, hbad⟩ | hroom
    · simp [Builtin.fits] at hbad
    -- no row is refused, so the only overflow is the payloads' sum
    obtain ⟨ss, hss, -⟩ := Column.exists_strings hwf (by simpa [htakes] using hok) "concat"
    rw [addressable_concat_eq hmany (Column.payloads_of_strings hss), decide_eq_false_iff_not]
      at hroom
    exact ⟨.addressSpace "concat", by
      rw [hres, hss]; simp only [bind, Except.bind, payloadBytes_eq, if_neg hroom], rfl⟩
  · simp [Builtin.reserves] at hstop
  · have hall : ∀ c ∈ cols, c.dataType.isString := by simpa [htakes] using hok
    obtain ⟨ss, hss, hrel⟩ := Column.exists_strings hwf hall "concat"
    rw [addressable_concat_eq hmany (Column.payloads_of_strings hss), decide_eq_true_iff]
      at hspace
    have hrows : ∀ r < n, ∀ c ∈ cols, c.wellFormed ∧ r < c.length := fun r hr c hc =>
      ⟨(hcols c hc).1, (hcols c hc).2 ▸ hr⟩
    -- a row is empty under the merged map, and the arguments' strings joined elsewhere
    obtain ⟨out, hout, hlen, hrow⟩ : ∃ out,
        (List.range n).mapM (concatRow nulls ss) = .ok out ∧
        out.length = n ∧ ∀ r < n, out.getD r [] =
          if cols.any (fun c => c.isNullAt r) then [] else (ss.map (·.value r)).flatten := by
      refine ⟨(List.range n).map fun r =>
          if cols.any (fun c => c.isNullAt r) then [] else (ss.map (·.value r)).flatten,
        mapM_eq_ok_map fun r hr => ?_, by simp, fun r hr => by
          simp [List.getD_eq_getElem?_getD, hr]⟩
      have hr' := List.mem_range.mp hr
      rw [concatRow, hnull r hr']
      split
      · rfl
      · simp [mapM_read hrel (hrows r hr'), bind, Except.bind, pure, Except.pure]
    have hslen : (Column.string ⟨out⟩).length = n := hlen
    have hfin : Column.finishNullable cfg.debugChecks ⟨out⟩ nulls =
        .ok (.nullable (.string ⟨out⟩) nulls) :=
      Column.finishNullable_eq (hlen.trans hnlen.symm)
    refine ⟨.nullable (.string ⟨out⟩) nulls,
      by rw [hres, hss]; simp [payloadBytes_eq, hspace, hout, hfin, bind, Except.bind],
      Column.wellFormed_nullable.mpr ⟨rfl, rfl, hnlen.trans hslen.symm⟩,
      by rw [returnType_concat .concat (.inl rfl) (by simpa [List.all_map] using hall)]; rfl,
      hslen, fun r hr => ?_⟩
    have hsr : r < (⟨out⟩ : StringColumn).length := by
      simp only [StringColumn.length, hlen]
      exact hr
    rw [Column.get_nullable hsr, hnull r hr, Column.get_string hsr]
    simp only [Builtin.plainRow, mapM_bytes_cells hrel (hrows r hr), StringColumn.value, hrow r hr]
    split <;> rfl

/-- `concat_ws` over arguments of any kind: refused unless every argument is a string, and
otherwise NULL where the separator is NULL and elsewhere the strings of the other arguments
not NULL there, joined by the separator, once the reserve for the values and separators is a
machine-sized count. -/
theorem concatWsResult_spec (cfg : Config) (hb : b.Shaped n)
    (hargs : List.Forall₂ (fun pos c => b.column pos = .ok c) args cols) (hne : cols ≠ []) :
    Builtin.concatWs.KernelSpec cfg cols n (concatWsResult cfg b args n) := by
  have hcols := hb.columns_of_forall₂ hargs
  have hwf : ∀ c ∈ cols, c.wellFormed := fun c hc => (hcols c hc).1
  have htakes := takes_concat .concatWs (.inr rfl) (cols.map Column.dataType)
  have hres : concatWsResult cfg b args n = (do
      let strings ← (Column.unpacked cols).mapM fun arg => arg.1.strings "concat_ws"
      let sep ← readAt strings 0
      let maps := (Column.unpacked cols).map Prod.snd
      let nulls := (maps.headD none).getD (NullMap.allValid n)
      let _ ← reserveWs sep (strings.drop 1)
      let out ← (List.range n).mapM
        (concatWsRow nulls sep ((strings.drop 1).zip (maps.drop 1)))
      Column.finishNullable cfg.debugChecks ⟨out⟩ nulls) := by
    simp only [concatWsResult, Block.mapM_unpack hargs]
    rfl
  -- over string arguments, the separator is the first string and the reserve decides the room
  have hstrings : ∀ hall : ∀ c ∈ cols, c.dataType.isString, ∃ c₀ rest s₀ srest,
      cols = c₀ :: rest ∧
      (Column.unpacked cols).mapM (fun arg => arg.1.strings "concat_ws") = .ok (s₀ :: srest) ∧
      List.Forall₂ (fun c s => Column.Splits c (.string s) c.toFull.unwrapNullable.2)
        (c₀ :: rest) (s₀ :: srest) ∧
      Builtin.concatWs.addressable cols n = decide ((srest.map StringColumn.payloadBytes).sum +
        s₀.payloadBytes * (srest.length - 1) ≤ usizeMax) := fun hall => by
    obtain ⟨ss, hss, hrel⟩ := Column.exists_strings hwf hall "concat_ws"
    obtain ⟨c₀, rest, rfl⟩ := List.exists_cons_of_ne_nil hne
    obtain ⟨s₀, srest, rfl⟩ : ∃ s₀ srest, ss = s₀ :: srest := by
      cases hrel with
      | cons _ _ => exact ⟨_, _, rfl⟩
    exact ⟨c₀, rest, s₀, srest, rfl, hss, hrel,
      addressable_concatWs_eq (Column.payloads_of_strings hss) n⟩
  refine ⟨fun hbad => ?_, fun hok hover => ?_, fun _ _ _ hstop => ?_, fun hok _ hspace _ => ?_⟩
  · obtain ⟨c, hc, hbad'⟩ : ∃ c ∈ cols, c.dataType.isString = false := by
      simpa [htakes] using hbad
    obtain ⟨e, he, hkind⟩ := Column.strings_eq_error_of_mem hwf hc hbad' "concat_ws"
    exact ⟨e, by rw [hres, he]; rfl, by rw [hkind]; decide⟩
  · rcases hover with ⟨r, -, hbad⟩ | hroom
    · simp [Builtin.fits] at hbad
    obtain ⟨c₀, rest, s₀, srest, rfl, hss, -, hroom'⟩ :=
      hstrings (by simpa [htakes] using hok)
    rw [hroom', decide_eq_false_iff_not] at hroom
    have hreserve : reserveWs s₀ ((s₀ :: srest).drop 1) = .error (.addressSpace "concat_ws") := by
      rw [List.drop_one, List.tail_cons, reserveWs_eq, if_neg hroom]
    exact ⟨.addressSpace "concat_ws", by simp only [hres, hss, bind, Except.bind, readAt,
      List.getElem?_cons_zero, hreserve], rfl⟩
  · simp [Builtin.reserves] at hstop
  · have hall : ∀ c ∈ cols, c.dataType.isString := by simpa [htakes] using hok
    obtain ⟨c₀, rest, s₀, srest, rfl, hss, hrel, hroom⟩ := hstrings hall
    rw [hroom, decide_eq_true_iff] at hspace
    obtain ⟨k, hreserve⟩ : ∃ k, reserveWs s₀ ((s₀ :: srest).drop 1) = .ok k :=
      ⟨_, by rw [List.drop_one, List.tail_cons, reserveWs_eq, if_pos hspace]⟩
    obtain ⟨h₀, hrest⟩ := List.forall₂_cons.mp hrel
    have hwf₀ := hwf c₀ List.mem_cons_self
    have hrows : ∀ r < n, ∀ c ∈ rest, c.wellFormed ∧ r < c.length := fun r hr c hc =>
      ⟨hwf c (List.mem_cons_of_mem c₀ hc), (hcols c (List.mem_cons_of_mem c₀ hc)).2 ▸ hr⟩
    have hlen₀ : c₀.length = n := (hcols c₀ List.mem_cons_self).2
    have hs₀ : s₀.length = n := by
      have hlen := h₀.length_eq
      simp only [Column.length] at hlen
      exact hlen.trans hlen₀
    generalize hnulls : (c₀.toFull.unwrapNullable.2).getD (NullMap.allValid n) = nulls
    have hnull : ∀ r < n, nulls.isNull r = c₀.isNullAt r := fun r hr => by
      rw [← hnulls, NullMap.isNull_getD_allValid hr, h₀.flagged_eq hwf₀ (hlen₀ ▸ hr)]
    have hnlen : nulls.length = n := by
      rw [← hnulls]
      cases hm : c₀.toFull.unwrapNullable.2 with
      | none => rfl
      | some m => exact (h₀.length_nulls m hm).trans hlen₀
    have hvalues :
        ((s₀ :: srest).drop 1).zip (((Column.unpacked (c₀ :: rest)).map Prod.snd).drop 1) =
        srest.zip (rest.map fun c => c.toFull.unwrapNullable.2) := by
      simp [Column.unpacked, Function.comp_def]
    have hhead : (((Column.unpacked (c₀ :: rest)).map Prod.snd).headD none).getD
        (NullMap.allValid n) = nulls := by
      simp [Column.unpacked, hnulls]
    obtain ⟨out, hout, hlen, hrow⟩ : ∃ out, (List.range n).mapM (concatWsRow nulls s₀
          (srest.zip (rest.map fun c => c.toFull.unwrapNullable.2))) = .ok out ∧
        out.length = n ∧ ∀ r < n, out.getD r [] = if c₀.isNullAt r then [] else
          (s₀.value r).intercalate ((Column.cells rest r).filterMap Value.bytes?) := by
      refine ⟨(List.range n).map fun r => if c₀.isNullAt r then [] else
          (s₀.value r).intercalate ((Column.cells rest r).filterMap Value.bytes?),
        mapM_eq_ok_map fun r hr => ?_, by simp, fun r hr => by
          simp [List.getD_eq_getElem?_getD, hr]⟩
      have hr' := List.mem_range.mp hr
      rw [concatWsRow, hnull r hr']
      split
      · rfl
      · simp [StringColumn.read_eq_ok (hs₀ ▸ hr'), parts_eq hrest (hrows r hr'), bind,
          Except.bind, pure, Except.pure]
    have hsr : ∀ r < n, r < (⟨out⟩ : StringColumn).length := fun r hr => by
      simp only [StringColumn.length, hlen]
      exact hr
    have hfin : Column.finishNullable cfg.debugChecks ⟨out⟩ nulls =
        .ok (.nullable (.string ⟨out⟩) nulls) :=
      Column.finishNullable_eq (hlen.trans hnlen.symm)
    refine ⟨.nullable (.string ⟨out⟩) nulls,
      by simp only [hres, hss, bind, Except.bind, readAt, List.getElem?_cons_zero, hhead, hvalues,
        hreserve, hout, hfin],
      Column.wellFormed_nullable.mpr ⟨rfl, rfl, hnlen.trans hlen.symm⟩,
      by rw [returnType_concat .concatWs (.inr rfl) (by simpa [List.all_map] using hall)]; rfl,
      hlen, fun r hr => ?_⟩
    rw [Column.get_nullable (hsr r hr), hnull r hr, Column.get_string (hsr r hr)]
    simp only [Column.cells, List.map_cons, h₀.cell_of_string hwf₀ (hlen₀ ▸ hr)]
    have hrow' := hrow r hr
    cases hnr : c₀.isNullAt r
    · simp only [hnr, Bool.false_eq_true, if_false] at hrow' ⊢
      simp only [StringColumn.value, hrow']
      rfl
    · rfl

end Join

namespace Measure

/-- `null_or_empty` over an argument of any kind: refused unless it is a string, and otherwise
1 where the row is NULL, read from the null map alone, or empty. -/
theorem nullOrEmptyResult_spec (cfg : Config) {b : Block} {n s : Nat} {cs : Column}
    (hs : b.Holds n s cs) :
    Builtin.nullOrEmpty.KernelSpec cfg [cs] n (nullOrEmptyResult b [s] n) := by
  have hsplit := Column.splits_unpack hs.wellFormed
  have hres : nullOrEmptyResult b [s] n = (do
      let strings ← cs.toFull.unwrapNullable.1.strings "null_or_empty"
      let out ← (List.range n).mapM (nullOrEmptyRow cs.toFull.unwrapNullable.2 strings)
      pure (.uint8 out)) := by
    simp [nullOrEmptyResult, readAt, hs.unpack_eq, bind, Except.bind]
  have htakes : Builtin.nullOrEmpty.takes [cs.dataType] = cs.dataType.isString := by
    simp [Builtin.takes]
  refine ⟨fun hbad => ?_, fun _ hrow => ?_, fun _ _ _ hstop => ?_, fun hok _ _ _ => ?_⟩
  · simp only [List.map_cons, List.map_nil, htakes] at hbad
    exact ⟨.unsupportedArgument "null_or_empty" cs.toFull.unwrapNullable.1.dataType,
      by simp only [hres, hsplit.strings_of_not_isString hbad, bind, Except.bind],
      by simp [Error.kind]⟩
  · rcases hrow with ⟨r, -, hbad⟩ | hroom
    · simp [Builtin.fits] at hbad
    · cases hroom
  · cases hstop
  · simp only [List.map_cons, List.map_nil, htakes] at hok
    obtain ⟨str, hu, hslen⟩ := hsplit.eq_string hok
    rw [hu] at hsplit hres
    have hlen : str.length = n := hslen.trans hs.length_eq
    have hout : (List.range n).mapM (nullOrEmptyRow cs.toFull.unwrapNullable.2 str) =
        .ok ((List.range n).map fun r =>
          if cs.isNullAt r || (str.value r).isEmpty then (1 : UInt8) else 0) := by
      refine mapM_eq_ok_map fun r hr => ?_
      have hr' := List.mem_range.mp hr
      rw [nullOrEmptyRow, hsplit.flagged_eq hs.wellFormed (hs.length_eq ▸ hr')]
      cases cs.isNullAt r
      · simp [StringColumn.read_eq_ok (hlen ▸ hr'), bind, Except.bind, pure, Except.pure]
      · rfl
    refine ⟨.uint8 ((List.range n).map fun r =>
        if cs.isNullAt r || (str.value r).isEmpty then (1 : UInt8) else 0),
      by simp [hres, Column.strings, hout, bind, Except.bind, pure, Except.pure], rfl, rfl,
      by simp [Column.length], fun r hr => ?_⟩
    have hcell := hsplit.cell_of_string hs.wellFormed (hs.length_eq ▸ hr)
    simp only [Column.get, Column.length, List.length_map, List.length_range, hr, if_true,
      Column.cells, List.map_cons, List.map_nil, hcell, List.getD_eq_getElem?_getD,
      List.getElem?_map, List.getElem?_range hr, Option.map_some, Option.getD_some]
    cases cs.isNullAt r
    · simp [Builtin.plainRow, List.isEmpty_iff]
    · rfl

end Measure

theorem run_runConcat_single (cfg : Config) {b : Block} {p result n : Nat} {c : Column}
    (hc : b.column p = .ok c) :
    (runConcat cfg [p] result n).run b =
      if c.dataType.isString then
        (BlockM.setColumn result (if c.isNullable then c else c.makeNullable)).run b
      else .error (.unsupportedArgument "concat" c.dataType) b := by
  cases hs : c.dataType.isString
  · simp only [runConcat, BlockM.column, EStateM.run_bind, EStateM.run_get, BlockM.run_lift, hc,
      hs, Bool.not_false, if_true, Bool.false_eq_true, if_false]
    rfl
  · simp only [runConcat, BlockM.column, EStateM.run_bind, EStateM.run_get, BlockM.run_lift, hc,
      hs, Bool.not_true, Bool.false_eq_true, if_false, if_true]

namespace Builtin

/-- `concat` of one argument passes a string through, made nullable, and refuses any other
type. -/
theorem answers_concat_single (cfg : Config) {b : Block} {n result p : Nat} {c : Column}
    (hb : b.Shaped n) (hc : b.column p = .ok c) (hresult : result < b.size) :
    concat.Answers cfg [c] n result (concat.addressable [c] n) (concat.reserves cfg [c] n)
      (runConcat cfg [p] result n) b := by
  have hp := hb.holds hc
  have htakes : concat.takes [c.dataType] = c.dataType.isString := by
    simp [Join.takes_concat .concat (.inl rfl)]
  refine ⟨fun hbad => ?_, fun _ hrow => ?_, fun _ _ _ hstop => ?_, fun hok _ _ _ => ?_⟩
  · simp only [List.map_cons, List.map_nil, htakes] at hbad
    refine ⟨_, b, by rw [run_runConcat_single cfg hc, if_neg (by simp [hbad])],
      by simp [Error.kind]⟩
  · -- a column passed through is neither refused at a row nor sized
    rcases hrow with ⟨r, -, hbad⟩ | hroom
    · rw [show concat.admits cfg (Column.cells [c] r) = true from rfl] at hbad
      cases hbad
    · cases hroom
  · cases hstop
  · simp only [List.map_cons, List.map_nil, htakes] at hok
    have hwf : (if c.isNullable then c else c.makeNullable).wellFormed := by
      split
      · exact hp.wellFormed
      · exact Column.wellFormed_makeNullable hp.wellFormed
    have hlen : (if c.isNullable then c else c.makeNullable).length = n := by
      split <;> simp [hp.length_eq]
    obtain ⟨b', hset, -⟩ := hb.setColumn hresult hwf hlen
    refine ⟨b', by
        rw [run_runConcat_single cfg hc, if_pos hok]
        exact BlockM.run_setColumn_eq_ok.mpr hset,
      _, Block.column_setColumn_self hset, hwf, hlen,
      ⟨.nullable .string, Join.returnType_concat .concat (.inl rfl) (by simp [hok]),
        by simp [stripsNulls, Column.dataType_passThrough hp.wellFormed hok]⟩, fun r hr => ?_⟩
    -- the row is read through, and a string row joined alone is itself
    have hrc : r < c.length := hp.length_eq ▸ hr
    have hsplit := Column.splits_unpack hp.wellFormed
    obtain ⟨s, hu, -⟩ := hsplit.eq_string hok
    rw [hu] at hsplit
    have hget : (if c.isNullable then c else c.makeNullable).get r = c.get r := by
      split
      · rfl
      · exact Column.get_makeNullable c r
    obtain ⟨v, hv⟩ := hp.get_isOk hr
    rw [hget, hv, Column.cells, List.map_singleton, ← Column.cell_eq hv,
      hsplit.cell_of_string hp.wellFormed hrc]
    cases c.isNullAt r <;> simp [rowValue, stripsNulls, plainRow, Value.bytes?]

variable {b : Block} {n result : Nat} {args : List Nat} {cols : List Column}

/-- A function that reads null maps itself answers by its row semantics over every shaped
block. -/
theorem answers_run_of_keeps {f : Builtin} (hf : f.stripsNulls = false) (cfg : Config)
    (hb : b.Shaped n) (hargs : List.Forall₂ (fun pos c => b.column pos = .ok c) args cols)
    (harity : f.arity.accepts args.length) (hresult : result < b.size) :
    f.Answers cfg cols n result (f.addressable cols n) (f.reserves cfg cols n)
      (f.run cfg args result n) b := by
  cases f
  case substring | substringFrom | left | right =>
    exact answers_slices (by simp) cfg hb hargs harity hresult
  case nullOrEmpty =>
    obtain ⟨p, c, rfl, rfl, hc⟩ :=
      Block.Forall₂.single hargs (by simpa [arity, Arity.accepts] using harity)
    exact answers_write_of_keeps rfl hb hresult (Measure.nullOrEmptyResult_spec cfg (hb.holds hc))
  case concat =>
    -- one argument is passed through; more are joined row by row
    rcases args with _ | ⟨p, _ | ⟨q, rest⟩⟩
    · simp [arity, Arity.accepts] at harity
    · obtain ⟨c, rfl⟩ := List.length_eq_one_iff.mp hargs.length_eq.symm
      exact answers_concat_single cfg hb (List.forall₂_cons.mp hargs).1 hresult
    · exact answers_write_of_keeps rfl hb hresult
        (Join.concatResult_spec cfg hb hargs (by simp [← hargs.length_eq]))
  case concatWs =>
    have hne : cols ≠ [] := by
      rintro rfl
      simp [List.forall₂_nil_right_iff.mp hargs, arity, Arity.accepts] at harity
    exact answers_write_of_keeps rfl hb hresult (Join.concatWsResult_spec cfg hb hargs hne)
  all_goals cases hf

/-- Every function answers by its row semantics through the dispatcher's NULL policy, over
every shaped block. -/
theorem answers_executeWithNulls (f : Builtin) (cfg : Config) (hb : b.Shaped n)
    (hargs : List.Forall₂ (fun pos c => b.column pos = .ok c) args cols)
    (harity : f.arity.accepts args.length) (hresult : result < b.size) :
    f.Answers cfg cols n result (f.addressable cols n) (f.reserves cfg cols n)
      (f.executeWithNulls cfg args result n) b := by
  cases hf : f.stripsNulls
  · rw [executeWithNulls_of_stripsNulls_false hf]
    exact answers_run_of_keeps hf cfg hb hargs harity hresult
  · exact answers_executeWithNulls_of_stripsNulls hf cfg hb hargs harity hresult

end Builtin

end TextBatch

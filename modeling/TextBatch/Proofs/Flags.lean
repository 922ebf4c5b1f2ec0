import TextBatch.Proofs.Cells

/-! # Null maps refine lists of flags

A null map stores its flags in words of 64, and `flags` reads it as a list of booleans, one per
row. A map is `Clean` when it holds just the words its rows need and no flag past its last row
is set; then it is its flags followed by clear spare flags (`Clean.stored_eq`), and every
operation acts on the flags as the matching list operation does: `push` appends, `set` replaces
one flag, `merge` ORs two lists of one length, `countNull` counts and `hasNulls` looks for a set
flag. `hasNulls` reads whole words, so it is the query that a stray flag past the end would
change.

Every map the library builds is clean (`Built.clean`): the constructors build clean maps, and
`push`, `set` and `merge` with a clean map of the same length keep them clean. The main
statement is `NullMap.built_refines_flags`.
-/

namespace TextBatch

namespace NullMap

/-- A map in its word layout: exactly the words its rows need, and no flag set past its last
row. -/
structure Clean (m : NullMap) : Prop where
  /-- The stored flags fill the words that hold the rows, and no more. -/
  words : m.stored.length = 64 * wordsFor m.length
  /-- Every flag past the last row is clear. -/
  tail : ∀ x ∈ m.stored.drop m.length, x = false

instance (m : NullMap) : Decidable m.Clean :=
  decidable_of_iff (m.stored.length = 64 * wordsFor m.length ∧ ∀ x ∈ m.stored.drop m.length, x = false)
    ⟨fun h => ⟨h.1, h.2⟩, fun h => ⟨h.words, h.tail⟩⟩

/-- The clear flags that fill the last word after `n` rows. -/
def spare (n : Nat) : List Bool := List.replicate (64 * wordsFor n - n) false

theorem le_words (n : Nat) : n ≤ 64 * wordsFor n := by
  unfold wordsFor
  omega

theorem length_spare (n : Nat) : (spare n).length = 64 * wordsFor n - n := by
  simp [spare]

/-- The flags of a map that stores one for every row are its first stored flags. -/
theorem flags_eq_take {m : NullMap} (hm : m.Covers) : m.flags = m.stored.take m.length := by
  apply List.ext_getElem
  · simp [Nat.min_eq_left hm]
  · intro i h₁ _
    have hi : i < m.length := by simpa using h₁
    have hlt : ¬ m.length ≤ i := by omega
    simp [flags, isNull, hlt, List.getD_eq_getElem?_getD, Nat.lt_of_lt_of_le hi hm]

theorem Clean.covers {m : NullMap} (hm : m.Clean) : m.Covers := by
  unfold Covers
  rw [hm.words]
  exact le_words _

/-- A map that stores its flags `fs` followed by the spare flags of its last word is clean, and
`fs` are its flags. Every operation below is proved by bringing the map it builds to this
form. -/
theorem clean_of_stored {m : NullMap} {fs : List Bool} (h : m.stored = fs ++ spare m.length)
    (hfs : fs.length = m.length) : m.Clean ∧ m.flags = fs := by
  have hclean : m.Clean := by
    constructor
    · rw [h, List.length_append, length_spare, hfs]
      have := le_words m.length
      omega
    · rw [h, List.drop_left' hfs]
      intro x hx
      exact (List.mem_replicate.mp hx).2
  refine ⟨hclean, ?_⟩
  rw [flags_eq_take hclean.covers, h, List.take_left' hfs]

/-- A clean map stores its flags and then the spare flags of its last word. -/
theorem Clean.stored_eq {m : NullMap} (hm : m.Clean) : m.stored = m.flags ++ spare m.length := by
  rw [flags_eq_take hm.covers]
  conv_lhs => rw [← List.take_append_drop m.length m.stored]
  congr 1
  refine List.eq_replicate_iff.mpr ⟨?_, hm.tail⟩
  rw [List.length_drop, hm.words]

/-! ## Queries -/

/-- A row is NULL when its flag is set; a row past the end counts as NULL. -/
theorem isNull_eq_getD (m : NullMap) (i : Nat) : m.isNull i = m.flags.getD i true := by
  by_cases h : m.length ≤ i
  · simp [isNull_of_length_le h, flags, List.getD_eq_getElem?_getD, Nat.not_lt.mpr h]
  · have hi : i < m.length := by omega
    simp [flags, List.getD_eq_getElem?_getD, hi]

theorem countNull_eq_count {m : NullMap} (hm : m.Covers) : m.countNull = m.flags.count true := by
  rw [countNull, flags_eq_take hm]

theorem hasNulls_iff {m : NullMap} (hm : m.Clean) : m.hasNulls = true ↔ true ∈ m.flags := by
  rw [hasNulls, hm.stored_eq]
  simp [spare]

/-! ## Operations -/

theorem clean_empty : empty.Clean ∧ empty.flags = [] :=
  clean_of_stored (by simp [empty, spare, wordsFor]) rfl

theorem clean_allValid (n : Nat) : (allValid n).Clean ∧ (allValid n).flags = List.replicate n false := by
  refine clean_of_stored ?_ (by simp)
  rw [allValid, spare, ← List.replicate_add, Nat.add_sub_cancel' (le_words n)]

theorem clean_allNull (n : Nat) : (allNull n).Clean ∧ (allNull n).flags = List.replicate n true :=
  clean_of_stored rfl (by simp)

/-- Pushing a flag fills the next spare flag, or starts a new word when the last one is full. -/
theorem Clean.stored_push {m : NullMap} (hm : m.Clean) (x : Bool) :
    (m.push x).stored = (m.flags ++ [x]) ++ spare (m.length + 1) := by
  have hfl : m.flags.length = m.length := length_flags m
  -- before the flag is written, the stored flags are the old ones, a clear one, and the spares
  have hext : (if m.stored.length ≤ m.length then m.stored ++ List.replicate 64 false
      else m.stored) = m.flags ++ false :: spare (m.length + 1) := by
    have hwords := hm.words
    have hle := le_words m.length
    split
    · next hfull =>
        have hzero : 64 * wordsFor m.length - m.length = 0 := by omega
        have hnext : 64 * wordsFor (m.length + 1) - (m.length + 1) = 63 := by
          unfold wordsFor at hwords hzero ⊢
          omega
        rw [hm.stored_eq, spare, spare, hzero, hnext, List.replicate_zero, List.append_nil]
        rfl
    · next hpart =>
        have hlt : m.length < 64 * wordsFor m.length := by omega
        have hnext : 64 * wordsFor m.length - m.length =
            (64 * wordsFor (m.length + 1) - (m.length + 1)) + 1 := by
          unfold wordsFor at hlt ⊢
          omega
        rw [hm.stored_eq, spare, spare, hnext, List.replicate_succ]
  have hset : (m.flags ++ false :: spare (m.length + 1)).set m.length x =
      m.flags ++ x :: spare (m.length + 1) := by
    rw [List.set_append_right _ _ (by omega), hfl, Nat.sub_self, List.set_cons_zero]
  simp only [push]
  rw [hext]
  cases x with
  | true => simp [hset]
  | false => simp

theorem Clean.push {m : NullMap} (hm : m.Clean) (x : Bool) :
    (m.push x).Clean ∧ (m.push x).flags = m.flags ++ [x] :=
  clean_of_stored (by rw [hm.stored_push x, length_push]) (by simp)

theorem Clean.set {m : NullMap} (hm : m.Clean) (i : Nat) (x : Bool) :
    (m.set i x).Clean ∧ (m.set i x).flags = m.flags.set i x := by
  have hfl : m.flags.length = m.length := length_flags m
  refine clean_of_stored ?_ (by simp)
  rw [length_set]
  unfold NullMap.set
  split
  · next hi =>
      rw [hm.stored_eq, List.set_append_left _ _ (by omega)]
  · next hi =>
      rw [List.set_eq_of_length_le (by omega), hm.stored_eq]

theorem orFlags_append {as bs cs ds : List Bool} (h : as.length = bs.length) :
    orFlags (as ++ cs) (bs ++ ds) = List.zipWith (· || ·) as bs ++ orFlags cs ds := by
  induction as generalizing bs with
  | nil =>
      rw [List.length_nil, eq_comm, List.length_eq_zero_iff] at h
      subst h
      rfl
  | cons a as ih =>
      cases bs with
      | nil => simp at h
      | cons b bs => simp [orFlags, ih (by simpa using h)]

theorem orFlags_spare (n : Nat) : orFlags (spare n) (spare n) = spare n := by
  unfold spare
  induction 64 * wordsFor n - n with
  | zero => rfl
  | succ k ih => simp [List.replicate_succ, orFlags, ih]

theorem Clean.merge {m o : NullMap} (hm : m.Clean) (ho : o.Clean) (hlen : o.length = m.length) :
    (m.merge o).Clean ∧ (m.merge o).flags = List.zipWith (· || ·) m.flags o.flags := by
  refine clean_of_stored ?_ (by simp [hlen])
  rw [length_merge, NullMap.merge, hm.stored_eq, ho.stored_eq, hlen,
    orFlags_append (by simp [hlen]), orFlags_spare]

theorem Clean.foldl_push {m : NullMap} (hm : m.Clean) (fs : List Bool) :
    (fs.foldl NullMap.push m).Clean ∧ (fs.foldl NullMap.push m).flags = m.flags ++ fs := by
  induction fs generalizing m with
  | nil => simpa using hm
  | cons f fs ih =>
      obtain ⟨hclean, hflags⟩ := hm.push f
      obtain ⟨hclean', hflags'⟩ := ih hclean
      refine ⟨hclean', ?_⟩
      rw [List.foldl_cons, hflags', hflags, List.append_assoc, List.singleton_append]

theorem clean_ofFlags (fs : List Bool) : (ofFlags fs).Clean ∧ (ofFlags fs).flags = fs := by
  have h := clean_empty.1.foldl_push fs
  rwa [clean_empty.2, List.nil_append] at h

/-! ## Built maps -/

/-- The maps a program builds: a constructor (`empty` stands for both the empty map and one
made with room for some rows, which differ only in memory held), then pushes, sets and merges
with a map it built of the same length. Setting a flag to NULL is `set` with `true`. -/
inductive Built : NullMap → Prop where
  | empty : Built empty
  | allValid (n : Nat) : Built (allValid n)
  | allNull (n : Nat) : Built (allNull n)
  | ofFlags (fs : List Bool) : Built (ofFlags fs)
  | push {m : NullMap} (x : Bool) : Built m → Built (m.push x)
  | set {m : NullMap} (i : Nat) (x : Bool) : Built m → Built (m.set i x)
  | merge {m o : NullMap} : Built m → Built o → o.length = m.length → Built (m.merge o)

/-- Every map a program builds is clean. -/
theorem Built.clean {m : NullMap} (h : Built m) : m.Clean := by
  induction h with
  | empty => exact clean_empty.1
  | allValid n => exact (clean_allValid n).1
  | allNull n => exact (clean_allNull n).1
  | ofFlags fs => exact (clean_ofFlags fs).1
  | push x _ ih => exact (ih.push x).1
  | set i x _ ih => exact (ih.set i x).1
  | merge _ _ hlen ihm iho => exact (ihm.merge iho hlen).1

/-- A null map is its list of flags. Every map a program builds is clean; the constructors
build the empty list, all clear, all set and the given flags; and on a clean map `push`
appends, `set` replaces a flag (and does nothing past the end), `merge` with a clean map of the
same length ORs the two lists, `isNull` reads a flag (NULL past the end), `countNull` counts
the set flags and `hasNulls` says whether one is set. -/
theorem built_refines_flags :
    (∀ m, Built m → m.Clean) ∧
    empty.flags = [] ∧ (∀ n, (allValid n).flags = List.replicate n false) ∧
    (∀ n, (allNull n).flags = List.replicate n true) ∧ (∀ fs, (ofFlags fs).flags = fs) ∧
    ∀ m : NullMap, m.Clean →
      (∀ x, (m.push x).flags = m.flags ++ [x]) ∧
      (∀ i x, (m.set i x).flags = m.flags.set i x) ∧
      (∀ o : NullMap, o.Clean → o.length = m.length →
        (m.merge o).flags = List.zipWith (· || ·) m.flags o.flags) ∧
      (∀ i, m.isNull i = m.flags.getD i true) ∧
      m.countNull = m.flags.count true ∧
      (m.hasNulls = true ↔ true ∈ m.flags) :=
  ⟨fun _ h => h.clean, clean_empty.2, fun n => (clean_allValid n).2, fun n => (clean_allNull n).2,
    fun fs => (clean_ofFlags fs).2, fun _ hm =>
      ⟨fun x => (hm.push x).2, fun i x => (hm.set i x).2, fun _ ho hlen => (hm.merge ho hlen).2,
        isNull_eq_getD _, countNull_eq_count hm.covers, hasNulls_iff hm⟩⟩

/-- Across a word boundary: a map of sixty-five rows takes two words, and merging the map
that flags its first row with the one that flags its last flags both. -/
theorem built_refines_flags_across_words :
    ((allValid 65).set 0 true).Clean ∧ ((allValid 65).set 64 true).Clean ∧
      (((allValid 65).set 0 true).merge ((allValid 65).set 64 true)).flags =
        true :: List.replicate 63 false ++ [true] := by
  have hv : (allValid 65).Clean := built_refines_flags.1 _ (.allValid 65)
  have hm : ((allValid 65).set 0 true).Clean := built_refines_flags.1 _ (.set 0 true (.allValid 65))
  have ho : ((allValid 65).set 64 true).Clean :=
    built_refines_flags.1 _ (.set 64 true (.allValid 65))
  have hops := built_refines_flags.2.2.2.2.2
  refine ⟨hm, ho, ?_⟩
  rw [(hops _ hm).2.2.1 _ ho (by simp), (hops _ hv).2.1 0 true, (hops _ hv).2.1 64 true,
    built_refines_flags.2.2.1 65]
  decide

end NullMap

end TextBatch

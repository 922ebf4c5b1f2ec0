import TextBatch.Registry

/-! # Registry lookups and what shadows them

A registry keeps, under each lowercase name, a list of overloads with pairwise distinct
arities: registering a function drops the overload of its arity and appends it, and an alias
registers the target's overloads one by one under the alias. So every name a program's
registry stores has overloads, no two of one arity (`Reachable.sound`); a name is known exactly
when looking it up never answers that no such function exists; and registering a function a
second time changes nothing.

A lookup answers the first stored overload that takes the argument count. Arities of different
kinds can overlap (at least 1 argument and exactly 2), so an overload stored earlier under a
name can shadow one registered or aliased later. Registering `fs` under a name keeps, ahead of
them, the overloads it held of arities none of `fs` has (`keptUnder`), and the first of those
that takes a count (`shadowing`) is what a lookup of that count answers. Right after
`register f`, a lookup of `f`'s name answers the shadowing overload, or `f` when there is none;
right after an alias, the alias answers the shadowing overload it held before, or else as its
target does. Nothing here depends on what the overloads are beyond their names and arities, so
it holds of a table of any kind of function. The main statement is
`OverloadTable.lookups_match_registrations`; `Registry.registered_overload_shadowed` shows both
shadowings on the standard registry.
-/

namespace TextBatch

namespace OverloadTable

variable {F : Type}

/-! ## Stored overloads -/

theorem overloads?_upsert (key k : String) (fs : List F) (es : List (String × List F)) :
    (⟨upsert key fs es⟩ : OverloadTable F).overloads? k =
      if k = key then some fs else (⟨es⟩ : OverloadTable F).overloads? k := by
  induction es with
  | nil =>
      by_cases h : k = key
      · simp [upsert, overloads?, h]
      · simp [upsert, overloads?, h, Ne.symm h]
  | cons e rest ih =>
      simp only [overloads?] at ih ⊢
      by_cases he : e.1 = key
      · rw [upsert, if_pos (by simpa using he)]
        by_cases h : k = key
        · simp [h]
        · have hek : e.1 ≠ k := fun hek => h (hek.symm.trans he)
          simp [h, hek, Ne.symm h]
      · rw [upsert, if_neg (by simpa using he)]
        by_cases hk : e.1 = k
        · have h : k ≠ key := fun h => he (hk.trans h)
          simp [hk, h]
        · simp [hk, ih]

theorem upsert_upsert (key : String) (fs : List F) (es : List (String × List F)) :
    upsert key fs (upsert key fs es) = upsert key fs es := by
  induction es with
  | nil => simp [upsert]
  | cons e rest ih =>
      by_cases he : e.1 = key
      · simp [upsert, he]
      · simp [upsert, he, ih]

variable [Overload F]

/-- The overloads stored under `key` of an arity none of `fs` has: those that registering `fs`
under `key` keeps, ahead of `fs`. -/
def keptUnder (r : OverloadTable F) (key : String) (fs : List F) : List F :=
  ((r.overloads? key).getD []).filter fun g => Overload.arity g ∉ fs.map Overload.arity

/-- The first overload kept under `key` when `fs` is registered there that takes `k`
arguments: a lookup of `key` for `k` answers it ahead of any of `fs`. -/
def shadowing (r : OverloadTable F) (key : String) (fs : List F) (k : Nat) : Option F :=
  (r.keptUnder key fs).find? fun g => (Overload.arity g).accepts k

/-- Registering under `key` stores the old overloads of other arities, then `f`; other names
keep theirs. -/
theorem overloads?_registerAs (r : OverloadTable F) (key k : String) (f : F) :
    (r.registerAs key f).overloads? k =
      if k = key then some (r.keptUnder key [f] ++ [f]) else r.overloads? k := by
  -- `!=` on arities is the negation of their equality
  have hbne : ∀ a b : Arity, (a != b) = !decide (a = b) := fun _ _ => rfl
  cases r with
  | mk es =>
      rw [registerAs, overloads?_upsert]
      simp [keptUnder, hbne]

/-- Registering overloads of distinct arities one after another under `key` keeps the old
overloads whose arity none of them has, then stores them in order. -/
theorem overloads?_foldl_registerAs (key k : String) :
    ∀ (gs : List F) (r : OverloadTable F), gs ≠ [] → (gs.map Overload.arity).Nodup →
      (gs.foldl (fun acc g => acc.registerAs key g) r).overloads? k =
        if k = key then some (r.keptUnder key gs ++ gs) else r.overloads? k := by
  intro gs
  induction gs with
  | nil => intro r hne; exact absurd rfl hne
  | cons g gs ih =>
      intro r _ hnd
      rw [List.map_cons] at hnd
      obtain ⟨hg, hnd'⟩ := List.nodup_cons.mp hnd
      rw [List.foldl_cons]
      cases gs with
      | nil => rw [List.foldl_nil, overloads?_registerAs]
      | cons g' gs' =>
          rw [ih _ (List.cons_ne_nil _ _) hnd', overloads?_registerAs]
          by_cases hk : k = key
          · -- the overload of `g`'s arity is dropped once, and `g` survives the later ones
            have hg' : Overload.arity g ≠ Overload.arity g' := fun h => hg (by simp [h])
            have hgs' : ∀ x ∈ gs', ¬Overload.arity x = Overload.arity g := fun x hx h =>
              hg (List.mem_map.mpr ⟨x, List.mem_cons_of_mem _ hx, h⟩)
            simp [hk, keptUnder, overloads?_registerAs, List.filter_append, List.filter_filter,
              hg', eq_true hgs', Bool.and_comm]
          · simp [hk]

/-- What every registration keeps, an alias keeps: it registers the target's overloads one by
one. -/
theorem addAlias_preserves {P : OverloadTable F → Prop}
    (hstep : ∀ t key f, P t → P (t.registerAs key f)) {r : OverloadTable F} (hr : P r)
    (name target : String) : P (r.addAlias name target) := by
  unfold OverloadTable.addAlias
  induction ((r.overloads? (Case.lower target)).getD []) generalizing r with
  | nil => exact hr
  | cons g gs ih => exact ih (hstep r _ g hr)

/-- What every registration keeps, registering functions one after another keeps. -/
theorem foldl_register_preserves {P : OverloadTable F → Prop}
    (hstep : ∀ t f, P t → P (t.register f)) {r : OverloadTable F} (hr : P r) (fs : List F) :
    P (fs.foldl register r) := by
  induction fs generalizing r with
  | nil => exact hr
  | cons f fs ih => exact ih (hstep r f hr)

/-- Every name a registry stores has at least one overload, and no two of them share an
arity. -/
def Sound (r : OverloadTable F) : Prop :=
  ∀ key fs, r.overloads? key = some fs → fs ≠ [] ∧ (fs.map Overload.arity).Nodup

theorem sound_empty : (empty : OverloadTable F).Sound := by
  intro key fs h
  simp [empty, overloads?] at h

theorem Sound.registerAs {r : OverloadTable F} (hr : r.Sound) (key : String) (f : F) :
    (r.registerAs key f).Sound := by
  intro k fs h
  rw [overloads?_registerAs] at h
  by_cases hk : k = key
  · simp only [hk, if_true, Option.some.injEq] at h
    subst h
    refine ⟨by simp, ?_⟩
    -- the kept overloads are a sublist of a list of distinct arities, none of them `f`'s
    have hold : (((r.overloads? key).getD []).map Overload.arity).Nodup := by
      cases hks : r.overloads? key with
      | none => simp
      | some old => exact (hr key old hks).2
    rw [List.map_append, List.nodup_append]
    refine ⟨(List.filter_sublist.map _).nodup hold, by simp, ?_⟩
    intro a ha b hb
    simp only [List.map_cons, List.map_nil, List.mem_singleton] at hb
    obtain ⟨g, hg, rfl⟩ := List.mem_map.mp ha
    have hnot := (List.mem_filter.mp hg).2
    simp only [List.map_cons, List.map_nil, List.mem_singleton, decide_not,
      Bool.not_eq_eq_eq_not, Bool.not_true, decide_eq_false_iff_not] at hnot
    rw [hb]
    exact hnot
  · simp only [hk, if_false] at h
    exact hr k fs h

theorem Sound.addAlias {r : OverloadTable F} (hr : r.Sound) (name target : String) :
    (r.addAlias name target).Sound :=
  addAlias_preserves (fun _ key f ht => ht.registerAs key f) hr name target

/-- The tables a program builds: an empty one, then functions registered and aliases added.
A refused alias leaves the table as it was. -/
inductive Reachable : OverloadTable F → Prop where
  | empty : Reachable empty
  | register {r : OverloadTable F} (f : F) : Reachable r → Reachable (r.register f)
  | addAlias {r r' : OverloadTable F} {name target : String} :
      Reachable r → r.withAlias? name target = .ok r' → Reachable r'

theorem withAlias?_eq_ok {r r' : OverloadTable F} {name target : String}
    (h : r.withAlias? name target = .ok r') :
    name.isEmpty = false ∧ r.contains target = true ∧ r' = r.addAlias name target := by
  unfold withAlias? at h
  split at h
  · cases h
  · next hname =>
      split at h
      · cases h
      · next htarget =>
          cases h
          simp_all

theorem withAlias?_of_contains {r : OverloadTable F} {name target : String}
    (hname : name.isEmpty = false) (htarget : r.contains target = true) :
    r.withAlias? name target = .ok (r.addAlias name target) := by
  simp [withAlias?, hname, htarget]

theorem Reachable.sound {r : OverloadTable F} (h : Reachable r) : r.Sound := by
  induction h with
  | empty => exact sound_empty
  | register f _ ih => exact ih.registerAs _ f
  | addAlias _ hok ih =>
      obtain ⟨-, -, rfl⟩ := withAlias?_eq_ok hok
      exact ih.addAlias _ _

theorem Reachable.foldl_register {r : OverloadTable F} (hr : Reachable r) (fs : List F) :
    Reachable (fs.foldl OverloadTable.register r) :=
  foldl_register_preserves (fun _ f ht => ht.register f) hr fs

/-! ## Lookups -/

theorem find_of_overloads? {r : OverloadTable F} {name : String} {fs : List F} (k : Nat)
    (h : r.overloads? (Case.lower name) = some fs) :
    r.find name k = match fs.find? (fun f => (Overload.arity f).accepts k) with
      | some f => .ok f
      | none => .error (.argumentCount name
          (" or ".intercalate (fs.map fun f => (Overload.arity f).describe)) k) := by
  -- the statement's match and the one inside find are different matchers: split on the search
  unfold find
  cases hfind : fs.find? (fun f => (Overload.arity f).accepts k) <;> simp [h, hfind]

/-- A name is known exactly when looking it up never answers that there is no such
function, whatever the argument count. -/
theorem contains_iff_found (r : OverloadTable F) (name : String) (k : Nat) :
    r.contains name = true ↔ ∀ e, r.find name k = .error e → e.kind ≠ .functionNotFound := by
  unfold contains
  cases hfs : r.overloads? (Case.lower name) with
  | none =>
      simp only [Option.isSome_none, Bool.false_eq_true, false_iff]
      intro hall
      exact hall (.unknownFunction name) (by simp [find, hfs]) rfl
  | some fs =>
      simp only [Option.isSome_some, true_iff]
      intro e he
      rw [find_of_overloads? k hfs] at he
      split at he
      · cases he
      · cases he
        simp [Error.kind]

/-- Registering a function a second time changes nothing. -/
theorem register_register (r : OverloadTable F) (f : F) :
    (r.register f).register f = r.register f := by
  simp only [register, registerAs, overloads?_upsert, if_pos, Option.getD_some]
  simp [List.filter_append, List.filter_filter, upsert_upsert]

/-- Right after `register f`, a lookup of `f`'s name in any case, for a count `f` takes,
answers the older overload of another arity that shadows `f` for that count, and `f` when none
does. -/
theorem find_register (r : OverloadTable F) (f : F) {name : String} {k : Nat}
    (hname : Case.lower name = Case.lower (Overload.name f))
    (hk : (Overload.arity f).accepts k = true) :
    (r.register f).find name k = .ok ((r.shadowing (Case.lower (Overload.name f)) [f] k).getD f) := by
  have hfs : (r.register f).overloads? (Case.lower name) =
      some (r.keptUnder (Case.lower (Overload.name f)) [f] ++ [f]) := by
    rw [hname, register, overloads?_registerAs, if_pos rfl]
  rw [find_of_overloads? k hfs, List.find?_append, shadowing]
  cases (r.keptUnder (Case.lower (Overload.name f)) [f]).find?
      (fun g => (Overload.arity g).accepts k) with
  | none => simp [hk]
  | some g => rfl

/-- Right after an alias, the alias name holds its old overloads of arities the target lacks,
then the target's overloads in order; the target keeps its own. -/
theorem overloads?_addAlias {r : OverloadTable F} (hr : r.Sound) (name : String)
    {target : String} {ts : List F} (ht : r.overloads? (Case.lower target) = some ts) :
    (r.addAlias name target).overloads? (Case.lower name) =
        some (r.keptUnder (Case.lower name) ts ++ ts) ∧
      (r.addAlias name target).overloads? (Case.lower target) = some ts := by
  obtain ⟨hne, hnd⟩ := hr _ _ ht
  unfold OverloadTable.addAlias
  rw [ht, Option.getD_some, overloads?_foldl_registerAs _ _ _ _ hne hnd,
    overloads?_foldl_registerAs _ _ _ _ hne hnd, if_pos rfl]
  refine ⟨rfl, ?_⟩
  by_cases hsame : Case.lower target = Case.lower name
  · -- an alias of a name to itself drops every overload and stores them again
    rw [if_pos hsame, ← hsame, keptUnder, ht, Option.getD_some, List.filter_eq_nil_iff.mpr,
      List.nil_append]
    intro g hg
    simpa using List.mem_map_of_mem (f := Overload.arity) hg
  · rw [if_neg hsame, ht]

section Alias

variable {r : OverloadTable F} {name target : String} {ts : List F} {k : Nat}

/-- Right after an alias, an overload the alias name held before, of an arity the target
lacks, answers a lookup of the alias for the counts it takes first. -/
theorem find_addAlias_shadowed (hr : r.Sound) (ht : r.overloads? (Case.lower target) = some ts)
    {g : F} (hg : r.shadowing (Case.lower name) ts k = some g) :
    (r.addAlias name target).find name k = .ok g := by
  rw [find_of_overloads? k (overloads?_addAlias hr name ht).1, List.find?_append]
  rw [shadowing] at hg
  rw [hg]
  rfl

/-- Right after an alias, the alias and its target answer alike for every count that no
overload the alias name held before, of an arity the target lacks, takes: the same function,
or both a count no overload takes. -/
theorem find_addAlias (hr : r.Sound) (ht : r.overloads? (Case.lower target) = some ts)
    (hkept : r.shadowing (Case.lower name) ts k = none) :
    (∃ g, (r.addAlias name target).find name k = .ok g ∧
        (r.addAlias name target).find target k = .ok g) ∨
      ∃ e₁ e₂, (r.addAlias name target).find name k = .error e₁ ∧
        (r.addAlias name target).find target k = .error e₂ ∧
        e₁.kind = .invalidArgumentCount ∧ e₂.kind = .invalidArgumentCount := by
  obtain ⟨hname, htarget⟩ := overloads?_addAlias hr name ht
  -- the kept overloads take no such count, so the alias answers as the target's list does
  rw [shadowing] at hkept
  rw [find_of_overloads? k hname, find_of_overloads? k htarget, List.find?_append, hkept,
    Option.none_or]
  cases ts.find? (fun f => (Overload.arity f).accepts k) with
  | some g => exact .inl ⟨g, rfl, rfl⟩
  | none => exact .inr ⟨_, _, rfl, rfl, rfl, rfl⟩

end Alias

/-- An alias is refused exactly for an empty alias or an unknown target. -/
theorem withAlias?_fails_iff (r : OverloadTable F) (name target : String) :
    (∃ e, r.withAlias? name target = .error e) ↔
      (name.isEmpty = true ∨ r.contains target = false) := by
  unfold withAlias?
  by_cases hname : name.isEmpty = true
  · simp [hname]
  · by_cases htarget : r.contains target = true
    · simp [hname, htarget]
    · simp [hname, htarget]

/-! ## Known names -/

/-- A name a table knows stays known after any registration. -/
theorem contains_registerAs {r : OverloadTable F} {name : String} (h : r.contains name = true)
    (key : String) (f : F) : (r.registerAs key f).contains name = true := by
  unfold contains at h ⊢
  rw [overloads?_registerAs]
  split
  · rfl
  · exact h

theorem contains_register_self (r : OverloadTable F) (f : F) :
    (r.register f).contains (Overload.name f) = true := by
  simp [contains, register, overloads?_registerAs]

theorem contains_addAlias {r : OverloadTable F} {name : String} (h : r.contains name = true)
    (other target : String) : (r.addAlias other target).contains name = true :=
  addAlias_preserves (P := fun t => t.contains name = true)
    (fun _ key f ht => contains_registerAs ht key f) h other target

theorem contains_foldl_register {r : OverloadTable F} {name : String}
    (h : r.contains name = true) (fs : List F) :
    (fs.foldl OverloadTable.register r).contains name = true :=
  foldl_register_preserves (P := fun t => t.contains name = true)
    (fun _ g ht => contains_registerAs ht _ g) h fs

/-- Every function registered one after another is known by its name afterwards. -/
theorem contains_foldl_register_of_mem {f : F} {fs : List F} (hf : f ∈ fs)
    (r : OverloadTable F) : (fs.foldl OverloadTable.register r).contains (Overload.name f) = true := by
  induction fs generalizing r with
  | nil => cases hf
  | cons g gs ih =>
      rw [List.foldl_cons]
      rcases List.mem_cons.mp hf with rfl | hgs
      · exact contains_foldl_register (contains_register_self r f) gs
      · exact ih hgs _

/-- The standard registry is built by registering the built-ins and adding two aliases to
built-ins, which are known by then. -/
theorem reachable_standard : Reachable Registry.standard := by
  have hbuilt : Reachable (Builtin.all.foldl register Registry.empty) :=
    Reachable.empty.foldl_register Builtin.all
  have hsubstring := contains_foldl_register_of_mem
    (show Builtin.substring ∈ Builtin.all by decide) Registry.empty
  have hcharLength := contains_addAlias (contains_foldl_register_of_mem
    (show Builtin.charLength ∈ Builtin.all by decide) Registry.empty) "substr" "substring"
  exact .addAlias (.addAlias hbuilt (withAlias?_of_contains rfl hsubstring))
    (withAlias?_of_contains rfl hcharLength)

/-- Registry lookups match registrations, up to shadowing, in a table of any kind of function.
The standard registry is one a program builds. Every name a program's table stores has
overloads, no two of one arity; a name is known exactly when its lookup never answers that
there is no such function; registering a function twice is registering it once. Right after
`register f`, a lookup of `f`'s name in any case, for a count `f` takes, answers the first
older overload of another arity that takes the count, and `f` when there is none. Right after
an alias, a lookup of the alias answers the first overload it held before, of an arity the
target lacks, that takes the count; when there is none, the alias and its target answer alike
(one function, or both a refused count). An alias is refused exactly for an empty alias or an
unknown target. -/
theorem lookups_match_registrations {F : Type} [Overload F] :
    Reachable Registry.standard ∧
    (∀ r : OverloadTable F, Reachable r → ∀ key fs, r.overloads? key = some fs →
      fs ≠ [] ∧ (fs.map Overload.arity).Nodup) ∧
    (∀ (r : OverloadTable F) (name : String) (k : Nat),
      r.contains name = true ↔ ∀ e, r.find name k = .error e → e.kind ≠ .functionNotFound) ∧
    (∀ (r : OverloadTable F) (f : F), (r.register f).register f = r.register f) ∧
    (∀ (r : OverloadTable F) (f : F) (name : String) (k : Nat),
      Case.lower name = Case.lower (Overload.name f) → (Overload.arity f).accepts k = true →
        (r.register f).find name k =
          .ok ((r.shadowing (Case.lower (Overload.name f)) [f] k).getD f)) ∧
    (∀ r r' : OverloadTable F, Reachable r → ∀ name target, r.withAlias? name target = .ok r' →
      ∀ k, (∀ g, r.shadowing (Case.lower name) ((r.overloads? (Case.lower target)).getD []) k =
          some g → r'.find name k = .ok g) ∧
        (r.shadowing (Case.lower name) ((r.overloads? (Case.lower target)).getD []) k = none →
          (∃ g, r'.find name k = .ok g ∧ r'.find target k = .ok g) ∨
            ∃ e₁ e₂, r'.find name k = .error e₁ ∧ r'.find target k = .error e₂ ∧
              e₁.kind = .invalidArgumentCount ∧ e₂.kind = .invalidArgumentCount)) ∧
    (∀ (r : OverloadTable F) (name target : String),
      (∃ e, r.withAlias? name target = .error e) ↔
        (name.isEmpty = true ∨ r.contains target = false)) := by
  refine ⟨reachable_standard, fun r hr => hr.sound, contains_iff_found, register_register,
    fun r f _ _ hname hk => find_register r f hname hk, ?_, withAlias?_fails_iff⟩
  intro r r' hr name target hok k
  obtain ⟨-, hknown, rfl⟩ := withAlias?_eq_ok hok
  obtain ⟨ts, ht⟩ := Option.isSome_iff_exists.mp hknown
  rw [ht, Option.getD_some]
  exact ⟨fun g hg => find_addAlias_shadowed hr.sound ht hg, find_addAlias hr.sound ht⟩

end OverloadTable

namespace Registry

open OverloadTable

/-- A registry of `concat` with `left` aliased to it: registering `left` then and looking it up
for two arguments answers the older `concat` overload, which takes at least one. A registry of
`substring` with a fresh alias `mid`: `mid` answers as `substring` does for three arguments. -/
theorem lookups_match_registrations_left :
    (((empty.register .concat).addAlias "left" "concat").register .left).find "LEFT" 2 =
        .ok .concat ∧
      ((∃ g, ((empty.register .substring).addAlias "mid" "substring").find "mid" 3 = .ok g ∧
          ((empty.register .substring).addAlias "mid" "substring").find "substring" 3 = .ok g) ∨
        ∃ e₁ e₂, ((empty.register .substring).addAlias "mid" "substring").find "mid" 3 = .error e₁ ∧
          ((empty.register .substring).addAlias "mid" "substring").find "substring" 3 = .error e₂ ∧
          e₁.kind = .invalidArgumentCount ∧ e₂.kind = .invalidArgumentCount) := by
  obtain ⟨-, -, -, -, hregister, halias, -⟩ := lookups_match_registrations (F := Builtin)
  have hreach : Reachable (empty.register Builtin.substring) := Reachable.empty.register _
  have hknown := contains_register_self empty Builtin.substring
  refine ⟨?_, (halias _ _ hreach _ _ (withAlias?_of_contains rfl hknown) 3).2 (by decide)⟩
  rw [hregister _ _ _ _ (by decide) (by decide)]
  exact congrArg Except.ok (by decide)

/-- Shadowing on the standard registry. Aliasing `left` to `concat` puts `concat`'s overload,
which takes at least one argument, behind `left`'s own, so for two arguments `left` answers
itself and `concat` answers `concat`; registering `left` again then puts it behind `concat`'s
overload, and `left` for two arguments answers `concat`. -/
theorem registered_overload_shadowed :
    (standard.withAlias? "left" "concat").toOption.map
        (fun r => ((r.find "left" 2).toOption, (r.find "concat" 2).toOption,
          ((r.register .left).find "left" 2).toOption)) =
      some (some .left, some .concat, some .concat) := by
  decide

end Registry

end TextBatch

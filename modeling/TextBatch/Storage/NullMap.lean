/-!
# Null maps

A null map is one flag per row, where a set flag means the row is NULL; the column underneath
still holds a value there. The flags are stored in words of 64, so a map of `length` rows keeps
`64 * ⌈length / 64⌉` flags, and the flags past `length` are leftovers that no query of this map
reads: a row at or past `length` counts as NULL, and setting a flag there does nothing.

Leftovers still travel. `merge` ORs another map into this one word by word, over the words both
have, and so carries the other map's leftovers into this map's rows when this map is the
longer one; `hasNulls` looks at every stored flag. A map built by `allValid`, `allNull` or
`push` alone has no leftovers set, and for such maps `flags` is all there is to know.
-/

namespace TextBatch

/-- One NULL flag per row, stored in words of 64 flags. -/
structure NullMap where
  /-- The stored flags, row 0 first: `length` rows, then the rest of the last word. -/
  stored : List Bool
  /-- Number of rows the map covers. -/
  length : Nat
  deriving DecidableEq, Repr, Inhabited

namespace NullMap

/-- Number of 64-flag words that hold `n` rows. -/
def wordsFor (n : Nat) : Nat := (n + 63) / 64

/-- The map without rows. -/
def empty : NullMap := ⟨[], 0⟩

/-- `n` rows, none NULL. -/
def allValid (n : Nat) : NullMap := ⟨List.replicate (64 * wordsFor n) false, n⟩

/-- `n` rows, all NULL, and no leftovers set. -/
def allNull (n : Nat) : NullMap :=
  ⟨List.replicate n true ++ List.replicate (64 * wordsFor n - n) false, n⟩

/-- Whether row `i` is NULL; every row at or past the end is. -/
def isNull (m : NullMap) (i : Nat) : Bool :=
  if m.length ≤ i then true else m.stored.getD i false

/-- The flags of the rows, row 0 first. -/
def flags (m : NullMap) : List Bool := (List.range m.length).map m.isNull

/-- Sets the flag of row `i`; a row at or past the end is left alone. -/
def set (m : NullMap) (i : Nat) (null : Bool) : NullMap :=
  if i < m.length then { m with stored := m.stored.set i null } else m

/-- Adds a row with the given flag, starting a new word when the last one is full. A flag
already set there stays set. -/
def push (m : NullMap) (null : Bool) : NullMap :=
  let stored := if m.stored.length ≤ m.length then m.stored ++ List.replicate 64 false
    else m.stored
  ⟨if null then stored.set m.length true else stored, m.length + 1⟩

/-- The map of the given flags, row 0 first. -/
def ofFlags (fs : List Bool) : NullMap := fs.foldl push empty

/-- Flags ORed position by position over the positions both lists have, followed by the rest
of the first list. -/
def orFlags : List Bool → List Bool → List Bool
  | [], _ => []
  | a :: as, [] => a :: as
  | a :: as, b :: bs => (a || b) :: orFlags as bs

/-- This map with the stored flags of `other` ORed in, over the words both have. -/
def merge (m other : NullMap) : NullMap := { m with stored := orFlags m.stored other.stored }

/-- Whether any stored flag is set, leftovers included. -/
def hasNulls (m : NullMap) : Bool := m.stored.any id

/-- Number of NULL rows. -/
def countNull (m : NullMap) : Nat := (m.stored.take m.length).count true

@[simp] theorem length_allValid (n : Nat) : (allValid n).length = n := rfl

@[simp] theorem length_allNull (n : Nat) : (allNull n).length = n := rfl

@[simp] theorem length_set (m : NullMap) (i : Nat) (null : Bool) :
    (m.set i null).length = m.length := by
  unfold set
  split <;> rfl

@[simp] theorem length_push (m : NullMap) (null : Bool) : (m.push null).length = m.length + 1 :=
  rfl

@[simp] theorem length_merge (m other : NullMap) : (m.merge other).length = m.length := rfl

@[simp] theorem length_flags (m : NullMap) : m.flags.length = m.length := by simp [flags]

theorem isNull_of_length_le {m : NullMap} {i : Nat} (h : m.length ≤ i) : m.isNull i = true := by
  simp [isNull, h]

theorem length_orFlags (as bs : List Bool) : (orFlags as bs).length = as.length := by
  induction as generalizing bs with
  | nil => rfl
  | cons a as ih => cases bs <;> simp [orFlags, ih]

theorem isNull_allValid {n i : Nat} (h : i < n) : (allValid n).isNull i = false := by
  have h' : ¬ n ≤ i := by omega
  simp only [isNull, allValid, h', if_false, List.getD_eq_getElem?_getD, List.getElem?_replicate]
  split <;> rfl

end NullMap

end TextBatch

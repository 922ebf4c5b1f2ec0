import TextBatch.Storage.Column

/-!
# Blocks

A block is an ordered list of named entries addressed by position. An entry holds a column, or
is a result slot that a function fills later; either way it carries a type. Every filled entry
has the same number of rows: `insert` and `setColumn` compare a new column with the first
filled entry (other than the one being replaced) and refuse a column of another length. A
refused change leaves the block as it was, and entries are never removed or reordered, so a
position keeps naming the same entry.

A call of a function runs in `BlockM`: it reads and changes one block and may fail, and a failed
call keeps the changes it made before failing.
-/

namespace TextBatch

/-- A named entry of a block: a column, or a slot still waiting for one. -/
structure Entry where
  /-- The entry's name; names need not be distinct. -/
  name : String
  /-- The type of the column, or the type announced for a slot. -/
  type : DataType
  /-- The column, or `none` for an unfilled slot. -/
  column : Option Column
  deriving DecidableEq, Repr, Inhabited

/-- An ordered list of named columns and result slots. -/
structure Block where
  /-- The entries, position 0 first. -/
  entries : List Entry
  deriving DecidableEq, Repr, Inhabited

namespace Block

/-- The block without entries. -/
def empty : Block := ⟨[]⟩

/-- Number of entries, slots included. -/
def size (b : Block) : Nat := b.entries.length

/-- Row count of the first filled entry at or after position `i`, skipping position `skip`. -/
def firstRows (skip : Option Nat) (i : Nat) : List Entry → Option Nat
  | [] => none
  | e :: rest =>
    match e.column with
    | some c => if skip = some i then firstRows skip (i + 1) rest else some c.length
    | none => firstRows skip (i + 1) rest

/-- The row count shared by the filled entries; 0 when none is filled. -/
def rows (b : Block) : Nat := (firstRows none 0 b.entries).getD 0

/-- Refuses `c` when its row count differs from that of the first filled entry other than
`skip`. -/
def checkRows (b : Block) (skip : Option Nat) (c : Column) : Except Error Unit :=
  match firstRows skip 0 b.entries with
  | some n => if n = c.length then .ok () else .error (.rowCountMismatch c.length n)
  | none => .ok ()

/-- Appends a column under `name`; answers the new block and the column's position. -/
def insert (b : Block) (name : String) (c : Column) : Except Error (Block × Nat) :=
  match b.checkRows none c with
  | .ok () => .ok (⟨b.entries ++ [⟨name, c.dataType, some c⟩]⟩, b.size)
  | .error e => .error e

/-- Appends an empty result slot of type `t`; answers the new block and the slot's position. -/
def insertSlot (b : Block) (name : String) (t : DataType) : Block × Nat :=
  (⟨b.entries ++ [⟨name, t, none⟩]⟩, b.size)

/-- The entry at `pos`. -/
def entry? (b : Block) (pos : Nat) : Except Error Entry :=
  match b.entries[pos]? with
  | some e => .ok e
  | none => .error (.positionOutOfRange pos b.size)

/-- The column at `pos`; an unfilled slot is refused. -/
def column (b : Block) (pos : Nat) : Except Error Column :=
  match b.entry? pos with
  | .ok e =>
    match e.column with
    | some c => .ok c
    | none => .error (.emptySlot e.name pos)
  | .error err => .error err

/-- Fills or replaces the column at `pos`; the entry takes the column's type. -/
def setColumn (b : Block) (pos : Nat) (c : Column) : Except Error Block :=
  match b.entries[pos]? with
  | none => .error (.positionOutOfRange pos b.size)
  | some e =>
    match b.checkRows (some pos) c with
    | .ok () => .ok ⟨b.entries.set pos { e with type := c.dataType, column := some c }⟩
    | .error err => .error err

@[simp] theorem size_insertSlot (b : Block) (name : String) (t : DataType) :
    (b.insertSlot name t).1.size = b.size + 1 := by
  simp [insertSlot, size]

theorem setColumn_size {b b' : Block} {pos : Nat} {c : Column} (h : b.setColumn pos c = .ok b') :
    b'.size = b.size := by
  unfold setColumn at h
  split at h
  · simp at h
  · split at h <;> simp_all [size]
    subst h
    simp

end Block

/-- A computation on one block that may fail; a failure keeps the block as it stood then. -/
abbrev BlockM := EStateM Error Block

namespace BlockM

/-- Fails with the error of `r`, or answers its value. -/
def lift {α : Type} (r : Except Error α) : BlockM α :=
  match r with
  | .ok a => pure a
  | .error e => throw e

/-- The column at `pos` of the current block. -/
def column (pos : Nat) : BlockM Column := do lift ((← get).column pos)

/-- Appends a column to the current block and answers its position. -/
def insert (name : String) (c : Column) : BlockM Nat := do
  let (b, pos) ← lift ((← get).insert name c)
  set b
  pure pos

/-- Fills or replaces the column at `pos` of the current block. -/
def setColumn (pos : Nat) (c : Column) : BlockM Unit := do
  set (← lift ((← get).setColumn pos c))

end BlockM

end TextBatch

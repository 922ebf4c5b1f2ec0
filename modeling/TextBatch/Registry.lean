import TextBatch.Dispatch
import TextBatch.Text.Case

/-!
# The function registry

A registry maps lowercase names to overloads, at most one per arity, in the order they were
registered: registering a function drops an overload of the same arity and appends the new one.
An alias copies every overload of its target under a second name, one by one in the same way.

`find` resolves a name, in any case, and an argument count to the first overload whose arity
accepts the count; an unknown name and a count no overload takes are refused, the latter
listing the arities in stored order.

A registry reads of a function only its name and its arity, so it is a table over any type of
functions that has them (`Overload`). The registry of the library holds built-ins, and its
standard one holds the thirteen built-ins and the aliases `substr` and `character_length`.
-/

namespace TextBatch

/-- What a registry reads of a function. -/
class Overload (F : Type) where
  /-- The name the function is registered under, in any case. -/
  name : F → String
  /-- The argument counts the function takes. -/
  arity : F → Arity

instance : Overload Builtin := ⟨Builtin.name, Builtin.arity⟩

/-- Overloads of functions by lowercase name. -/
structure OverloadTable (F : Type) where
  /-- Each name with its overloads, in registration order. -/
  entries : List (String × List F)
  deriving DecidableEq, Repr

namespace OverloadTable

variable {F : Type} [Overload F]

/-- The table without functions. -/
def empty : OverloadTable F := ⟨[]⟩

/-- The overloads stored under exactly `key`. -/
def overloads? (r : OverloadTable F) (key : String) : Option (List F) :=
  (r.entries.find? fun e => e.1 == key).map Prod.snd

/-- `entries` with the overloads of `key` replaced, or added at the end. -/
def upsert (key : String) (fs : List F) : List (String × List F) → List (String × List F)
  | [] => [(key, fs)]
  | e :: rest => if e.1 == key then (key, fs) :: rest else e :: upsert key fs rest

/-- Stores `f` under `key`, replacing an overload of the same arity. -/
def registerAs (r : OverloadTable F) (key : String) (f : F) : OverloadTable F :=
  let old := (r.overloads? key).getD []
  ⟨upsert key (old.filter (fun g => Overload.arity g != Overload.arity f) ++ [f]) r.entries⟩

/-- Stores `f` under its own name. -/
def register (r : OverloadTable F) (f : F) : OverloadTable F :=
  r.registerAs (Case.lower (Overload.name f)) f

/-- Whether a name, in any case, is registered. -/
def contains (r : OverloadTable F) (name : String) : Bool :=
  (r.overloads? (Case.lower name)).isSome

/-- Copies every overload of `target` under `name`. -/
def addAlias (r : OverloadTable F) (name target : String) : OverloadTable F :=
  ((r.overloads? (Case.lower target)).getD []).foldl
    (fun acc f => acc.registerAs (Case.lower name) f) r

/-- Copies every overload of `target` under `name`, refusing an empty name and an unknown
target. -/
def withAlias? (r : OverloadTable F) (name target : String) : Except Error (OverloadTable F) :=
  if name.isEmpty then .error .emptyAlias
  else if !r.contains target then .error (.unknownAliasTarget target)
  else .ok (r.addAlias name target)

/-- The overload of `name`, in any case, that takes `argc` arguments. -/
def find (r : OverloadTable F) (name : String) (argc : Nat) : Except Error F :=
  match r.overloads? (Case.lower name) with
  | none => .error (.unknownFunction name)
  | some fs =>
    match fs.find? (fun f => (Overload.arity f).accepts argc) with
    | some f => .ok f
    | none =>
      .error (.argumentCount name
        (" or ".intercalate (fs.map fun f => (Overload.arity f).describe)) argc)

end OverloadTable

/-- The registry of built-in functions. -/
abbrev Registry := OverloadTable Builtin

namespace Registry

/-- The registry without functions. -/
def empty : Registry := OverloadTable.empty

/-- The thirteen built-ins and the aliases `substr` and `character_length`. -/
def standard : Registry :=
  ((Builtin.all.foldl OverloadTable.register empty).addAlias "substr" "substring").addAlias
    "character_length" "char_length"

/-- Resolves `name` for the arguments and runs it over every row of the block. -/
def execute (r : Registry) (cfg : Config) (name : String) (args : List Nat) (result : Nat) :
    BlockM Unit := do
  let f ← BlockM.lift (r.find name args.length)
  f.execute cfg args result (← get).rows

end Registry

end TextBatch

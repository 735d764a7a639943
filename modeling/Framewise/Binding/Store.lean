import Framewise.Binding.Basic
import Framewise.Text.Order

/-! # Stores of bindings

  A store maps the names of one scope to their latest bindings. When control
  flow joins again, the stores reached along the alternative paths are merged:
  a binding survives only where every path holds the very same one, and any
  disagreement, a name missing on some path included, leaves an unknown value.
-/

namespace Framewise

/-- The bindings of one scope, by name. -/
structure Store where
  /-- Names with their bindings; a name occurs once. -/
  entries : List (Ident × Binding) := []
  deriving DecidableEq, Repr, Inhabited

namespace Store

/-- The empty store. -/
def empty : Store := {}

/-- The binding of a name. -/
def get? (store : Store) (name : Ident) : Option Binding :=
  (store.entries.find? fun entry => entry.1 = name).map (·.2)

/-- The names bound in a store. -/
def names (store : Store) : List Ident := store.entries.map (·.1)

/-- Replaces the first entry of a name, or adds one at the end. -/
def putEntry (name : Ident) (b : Binding) : List (Ident × Binding) → List (Ident × Binding)
  | [] => [(name, b)]
  | entry :: rest => if entry.1 = name then (name, b) :: rest else entry :: putEntry name b rest

/-- Binds a name. -/
def put (store : Store) (name : Ident) (b : Binding) : Store :=
  ⟨putEntry name b store.entries⟩

/-! ### Order of names -/

/-- The order of identifiers: a missing one first, the others by code point. -/
def nameLE : Ident → Ident → Bool
  | none, _ => true
  | some _, none => false
  | some a, some b => Text.le a b

/-- Identifiers in order, each once. -/
def sortNames (names : List Ident) : List Ident := (names.mergeSort nameLE).eraseReps

/-- The entries of a store by name. -/
def sorted (store : Store) : List (Ident × Binding) :=
  store.entries.mergeSort fun a b => nameLE a.1 b.1

/-! ### Merging -/

/-- The binding of a name after alternative paths that hold `candidates` for it. -/
def mergeBinding (name : Ident) (candidates : List (Option Binding)) : Binding :=
  match candidates with
  | some first :: rest =>
    if rest.all fun c => c = some first then first else { name := name, origin := .unknown }
  | _ => { name := name, origin := .unknown }

/-- True if some names cannot be put in order: a missing identifier among others. -/
def unorderable (names : List Ident) : Bool :=
  names.contains none && names.any Option.isSome

/-- The store after alternative paths that end in the given stores. -/
def merge (stores : List Store) : Except Fault Store :=
  let names := stores.flatMap Store.names
  if unorderable names then .error .unordered
  else .ok ⟨(sortNames names).map fun name =>
    (name, mergeBinding name (stores.map fun s => s.get? name))⟩

end Store

end Framewise

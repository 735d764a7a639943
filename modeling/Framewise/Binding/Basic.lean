import Framewise.Ident

/-! # Bindings

  What is known about the value of a name: where it came from and whether its
  set of columns has been fixed. A value of unknown origin is not taken for a
  frame.

  Main definitions:
  - `Origin`: where a frame came from.
  - `Facts`: origin and pinned flag of an expression.
  - `Binding`: the same for a name.
-/

namespace Framewise

/-- Where the value of an expression came from. -/
inductive Origin where
  /-- Read from a source (`read_csv`, `read_parquet`, ...). -/
  | read
  /-- Built from records or columns. -/
  | construction
  /-- The result of a merge or join. -/
  | merge
  /-- A selection of listed columns. -/
  | selection
  /-- Made from another frame by a method or a row selection. -/
  | derived
  /-- A parameter of the enclosing function. -/
  | parameter
  /-- A name never bound that follows the naming of frames. -/
  | convention
  /-- Anything else. -/
  | unknown
  deriving DecidableEq, Repr, Inhabited

namespace Origin

/-- The name of an origin in reports. -/
def label : Origin → String
  | .read => "read"
  | .construction => "construction"
  | .merge => "merge"
  | .selection => "selection"
  | .derived => "derived"
  | .parameter => "parameter_passthrough"
  | .convention => "convention"
  | .unknown => "unknown"

/-- All origins. -/
def all : List Origin :=
  [.read, .construction, .merge, .selection, .derived, .parameter, .convention, .unknown]

/-- The origin of a name. -/
def ofLabel? (s : String) : Option Origin := all.find? fun origin => origin.label = s

end Origin

/-- What is known about an expression. -/
structure Facts where
  /-- Where the value came from. -/
  origin : Origin
  /-- Whether its columns have been listed. -/
  pinned : Bool := false
  deriving DecidableEq, Repr, Inhabited

/-- Nothing is known. -/
def Facts.unknown : Facts := { origin := .unknown }

/-- True if the expression is a frame. -/
def Facts.isFrame (f : Facts) : Bool := f.origin != .unknown

/-- What is known about the value of a name. -/
structure Binding where
  /-- The name. -/
  name : Ident
  /-- Where the value came from. -/
  origin : Origin
  /-- Whether its columns have been listed. -/
  pinned : Bool := false
  deriving DecidableEq, Repr, Inhabited

/-- True if the value is a frame. -/
def Binding.isFrame (b : Binding) : Bool := b.origin != .unknown

/-- What is known, without the name. -/
def Binding.facts (b : Binding) : Facts := { origin := b.origin, pinned := b.pinned }

/-! ### Faults -/

/-- Operations on names that fail when an identifier is missing. -/
inductive Fault where
  /-- A missing identifier was compared with the naming of frames. -/
  | unnamed
  /-- A missing identifier and an identifier had to be put in order. -/
  | unordered
  deriving DecidableEq, Repr, Inhabited

/-- The text of a fault. -/
def Fault.message : Fault → String
  | .unnamed => "expected string or bytes-like object, got 'NoneType'"
  | .unordered => "'<' not supported between instances of 'NoneType' and 'str'"

/-- The frame binding of a name, if it has one. -/
abbrev Resolver := Ident → Except Fault (Option Binding)

end Framewise

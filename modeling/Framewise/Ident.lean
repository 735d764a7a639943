/-! # Identifiers

  A name in a script. A tree from outside may hold a name node without one, so
  an identifier can be missing.
-/

namespace Framewise

/-- An identifier, or its absence. -/
abbrev Ident := Option String

/-- An identifier as shown in a message. -/
def Ident.display : Ident → String
  | some s => s
  | none => "None"

end Framewise

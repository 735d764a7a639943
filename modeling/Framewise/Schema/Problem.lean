import Framewise.Ident

/-! # Problems of data from outside

  Serialized trees, settings and diagnostics from outside are checked against
  the shape they should have. A problem says where it is and what is wrong; its
  wording and its code are fixed by the cause.
-/

namespace Framewise.Schema

/-! ### Places -/

/-- A step from a value into one of its parts. -/
inductive Step where
  /-- The entry of a key. -/
  | key (name : String)
  /-- An item of a list. -/
  | item (index : Nat)
  deriving DecidableEq, Repr, Inhabited

/-- A step as text. -/
def Step.display : Step → String
  | .key name => name
  | .item index => toString index

/-- A place as text: its steps joined by dots. -/
def displayPath (path : List Step) : String := String.intercalate "." (path.map Step.display)

/-! ### Causes -/

/-- What can be wrong with a value. -/
inductive Cause where
  /-- A required field is absent. -/
  | missing
  /-- Not an object; `model` is what the object should describe. -/
  | notModel (model : String)
  | notList
  | notTable
  | notText
  /-- Not one of the listed names. -/
  | notListed (names : List String)
  /-- A number with a fraction where a whole number is wanted. -/
  | fractional
  /-- An infinity, or no number, where a whole number is wanted. -/
  | notFinite
  /-- A whole number that is too large for the form in which it is given. -/
  | tooLarge
  /-- A text that does not write a whole number. -/
  | intText
  | notInt
  /-- A whole number below 1. -/
  | belowOne
  /-- A text that does not write a number. -/
  | floatText
  | notFloat
  /-- A number that is not above 0. -/
  | notPositive
  /-- A text or number that is no truth value. -/
  | boolText
  | notBool
  /-- Objects nested too deeply. -/
  | tooDeep
  deriving DecidableEq, Repr, Inhabited

/-- The names of a list in quotes, the last after `or`. -/
def alternatives : List String → String
  | [] => ""
  | [a] => "'" ++ a ++ "'"
  | [a, b] => "'" ++ a ++ "' or '" ++ b ++ "'"
  | a :: rest => "'" ++ a ++ "', " ++ alternatives rest

/-- The wording of a cause. -/
def Cause.message : Cause → String
  | .missing => "Field required"
  | .notModel model => "Input should be a valid dictionary or instance of " ++ model
  | .notList => "Input should be a valid list"
  | .notTable => "Input should be a valid dictionary"
  | .notText => "Input should be a valid string"
  | .notListed names => "Input should be " ++ alternatives names
  | .fractional => "Input should be a valid integer, got a number with a fractional part"
  | .notFinite => "Input should be a finite number"
  | .tooLarge => "Unable to parse input string as an integer, exceeded maximum size"
  | .intText => "Input should be a valid integer, unable to parse string as an integer"
  | .notInt => "Input should be a valid integer"
  | .belowOne => "Input should be greater than or equal to 1"
  | .floatText => "Input should be a valid number, unable to parse string as a number"
  | .notFloat => "Input should be a valid number"
  | .notPositive => "Input should be greater than 0"
  | .boolText => "Input should be a valid boolean, unable to interpret input"
  | .notBool => "Input should be a valid boolean"
  | .tooDeep => "Recursion error - maximum validation depth exceeded"

/-- The code of a cause. -/
def Cause.code : Cause → String
  | .missing => "missing"
  | .notModel _ => "model_type"
  | .notList => "list_type"
  | .notTable => "dict_type"
  | .notText => "string_type"
  | .notListed _ => "enum"
  | .fractional => "int_from_float"
  | .notFinite => "finite_number"
  | .tooLarge => "int_parsing_size"
  | .intText => "int_parsing"
  | .notInt => "int_type"
  | .belowOne => "greater_than_equal"
  | .floatText => "float_parsing"
  | .notFloat => "float_type"
  | .notPositive => "greater_than"
  | .boolText => "bool_parsing"
  | .notBool => "bool_type"
  | .tooDeep => "recursion_loop"

/-- A cause in its place. -/
structure Problem where
  /-- Where it is, from the outermost value inwards. -/
  path : List Step
  /-- What is wrong. -/
  cause : Cause
  deriving DecidableEq, Repr, Inhabited

/-- The problem seen from one step further out. -/
def Problem.under (step : Step) (p : Problem) : Problem := { p with path := step :: p.path }

end Framewise.Schema

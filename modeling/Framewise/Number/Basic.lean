import Framewise.Number.Double
import Framewise.Number.Shortest

/-! # Numbers of a script or a configuration

  A number is whole or a double. Whole numbers add and compare exactly; where a
  double takes part, a whole number is first rounded to a double for sums and
  products, while comparison stays exact.
-/

namespace Framewise

/-- A whole number or a double. -/
inductive Number where
  /-- A whole number of any size. -/
  | int (i : Int)
  /-- A double-precision number. -/
  | float (x : Double)
  deriving DecidableEq, Repr, Inhabited

namespace Number

/-- The nearest double. -/
def toDouble : Number → Double
  | .int i => Double.ofInt i
  | .float x => x

/-- The sum. -/
def add : Number → Number → Number
  | .int a, .int b => .int (a + b)
  | a, b => .float (a.toDouble.add b.toDouble)

/-- The product. -/
def mul : Number → Number → Number
  | .int a, .int b => .int (a * b)
  | a, b => .float (a.toDouble.mul b.toDouble)

/-- Exact comparison of a whole number with a double. -/
def intLtDouble (i : Int) : Double → Bool
  | .nan => false
  | .infinite negative => !negative
  | .finite s m e =>
    let unit := if e < 0 then e else 0
    i * Int.pow 2 (-unit).toNat < Double.inUnits s m e unit

/-- Exact comparison of a double with a whole number. -/
def doubleLtInt (x : Double) (i : Int) : Bool :=
  match x with
  | .nan => false
  | .infinite negative => negative
  | .finite s m e =>
    let unit := if e < 0 then e else 0
    Double.inUnits s m e unit < i * Int.pow 2 (-unit).toNat

/-- Exact comparison; a NaN is below nothing. -/
def lt : Number → Number → Bool
  | .int a, .int b => a < b
  | .int a, .float y => intLtDouble a y
  | .float x, .int b => doubleLtInt x b
  | .float x, .float y => x.lt y

/-- The text of a number. -/
def display : Number → String
  | .int i => toString i
  | .float x => x.display

/-- The most digits that a whole number may have to be read or written in decimal notation. -/
def digitLimit : Nat := 4300

/-- True if a number can be written: a whole number must not have too many digits. -/
def isWritable : Number → Bool
  | .int i => i.natAbs < Nat.pow 10 digitLimit
  | .float _ => true

end Number

end Framewise

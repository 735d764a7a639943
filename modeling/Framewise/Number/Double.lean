/-! # Double-precision numbers

  A double is a NaN, an infinity, or a sign, a whole mantissa and a power of two.
  Finite doubles are kept in one form: the mantissa has 53 bits, or fewer with
  the least exponent (`-1074`). All arithmetic is exact on natural numbers and
  then rounded to the nearest double, ties to the even mantissa, so results are
  those of IEEE 754 and computable by proof as well as by program.
-/

namespace Framewise

/-- A double-precision number. -/
inductive Double where
  /-- Not a number. -/
  | nan
  /-- An infinity. -/
  | infinite (negative : Bool)
  /-- The number `mantissa * 2 ^ exponent`, negated if `negative`. -/
  | finite (negative : Bool) (mantissa : Nat) (exponent : Int)
  deriving DecidableEq, Repr, Inhabited

namespace Double

/-- The zero of a sign. -/
def signedZero (negative : Bool) : Double := .finite negative 0 (-1074)

/-! ### Rounding -/

/-- A quotient rounded to the nearest whole number, ties to the even one. -/
def roundQuotient (num den : Nat) : Nat :=
  let q := num / den
  let r := num % den
  if 2 * r < den then q
  else if den < 2 * r then q + 1
  else if q % 2 = 0 then q else q + 1

/-- The quotient of `num` by `den * 2 ^ e`, as a numerator and a denominator. -/
def scaleDown (num den : Nat) : Int → Nat × Nat
  | .ofNat e => (num, den * Nat.pow 2 e)
  | .negSucc e => (num * Nat.pow 2 (e + 1), den)

/-- The exponent with which `num / den` has a 53-bit mantissa, but at least `-1074`. -/
def targetExponent (num den : Nat) : Int :=
  let guess : Int := (Nat.log2 num : Int) - (Nat.log2 den : Int) - 52
  let (n, d) := scaleDown num den guess
  let e := if n / d < Nat.pow 2 52 then guess - 1 else guess
  if e < -1074 then -1074 else e

/-- The double nearest to `num / den`, with the given sign. -/
def ofQuotient (negative : Bool) (num den : Nat) : Double :=
  if num = 0 then signedZero negative
  else
    let e := targetExponent num den
    let (n, d) := scaleDown num den e
    let m := roundQuotient n d
    let (m, e) := if m = Nat.pow 2 53 then (Nat.pow 2 52, e + 1) else (m, e)
    if 971 < e then .infinite negative else .finite negative m e

/-- The double nearest to a whole number. -/
def ofInt (i : Int) : Double := ofQuotient (i < 0) i.natAbs 1

/-- The double nearest to `digits * 10 ^ exponent`. Exponents far outside the range of
    doubles are decided by the number of digits. -/
def ofDecimal (negative : Bool) (digits : Nat) (exponent : Int) : Double :=
  let width : Int := (Nat.log2 digits : Int) / 3 + 1
  if digits = 0 then signedZero negative
  else if 400 < exponent then .infinite negative
  else if exponent + width < -400 then signedZero negative
  else
    match exponent with
    | .ofNat e => ofQuotient negative (digits * Nat.pow 10 e) 1
    | .negSucc e => ofQuotient negative digits (Nat.pow 10 (e + 1))

/-! ### Bits -/

/-- The sign, exponent and mantissa fields as one 64-bit number. -/
def bits : Double → Nat
  | .nan => 0x7FF8000000000000
  | .infinite negative => (if negative then Nat.pow 2 63 else 0) + 0x7FF0000000000000
  | .finite negative m e =>
    (if negative then Nat.pow 2 63 else 0) +
      (if m < Nat.pow 2 52 then m else (e + 1075).toNat * Nat.pow 2 52 + (m - Nat.pow 2 52))

/-! ### Comparison and arithmetic -/

/-- The value of a finite double as a whole number of units `2 ^ unit`, for a `unit` that
    is not above its exponent. -/
def inUnits (negative : Bool) (mantissa : Nat) (exponent unit : Int) : Int :=
  let size : Int := mantissa * Int.pow 2 (exponent - unit).toNat
  if negative then -size else size

/-- Exact comparison; a NaN is below nothing. -/
def lt : Double → Double → Bool
  | .nan, _ | _, .nan => false
  | .infinite a, .infinite b => a && !b
  | .infinite a, .finite .. => a
  | .finite .., .infinite b => !b
  | .finite s m e, .finite t n f =>
    let unit := if e < f then e else f
    inUnits s m e unit < inUnits t n f unit

/-- True for both zeros. -/
def isZero : Double → Bool
  | .finite _ m _ => m = 0
  | _ => false

/-- The double nearest to `size * 2 ^ unit`. -/
def ofUnits (size unit : Int) : Double :=
  match unit with
  | .ofNat k => ofQuotient (size < 0) (size.natAbs * Nat.pow 2 k) 1
  | .negSucc k => ofQuotient (size < 0) size.natAbs (Nat.pow 2 (k + 1))

/-- The rounded sum. -/
def add : Double → Double → Double
  | .nan, _ | _, .nan => .nan
  | .infinite a, .infinite b => if a = b then .infinite a else .nan
  | .infinite a, .finite .. => .infinite a
  | .finite .., .infinite b => .infinite b
  | .finite s m e, .finite t n f =>
    let unit := if e < f then e else f
    let sum := inUnits s m e unit + inUnits t n f unit
    if sum = 0 then signedZero (s && t) else ofUnits sum unit

/-- The rounded product. -/
def mul : Double → Double → Double
  | .nan, _ | _, .nan => .nan
  | .infinite a, .infinite b => .infinite (a != b)
  | .infinite a, .finite t n _ | .finite t n _, .infinite a =>
    if n = 0 then .nan else .infinite (a != t)
  | .finite s m e, .finite t n f =>
    if m = 0 || n = 0 then signedZero (s != t)
    else ofUnits (if s != t then -((m * n : Nat) : Int) else (m * n : Nat)) (e + f)

/-- The whole number a finite double stands for, if it is one. -/
def toInt? : Double → Option Int
  | .finite negative m e =>
    let signed (n : Nat) : Int := if negative then -(n : Int) else n
    match e with
    | .ofNat k => some (signed (m * Nat.pow 2 k))
    | .negSucc k =>
      if m % Nat.pow 2 (k + 1) = 0 then some (signed (m / Nat.pow 2 (k + 1))) else none
  | _ => none

end Double

end Framewise

import Framewise.Number.Double

/-! # Shortest decimal text of a double

  A finite double is written with the fewest significant digits that read back
  as the same double; of the decimals with that many digits, the nearest one is
  taken. The digits are found on the grids of 1, 2, ... 17 digits by testing
  the two grid points next to the value against the interval of reals that
  round to it. Text is positional while the decimal point stands at most four
  places left of the first digit or sixteen right of it, and otherwise has an
  exponent of at least two digits.
-/

namespace Framewise.Double

/-! ### Digits -/

/-- A positive quotient of natural numbers. -/
structure Ratio where
  /-- Numerator. -/
  num : Nat
  /-- Denominator, not zero. -/
  den : Nat

/-- The quotient `m * 2 ^ e`. -/
def Ratio.ofScaled (m : Nat) : Int → Ratio
  | .ofNat k => ⟨m * Nat.pow 2 k, 1⟩
  | .negSucc k => ⟨m, Nat.pow 2 (k + 1)⟩

/-- The quotient divided by `10 ^ k`. -/
def Ratio.divPow10 (q : Ratio) : Int → Ratio
  | .ofNat k => ⟨q.num, q.den * Nat.pow 10 k⟩
  | .negSucc k => ⟨q.num * Nat.pow 10 (k + 1), q.den⟩

/-- The reals that round to a positive finite double. -/
structure Interval where
  /-- Lower end. -/
  low : Ratio
  /-- Upper end. -/
  high : Ratio
  /-- Whether the ends belong to the interval. -/
  closed : Bool

/-- The interval of the double `m * 2 ^ e`. Below a power of two the neighbours are twice
    as dense. -/
def Interval.around (m : Nat) (e : Int) : Interval where
  low :=
    if m = Nat.pow 2 52 && decide (-1074 < e) then Ratio.ofScaled (4 * m - 1) (e - 2)
    else Ratio.ofScaled (2 * m - 1) (e - 1)
  high := Ratio.ofScaled (2 * m + 1) (e - 1)
  closed := m % 2 = 0

/-- True if the whole number `d` lies in the interval divided by `10 ^ k`. -/
def Interval.holds (i : Interval) (k : Int) (d : Nat) : Bool :=
  let low := i.low.divPow10 k
  let high := i.high.divPow10 k
  if i.closed then low.num ≤ d * low.den && d * high.den ≤ high.num
  else low.num < d * low.den && d * high.den < high.num

/-- The number `p` with `10 ^ (p - 1) ≤ q < 10 ^ p`, found from the guess `p` by at most
    `steps` corrections. -/
def magnitude (q : Ratio) : (steps : Nat) → Int → Int
  | 0, p => p
  | steps + 1, p =>
    let r := q.divPow10 p
    if r.den ≤ r.num then magnitude q steps (p + 1)
    else if 10 * r.num < r.den then magnitude q steps (p - 1)
    else p

/-- The shortest digits of the value among the grids of `n`, `n + 1`, ... digits, with the
    power of ten of the last digit. -/
def digitsFrom (value : Ratio) (interval : Interval) (p : Int) :
    (grids n : Nat) → Nat × Int
  | 0, _ => (0, 0)
  | grids + 1, n =>
    let k := p - n
    let r := value.divPow10 k
    let d := r.num / r.den
    match interval.holds k d, interval.holds k (d + 1) with
    | true, true => (roundQuotient r.num r.den, k)
    | true, false => (d, k)
    | false, true => (d + 1, k)
    | false, false => digitsFrom value interval p grids (n + 1)

/-- The shortest digits of `m * 2 ^ e` with the power of ten of the last digit. -/
def shortestDigits (m : Nat) (e : Int) : Nat × Int :=
  let value := Ratio.ofScaled m e
  let guess : Int := (((Nat.log2 m : Int) + e) * 30103) / 100000 + 1
  digitsFrom value (Interval.around m e) (magnitude value 4 guess) 18 1

/-! ### Text -/

/-- Digits without trailing zeros, each dropped zero raising the exponent. -/
def trimZeros : (steps : Nat) → Nat → Int → Nat × Int
  | 0, d, k => (d, k)
  | steps + 1, d, k =>
    if d % 10 = 0 && d != 0 then trimZeros steps (d / 10) (k + 1) else (d, k)

/-- The text of the digits `ds` with the decimal point after the first `point` of them. -/
def placePoint (ds : List Char) (point : Int) : List Char :=
  let n : Int := ds.length
  if -4 < point && point ≤ 16 then
    if point ≤ 0 then '0' :: '.' :: List.replicate (-point).toNat '0' ++ ds
    else if n ≤ point then ds ++ List.replicate (point - n).toNat '0' ++ ['.', '0']
    else ds.take point.toNat ++ '.' :: ds.drop point.toNat
  else
    let e := point - 1
    let size := (toString e.natAbs).toList
    let size := if size.length < 2 then '0' :: size else size
    let mantissa :=
      match ds with
      | [] => []
      | [d] => [d]
      | d :: rest => d :: '.' :: rest
    mantissa ++ 'e' :: (if e < 0 then '-' else '+') :: size

/-- The text of a double. -/
def display : Double → String
  | .nan => "nan"
  | .infinite negative => if negative then "-inf" else "inf"
  | .finite negative m e =>
    let sign := if negative then "-" else ""
    if m = 0 then sign ++ "0.0"
    else
      let (d, k) := shortestDigits m e
      let (d, k) := trimZeros 20 d k
      let ds := (toString d).toList
      sign ++ String.ofList (placePoint ds ((ds.length : Int) + k))

end Framewise.Double

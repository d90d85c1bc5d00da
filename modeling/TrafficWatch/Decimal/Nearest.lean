import TrafficWatch.Decimal.Shortest

/-!
# Decimal — Nearest

The double nearest to a decimal, and the text forms of a double.  `nearest` scales the decimal to a
fraction with a mantissa of fifty-three bits and rounds once, a half to the even neighbour.
`parseFloat?` reads the free form of a number: a sign, digits with at most one point, an exponent, or
one of the words for infinity and for what is not a number.
-/

namespace TrafficWatch.Decimal

/-- A quotient rounded to the nearest whole number, a half to the even one. -/
def roundDiv (numerator denominator : Nat) : Nat :=
  let quotient := numerator / denominator
  match compare (2 * (numerator % denominator)) denominator with
  | .lt => quotient
  | .gt => quotient + 1
  | .eq => if quotient % 2 = 0 then quotient else quotient + 1

/-- The low bits of the double nearest to `numerator / denominator`. -/
def nearestBits (numerator denominator : Nat) : Nat :=
  if numerator = 0 then 0
  else
    let guess : Int := (Nat.log2 numerator : Int) - Nat.log2 denominator - 53
    let exponent : Int := max guess (-1074)
    let top := numerator * twoTo (-exponent).toNat
    let bottom := denominator * twoTo exponent.toNat
    if twoTo 53 ≤ top / bottom then
      bitsOf (roundDiv top (2 * bottom)) (exponent + 1)
    else
      bitsOf (roundDiv top bottom) exponent

/-- The low bits of the double nearest to `significand · 10 ^ exponent`.  Far outside the range of
doubles the answer is known without the power of ten. -/
def decimalBits (significand : Nat) (exponent : Int) : Nat :=
  let size := exponent + digitCount significand
  if significand = 0 || size < -330 then 0
  else if 330 < size then 2047 * twoTo 52
  else nearestBits (significand * tenTo exponent.toNat) (tenTo (-exponent).toNat)

/-- The double nearest to a decimal. -/
def nearest (negative : Bool) (significand : Nat) (exponent : Int) : Float :=
  ofSignAndBits negative (decimalBits significand exponent)

/-- The value of a list of decimal digits. -/
def digitsValue (digits : List Char) : Nat :=
  digits.foldl (fun n c => 10 * n + (c.toNat - '0'.toNat)) 0

/-- An exponent: a letter, a sign if any, and at least one digit; no text at all stands for zero. -/
def exponent? : List Char → Option Int
  | [] => some 0
  | mark :: rest =>
    if mark ≠ 'e' ∧ mark ≠ 'E' then none
    else
      let (negative, digits) :=
        match rest with
        | '-' :: digits => (true, digits)
        | '+' :: digits => (false, digits)
        | digits => (false, digits)
      if digits.isEmpty || !digits.all Char.isDigit then none
      else
        let n : Int := digitsValue digits
        some (if negative then -n else n)

/-- The magnitude of a number without its sign. -/
def unsignedFloat? (negative : Bool) (text : List Char) : Option Float :=
  let whole := text.takeWhile Char.isDigit
  let rest := text.dropWhile Char.isDigit
  let (fraction, rest) :=
    match rest with
    | '.' :: rest => (rest.takeWhile Char.isDigit, rest.dropWhile Char.isDigit)
    | rest => ([], rest)
  if whole.isEmpty && fraction.isEmpty then none
  else
    (exponent? rest).map fun e =>
      nearest negative (digitsValue (whole ++ fraction)) (e - fraction.length)

/-- A number in free form: `inf`, `infinity` and `nan` in any case are words for numbers too. -/
def parseFloat? (text : List Char) : Option Float :=
  let (negative, rest) :=
    match text with
    | '-' :: rest => (true, rest)
    | '+' :: rest => (false, rest)
    | rest => (false, rest)
  let word := String.ofList (rest.map Char.toLower)
  if word = "inf" || word = "infinity" then
    some (ofSignAndBits negative (2047 * twoTo 52))
  else if word = "nan" then
    some (ofSignAndBits negative (2047 * twoTo 52 + twoTo 51))
  else
    unsignedFloat? negative rest

end TrafficWatch.Decimal

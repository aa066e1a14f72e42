/-!
The causes for which a computation is refused.

* `Error` lists the causes. A cause carries the data that its message shows; a
  value that is quoted in a message is carried as the text that is shown.
* `Error.kind` sorts the causes into the kinds a caller can react to.
* `Error.message` is the wording, the one place where it is written.
-/

namespace ExactAlgebra

/-- The kinds of failure a caller can tell apart. -/
inductive ErrorKind
  /-- An argument that is no value of the expected form. -/
  | invalidArgument
  /-- A divisor, denominator or modulus without an inverse. -/
  | divisionByZero
  /-- An integer was needed and another rational was given. -/
  | notIntegral
  /-- A denominator with a factor that has no rational root. -/
  | unsupportedDecomposition
  /-- A search that would pass its limit. -/
  | limitExceeded
  /-- An operator that takes its operands in neither order. -/
  | unsupportedOperands
  /-- A number divided by the number zero. -/
  | zeroNumberDivisor
  /-- An object without the member that an operation needs. -/
  | missingMember
  /-- A sequence without the item that an operation needs. -/
  | missingItem
  /-- A sequence with more or fewer items than an operation needs. -/
  | wrongItemCount
  /-- A reference to a result that is not there. -/
  | brokenReference
  deriving DecidableEq, Repr

/-- What an order counts: a natural number that selects a coefficient, a power
or a repetition. -/
inductive OrderRole
  | monomial
  | coefficient
  | derivative
  | power
  deriving DecidableEq, Repr

/-- The name of an order in a message. -/
def OrderRole.name : OrderRole → String
  | .monomial => "Monomial"
  | .coefficient => "Coefficient"
  | .derivative => "Derivative"
  | .power => "Power"

/-- The searches that work within a limit. -/
inductive Search
  /-- The trial divisions that list the divisors of a positive integer. -/
  | divisors (n : Nat)
  /-- The candidates for the rational roots of a polynomial. -/
  | rationalRoots
  /-- The synthetic divisions that count the multiplicities of roots. -/
  | multiplicities
  deriving DecidableEq, Repr

/-- The text of a rational number in lowest terms: `p`, or `p/q` with `q > 1`. -/
def rationalText (r : Rat) : String :=
  if r.den = 1 then toString r.num else toString r.num ++ "/" ++ toString r.den

/-- The causes of failure. -/
inductive Error
  /-- A truth value where a number is needed. -/
  | booleanAsNumber (shown : String)
  /-- A binary floating-point value where an exact number is needed. -/
  | inexactNumber (shown : String)
  /-- A value of a type that holds no number. -/
  | notANumber (typeName : String)
  /-- Text that is no numeral; `shown` is the quoted text. -/
  | unreadableNumber (shown : String)
  /-- A rational that is not an integer where an integer is needed. -/
  | notAnInteger (r : Rat)
  /-- A modular inverse for the modulus zero. -/
  | zeroModulus
  /-- A modular inverse of a number that shares the divisor `g` with the modulus. -/
  | noModularInverse (a m : Int) (g : Nat)
  /-- The divisors of zero. -/
  | divisorsOfZero
  /-- A factorial of a number that is not a natural number. -/
  | factorialArgument (shown : String)
  /-- A search that needs more steps than its limit allows. -/
  | limitExceeded (search : Search) (shown : String)
  /-- An order that is not an integer. -/
  | orderNotInteger (role : OrderRole) (shown : String)
  /-- An order below zero. -/
  | orderNegative (role : OrderRole) (n : Int)
  /-- Text where a list of coefficients is needed. -/
  | textAsCoefficients
  /-- A value that is no sequence where a list of coefficients is needed. -/
  | notCoefficients (shown : String)
  /-- A polynomial without any coefficient. -/
  | noCoefficients
  /-- A coefficient pair with the denominator zero. -/
  | zeroPairDenominator (numerator : Int)
  /-- Text that does not divide into signed terms. -/
  | unreadablePolynomial (shown : String)
  /-- A term of a polynomial text that is not of the form of a term. -/
  | unreadableTerm (term shown : String)
  /-- A polynomial text with two variables. -/
  | twoVariables (first second : String)
  /-- An expression with more than one free symbol and no symbol chosen. -/
  | notUnivariate
  /-- An expression that is no polynomial with rational coefficients. -/
  | notPolynomial (symbol : String)
  /-- A divisor of a polynomial that is neither polynomial nor rational. -/
  | notADivisor
  /-- An operand of a greatest common divisor that is no polynomial. -/
  | notAPolynomial
  /-- Division by the zero polynomial. -/
  | zeroDivisor
  /-- Division of a polynomial by the number zero. -/
  | zeroScalarDivisor
  /-- A rational function with the denominator zero. -/
  | zeroDenominator
  /-- Division by the zero rational function. -/
  | zeroFunctionDivisor
  /-- The reciprocal of the zero rational function. -/
  | zeroReciprocal
  /-- Evaluation of a rational function at a pole. -/
  | pole (point : Rat) (function : String)
  /-- Text that has none of the forms of a rational function. -/
  | unreadableFunction (shown : String)
  /-- The roots of the zero polynomial. -/
  | rootsOfZero
  /-- The root bound of the zero polynomial. -/
  | boundOfZero
  /-- The rational root theorem for coefficients that are not integers. -/
  | fractionalCoefficients (polynomial : String)
  /-- A denominator with a factor that has no rational root. -/
  | factorWithoutRoots (denominator factor : String)
  /-- Operands or arguments of types that an operation does not take. -/
  | unsupportedOperands
  /-- Division of a number by the number zero. -/
  | zeroNumberDivisor
  /-- An object without the member that an operation needs. -/
  | missingMember
  /-- The first item of an empty sequence. -/
  | missingItem
  /-- A sequence where a pair is needed. -/
  | notAPair
  /-- A reference to a result that is not there. -/
  | brokenReference
  deriving DecidableEq, Repr

namespace Error

/-- The kind of a cause. -/
def kind : Error → ErrorKind
  | notAnInteger _ | fractionalCoefficients _ => .notIntegral
  | noModularInverse .. | zeroDivisor | zeroScalarDivisor | zeroDenominator
  | zeroFunctionDivisor | zeroReciprocal | pole .. => .divisionByZero
  | limitExceeded .. => .limitExceeded
  | factorWithoutRoots .. => .unsupportedDecomposition
  | unsupportedOperands => .unsupportedOperands
  | zeroNumberDivisor => .zeroNumberDivisor
  | missingMember => .missingMember
  | missingItem => .missingItem
  | notAPair => .wrongItemCount
  | brokenReference => .brokenReference
  | _ => .invalidArgument

/-- What a search is called in a message. -/
private def searchName : Search → String
  | .divisors n => "Divisor enumeration of " ++ toString n
  | .rationalRoots => "Rational root candidate search"
  | .multiplicities => "Root multiplicity search"

/-- The wording of a cause. -/
def message : Error → String
  | booleanAsNumber shown => "Expected a rational number, got boolean " ++ shown
  | inexactNumber shown =>
      "Floating-point value " ++ shown ++ " is not exact; pass a Fraction or string"
  | notANumber typeName => "Cannot convert " ++ typeName ++ " to a rational number"
  | unreadableNumber shown => "Cannot parse " ++ shown ++ " as a rational number"
  | notAnInteger r => "Expected an integer, got " ++ rationalText r
  | zeroModulus => "Modulus cannot be zero"
  | noModularInverse a m g =>
      "No modular inverse: gcd(" ++ toString a ++ ", " ++ toString m ++ ") = " ++ toString g
  | divisorsOfZero => "Every integer divides 0; divisors(0) is undefined"
  | factorialArgument shown => "Factorial needs a non-negative integer, got " ++ shown
  | limitExceeded search shown => searchName search ++ " exceeded the limit of " ++ shown
  | orderNotInteger role shown => role.name ++ " order must be an integer, got " ++ shown
  | orderNegative role n => role.name ++ " order must be non-negative, got " ++ toString n
  | textAsCoefficients => "Use Polynomial.from_string to parse text"
  | notCoefficients shown => "Expected a sequence of coefficients, got " ++ shown
  | noCoefficients => "A polynomial needs at least one coefficient"
  | zeroPairDenominator numerator =>
      "Coefficient pair (" ++ toString numerator ++ ", 0) has a zero denominator"
  | unreadablePolynomial shown => "Cannot parse polynomial " ++ shown
  | unreadableTerm term shown => "Cannot parse term " ++ term ++ " in " ++ shown
  | twoVariables first second =>
      "Only one variable is supported, found " ++ first ++ " and " ++ second
  | notUnivariate => "Only univariate expressions are supported"
  | notPolynomial symbol => "The expression is not a polynomial in " ++ symbol
  | notADivisor => "Can only divide a polynomial by a polynomial or a rational"
  | notAPolynomial => "Can only take the gcd of polynomials"
  | zeroDivisor => "Cannot divide by the zero polynomial"
  | zeroScalarDivisor => "Cannot divide a polynomial by zero"
  | zeroDenominator => "The denominator cannot be the zero polynomial."
  | zeroFunctionDivisor => "Cannot divide by a rational function whose numerator is zero"
  | zeroReciprocal => "The zero rational function has no reciprocal"
  | pole point function => "x = " ++ rationalText point ++ " is a pole of " ++ function
  | unreadableFunction shown =>
      "Expression " ++ shown ++ " does not represent a rational function"
  | rootsOfZero =>
      "The zero polynomial vanishes everywhere; its roots are not a finite set"
  | boundOfZero => "The zero polynomial has no root bound"
  | fractionalCoefficients polynomial =>
      "Rational Root Theorem needs integer coefficients, got " ++ polynomial
  | factorWithoutRoots denominator factor =>
      "Denominator " ++ denominator ++ " has the factor " ++ factor ++ " with no rational roots"
  | unsupportedOperands => "The operands are not supported"
  | zeroNumberDivisor => "Cannot divide a number by zero"
  | missingMember => "The object has no such member"
  | missingItem => "The sequence has no first item"
  | notAPair => "The sequence is not a pair"
  | brokenReference => "The result referred to does not exist"

end Error

end ExactAlgebra

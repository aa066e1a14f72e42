import ExactAlgebra.Calculator.Session
import ExactAlgebra.Proofs.Expression.PolynomialTree
import ExactAlgebra.Proofs.Labels.Arguments
import ExactAlgebra.Proofs.Labels.Equality
import ExactAlgebra.Proofs.Labels.Function
import ExactAlgebra.Proofs.Labels.Member
import ExactAlgebra.Proofs.Labels.Observation
import ExactAlgebra.Proofs.Labels.Operations
import ExactAlgebra.Proofs.Labels.Operators
import ExactAlgebra.Proofs.Labels.Polynomial
import ExactAlgebra.Proofs.PartialFractions.Outcome
import ExactAlgebra.Proofs.Polynomial.Calculus
import ExactAlgebra.Proofs.Polynomial.Composition
import ExactAlgebra.Proofs.Polynomial.Evaluation
import ExactAlgebra.Proofs.Polynomial.GreatestCommonDivisor
import ExactAlgebra.Proofs.Polynomial.IntegralDomain
import ExactAlgebra.Proofs.Polynomial.LongDivision
import ExactAlgebra.Proofs.Polynomial.PrimitivePart
import ExactAlgebra.Proofs.RationalFunction.Canonical
import ExactAlgebra.Proofs.RationalFunction.Field
import ExactAlgebra.Proofs.RationalFunction.Power
import ExactAlgebra.Proofs.RationalFunction.Printing
import ExactAlgebra.Proofs.RationalFunction.Taylor
import ExactAlgebra.Proofs.Polynomial.SyntheticDivision
import ExactAlgebra.Proofs.Roots.Bound
import ExactAlgebra.Proofs.Roots.RuleOfSigns
import ExactAlgebra.Proofs.Value.Hashing
import ExactAlgebra.Proofs.Value.MixedOperands
import ExactAlgebra.Proofs.Polynomial.TaylorConversion
import ExactAlgebra.Proofs.RationalFunction.Derivation
import ExactAlgebra.Proofs.RationalFunction.Poles
import ExactAlgebra.Proofs.RationalFunction.PoleOrder
import ExactAlgebra.Proofs.PartialFractions.PoleValues
import ExactAlgebra.Proofs.RationalFunction.QuotientText
import ExactAlgebra.Proofs.Polynomial.JointLabel
import ExactAlgebra.Proofs.RationalFunction.Proper
import ExactAlgebra.Proofs.Value.PairFormat
import ExactAlgebra.Proofs.Integer.Bezout
import ExactAlgebra.Proofs.Integer.ModularInverse
import ExactAlgebra.Proofs.Value.NumberText
import ExactAlgebra.Proofs.Rational.DecimalText

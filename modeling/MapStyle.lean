import MapStyle.Text.Blank
import MapStyle.Text.CaseTable
import MapStyle.Text.Search
import MapStyle.Text.Case
import MapStyle.Number.Binary
import MapStyle.Number.Constant
import MapStyle.Number.Order
import MapStyle.Number.Decimal
import MapStyle.Number.Whole
import MapStyle.Number.Read
import MapStyle.Number.Text
import MapStyle.Json.Basic
import MapStyle.Json.Read
import MapStyle.Json.Text
import MapStyle.Color.Names
import MapStyle.Color.Basic
import MapStyle.Color.Css
import MapStyle.Color.Perceptual
import MapStyle.Curve.Stops
import MapStyle.Curve.Bezier
import MapStyle.Curve.Interpolation
import MapStyle.Geometry.Planar
import MapStyle.Geometry.Box
import MapStyle.Geometry.GeoJson
import MapStyle.Geometry.Mercator
import MapStyle.Geometry.Rings
import MapStyle.Geometry.Ruler
import MapStyle.Geometry.Distance
import MapStyle.Geometry.Earth
import MapStyle.Geometry.Within
import MapStyle.Ty
import MapStyle.Value.Basic
import MapStyle.Value.Text
import MapStyle.Context
import MapStyle.EvalError
import MapStyle.Operator.Comparator
import MapStyle.Operator.Primitive
import MapStyle.Operator.Apply
import MapStyle.Operator.Registry
import MapStyle.Operator.Standard
import MapStyle.Semantics.Region
import MapStyle.Semantics.Collection
import MapStyle.Semantics.Comparison
import MapStyle.Semantics.Curve
import MapStyle.Semantics.Narrowing
import MapStyle.Semantics.Choice
import MapStyle.Expr.Basic
import MapStyle.Expr.Analysis
import MapStyle.Expr.ZoomCurve
import MapStyle.Expr.Evaluate
import MapStyle.Compile.Diagnostic
import MapStyle.Compile.Operand
import MapStyle.Compile.Binding
import MapStyle.Compile.Choice
import MapStyle.Compile.Collection
import MapStyle.Compile.Comparison
import MapStyle.Compile.Compound
import MapStyle.Compile.Curve
import MapStyle.Compile.Narrowing
import MapStyle.Compile.Region
import MapStyle.Compile.Compiler
import MapStyle.Compile.Session
import MapStyle.Parse.Rule
import MapStyle.Parse.Forms
import MapStyle.Parse.Compiler
import MapStyle.Property.Specification
import MapStyle.Property.StyleExpression
import MapStyle.Property.PropertyExpression
import MapStyle.Filter.Legacy
import MapStyle.Filter.FeatureFilter
import MapStyle.Proofs.Outcome
import MapStyle.Proofs.Number.Rank
import MapStyle.Proofs.Number.Representable
import MapStyle.Proofs.Number.Ordered
import MapStyle.Proofs.Number.Rounding
import MapStyle.Proofs.Number.Units
import MapStyle.Proofs.Number.Arithmetic
import MapStyle.Proofs.Number.Bounded
import MapStyle.Proofs.Number.Nearest
import MapStyle.Proofs.Number.Ties
import MapStyle.Proofs.Number.Integers
import MapStyle.Proofs.Number.Ranges
import MapStyle.Proofs.Number.Reading
import MapStyle.Proofs.Color.Hue
import MapStyle.Proofs.Color.Range
import MapStyle.Proofs.Curve.Cubic
import MapStyle.Proofs.Curve.Newton
import MapStyle.Proofs.Curve.Easing
import MapStyle.Proofs.Curve.Blend
import MapStyle.Proofs.Curve.Locate
import MapStyle.Proofs.Curve.Nodes
import MapStyle.Proofs.Curve.Interpolant
import MapStyle.Proofs.Curve.Factor
import MapStyle.Proofs.Geometry.Segments
import MapStyle.Proofs.Geometry.Boxes
import MapStyle.Proofs.Geometry.Classification
import MapStyle.Proofs.Geometry.Parity
import MapStyle.Proofs.Geometry.Containment
import MapStyle.Proofs.Geometry.Meeting
import MapStyle.Proofs.Geometry.Rearranged
import MapStyle.Proofs.Geometry.Wrap
import MapStyle.Proofs.Geometry.Angles
import MapStyle.Proofs.Geometry.Shortcut
import MapStyle.Proofs.Geometry.Winding
import MapStyle.Proofs.Geometry.Measuring
import MapStyle.Proofs.Geometry.Shift
import MapStyle.Proofs.Geometry.Runs
import MapStyle.Proofs.Geometry.Termination
import MapStyle.Proofs.Typing.Subsumption
import MapStyle.Proofs.Typing.Inhabitants
import MapStyle.Proofs.Typing.Rules
import MapStyle.Proofs.Typing.Results
import MapStyle.Proofs.Typing.Evaluation
import MapStyle.Proofs.Typing.Failures
import MapStyle.Proofs.Typing.Soundness
import MapStyle.Proofs.Typing.Progress
import MapStyle.Proofs.Expr.Parts
import MapStyle.Proofs.Expr.Alike
import MapStyle.Proofs.Expr.Constant
import MapStyle.Proofs.Expr.ZoomCurve
import MapStyle.Proofs.Expr.CurvePlaces
import MapStyle.Proofs.Semantics.Indices
import MapStyle.Proofs.Semantics.Checks
import MapStyle.Proofs.Semantics.Occurrences
import MapStyle.Proofs.Semantics.Slices
import MapStyle.Proofs.Semantics.Comparisons
import MapStyle.Proofs.Compile.Lockstep
import MapStyle.Proofs.Compile.Forms
import MapStyle.Proofs.Compile.Assembly
import MapStyle.Proofs.Compile.Outputs
import MapStyle.Proofs.Compile.Documents
import MapStyle.Proofs.Compile.Parametric
import MapStyle.Proofs.Compile.Scoping
import MapStyle.Proofs.Compile.Agreement
import MapStyle.Proofs.Compile.Folding
import MapStyle.Proofs.Compile.Places
import MapStyle.Proofs.Compile.Expectation
import MapStyle.Proofs.Compile.Labels
import MapStyle.Proofs.Compile.Selection
import MapStyle.Proofs.Compile.Throwing
import MapStyle.Proofs.Compile.Yields
import MapStyle.Proofs.Compile.Curves
import MapStyle.Proofs.Compile.Fallthrough
import MapStyle.Proofs.Compile.Roles
import MapStyle.Proofs.Compile.Dependence
import MapStyle.Proofs.Compile.Diagnostics
import MapStyle.Proofs.Compile.Interpolants
import MapStyle.Proofs.Compile.Enclosing
import MapStyle.Proofs.Compile.Resolution
import MapStyle.Proofs.Compile.Settled
import MapStyle.Proofs.Compile.Comparisons
import MapStyle.Proofs.Parse.Rule
import MapStyle.Proofs.Parse.Forms
import MapStyle.Proofs.Parse.Compiler
import MapStyle.Proofs.Access.Checked
import MapStyle.Proofs.Access.Color
import MapStyle.Proofs.Access.Curves
import MapStyle.Proofs.Access.Geometry
import MapStyle.Proofs.Access.Sequences
import MapStyle.Proofs.Access.Operands
import MapStyle.Proofs.Access.Forms
import MapStyle.Proofs.Access.Loops
import MapStyle.Proofs.Access.Primitives
import MapStyle.Proofs.Access.Signatures
import MapStyle.Proofs.Access.Stops
import MapStyle.Proofs.Access.Evaluation
import MapStyle.Proofs.Access.Compilation
import MapStyle.Proofs.Access.Program
import MapStyle.Proofs.Property.Enumeration
import MapStyle.Proofs.Property.Kind
import MapStyle.Proofs.Property.Parameters
import MapStyle.Proofs.Property.Steps
import MapStyle.Proofs.Property.OneCurve
import MapStyle.Proofs.Property.ZoomRoute
import MapStyle.Proofs.Filter.Normalization
import MapStyle.Proofs.Filter.LegacyFilter
import MapStyle.Proofs.Filter.Membership
import MapStyle.Proofs.Filter.Compilation
import MapStyle.Proofs.Filter.Geometry
import MapStyle.Proofs.Filter.Operators
import MapStyle.Proofs.Filter.Legacy
import MapStyle.Proofs.Filter.Searching
import MapStyle.Proofs.Filter.Combinators

import MapStyle.Context
import MapStyle.Number.Constant
import MapStyle.Operator.Comparator

/-!
# Primitive operations

The operations behind the operators that evaluate all their operands and then compute. An operator
may have several signatures, each with a primitive of its own, and two operators may share one.

A primitive declares which runtime inputs it reads. The analyses of compiled expressions rest on
that declaration alone and never look at the name of an operator.
-/

namespace MapStyle

inductive Constant where
  | ln2
  | pi
  | e
  deriving DecidableEq, Repr

inductive NumericFunction where
  | sqrt
  | log10
  | ln
  | log2
  | sin
  | cos
  | tan
  | asin
  | acos
  | atan
  | abs
  | round
  | floor
  | ceil
  deriving DecidableEq, Repr

inductive Primitive where
  | sum
  | product
  | difference
  | negation
  | quotient
  | remainder
  | power
  | least
  | greatest
  | constant (c : Constant)
  | function (f : NumericFunction)
  | upcase
  | downcase
  | concat
  | typeName
  | color
  | channels
  | property
  | member
  | hasProperty
  | hasMember
  | state
  | properties
  | geometryType
  | id
  | zoom
  | heatmapDensity
  | lineProgress
  | accumulated
  | not
  | fail
  /-- Whether a property is there and equals a value. -/
  | propertyEquals
  | idEquals
  | kindEquals
  /-- Whether a property is there and ordered as the operator says. -/
  | propertyCompares (op : Comparator)
  | propertyPresent
  | idPresent
  | kindIn
  | idIn
  | propertyIn
  /-- Membership in a sorted list. -/
  | propertyInSorted
  deriving DecidableEq, Repr

namespace Constant

def value : Constant → Float
  | .ln2 => 0.693147180559945309417
  | .pi => Number.pi
  | .e => 2.71828182845904523536

end Constant

namespace NumericFunction

def all : List NumericFunction :=
  [.sqrt, .log10, .ln, .log2, .sin, .cos, .tan, .asin, .acos, .atan, .abs, .round, .floor, .ceil]

def name : NumericFunction → String
  | .sqrt => "sqrt"
  | .log10 => "log10"
  | .ln => "ln"
  | .log2 => "log2"
  | .sin => "sin"
  | .cos => "cos"
  | .tan => "tan"
  | .asin => "asin"
  | .acos => "acos"
  | .atan => "atan"
  | .abs => "abs"
  | .round => "round"
  | .floor => "floor"
  | .ceil => "ceil"

/-- The function itself; a half rounds away from zero. -/
def apply : NumericFunction → Float → Float
  | .sqrt => Float.sqrt
  | .log10 => Float.log10
  | .ln => Float.log
  | .log2 => Float.log2
  | .sin => Float.sin
  | .cos => Float.cos
  | .tan => Float.tan
  | .asin => Float.asin
  | .acos => Float.acos
  | .atan => Float.atan
  | .abs => Float.abs
  | .round => Float.round
  | .floor => Float.floor
  | .ceil => Float.ceil

end NumericFunction

namespace Primitive

/-- The runtime inputs a primitive reads. -/
def reads : Primitive → List Parameter
  | .property | .hasProperty | .properties | .geometryType | .id => [.feature]
  | .propertyEquals | .idEquals | .kindEquals | .propertyCompares _ | .propertyPresent
  | .idPresent | .kindIn | .idIn | .propertyIn | .propertyInSorted => [.feature]
  | .state => [.featureState]
  | .zoom => [.zoom]
  | .heatmapDensity => [.heatmapDensity]
  | .lineProgress => [.lineProgress]
  | .accumulated => [.accumulated]
  | .sum | .product | .difference | .negation | .quotient | .remainder | .power | .least
  | .greatest | .constant _ | .function _ | .upcase | .downcase | .concat | .typeName | .color
  | .channels | .member | .hasMember | .not | .fail => []

end Primitive

end MapStyle

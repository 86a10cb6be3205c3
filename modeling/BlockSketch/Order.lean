namespace BlockSketch

/-- From the tightest to the loosest. `none` is for a place that parts everything but an atom. -/
inductive Order
  | atomic | postfixUnary | prefixUnary | multiplicative | additive | shift | relational | equality
  | bitAnd | bitXor | bitOr | logicalAnd | logicalOr | conditional | assignment | none
  deriving DecidableEq

namespace Order

def all : List Order :=
  [atomic, postfixUnary, prefixUnary, multiplicative, additive, shift, relational, equality,
    bitAnd, bitXor, bitOr, logicalAnd, logicalOr, conditional, assignment, none]

/-- A smaller rank binds tighter. -/
def rank : Order → Nat
  | atomic => 0 | postfixUnary => 1 | prefixUnary => 2 | multiplicative => 3 | additive => 4
  | shift => 5 | relational => 6 | equality => 7 | bitAnd => 8 | bitXor => 9 | bitOr => 10
  | logicalAnd => 11 | logicalOr => 12 | conditional => 13 | assignment => 14 | none => 99

/-- At equal rank only an atom, or an expression of no rank, may stand bare: which of two equal
operators comes first is never left to the reader. -/
def needsParens (outer inner : Order) : Bool :=
  if inner.rank < outer.rank then false
  else if outer = inner ∧ (outer = atomic ∨ outer = none) then false
  else true

end Order

end BlockSketch

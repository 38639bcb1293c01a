import MicroFrontends.Selector.Expr
import MicroFrontends.Text.Bytes
import MicroFrontends.Text.Quoted

/-!
# Selector text of an expression

* `Expr.render` : the canonical text, with as few parentheses as the precedence of the operators
  allows: `!` binds tighter than `&&`, which binds tighter than `||`, and chains group to the left;
* `isPlain` : whether a label or a value can be written as it is, judged by its bytes;
* `Expr.isRepresentable` : every label is plain and no value holds a quote, so that the text can be
  read back;
* `Expr.outline` : the nesting of the expression, whatever its labels and values.
-/

namespace MicroFrontends

/-- How tightly the outermost operator of an expression binds. -/
inductive Precedence where
  | or
  | and
  | unary
deriving DecidableEq, Repr

/-- A larger rank binds tighter. -/
def Precedence.rank : Precedence → Nat
  | or => 0
  | and => 1
  | unary => 2

/-- The byte is an ASCII letter or digit. -/
def isAlphanumByte (b : UInt8) : Bool :=
  '0'.toUInt8 ≤ b && b ≤ '9'.toUInt8 || 'A'.toUInt8 ≤ b && b ≤ 'Z'.toUInt8 ||
    'a'.toUInt8 ≤ b && b ≤ 'z'.toUInt8

/-- The byte may come after the first one of a plain text. -/
def isPlainByte (b : UInt8) : Bool :=
  isAlphanumByte b || b = '.'.toUInt8 || b = '_'.toUInt8 || b = '-'.toUInt8

/-- The text can be written as it is, as a label or as a value. -/
def isPlain (text : String) : Bool :=
  match Text.bytes text.toList with
  | [] => false
  | b :: others => isAlphanumByte b && others.all isPlainByte

/-- A value as it is written after a comparison sign: quoted unless it is plain. -/
def renderValue (value : String) : String :=
  if isPlain value then value else "\"" ++ value ++ "\""

/-- The text in parentheses if `grouped`. -/
def parenthesize (grouped : Bool) (text : String) : String :=
  if grouped then "(" ++ text ++ ")" else text

namespace Expr

def precedence : Expr → Precedence
  | or _ _ => .or
  | and _ _ => .and
  | present _ | equals _ _ | not _ => .unary

/-- The operand of a negation or the left operand of an operator needs parentheses if it binds
less tightly. -/
def groupedLeft (e : Expr) (parent : Precedence) : Bool := e.precedence.rank < parent.rank

/-- Chains group to the left, so a right operand that binds as tightly also needs parentheses. -/
def groupedRight (e : Expr) (parent : Precedence) : Bool := e.precedence.rank ≤ parent.rank

/-- The canonical selector text. -/
def render : Expr → String
  | present label => label
  | equals label value => label ++ "=" ++ renderValue value
  | not (equals label value) => label ++ "!=" ++ renderValue value
  | not arg => "!" ++ parenthesize (arg.groupedLeft .unary) arg.render
  | and lhs rhs =>
    parenthesize (lhs.groupedLeft .and) lhs.render ++ " && " ++
      parenthesize (rhs.groupedRight .and) rhs.render
  | or lhs rhs =>
    parenthesize (lhs.groupedLeft .or) lhs.render ++ " || " ++
      parenthesize (rhs.groupedRight .or) rhs.render

/-- Every label is plain and no value holds a quote. -/
def isRepresentable : Expr → Bool
  | present label => isPlain label
  | equals label value => isPlain label && !value.toList.contains '"'
  | not arg => arg.isRepresentable
  | and lhs rhs | or lhs rhs => lhs.isRepresentable && rhs.isRepresentable

/-- The tree of operators with quoted labels and values. -/
def outline : Expr → String
  | present label => "Exists(" ++ Text.quote label ++ ")"
  | equals label value =>
    "Equals \x7b label: " ++ Text.quote label ++ ", value: " ++ Text.quote value ++ " \x7d"
  | not arg => "Not(" ++ arg.outline ++ ")"
  | and lhs rhs => "And(" ++ lhs.outline ++ ", " ++ rhs.outline ++ ")"
  | or lhs rhs => "Or(" ++ lhs.outline ++ ", " ++ rhs.outline ++ ")"

/-- The text under which the expression is stored, or the reason why there is none. -/
def stored (e : Expr) : Except String String :=
  if e.isRepresentable then .ok e.render
  else .error ("expression " ++ e.outline ++ " has no selector text form")

end Expr

end MicroFrontends

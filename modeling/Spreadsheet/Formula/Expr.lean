-- SUMMARY: Expressions: the trees that formula text is read as.
import Spreadsheet.Operator
import Spreadsheet.Reference.A1

/-! # Expressions

An expression is built from literals, tables of constants, references and names by
operators, function calls and unions of references.
-/

namespace Spreadsheet.Formula

inductive Expr where
  | literal (s : Scalar)
  /-- A table of constants between braces. -/
  | table (t : Table)
  | cell (sheet : Option String) (coord : Coord)
  | area (sheet : Option String) (corners : Corners)
  | name (word : String)
  | unary (op : UnaryOp) (operand : Expr)
  | binary (op : BinaryOp) (left right : Expr)
  /-- A function call; the function's name is in upper case. -/
  | call (function : String) (arguments : List Expr)
  /-- Several expressions between parentheses. -/
  | union (items : List Expr)
  deriving Repr, Inhabited

namespace Expr

mutual

/-- The expression and every expression in it, each before its parts. The constants of a table
count as expressions in it. -/
def nodes : Expr → List Expr
  | .literal s => [.literal s]
  | .table t => .table t :: t.toRows.flatten.map .literal
  | .cell sheet coord => [.cell sheet coord]
  | .area sheet corners => [.area sheet corners]
  | .name word => [.name word]
  | .unary op operand => .unary op operand :: operand.nodes
  | .binary op left right => .binary op left right :: (left.nodes ++ right.nodes)
  | .call function arguments => .call function arguments :: nodesOf arguments
  | .union items => .union items :: nodesOf items

/-- The nodes of several expressions, one after the other. -/
def nodesOf : List Expr → List Expr
  | [] => []
  | e :: es => e.nodes ++ nodesOf es

end

/-! ## Comparing expressions -/

mutual

/-- Whether two expressions have the same parts. -/
def same : Expr → Expr → Bool
  | .literal s, .literal s' => s = s'
  | .table t, .table t' => t = t'
  | .cell sheet coord, .cell sheet' coord' => sheet = sheet' ∧ coord = coord'
  | .area sheet corners, .area sheet' corners' => sheet = sheet' ∧ corners = corners'
  | .name word, .name word' => word = word'
  | .unary op operand, .unary op' operand' => op = op' && operand.same operand'
  | .binary op left right, .binary op' left' right' =>
    op = op' && left.same left' && right.same right'
  | .call function arguments, .call function' arguments' =>
    function = function' && sameAll arguments arguments'
  | .union items, .union items' => sameAll items items'
  | _, _ => false

/-- Whether the expressions of two lists have the same parts, one by one. -/
def sameAll : List Expr → List Expr → Bool
  | [], [] => true
  | e :: es, e' :: es' => e.same e' && sameAll es es'
  | _, _ => false

end

mutual

theorem same_iff (e e' : Expr) : e.same e' = true ↔ e = e' := by
  cases e with
  | literal | table | cell | area | name => cases e' <;> simp [same]
  | unary op operand => cases e' <;> simp [same, same_iff operand]
  | binary op left right => cases e' <;> simp [same, same_iff left, same_iff right, and_assoc]
  | call function arguments => cases e' <;> simp [same, sameAll_iff arguments]
  | union items => cases e' <;> simp [same, sameAll_iff items]

theorem sameAll_iff (es es' : List Expr) : sameAll es es' = true ↔ es = es' := by
  cases es with
  | nil => cases es' <;> simp [sameAll]
  | cons e es => cases es' <;> simp [sameAll, same_iff e, sameAll_iff es]

end

instance : DecidableEq Expr := fun e e' => decidable_of_iff _ (same_iff e e')

end Expr

end Spreadsheet.Formula

import SiteCatalog.Value

/-!
# Expressions

The code of a site: bodies of classes, nodes and defined types, and defaults of parameters.
-/

namespace SiteCatalog

/-- An expression or statement. The names of the parameters of a declaration are distinct. -/
inductive Expr
  /-- A constant. -/
  | literal (v : Value)
  /-- A variable: `x`, `a::b::x` of a class, or `::x` at the top. -/
  | var (name : String)
  /-- A string joined from the texts of its parts. -/
  | concat (parts : List Expr)
  /-- A list of values. -/
  | list (items : List Expr)
  /-- Statements in order; the last one gives the value. -/
  | block (statements : List Expr)
  /-- An assignment to a variable of the current scope. -/
  | assign (name : String) (value : Expr)
  /-- The inclusion of classes by name. -/
  | includes (names : List String)
  /-- The inclusion of a class with parameters. -/
  | classDecl (name : String) (params : List (String × Expr))
  /-- A resource or an instance of a defined type; a list of titles declares one for each. -/
  | declare (typeName : String) (title : Expr) (params : List (String × Expr))
  deriving Inhabited

end SiteCatalog

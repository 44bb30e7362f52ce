import SiteCatalog.Error
import SiteCatalog.Interpolation
import SiteCatalog.Yaml.Basic

/-!
# Values in manifests and facts

What YAML values mean: in a file of facts a value, in a manifest an expression, in which strings may
refer to variables. Numbers that are no signed 64-bit integers become their text, and so do mappings
and tagged data among facts; in a manifest a mapping is refused.
-/

namespace SiteCatalog.Yaml

mutual

/-- The value that a YAML value stands for. -/
def toValue : Yaml → Value
  | .null => .undefined
  | .bool b => .bool b
  | .number n => match n.toInt64? with
    | some i => .int i
    | none => .str n.text
  | .string s => .str s
  | .sequence items => .array (toValues items)
  | .mapping entries => .str (shown (.mapping entries))
  | .tagged tag value => .str (shown (.tagged tag value))

/-- The values that YAML values stand for. -/
def toValues : List Yaml → List Value
  | [] => []
  | item :: rest => toValue item :: toValues rest

end

mutual

/-- The expression that a YAML value stands for. -/
def toExpr : Yaml → Except CompileError Expr
  | .string s => .ok (interpolate s)
  | .sequence items => do
    let es ← toExprs items
    return .list es
  | .mapping _ => .error (.manifest .hashValue)
  | .null => .ok (.literal .undefined)
  | .bool b => .ok (.literal (.bool b))
  | .number n => .ok (.literal (toValue (.number n)))
  | .tagged tag value => .ok (.literal (toValue (.tagged tag value)))

/-- The expressions that YAML values stand for. -/
def toExprs : List Yaml → Except CompileError (List Expr)
  | [] => .ok []
  | item :: rest => do
    let e ← toExpr item
    let es ← toExprs rest
    return e :: es

end

end SiteCatalog.Yaml

/-!
# Sorted runs of code points

The two shapes in which tables of characters are kept: ranges, which a property holds on, and
runs with a stride, which a case mapping shifts. Both are looked up by walking an ascending list.
-/

namespace SiteCatalog.Text

/-- The code points from `first` to `last`, both included. -/
structure CharRange where
  first : Nat
  last : Nat

/-- Whether a code point lies in one of the ranges, which are in ascending order. -/
def CharRange.covers : List CharRange → Nat → Bool
  | [], _ => false
  | r :: rest, n => if n < r.first then false else if n ≤ r.last then true else covers rest n

/-- Every `stride`-th code point from `first` to `last`, and how far each is shifted. -/
structure CaseRun where
  first : Nat
  last : Nat
  stride : Nat
  shift : Int

/-- The shifted code point, if a run maps it. -/
def CaseRun.map? : List CaseRun → Nat → Option Nat
  | [], _ => none
  | r :: rest, n =>
    if n < r.first then none
    else if n ≤ r.last ∧ (n - r.first) % r.stride = 0 then some (n + r.shift).toNat
    else map? rest n

end SiteCatalog.Text

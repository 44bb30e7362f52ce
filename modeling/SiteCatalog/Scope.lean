import SiteCatalog.Descriptor
import SiteCatalog.Value

/-!
# Scopes

Environments of variables. A scope is named by its place; scope 0 is the top. Every other scope has
a parent, in which a variable is looked up that the scope itself does not bind. The scope in which a
class or node was evaluated is remembered.
-/

namespace SiteCatalog

/-- The place of a scope. -/
abbrev ScopeId := Nat

/-- The place of a resource in its catalog. -/
abbrev ResourceId := Nat

/-- One environment. -/
structure Scope where
  vars : Table Value := []
  parent : Option ScopeId := none
  /-- The type whose evaluation made the scope. -/
  source : Option TypeId := none
  dynamic : Bool := false
  /-- The name that relative names are looked up from. -/
  space : String := ""
  resource : Option ResourceId := none
  moduleName : Option String := none

/-- The scopes of a compilation. -/
structure Scopes where
  arena : List Scope
  /-- The scopes of evaluated classes and nodes. -/
  ofTypes : List (TypeId × ScopeId)

namespace Scopes

/-- The top scope. -/
def top : ScopeId := 0

/-- The top scope alone. -/
def initial : Scopes :=
  ⟨[{}], []⟩

/-- The scope at a place. -/
def get? (s : Scopes) (id : ScopeId) : Option Scope :=
  s.arena[id]?

/-- Changes the scope at a place. -/
def modify (s : Scopes) (id : ScopeId) (f : Scope → Scope) : Scopes :=
  { s with arena := s.arena.modify id f }

theorem get?_modify (s : Scopes) (id k : ScopeId) (f : Scope → Scope) :
    (s.modify id f).get? k = if k = id then (s.get? k).map f else s.get? k := by
  simp only [get?, modify, List.getElem?_modify, eq_comm (a := k)]
  split <;> simp

@[simp] theorem length_modify (s : Scopes) (id : ScopeId) (f : Scope → Scope) :
    (s.modify id f).arena.length = s.arena.length := by
  simp [modify]

theorem get?_modify_of_get? {s : Scopes} {k : ScopeId} {c : Scope} (h : s.get? k = some c)
    (id : ScopeId) (f : Scope → Scope) :
    (s.modify id f).get? k = some (if k = id then f c else c) := by
  rw [get?_modify, h]
  split <;> rfl

theorem exists_of_get?_modify {s : Scopes} {id k : ScopeId} {f : Scope → Scope} {c' : Scope}
    (h : (s.modify id f).get? k = some c') :
    ∃ c, s.get? k = some c ∧ c' = if k = id then f c else c := by
  rw [get?_modify] at h
  split at h
  · next heq =>
    obtain ⟨c, hc, rfl⟩ := Option.map_eq_some_iff.mp h
    exact ⟨c, hc, (if_pos heq).symm⟩
  · next hne => exact ⟨c', h, (if_neg hne).symm⟩

theorem lt_length_of_get? {s : Scopes} {k : Nat} {c : Scope} (h : s.get? k = some c) :
    k < s.arena.length :=
  (List.getElem?_eq_some_iff.mp h).1

/-- Adds a scope. -/
def push (s : Scopes) (scope : Scope) : ScopeId × Scopes :=
  (s.arena.length, { s with arena := s.arena ++ [scope] })

theorem get?_push (s : Scopes) (scope : Scope) (k : Nat) :
    (s.push scope).2.get? k = if k = s.arena.length then some scope else s.get? k :=
  getElem?_snoc ..

theorem get?_push_of_get? {s : Scopes} {k : Nat} {c : Scope} (h : s.get? k = some c)
    (scope : Scope) : (s.push scope).2.get? k = some c := by
  rw [get?_push, if_neg (Nat.ne_of_lt (lt_length_of_get? h)), h]

/-- After a scope has been added, every scope is an old one or the one that was added. -/
theorem old_or_new {s : Scopes} {k : Nat} {c new : Scope} (h : (s.push new).2.get? k = some c) :
    s.get? k = some c ∨ k = s.arena.length ∧ c = new := by
  rw [get?_push] at h
  split at h
  · next heq => exact .inr ⟨heq, (Option.some.inj h).symm⟩
  · exact .inl h

/-- Puts a scope below another. -/
def setParent (s : Scopes) (id parent : ScopeId) : Scopes :=
  s.modify id fun scope => { scope with parent := some parent }

/-- Binds a variable in a scope, whether or not it is bound there already. -/
def bind (s : Scopes) (id : ScopeId) (name : String) (value : Value) : Scopes :=
  s.modify id fun scope => { scope with vars := scope.vars.insert name value }

theorem get?_bind (s : Scopes) (id k : ScopeId) (name : String) (value : Value) :
    (s.bind id name value).get? k = if k = id then
      (s.get? k).map fun scope => { scope with vars := scope.vars.insert name value }
    else s.get? k :=
  get?_modify ..

theorem get?_setParent (s : Scopes) (id parent k : ScopeId) :
    (s.setParent id parent).get? k = if k = id then
      (s.get? k).map fun scope => { scope with parent := some parent }
    else s.get? k :=
  get?_modify ..

/-- The value that a scope itself binds a variable to. -/
def lookupLocal (s : Scopes) (id : ScopeId) (name : String) : Option Value :=
  (s.get? id).bind (·.vars.find? name)

/-- Binds a variable that its scope does not bind yet. -/
def assign (s : Scopes) (id : ScopeId) (name : String) (value : Value) :
    Except CompileError Scopes :=
  if (s.lookupLocal id name).isSome then .error (.variableReassignment name)
  else .ok (s.bind id name value)

/-- A scope and the scopes above it, nearest first, unless there are more than `fuel` of them. -/
def chain (s : Scopes) : Nat → Option ScopeId → Option (List ScopeId)
  | _, none => some []
  | 0, some _ => none
  | fuel + 1, some id => (chain s fuel ((s.get? id).bind (·.parent))).map (id :: ·)

/-- A scope and the scopes above it, nearest first. There are none to give where the scopes form a
ring, since the way upwards then never ends; a way that ends has no more scopes than there are, and
one that is missing. -/
def path (s : Scopes) (id : ScopeId) : Option (List ScopeId) :=
  s.chain (s.arena.length + 1) (some id)

/-- The scopes above a scope, nearest first, if the way upwards ends. -/
def ancestors (s : Scopes) (id : ScopeId) : Option (List ScopeId) :=
  (s.path id).map List.tail

/-- The value of a variable in the first scope that binds it, from a scope upwards, unless more than
`fuel` scopes have to be asked. -/
def lookupUpward (s : Scopes) (name : String) : Nat → Option ScopeId → Option (Option Value)
  | _, none => some none
  | 0, some _ => none
  | fuel + 1, some id =>
    match s.lookupLocal id name with
    | some v => some (some v)
    | none => lookupUpward s name fuel ((s.get? id).bind (·.parent))

/-- The value of a variable in a scope: the nearest binding on the way to the top. There is no answer
where the way runs into a ring of scopes that do not bind it, since the search then never ends. -/
def lookup (s : Scopes) (id : ScopeId) (name : String) : Option (Option Value) :=
  s.lookupUpward name (s.arena.length + 1) (some id)

/-- The module of the nearest scope that has one. All scopes on the way are gathered first, so that
there is no answer if the way never ends. -/
def moduleName (s : Scopes) (id : ScopeId) : Option (Option String) :=
  (s.path id).map fun way => way.findSome? fun i => (s.get? i).bind (·.moduleName)

/-- The scope in which a class or node was evaluated. -/
def ofType? (s : Scopes) (type : TypeId) : Option ScopeId :=
  s.ofTypes.lookup type

/-- Remembers the scope in which a class or node was evaluated. -/
def setOfType (s : Scopes) (type : TypeId) (id : ScopeId) : Scopes :=
  { s with ofTypes := (type, id) :: s.ofTypes.filter fun entry => entry.1 != type }

theorem lookup_filter_ne (l : List (TypeId × ScopeId)) {type other : TypeId} (h : other ≠ type) :
    (l.filter fun entry => entry.1 != type).lookup other = l.lookup other := by
  induction l with
  | nil => rfl
  | cons e rest ih =>
    obtain ⟨t, k⟩ := e
    by_cases ht : t = type
    · subst ht
      have hne : (other == t) = false := beq_eq_false_iff_ne.mpr h
      simpa [List.lookup_cons, hne] using ih
    · by_cases ho : other = t <;> simp [ht, ho, List.lookup_cons, ih]

theorem ofType?_setOfType (s : Scopes) (type other : TypeId) (id : ScopeId) :
    (s.setOfType type id).ofType? other = if other = type then some id else s.ofType? other := by
  split
  · next h => simp [ofType?, setOfType, h]
  · next h =>
    have hne : (other == type) = false := beq_eq_false_iff_ne.mpr h
    rw [ofType?, setOfType, List.lookup_cons, hne, lookup_filter_ne _ h, ofType?]

end Scopes

end SiteCatalog

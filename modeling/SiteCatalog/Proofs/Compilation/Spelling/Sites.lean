import SiteCatalog.Proofs.Compilation.Parameters
import SiteCatalog.Proofs.Compilation.Renaming

/-!
# Declarations that spell out a default

A declaration of a class or an instance may leave out a parameter whose default is a constant, or
pass the constant. Defaults of parameters that are declared before it must not look at it: where
the parameter is passed they see its value already.

Results:
* `Spelled`, `Registry.Spelled`: code and sites that differ in that.
* `Spelled.refl`: nothing has to be spelled out.
* `Registry.FoundLike.find_eq`, `Registry.FoundLike.nodeFor_eq`: types are found as before.
-/

namespace SiteCatalog

/-! ## Lists place by place -/

/-- Two lists with as many places, of which `R` relates those in the same place. -/
def Pointwise {α β : Type} (R : ℕ → α → β → Prop) (l : List α) (l' : List β) : Prop :=
  ∀ i, Option.Rel (R i) l[i]? l'[i]?

namespace Pointwise

variable {α β γ : Type} {R R' : ℕ → α → β → Prop} {l : List α} {l' : List β} {i : ℕ}

theorem of_forall (l : List α) {R : ℕ → α → α → Prop} (h : ∀ i, ∀ a ∈ l, R i a a) :
    Pointwise R l l := by
  intro i
  cases hi : l[i]? with
  | none => exact .none
  | some a => exact .some (h i a (List.mem_of_getElem? hi))

theorem map_eq (h : Pointwise R l l') {f : α → γ} {g : β → γ}
    (hf : ∀ i a b, R i a b → f a = g b) : l.map f = l'.map g := by
  refine List.ext_getElem? fun i => ?_
  rw [List.getElem?_map, List.getElem?_map]
  have hi := h i
  generalize l[i]? = o, l'[i]? = o' at hi
  cases hi with
  | none => rfl
  | some hR => exact congrArg some (hf i _ _ hR)

theorem length_eq (h : Pointwise R l l') : l.length = l'.length := by
  have hmap := congrArg List.length
    (h.map_eq (f := fun _ => ()) (g := fun _ => ()) fun _ _ _ _ => rfl)
  rwa [List.length_map, List.length_map] at hmap

theorem findIdx?_eq (h : Pointwise R l l') {p : α → Bool} {p' : β → Bool}
    (hp : ∀ i a b, R i a b → p a = p' b) : l.findIdx? p = l'.findIdx? p' := by
  have hmap := congrArg (List.findIdx? id) (h.map_eq hp)
  rwa [List.findIdx?_map, List.findIdx?_map] at hmap

theorem mono (h : Pointwise R l l')
    (hR : ∀ i a b, l[i]? = some a → l'[i]? = some b → R i a b → R' i a b) : Pointwise R' l l' := by
  intro i
  have hi := h i
  have hRi := hR i
  generalize l[i]? = o, l'[i]? = o' at hi hRi ⊢
  cases hi with
  | none => exact .none
  | some hab => exact .some (hRi _ _ rfl rfl hab)

theorem modify (h : Pointwise R l l') {f : α → α} {g : β → β}
    (hother : ∀ j a b, j ≠ i → R j a b → R' j a b)
    (hR : ∀ a b, l[i]? = some a → l'[i]? = some b → R i a b → R' i (f a) (g b)) :
    Pointwise R' (l.modify i f) (l'.modify i g) := by
  intro j
  rw [List.getElem?_modify, List.getElem?_modify]
  split
  · next hij =>
    subst hij
    have hi := h i
    generalize l[i]? = o, l'[i]? = o' at hi hR
    cases hi with
    | none => exact .none
    | some hab => exact .some (hR _ _ rfl rfl hab)
  · next hij =>
    show Option.Rel (R' j) (id <$> l[j]?) (id <$> l'[j]?)
    rw [id_map, id_map]
    have hj := h j
    generalize l[j]? = o, l'[j]? = o' at hj
    cases hj with
    | none => exact .none
    | some hab => exact .some (hother j _ _ (Ne.symm hij) hab)

theorem concat (h : Pointwise R l l') {a : α} {b : β} (hR : R l.length a b) :
    Pointwise R (l ++ [a]) (l' ++ [b]) := by
  intro i
  rw [List.getElem?_append, List.getElem?_append, ← h.length_eq]
  split
  · exact h i
  · next hi =>
    rcases Nat.eq_or_lt_of_le (Nat.not_lt.mp hi) with rfl | hlt
    · rw [Nat.sub_self]
      exact .some hR
    · obtain ⟨n, hn⟩ := Nat.exists_eq_add_of_lt hlt
      rw [hn, show l.length + n + 1 - l.length = n + 1 by omega]
      exact .none

end Pointwise

/-! ## Finding types -/

namespace Registry

/-- The types of two registries are found in the same way. -/
def FoundLike (r r' : Registry) : Prop :=
  Pointwise (fun _ d d' => d'.FoundLike d) r.types r'.types

namespace FoundLike

variable {r r' : Registry} (h : r.FoundLike r') {kind : Kind}

include h

theorem lookup_eq : r.lookup kind = r'.lookup kind :=
  funext fun _ => Pointwise.findIdx?_eq h fun _ _ _ hd => by rw [hd.kind, hd.key]

theorem find_eq : r.find kind = r'.find kind := by
  funext space name
  rw [find, find, h.lookup_eq]

theorem nodeFor_eq : r.nodeFor = r'.nodeFor := by
  funext names
  have hfitting : r.types.findIdx? (IsFitting names) = r'.types.findIdx? (IsFitting names) :=
    Pointwise.findIdx?_eq h fun _ _ _ hd => (isFitting_of_foundLike hd).symm
  rw [Registry.nodeFor_eq, Registry.nodeFor_eq, h.lookup_eq, hfitting]

theorem idsOf_eq : r.idsOf = r'.idsOf := by
  funext kind
  rw [idsOf, idsOf, Pointwise.length_eq h]
  refine congrArg (List.filter · _) (funext fun t => ?_)
  have ht : Option.Rel _ (r.get? t) (r'.get? t) := h t
  generalize r.get? t = o, r'.get? t = o' at ht
  cases ht with
  | none => rfl
  | some hd => exact congrArg (decide <| · = kind) hd.kind.symm

end FoundLike

/-- The registry with the unnamed class, which a compilation adds where there is no top-level code.
-/
def withMain (r : Registry) : Registry :=
  match r.lookup .hostclass "" with
  | some _ => r
  | none => { r with types := r.types ++ [.ofName .hostclass ""] }

end Registry

/-! ## Defaults that are spelled out -/

/-- A parameter of a class or a defined type whose default is a constant. -/
structure LiteralDefault (types : Registry) where
  type : TypeId
  descriptor : Descriptor
  param : String
  value : Value
  before : Table (Option Expr)
  after : Table (Option Expr)
  known : types.get? type = some descriptor
  parameters : descriptor.parameters = before ++ (param, some (.literal value)) :: after
  distinct : descriptor.parameters.keys.Nodup

namespace LiteralDefault

variable {types : Registry} (D : LiteralDefault types)

theorem not_mem_keys : D.param ∉ D.before.keys ∧ D.param ∉ D.after.keys := by
  have hdistinct := D.distinct
  rw [D.parameters, Table.keys, List.map_append, List.map_cons, List.nodup_append] at hdistinct
  obtain ⟨-, hafter, hdisjoint⟩ := hdistinct
  exact ⟨fun hmem => hdisjoint _ hmem _ List.mem_cons_self rfl, (List.nodup_cons.mp hafter).1⟩

end LiteralDefault

mutual

/-- An expression that neither looks at a variable nor assigns it, and that includes and declares
nothing. -/
def Expr.ignores (name : String) : Expr → Bool
  | .literal _ => true
  | .var other => other ≠ name
  | .concat parts => allIgnore name parts
  | .list items => allIgnore name items
  | .block statements => allIgnore name statements
  | .assign other value => other ≠ name && ignores name value
  | .includes _ => false
  | .classDecl _ _ => false
  | .declare _ _ _ => false

/-- The same for expressions in order. -/
def Expr.allIgnore (name : String) : List Expr → Bool
  | [] => true
  | e :: rest => ignores name e && allIgnore name rest

end

variable {types : Registry} (D : LiteralDefault types) (space : String)

/-- The parameter may be added to a declaration with these parameters: it is not among them, and the
defaults that come before it and count do not look at it. -/
def LiteralDefault.Omitted (names : List String) : Prop :=
  D.param ∉ names ∧ ∀ q ∈ D.before, q.1 ∉ names → ∀ e, q.2 = some e → e.ignores D.param = true

mutual

/-- The second expression is the first one, where the default of `D` is passed in some declarations
of its type. Names are looked up from a namespace. -/
inductive Spelled : Expr → Expr → Prop
  | literal (v : Value) : Spelled (.literal v) (.literal v)
  | var (name : String) : Spelled (.var name) (.var name)
  | includes (names : List String) : Spelled (.includes names) (.includes names)
  | concat {parts parts' : List Expr} (h : AllSpelled parts parts') :
      Spelled (.concat parts) (.concat parts')
  | list {items items' : List Expr} (h : AllSpelled items items') :
      Spelled (.list items) (.list items')
  | block {es es' : List Expr} (h : AllSpelled es es') : Spelled (.block es) (.block es')
  | assign {e e' : Expr} (name : String) (h : Spelled e e') :
      Spelled (.assign name e) (.assign name e')
  | classDecl {params params' : List (String × Expr)} (name : String)
      (h : ParamsSpelled params params') :
      Spelled (.classDecl name params) (.classDecl name params')
  | declare {title title' : Expr} {params params' : List (String × Expr)} (typeName : String)
      (ht : Spelled title title') (h : ParamsSpelled params params') :
      Spelled (.declare typeName title params) (.declare typeName title' params')
  /-- The class is declared by name. -/
  | addToClass {name : String} {params front back : List (String × Expr)}
      (names : types.withMain.find .hostclass space name = some D.type)
      (omitted : D.Omitted (params.map (·.1))) (h : ParamsSpelled params (front ++ back)) :
      Spelled (.classDecl name params)
        (.classDecl name (front ++ (D.param, .literal D.value) :: back))
  /-- The class is declared like a resource, with a title that does not depend on variables. -/
  | addToClasses {typeName : String} {title : Expr} {v : Value}
      {params front back : List (String × Expr)}
      (isClass : Name.sameIgnoringCase typeName "class" = true) (plain : title.isPlain = true)
      (constant : ∀ look : String → Except Compilation.Failure Value, title.valueIn look = .ok v)
      (names : ∀ t ∈ Compilation.titles v,
        types.withMain.find .hostclass space t.text = some D.type)
      (omitted : D.Omitted (params.map (·.1))) (h : ParamsSpelled params (front ++ back)) :
      Spelled (.declare typeName title params)
        (.declare typeName title (front ++ (D.param, .literal D.value) :: back))
  /-- Instances of the defined type are declared. -/
  | addToInstances {typeName : String} {title title' : Expr}
      {params front back : List (String × Expr)}
      (notClass : Name.sameIgnoringCase typeName "class" = false)
      (names : types.withMain.find .define space typeName = some D.type)
      (omitted : D.Omitted (params.map (·.1))) (ht : Spelled title title')
      (h : ParamsSpelled params (front ++ back)) :
      Spelled (.declare typeName title params)
        (.declare typeName title' (front ++ (D.param, .literal D.value) :: back))

/-- The same for expressions in order. -/
inductive AllSpelled : List Expr → List Expr → Prop
  | nil : AllSpelled [] []
  | cons {e e' : Expr} {rest rest' : List Expr} (h : Spelled e e') (hrest : AllSpelled rest rest') :
      AllSpelled (e :: rest) (e' :: rest')

/-- The same for parameters in order. -/
inductive ParamsSpelled : List (String × Expr) → List (String × Expr) → Prop
  | nil : ParamsSpelled [] []
  | cons {param param' : String × Expr} {rest rest' : List (String × Expr)}
      (name : param'.1 = param.1) (h : Spelled param.2 param'.2) (hrest : ParamsSpelled rest rest') :
      ParamsSpelled (param :: rest) (param' :: rest')

end

mutual

/-- The same for bodies. -/
inductive BodySpelled : Body → Body → Prop
  | code {e e' : Expr} (h : Spelled D space e e') : BodySpelled (.code e) (.code e')
  | linked (b : LinkedBody) : BodySpelled (.linked b) (.linked b)
  | sequence {parts parts' : List Body} (h : BodiesSpelled parts parts') :
      BodySpelled (.sequence parts) (.sequence parts')

/-- The same for bodies in order. -/
inductive BodiesSpelled : List Body → List Body → Prop
  | nil : BodiesSpelled [] []
  | cons {b b' : Body} {rest rest' : List Body} (h : BodySpelled b b')
      (hrest : BodiesSpelled rest rest') : BodiesSpelled (b :: rest) (b' :: rest')

end

/-- The namespace that the names in a body are looked up from: that of the type, or the top for the
unnamed class. -/
def Descriptor.bodySpace (d : Descriptor) : String :=
  if d.kind = .hostclass ∧ d.resourceTitle = mainTitle then "" else d.space

/-- The same for types: only bodies differ. -/
def LiteralDefault.TypeSpelled (d d' : Descriptor) : Prop :=
  ∃ body, d' = { d with body } ∧ Option.Rel (BodySpelled D d.bodySpace) d.body body

/-- The second site is the first one, where some declarations in bodies pass the default of `D`. -/
def LiteralDefault.SiteSpelled (types' : Registry) : Prop :=
  Pointwise (fun _ => D.TypeSpelled) types.types types'.types

namespace Registry

theorem withMain_of_some {r : Registry} {t : TypeId} (h : r.lookup .hostclass "" = some t) :
    r.withMain = r := by
  rw [withMain, h]

theorem withMain_of_none {r : Registry} (h : r.lookup .hostclass "" = none) :
    r.withMain = { r with types := r.types ++ [.ofName .hostclass ""] } := by
  rw [withMain, h]

theorem get?_withMain {r : Registry} {t : TypeId} {d : Descriptor} (h : r.get? t = some d) :
    r.withMain.get? t = some d := by
  cases hmain : r.lookup .hostclass "" with
  | some _ => rwa [withMain_of_some hmain]
  | none =>
    rw [withMain_of_none hmain]
    exact get?_append_of_get? h _

end Registry

/-! ## Nothing is spelled out -/

mutual

theorem Spelled.refl : ∀ e : Expr, Spelled D space e e
  | .literal v => .literal v
  | .var name => .var name
  | .concat parts => .concat (AllSpelled.refl parts)
  | .list items => .list (AllSpelled.refl items)
  | .block statements => .block (AllSpelled.refl statements)
  | .assign name value => .assign name (Spelled.refl value)
  | .includes names => .includes names
  | .classDecl name params => .classDecl name (ParamsSpelled.refl params)
  | .declare type title params => .declare type (Spelled.refl title) (ParamsSpelled.refl params)
termination_by structural e => e

theorem AllSpelled.refl : ∀ es : List Expr, AllSpelled D space es es
  | [] => .nil
  | e :: rest => .cons (Spelled.refl e) (AllSpelled.refl rest)
termination_by structural es => es

theorem ParamsSpelled.refl : ∀ params : List (String × Expr), ParamsSpelled D space params params
  | [] => .nil
  | param :: rest => .cons rfl (ParamsSpelled.refl_param param) (ParamsSpelled.refl rest)
termination_by structural params => params

theorem ParamsSpelled.refl_param : ∀ param : String × Expr, Spelled D space param.2 param.2
  | (_, e) => Spelled.refl e
termination_by structural param => param

end

mutual

theorem BodySpelled.refl : ∀ b : Body, BodySpelled D space b b
  | .code e => .code (.refl D space e)
  | .linked b => .linked b
  | .sequence parts => .sequence (BodiesSpelled.refl parts)
termination_by structural b => b

theorem BodiesSpelled.refl : ∀ parts : List Body, BodiesSpelled D space parts parts
  | [] => .nil
  | b :: rest => .cons (BodySpelled.refl b) (BodiesSpelled.refl rest)
termination_by structural parts => parts

end

theorem LiteralDefault.TypeSpelled.refl (d : Descriptor) : D.TypeSpelled d d := by
  refine ⟨d.body, rfl, ?_⟩
  cases d.body with
  | none => exact .none
  | some b => exact .some (.refl D _ b)

theorem LiteralDefault.TypeSpelled.foundLike {d d' : Descriptor} (h : D.TypeSpelled d d') :
    d'.FoundLike d := by
  obtain ⟨body, rfl, -⟩ := h
  exact ⟨rfl, rfl, rfl⟩

end SiteCatalog

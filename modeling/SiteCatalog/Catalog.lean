import SiteCatalog.Scope

/-!
# Catalogs

The resources of one host. There is at most one resource for each identity, which is the tag and
the title; titles of classes and nodes are compared by their small letters. A catalog also lists
the tags of the classes that were included and the classes and nodes that were evaluated.
-/

namespace SiteCatalog

/-- A resource of a catalog. -/
structure Resource where
  tag : String
  title : String
  params : Table Value
  evaluated : Bool
  /-- The scope in which it was declared. -/
  scope : ScopeId
  /-- The class, node or defined type that it is an instance of. -/
  source : Option TypeId

namespace Resource

/-- A resource of a type, declared in a scope. -/
def ofType (type title : String) (scope : ScopeId) (source : Option TypeId) (params : Table Value) :
    Resource :=
  { tag := Name.tag type, title, params, evaluated := false, scope, source }

/-- How a resource is referred to. -/
def reference (r : Resource) : String :=
  r.tag ++ "[" ++ r.title ++ "]"

/-- The parameter `name`, if it is given and defined, and the title otherwise. -/
def name (r : Resource) : String :=
  match r.params.find? "name" with
  | some v => if v.isUndefined then r.title else v.text
  | none => r.title

end Resource

/-- What tells resources apart. -/
abbrev Identity := String × String

/-- The identity of a resource of a type with a title. -/
def Identity.of (type title : String) : Identity :=
  let tag := Name.tag type
  (tag, if tag = "Class" ∨ tag = "Node" then Name.lowercase title else title)

/-- The identity of a resource. -/
def Resource.identity (r : Resource) : Identity :=
  Identity.of r.tag r.title

/-- The realized resources of one host. -/
structure Catalog where
  name : String
  version : Option String
  resources : List Resource
  tags : List String
  classes : List String

namespace Catalog

/-- A catalog without resources. -/
def empty (name : String) : Catalog :=
  ⟨name, none, [], [], []⟩

/-- The resource of a type with a title. -/
def resource? (c : Catalog) (type title : String) : Option ResourceId :=
  let identity := Identity.of type title
  c.resources.findIdx? fun r => r.identity = identity

/-- The resource at a place. -/
def get? (c : Catalog) (id : ResourceId) : Option Resource :=
  c.resources[id]?

/-- Changes the resource at a place. -/
def modify (c : Catalog) (id : ResourceId) (f : Resource → Resource) : Catalog :=
  { c with resources := c.resources.modify id f }

theorem get?_modify (c : Catalog) (id i : ResourceId) (f : Resource → Resource) :
    (c.modify id f).get? i = if i = id then (c.get? i).map f else c.get? i := by
  simp only [get?, modify, List.getElem?_modify, eq_comm (a := i)]
  split <;> simp

@[simp] theorem length_modify (c : Catalog) (id : ResourceId) (f : Resource → Resource) :
    (c.modify id f).resources.length = c.resources.length := by
  simp [modify]

theorem lt_length_of_get? {c : Catalog} {id : Nat} {r : Resource} (h : c.get? id = some r) :
    id < c.resources.length :=
  (List.getElem?_eq_some_iff.mp h).1

/-- Adds a resource at the end. -/
def append (c : Catalog) (r : Resource) : Catalog :=
  { c with resources := c.resources ++ [r] }

theorem get?_append (c : Catalog) (r : Resource) (id : Nat) :
    (c.append r).get? id = if id = c.resources.length then some r else c.get? id :=
  getElem?_snoc ..

theorem get?_append_of_get? {c : Catalog} {id : Nat} {r : Resource} (h : c.get? id = some r)
    (new : Resource) : (c.append new).get? id = some r := by
  rw [get?_append, if_neg (Nat.ne_of_lt (lt_length_of_get? h)), h]

/-- After a resource has been added, every resource is an old one or the one that was added. -/
theorem old_or_new {c : Catalog} {id : Nat} {r new : Resource}
    (h : (c.append new).get? id = some r) :
    c.get? id = some r ∨ id = c.resources.length ∧ r = new := by
  rw [get?_append] at h
  split at h
  · next heq => exact .inr ⟨heq, (Option.some.inj h).symm⟩
  · exact .inl h

/-- Resources stay where they are when others come after them. -/
theorem get?_of_resources_append {c c' : Catalog} {new : List Resource}
    (hres : c'.resources = c.resources ++ new) {id : Nat} {r : Resource}
    (h : c.get? id = some r) : c'.get? id = some r := by
  rw [get?, hres, List.getElem?_append_left (lt_length_of_get? h)]
  exact h

theorem old_or_mem {c c' : Catalog} {new : List Resource}
    (hres : c'.resources = c.resources ++ new) {id : Nat} {r : Resource}
    (h : c'.get? id = some r) : c.get? id = some r ∨ r ∈ new := by
  rw [get?, hres, List.getElem?_append] at h
  split at h
  · exact .inl h
  · exact .inr (List.mem_of_getElem? h)

/-- Adds a resource whose identity is new. -/
def add (c : Catalog) (r : Resource) : Except CompileError (ResourceId × Catalog) :=
  if c.resources.any fun s => s.identity = r.identity then .error (.duplicateResource r.reference)
  else .ok (c.resources.length, c.append r)

theorem add_eq_ok {c : Catalog} {r : Resource} {x : ResourceId × Catalog} (h : c.add r = .ok x) :
    x = (c.resources.length, c.append r) ∧
      ∀ id r', c.get? id = some r' → r'.identity ≠ r.identity := by
  unfold add at h
  split at h
  · cases h
  · next hnew =>
    cases h
    refine ⟨rfl, fun id r' hr' heq => hnew ?_⟩
    rw [List.any_eq_true]
    exact ⟨r', List.mem_of_getElem? hr', decide_eq_true heq⟩

/-- Sets a parameter of a resource. -/
def setParameter (c : Catalog) (id : ResourceId) (param : String) (value : Value) : Catalog :=
  c.modify id fun r => { r with params := r.params.insert param value }

/-- Notes that a resource is being evaluated. -/
def markEvaluated (c : Catalog) (id : ResourceId) : Catalog :=
  c.modify id fun r => { r with evaluated := true }

/-- Adds a text to a list that holds each text once. -/
def addOnce (texts : List String) (text : String) : List String :=
  if texts.contains text then texts else texts ++ [text]

/-- Tags the catalog with names, in small letters. -/
def tag (c : Catalog) (names : List String) : Catalog :=
  { c with tags := names.foldl (fun tags name => addOnce tags (Name.lowercase name)) c.tags }

theorem prefix_addOnce (texts : List String) (text : String) : texts <+: addOnce texts text := by
  rw [addOnce]
  split
  · exact List.prefix_refl _
  · exact List.prefix_append _ _

theorem mem_addOnce {texts : List String} {text x : String} :
    x ∈ addOnce texts text ↔ x ∈ texts ∨ x = text := by
  rw [addOnce]
  split
  · next h =>
    have hmem : text ∈ texts := by simpa using h
    exact ⟨.inl, fun hx => hx.elim id fun heq => heq ▸ hmem⟩
  · simp

theorem tags_prefix_tag (c : Catalog) (names : List String) : c.tags <+: (c.tag names).tags := by
  show c.tags <+: names.foldl (fun tags name => addOnce tags (Name.lowercase name)) c.tags
  generalize c.tags = tags
  induction names generalizing tags with
  | nil => exact List.prefix_refl _
  | cons name rest ih => exact (prefix_addOnce tags _).trans (ih _)

/-- Whether the catalog has a tag. -/
def isTagged (c : Catalog) (name : String) : Bool :=
  c.tags.contains (Name.lowercase name)

/-- Lists a class or node as evaluated. -/
def addClass (c : Catalog) (title : String) : Catalog :=
  { c with classes := addOnce c.classes title }

/-- The resources that are instances of a type and have not been evaluated. -/
def unevaluated (c : Catalog) : List ResourceId :=
  (List.range c.resources.length).filter fun id =>
    (c.get? id).any fun r => r.source.isSome && !r.evaluated

end Catalog

end SiteCatalog

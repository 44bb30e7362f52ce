/-!
# Tables

Maps from names to values that keep the order in which the names were first inserted. Results:

* `find?_insert_self`, `find?_insert_of_ne`: what an insertion does to look-up.
* `keys_insert`: it appends a new name and leaves the place of an old one.
-/

namespace SiteCatalog

/-- Named values in order; no name occurs twice in a table built by `insert`. -/
abbrev Table (α : Type) := List (String × α)

namespace Table

variable {α : Type}

/-- The value of a name. -/
def find? : Table α → String → Option α
  | [], _ => none
  | (k, v) :: rest, name => if k = name then some v else find? rest name

/-- Whether a name has a value. -/
def has (t : Table α) (name : String) : Bool :=
  (t.find? name).isSome

/-- Gives a name a value: in place if it has one already, at the end otherwise. -/
def insert : Table α → String → α → Table α
  | [], name, value => [(name, value)]
  | (k, v) :: rest, name, value =>
    if k = name then (k, value) :: rest else (k, v) :: insert rest name value

/-- The names in order. -/
def keys (t : Table α) : List String :=
  t.map (·.1)

/-- The table of a list of entries: a repeated name keeps its first place and its last value. -/
def ofList (entries : List (String × α)) : Table α :=
  entries.foldl (fun t e => t.insert e.1 e.2) []

theorem find?_insert_self (t : Table α) (name : String) (value : α) :
    (t.insert name value).find? name = some value := by
  induction t with
  | nil => simp [insert, find?]
  | cons e rest ih =>
    obtain ⟨k, v⟩ := e
    by_cases h : k = name <;> simp [insert, find?, h, ih]

theorem find?_insert_of_ne (t : Table α) {name other : String} (value : α) (h : name ≠ other) :
    (t.insert name value).find? other = t.find? other := by
  induction t with
  | nil => simp [insert, find?, h]
  | cons e rest ih =>
    obtain ⟨k, v⟩ := e
    by_cases hk : k = name
    · subst hk; simp [insert, find?, h]
    · simp [insert, find?, hk, ih]

theorem keys_insert (t : Table α) (name : String) (value : α) :
    (t.insert name value).keys = if name ∈ t.keys then t.keys else t.keys ++ [name] := by
  induction t with
  | nil => simp [insert, keys]
  | cons e rest ih =>
    obtain ⟨k, v⟩ := e
    by_cases hk : k = name
    · subst hk; simp [insert, keys]
    · have hk' : name ≠ k := fun h => hk h.symm
      have ih' : (insert rest name value).map (·.1)
          = if name ∈ rest.map (·.1) then rest.map (·.1) else rest.map (·.1) ++ [name] := ih
      by_cases hm : name ∈ rest.map (·.1) <;> simp_all [insert, keys]

end Table

end SiteCatalog

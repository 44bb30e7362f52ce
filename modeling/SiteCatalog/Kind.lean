/-!
# Kinds of constructs

The three kinds of named constructs that a site declares.
-/

namespace SiteCatalog

/-- A class, a node definition or a defined type. -/
inductive Kind
  | hostclass
  | node
  | define
  deriving DecidableEq, Repr

namespace Kind

/-- The word for the kind in messages and listings. -/
def text : Kind → String
  | hostclass => "class"
  | node => "node"
  | define => "define"

/-- The word for the kind in documents. -/
def documentText : Kind → String
  | hostclass => "hostclass"
  | node => "node"
  | define => "definition"

/-- The kind that a user names; both words of a kind are understood. -/
def ofText? (s : String) : Option Kind :=
  if s = "class" ∨ s = "hostclass" then some hostclass
  else if s = "node" then some node
  else if s = "define" ∨ s = "definition" then some define
  else none

/-- The kind that a document names. -/
def ofDocumentText? (s : String) : Option Kind :=
  if s = "hostclass" then some hostclass
  else if s = "node" then some node
  else if s = "definition" then some define
  else none

end Kind

end SiteCatalog

import SiteCatalog.Yaml.Token.Scan

/-!
# Nodes

The documents that the tokens of a YAML text form. Anchors and aliases are kept as names, and short
tags are written out.
-/

namespace SiteCatalog.Yaml

/-- What a node says about itself. -/
structure Props where
  anchor : Option (List Char) := none
  tag : Option (List Char) := none

/-- A node of a document. -/
inductive Node
  | alias (name : List Char)
  | scalar (props : Props) (text : List Char) (quoting : Quoting)
  | sequence (props : Props) (items : List Node)
  | mapping (props : Props) (entries : List (Node × Node))

/-- What the handles of tags stand for in a document. -/
abbrev Handles := List (List Char × List Char)

/-- The handles that every document has unless it says otherwise. -/
def standardHandles : Handles :=
  [(['!'], ['!']), (['!', '!'], "tag:yaml.org,2002:".toList)]

/-- The tag that a handle and a suffix write. -/
def expandTag? (handles : Handles) (handle suffix : List Char) : Option (List Char) :=
  if handle.isEmpty then some suffix else (handles.lookup handle).map (· ++ suffix)

/-- A node without any text. -/
def Node.empty (props : Props) : Node :=
  .scalar props [] .plain

namespace Node

/-- Reads the anchor and the tag of a node, in either order. -/
def props? (handles : Handles) : List Token → Option (Props × List Token)
  | .anchor a :: .tag h t :: rest => do
    return ({ anchor := a, tag := ← expandTag? handles h t }, rest)
  | .tag h t :: .anchor a :: rest => do
    return ({ anchor := a, tag := ← expandTag? handles h t }, rest)
  | .anchor a :: rest => some ({ anchor := a }, rest)
  | .tag h t :: rest => do
    return ({ tag := ← expandTag? handles h t }, rest)
  | tokens => some ({}, tokens)

/-- Whether a token ends a value in a block mapping. -/
def endsEntry : Option Token → Bool
  | some .key => true
  | some .value => true
  | some .blockEnd => true
  | none => false
  | _ => false

/-- Whether a token ends an item of a sequence that is not indented. -/
def endsItem (t : Option Token) : Bool :=
  t = some .blockEntry || endsEntry t

/-- Whether a token ends an item in square brackets. -/
def endsFlowItem (t : Option Token) : Bool :=
  t = some .flowEntry || t = some .flowSequenceEnd

/-- Whether a token ends an entry in braces. -/
def endsFlowEntry (t : Option Token) : Bool :=
  t = some .flowEntry || t = some .flowMappingEnd

/-- The scalar that a token writes; the tag of an exclamation mark alone makes it plain. -/
def ofScalar (props : Props) (text : List Char) (quoting : Quoting) : Node :=
  if props.tag = some ['!'] then .scalar { props with tag := none } text quoting
  else .scalar props text quoting

mutual

/-- Reads a node. `block` allows collections in block form, `unindented` a sequence that is no
deeper than the mapping around it. `fuel` bounds the depth of the reading. -/
def node? (handles : Handles) (block unindented : Bool) :
    Nat → List Token → Option (Node × List Token)
  | 0, _ => none
  | _ + 1, .alias name :: rest => some (.alias name, rest)
  | fuel + 1, tokens => do
    let (props, tokens) ← props? handles tokens
    match tokens with
    | .scalar text quoting :: rest => return (ofScalar props text quoting, rest)
    | .flowSequence :: rest =>
      let (items, rest) ← flowItems? handles fuel true rest
      return (.sequence props items, rest)
    | .flowMapping :: rest =>
      let (entries, rest) ← flowEntries? handles fuel true rest
      return (.mapping props entries, rest)
    | .blockEntry :: rest =>
      if unindented then
        let (items, rest) ← looseItems? handles fuel (.blockEntry :: rest)
        return (.sequence props items, rest)
      else bare? props (.blockEntry :: rest)
    | .blockSequence :: rest =>
      if block then
        let (items, rest) ← blockItems? handles fuel rest
        return (.sequence props items, rest)
      else bare? props (.blockSequence :: rest)
    | .blockMapping :: rest =>
      if block then
        let (entries, rest) ← blockEntries? handles fuel rest
        return (.mapping props entries, rest)
      else bare? props (.blockMapping :: rest)
    | rest => bare? props rest

/-- A node that consists of an anchor or a tag only. -/
def bare? (props : Props) (tokens : List Token) : Option (Node × List Token) :=
  if props.anchor.isSome || props.tag.isSome then some (.empty props, tokens) else none

/-- Reads the items of a block sequence and its end. -/
def blockItems? (handles : Handles) : Nat → List Token → Option (List Node × List Token)
  | 0, _ => none
  | _ + 1, .blockEnd :: rest => some ([], rest)
  | fuel + 1, .blockEntry :: rest => do
    let next := rest.head?
    let (item, rest) ←
      if next = some .blockEntry || next = some .blockEnd then some (Node.empty {}, rest)
      else node? handles true false fuel rest
    let (items, rest) ← blockItems? handles fuel rest
    return (item :: items, rest)
  | _ + 1, _ => none

/-- Reads the items of a sequence that is not indented. -/
def looseItems? (handles : Handles) : Nat → List Token → Option (List Node × List Token)
  | 0, _ => none
  | fuel + 1, .blockEntry :: rest => do
    let (item, rest) ←
      if endsItem rest.head? then some (Node.empty {}, rest)
      else node? handles true false fuel rest
    let (items, rest) ← looseItems? handles fuel rest
    return (item :: items, rest)
  | _ + 1, rest => some ([], rest)

/-- Reads the entries of a block mapping and its end. -/
def blockEntries? (handles : Handles) : Nat → List Token → Option (List (Node × Node) × List Token)
  | 0, _ => none
  | _ + 1, .blockEnd :: rest => some ([], rest)
  | fuel + 1, .key :: rest => do
    let (key, rest) ←
      if endsEntry rest.head? then some (Node.empty {}, rest)
      else node? handles true true fuel rest
    let (value, rest) ← blockValue? handles fuel rest
    let (entries, rest) ← blockEntries? handles fuel rest
    return ((key, value) :: entries, rest)
  | _ + 1, _ => none

/-- Reads the value of an entry of a block mapping, which may be missing. -/
def blockValue? (handles : Handles) : Nat → List Token → Option (Node × List Token)
  | 0, _ => none
  | fuel + 1, .value :: rest =>
    if endsEntry rest.head? then some (Node.empty {}, rest)
    else node? handles true true fuel rest
  | _ + 1, rest => some (Node.empty {}, rest)

/-- Reads the items in square brackets and the closing bracket. A key makes an item a mapping with
one entry. -/
def flowItems? (handles : Handles) : Nat → Bool → List Token → Option (List Node × List Token)
  | 0, _, _ => none
  | _ + 1, _, .flowSequenceEnd :: rest => some ([], rest)
  | fuel + 1, first, tokens => do
    let rest ← match first, tokens with
      | true, rest => some rest
      | false, .flowEntry :: rest => some rest
      | false, _ => none
    match rest with
    | .flowSequenceEnd :: rest => return ([], rest)
    | .key :: rest =>
      let (entry, rest) ← flowPair? handles fuel rest
      let (items, rest) ← flowItems? handles fuel false rest
      return (.mapping {} [entry] :: items, rest)
    | rest =>
      let (item, rest) ← node? handles false false fuel rest
      let (items, rest) ← flowItems? handles fuel false rest
      return (item :: items, rest)

/-- Reads the key and value of a mapping with one entry. What comes in the place of a missing key is
passed over. -/
def flowPair? (handles : Handles) : Nat → List Token → Option ((Node × Node) × List Token)
  | 0, _ => none
  | fuel + 1, tokens => do
    let next := tokens.head?
    let (key, rest) ←
      if next = some .value || endsFlowItem next then some (Node.empty {}, tokens.drop 1)
      else node? handles false false fuel tokens
    let (value, rest) ← match rest with
      | .value :: rest =>
        if endsFlowItem rest.head? then some (Node.empty {}, rest)
        else node? handles false false fuel rest
      | rest => some (Node.empty {}, rest)
    return ((key, value), rest)

/-- Reads the entries in braces and the closing brace. -/
def flowEntries? (handles : Handles) :
    Nat → Bool → List Token → Option (List (Node × Node) × List Token)
  | 0, _, _ => none
  | _ + 1, _, .flowMappingEnd :: rest => some ([], rest)
  | fuel + 1, first, tokens => do
    let rest ← match first, tokens with
      | true, rest => some rest
      | false, .flowEntry :: rest => some rest
      | false, _ => none
    match rest with
    | .flowMappingEnd :: rest => return ([], rest)
    | .key :: rest =>
      let next := rest.head?
      let (key, rest) ←
        if next = some .value || endsFlowEntry next then some (Node.empty {}, rest)
        else node? handles false false fuel rest
      let (value, rest) ← flowValue? handles fuel rest
      let (entries, rest) ← flowEntries? handles fuel false rest
      return ((key, value) :: entries, rest)
    | rest =>
      let (key, rest) ← node? handles false false fuel rest
      let (entries, rest) ← flowEntries? handles fuel false rest
      return ((key, Node.empty {}) :: entries, rest)

/-- Reads the value of an entry in braces, which may be missing. -/
def flowValue? (handles : Handles) : Nat → List Token → Option (Node × List Token)
  | 0, _ => none
  | fuel + 1, .value :: rest =>
    if endsFlowEntry rest.head? then some (Node.empty {}, rest)
    else node? handles false false fuel rest
  | _ + 1, rest => some (Node.empty {}, rest)

end

/-- Reads the directives before a document: at most one version, which has to be 1.1 or 1.2, and
handles of tags, each once. -/
def directives? : Bool → Handles → List Token → Option (Handles × List Token)
  | versioned, handles, .version major minor :: rest =>
    if versioned || major ≠ 1 || (minor ≠ 1 && minor ≠ 2) then none
    else directives? true handles rest
  | versioned, handles, .handle name expansion :: rest =>
    if (handles.lookup name).isSome then none
    else directives? versioned (handles ++ [(name, expansion)]) rest
  | _, handles, rest => some (handles ++ standardHandles, rest)

/-- Whether a token cannot start the node of a document. -/
def endsDocument : Option Token → Bool
  | none => true
  | some .documentStart => true
  | some .documentEnd => true
  | some (.version _ _) => true
  | some (.handle _ _) => true
  | _ => false

/-- Whether a token starts a document that says so. -/
def startsDocument : Option Token → Bool
  | some .documentStart => true
  | some (.version _ _) => true
  | some (.handle _ _) => true
  | _ => false

/-- Drops marks of the end of a document. -/
def dropEnds : List Token → List Token
  | .documentEnd :: rest => dropEnds rest
  | rest => rest

/-- Reads a document and the mark of its end. Only the first one may start without a mark. -/
def document? (first : Bool) (tokens : List Token) : Option (Node × List Token) := do
  let fuel := 4 * tokens.length + 16
  let (node, rest) ←
    if first && !startsDocument tokens.head? then node? standardHandles true false fuel tokens
    else do
      let (handles, rest) ← directives? false [] tokens
      match rest with
      | .documentStart :: rest =>
        if endsDocument rest.head? then some (Node.empty {}, rest)
        else node? handles true false fuel rest
      | _ => none
  match rest with
  | .documentEnd :: rest => return (node, rest)
  | rest => return (node, rest)

/-- Reads all documents; `fuel` bounds their number. -/
def documents? : Nat → Bool → List Token → Option (List Node)
  | 0, _, _ => none
  | fuel + 1, first, tokens =>
    let tokens := if first then tokens else dropEnds tokens
    if tokens.isEmpty then some []
    else do
      let (node, rest) ← document? first tokens
      let nodes ← documents? fuel false rest
      return node :: nodes

end Node

/-- The documents of a text. -/
def nodes? (text : String) : Option (List Node) := do
  let tokens ← tokens? text
  Node.documents? (tokens.length + 2) true tokens

end SiteCatalog.Yaml

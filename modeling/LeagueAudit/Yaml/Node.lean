import LeagueAudit.Yaml.Lexemes

/-!
The nodes of a document. They form a graph: where a name is mentioned that a node was given, that
node stands there too, even inside itself.
-/
namespace LeagueAudit.Yaml

/-- The content of a node; other nodes are known by their numbers. -/
inductive Shape where
  | scalar (text : String)
  | sequence (items : List Nat)
  | mapping (members : List (Nat × Nat))
  deriving Inhabited

/-- A node with its type. -/
structure Node where
  tag : Tag
  shape : Shape

/-- The nodes of a document by their numbers. -/
abbrev Graph := Array Node

/-- A document while it is built from tokens. -/
structure Builder where
  rest : List Lexeme
  /-- Why the text has no further tokens, if it does not just end. -/
  fault : Option ReadFault := none
  nodes : Graph := #[]
  anchors : List (String × Nat) := []
  /-- The short names that were declared, and their meanings. -/
  handles : List (String × String) := []

abbrev Build := StateT Builder (Except ReadFault)

namespace Build

/-- The next token; none at the end of the text. -/
def peek : Build (Option Token) := do
  let builder ← get
  match builder.rest, builder.fault with
  | lexeme :: _, _ => return some lexeme.token
  | [], none => return none
  | [], some fault => throw fault

/-- The tokens are no document. -/
def fail {α : Type} (reason : String) : Build α := do
  let line := ((← get).rest.head?.map Lexeme.line).getD 0
  throw (.broken line reason)

/-- Goes on by one token. -/
def skip : Build Unit := modify fun builder => { builder with rest := builder.rest.drop 1 }

/-- Takes a token when it stands here. -/
def takes (token : Token) : Build Bool := do
  if (← peek) == some token then
    skip
    return true
  else return false

/-- A comma stands here and is taken, or none is needed before the first of several. -/
def separates (first : Bool) : Build Bool := if first then return true else takes .comma

/-- One of several tokens stands here. -/
def atAny (tokens : List Token) : Build Bool := do return (← peek).any tokens.contains

/-- Adds a node, which may have a name. -/
def add (anchor : Option String) (node : Node) : Build Nat := do
  let builder ← get
  let number := builder.nodes.size
  let names := (anchor.map fun name => (name, number)).toList
  modify fun b => { b with nodes := b.nodes.push node, anchors := names ++ b.anchors }
  return number

/-- Gives a node its content. -/
def complete (number : Nat) (node : Node) : Build Nat := do
  modify fun b => { b with nodes := b.nodes.setIfInBounds number node }
  return number

/-- A node that is left out. -/
def empty : Build Nat := add none ⟨.ofText "", .scalar ""⟩

/-- The node that was given a name. -/
def mentioned (name : String) : Build Nat := do
  match (← get).anchors.lookup name with
  | some number => return number
  | none => fail "an unknown anchor"

/-- The short names that need no declaration. -/
def standardHandles : List (String × String) := [("!", "!"), ("!!", Tag.standard)]

/-- The full name of a type. -/
def fullName (handle : Option String) (ending : String) : Build String := do
  match handle with
  | none => return ending
  | some handle =>
    match (← get).handles.lookup handle <|> standardHandles.lookup handle with
    | some beginning => return beginning ++ ending
    | none => fail "an unknown short name"

def takeAnchor : Build (Option String) := do
  match ← peek with
  | some (.anchor name) => do
    skip
    return some name
  | _ => return none

def takeTag : Build (Option String) := do
  match ← peek with
  | some (.tag handle ending) => do
    skip
    return some (← fullName handle ending)
  | _ => return none

/-- What stands before a node: its name and its type, in any order. -/
def properties : Build (Option String × Option String) := do
  let anchor ← takeAnchor
  let tag ← takeTag
  let anchor ← if anchor.isSome then pure anchor else takeAnchor
  let anchors := (← get).anchors
  if anchor.any fun name => (anchors.lookup name).isSome then
    fail "an anchor is named twice"
  else return (anchor, tag)

/-- The type of a node; one mark alone leaves it open. -/
def tagOr (written : Option String) (free : Tag) : Tag :=
  match written with
  | none => free
  | some name => if name = "!" then free else .ofName name

/-- The type of a scalar: a plain text, and one behind a mark alone, has the type that it looks
like. -/
def scalarTag (written : Option String) (plain : Bool) (text : String) : Tag :=
  tagOr written (if plain || written.isSome then .ofText text else .str)

/-- How deep nodes may be nested. -/
def nestingLimit : Nat := 488

mutual

/-- A node. `block` tells whether it may be a block, and `items` whether the items of a list may
stand in the column of the mapping around it. -/
def node (fuel depth : Nat) (block items : Bool) : Build Nat :=
  match fuel with
  | 0 => throw (.meaningless .unending)
  | fuel + 1 => do
    if depth ≥ nestingLimit then throw (.meaningless .unending)
    match ← peek with
    | some (.mention name) => do
      skip
      mentioned name
    | _ => do
      let (anchor, tag) ← properties
      let list (read : Build (List Nat)) : Build Nat := do
        let tag := tagOr tag .seq
        let number ← add anchor ⟨tag, .sequence []⟩
        complete number ⟨tag, .sequence (← read)⟩
      let table (read : Build (List (Nat × Nat))) : Build Nat := do
        let tag := tagOr tag .map
        let number ← add anchor ⟨tag, .mapping []⟩
        complete number ⟨tag, .mapping (← read)⟩
      match ← peek with
      | some (.scalar plain text) => do
        skip
        add anchor ⟨scalarTag tag plain text, .scalar text⟩
      | some .openBracket => do
        skip
        list (flowItems fuel (depth + 1) true)
      | some .openBrace => do
        skip
        table (flowMembers fuel (depth + 1) true)
      | token =>
        if items && token == some .entry then list (looseItems fuel (depth + 1))
        else if block && token == some .blockSequence then do
          skip
          list (blockItems fuel (depth + 1))
        else if block && token == some .blockMapping then do
          skip
          table (blockMembers fuel (depth + 1))
        else if anchor.isSome || tag.isSome then
          add anchor ⟨scalarTag tag true "", .scalar ""⟩
        else fail "a node is missing"

/-- A node, or an empty one when one of some tokens stands here. -/
def nodeUnless (fuel depth : Nat) (ends : List Token) (block items : Bool) : Build Nat :=
  match fuel with
  | 0 => throw (.meaningless .unending)
  | fuel + 1 => do
    if ← atAny ends then empty else node fuel depth block items

/-- The value behind a key; without a colon it is empty. -/
def valueUnless (fuel depth : Nat) (ends : List Token) (block items : Bool) : Build Nat :=
  match fuel with
  | 0 => throw (.meaningless .unending)
  | fuel + 1 => do
    if ← takes .value then nodeUnless fuel depth ends block items else empty

/-- The items of a block, up to its end. -/
def blockItems (fuel depth : Nat) : Build (List Nat) :=
  match fuel with
  | 0 => throw (.meaningless .unending)
  | fuel + 1 => do
    if ← takes .entry then
      let item ← nodeUnless fuel depth [.entry, .blockEnd] true false
      return item :: (← blockItems fuel depth)
    else if ← takes .blockEnd then return []
    else fail "the end of a block is missing"

/-- The items in the column of the mapping around them. -/
def looseItems (fuel depth : Nat) : Build (List Nat) :=
  match fuel with
  | 0 => throw (.meaningless .unending)
  | fuel + 1 => do
    if ← takes .entry then
      let item ← nodeUnless fuel depth [.entry, .key, .value, .blockEnd] true false
      return item :: (← looseItems fuel depth)
    else return []

/-- The members of a block, up to its end. -/
def blockMembers (fuel depth : Nat) : Build (List (Nat × Nat)) :=
  match fuel with
  | 0 => throw (.meaningless .unending)
  | fuel + 1 => do
    let ends : List Token := [.key, .value, .blockEnd]
    if ← takes .key then
      let key ← nodeUnless fuel depth ends true true
      let value ← valueUnless fuel depth ends true true
      return (key, value) :: (← blockMembers fuel depth)
    else if ← takes .blockEnd then return []
    else fail "the end of a block is missing"

/-- A member between brackets, behind the mark of its key. -/
def flowMember (fuel depth : Nat) (close : Token) : Build (Nat × Nat) :=
  match fuel with
  | 0 => throw (.meaningless .unending)
  | fuel + 1 => do
    let key ← nodeUnless fuel depth [.value, .comma, close] false false
    return (key, ← valueUnless fuel depth [.comma, close] false false)

/-- The items up to a closing bracket; a member alone is a mapping. -/
def flowItems (fuel depth : Nat) (first : Bool) : Build (List Nat) :=
  match fuel with
  | 0 => throw (.meaningless .unending)
  | fuel + 1 => do
    if ← takes .closeBracket then return []
    else if !(← separates first) then fail "a comma is missing"
    else if ← takes .closeBracket then return []
    else
      let item ←
        if ← takes .key then
          add none ⟨.map, .mapping [← flowMember fuel (depth + 1) .closeBracket]⟩
        else node fuel depth false false
      return item :: (← flowItems fuel depth false)

/-- The members up to a closing brace; a key alone has an empty value. -/
def flowMembers (fuel depth : Nat) (first : Bool) : Build (List (Nat × Nat)) :=
  match fuel with
  | 0 => throw (.meaningless .unending)
  | fuel + 1 => do
    if ← takes .closeBrace then return []
    else if !(← separates first) then fail "a comma is missing"
    else if ← takes .closeBrace then return []
    else
      let member ←
        if ← takes .key then flowMember fuel depth .closeBrace
        else do
          let key ← node fuel depth false false
          pure (key, ← empty)
      return member :: (← flowMembers fuel depth false)

end

/-- Directives before a document: one version at most, and each short name once. -/
def directives (versioned : Bool) : Nat → Build Unit
  | 0 => pure ()
  | fuel + 1 => do
    match ← peek with
    | some (.version major) => do
      if versioned || major != 1 then fail "a bad version"
      else
        skip
        directives true fuel
    | some (.handle name meaning) => do
      if ((← get).handles.lookup name).isSome then fail "a short name is declared twice"
      else
        skip
        modify fun b => { b with handles := (name, meaning) :: b.handles }
        directives versioned fuel
    | some .directive => do
      skip
      directives versioned fuel
    | _ => pure ()

/-- A token that stands before a document. -/
def isDirective : Token → Bool
  | .version _ => true
  | .handle _ _ => true
  | .directive => true
  | _ => false

/-- Takes the marks that end a document. -/
def endMarks : Nat → Build Unit
  | 0 => pure ()
  | fuel + 1 => do
    if ← takes .documentEnd then endMarks fuel

/-- The only document of a text; none when the text is empty. -/
def document : Build (Option Nat) := do
  match ← peek with
  | none => return none
  | some first => do
    let count := (← get).rest.length
    let fuel := 4 * count + 8
    let root ←
      if isDirective first || first == .documentStart then do
        directives false count
        if !(← takes .documentStart) then fail "the start of a document is missing"
        else
          let next ← peek
          if next.all fun t => isDirective t || t == .documentStart || t == .documentEnd then empty
          else node fuel 0 true false
      else node fuel 0 true false
    endMarks count
    if (← peek).isSome then fail "a single document is expected" else return some root

end Build

/-- Characters that may occur in a document. -/
def isPrintable (c : Char) : Bool :=
  let n := c.toNat
  n == 0x09 || n == 0x0a || n == 0x0d || (0x20 ≤ n && n ≤ 0x7e) || n == 0x85 ||
    (0xa0 ≤ n && n ≤ 0xfffd) || 0x10000 ≤ n

/-- The nodes of a text, and the number of its root. -/
def Graph.read (text : String) : Except ReadFault (Graph × Option Nat) := do
  let cs := text.toList
  if !cs.all isPrintable then .error (.broken 0 "a special character is not allowed")
  else
    let (lexemes, fault) := Scan.lexemes cs
    let (root, builder) ← Build.document.run { rest := lexemes.toList, fault }
    .ok (builder.nodes, root)

end LeagueAudit.Yaml

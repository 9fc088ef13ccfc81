import LeagueAudit.Number.Exact
import LeagueAudit.Yaml.Node

/-!
Reading YAML documents: the values that the nodes of a document stand for. Containers get their
contents after they exist, the outer ones first, so that a container may be part of itself; the
first fault in this order is the fault of the document.
-/
namespace LeagueAudit.Yaml

/-- What a node stands for; the parts of containers are known by the numbers of their nodes. -/
inductive Meaning where
  | scalar (value : Yaml)
  | list (items : List Nat)
  | pairs (items : List (Nat × Nat))
  | set (members : List (Yaml × Nat))
  | mapping (members : List (Yaml × Nat))

/-- The meanings that were made so far. -/
structure Maker where
  nodes : Graph
  meanings : Array (Option Meaning)
  /-- The containers that lack their contents, the last one first. -/
  waiting : List Nat := []

abbrev Make := StateT Maker (Except ReadFault)

namespace Make

/-- A node has a type that it cannot have. -/
def fail {α : Type} (reason : String) : Make α := throw (.broken 0 reason)

/-- The node of a number. -/
def nodeOf (number : Nat) : Make Node := do
  match (← get).nodes[number]? with
  | some node => return node
  | none => fail "a node is missing"

def setNode (number : Nat) (node : Node) : Make Unit := modify fun maker =>
  { maker with nodes := maker.nodes.setIfInBounds number node }

/-- The members of a node that is a mapping. -/
def membersOf (number : Nat) : Make (List (Nat × Nat)) := do
  match (← nodeOf number).shape with
  | .mapping members => return members
  | _ => fail "a mapping is expected"

/-- The items of a node that is a list. -/
def itemsOf (number : Nat) : Make (List Nat) := do
  match (← nodeOf number).shape with
  | .sequence items => return items
  | _ => fail "a list is expected"

def setMembers (number : Nat) (members : List (Nat × Nat)) : Make Unit := do
  setNode number { ← nodeOf number with shape := .mapping members }

/-- Bounds how deep mappings are merged into each other: each merge uses up a member. -/
def mergeLimit (maker : Maker) : Nat :=
  maker.nodes.foldl (fun n node =>
    match node.shape with
    | .mapping members => n + members.length + 1
    | _ => n + 1) 1

/-- Replaces the members of a mapping that are merged into it, by the members of theirs that come
before its own. Of several mappings in a list, the first one counts most. -/
def merge (fuel number : Nat) : Make Unit :=
  match fuel with
  | 0 => throw (.meaningless .unending)
  | fuel + 1 => do
    let step (index : Nat) (merged : List (Nat × Nat)) : Make (Nat × List (Nat × Nat)) := do
      let members ← membersOf number
      match members[index]? with
      | none => return (index, merged)
      | some (key, value) =>
        let keyNode ← nodeOf key
        match keyNode.tag with
        | .merge => do
          setMembers number (members.eraseIdx index)
          match (← nodeOf value).shape with
          | .mapping _ => do
            merge fuel value
            return (index, merged ++ (← membersOf value))
          | .sequence items => do
            let all ← items.mapM fun item => do
              let _ ← membersOf item
              merge fuel item
              membersOf item
            return (index, merged ++ all.reverse.flatten)
          | .scalar _ => fail "a mapping to merge is expected"
        | .value => do
          setNode key { keyNode with tag := .str }
          return (index + 1, merged)
        | _ => return (index + 1, merged)
    let count := (← membersOf number).length
    let (_, merged) ← (List.range count).foldlM (fun (index, merged) _ => step index merged) (0, [])
    if !merged.isEmpty then setMembers number (merged ++ (← membersOf number))

/-- The text of a scalar. A mapping has the text of one of its values. -/
def textOf (number : Nat) : Nat → Make String
  | 0 => throw (.meaningless .unending)
  | fuel + 1 => do
    match (← nodeOf number).shape with
    | .scalar text => return text
    | .sequence _ => fail "a scalar is expected"
    | .mapping members => do
      match ← members.findM? fun (key, _) => return (← nodeOf key).tag == .value with
      | some (_, value) => textOf value fuel
      | none => fail "a scalar is expected"

/-- A container without its contents. -/
def container? : Tag → Option Meaning
  | .seq => some (.list [])
  | .map => some (.mapping [])
  | .set => some (.set [])
  | .omap => some (.pairs [])
  | .pairs => some (.pairs [])
  | _ => none

/-- A scalar of a type. -/
def scalarOf (number : Nat) (node : Node) : Make Meaning := do
  let text ← textOf number ((← get).nodes.size + 1)
  match node.tag, node.shape with
  | .timestamp, .mapping _ =>
    throw (.meaningless (.wrongType "expected string or bytes-like object, got 'list'"))
  | tag, _ =>
    match ofScalar? tag text with
    | some (.ok value) => return .scalar value
    | some (.error fault) => throw fault
    | none => fail "an unknown type"

/-- A type of scalars. -/
def isScalarTag : Tag → Bool
  | .null => true
  | .bool => true
  | .int => true
  | .float => true
  | .binary => true
  | .timestamp => true
  | .str => true
  | _ => false

def setMeaning (number : Nat) (meaning : Meaning) : Make Unit := modify fun maker =>
  { maker with meanings := maker.meanings.setIfInBounds number (some meaning) }

/-- What a node stands for, a container perhaps without its contents. -/
def meaningOf (number : Nat) : Make Meaning := do
  match (← get).meanings[number]?.join with
  | some meaning => return meaning
  | none => do
    let node ← nodeOf number
    match container? node.tag with
    | some meaning => do
      setMeaning number meaning
      modify fun maker => { maker with waiting := number :: maker.waiting }
      return meaning
    | none => do
      if !isScalarTag node.tag then fail "an unknown type"
      else
        let meaning ← scalarOf number node
        setMeaning number meaning
        return meaning

/-- A key that a node stands for. -/
def keyOf (number : Nat) : Make Yaml := do
  match ← meaningOf number with
  | .scalar value => return value
  | _ => fail "a container cannot be a key"

/-- The members of a mapping by their keys. -/
def namedMembers (number : Nat) : Make (List (Yaml × Nat)) := do
  let _ ← membersOf number
  merge (mergeLimit (← get)) number
  (← membersOf number).foldlM (fun members (key, value) => do
    let key ← keyOf key
    let _ ← meaningOf value
    return setMember key value members) []

/-- A pair: a mapping with one member. -/
def pairOf (number : Nat) : Make (Nat × Nat) := do
  match ← membersOf number with
  | [(key, value)] => do
    let _ ← meaningOf key
    let _ ← meaningOf value
    return (key, value)
  | _ => fail "a single member is expected"

/-- Gives a container its contents. -/
def fill (number : Nat) : Make Unit := do
  match ← meaningOf number with
  | .scalar _ => pure ()
  | .list _ => do
    let items ← itemsOf number
    let _ ← items.mapM meaningOf
    setMeaning number (.list items)
  | .pairs _ => setMeaning number (.pairs (← (← itemsOf number).mapM pairOf))
  | .set _ => setMeaning number (.set (← namedMembers number))
  | .mapping _ => setMeaning number (.mapping (← namedMembers number))

/-- Gives containers their contents, then those that turn up in them. -/
def fillAll : Nat → List Nat → Make Unit
  | 0, _ => pure ()
  | fuel + 1, number :: rest => do
    fill number
    fillAll fuel rest
  | fuel + 1, [] => do
    let next := (← get).waiting.reverse
    if !next.isEmpty then do
      modify fun maker => { maker with waiting := [] }
      fillAll fuel next

/-- The meanings of all nodes below one. -/
def meanings (root : Nat) : Make (Array (Option Meaning)) := do
  let _ ← meaningOf root
  fillAll (2 * (← get).nodes.size + 1) []
  return (← get).meanings

end Make

/-- A whole number or truth value as a number. -/
def whole? : Yaml → Option Int
  | .int n => some n
  | .bool b => some (if b then 1 else 0)
  | _ => none

/-- How many places a set with a number of members has: a power of two above twice the number, and
eight for few members. -/
def placesFor (count : Nat) : Nat := if count < 5 then 8 else twoTo (Nat.log2 (2 * count) + 1)

/-- The members of a set as they are shown: whole numbers by their remainders by the number of
places, others as they were given. -/
def inPlaces (items : List Yaml) : List Yaml :=
  let place (n : Int) : Int := n.emod (placesFor items.length)
  match items.mapM fun item => (whole? item).map fun n => (place n, item) with
  | some placed => (placed.mergeSort fun a b => a.1 ≤ b.1).map (·.2)
  | none => items

/-- A value as it stands inside some containers. -/
def shown (meanings : Array (Option Meaning)) : Nat → List Nat → Nat → Yaml
  | 0, _, _ => .null
  | fuel + 1, around, number =>
    let part := shown meanings fuel (number :: around)
    let again := around.contains number
    match meanings[number]?.join with
    | none => .null
    | some (.scalar value) => value
    | some (.list items) => if again then .outer true else .arr (items.map part)
    | some (.pairs items) =>
      if again then .outer true else .pairs (items.map fun (k, v) => (part k, part v))
    | some (.set members) => .set (inPlaces (members.map (·.1)))
    | some (.mapping members) =>
      if again then .outer false else .obj (members.map fun (k, v) => (k, part v))

/-- A value on its own. -/
def alone (meanings : Array (Option Meaning)) (number : Nat) : Yaml :=
  shown meanings (meanings.size + 1) [] number

/-- A value and its members, each on its own. -/
def partOf (meanings : Array (Option Meaning)) (number : Nat) : Part :=
  let members :=
    match meanings[number]?.join with
    | some (.mapping members) => members.map fun (k, v) => (k, alone meanings v)
    | _ => []
  ⟨alone meanings number, members⟩

/-- The root of a document: nothing, a mapping or a value of another kind. -/
inductive Root where
  | nothing
  | mapping (members : List (Yaml × Part))
  | other

/-- Reads the document in a text. -/
def read (text : String) : Except ReadFault Root := do
  match ← Graph.read text with
  | (_, none) => .ok .nothing
  | (nodes, some root) =>
    let maker : Maker := { nodes, meanings := nodes.map fun _ => none }
    let (meanings, _) ← (Make.meanings root).run maker
    match meanings[root]?.join with
    | some (.mapping members) => .ok (.mapping (members.map fun (k, v) => (k, partOf meanings v)))
    | some (.scalar .null) => .ok .nothing
    | _ => .ok .other

end LeagueAudit.Yaml

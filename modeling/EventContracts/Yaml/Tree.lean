import EventContracts.Fields
import EventContracts.Yaml.Token

/-!
# YAML trees

A document as a tree of scalars, sequences and mappings. Places that stand for an anchored node stay
places: what they stand for is looked up when the tree is read.

Anchors have numbers. An anchor gets as number how many different names there were before it, and a
number belongs to the last node that was given it.
-/

namespace EventContracts.Yaml

/-- A document tree, with the tags of its nodes. -/
inductive Tree where
  | scalar (tag : Option String) (style : Style) (text : String)
  | sequence (tag : Option String) (items : List Tree)
  | mapping (tag : Option String) (entries : List (Tree × Tree))
  | aliasOf (anchor : Nat)
deriving Repr, Inhabited

def Tree.empty : Tree := .scalar none .plain ""

/-- A document: its tree, and the nodes that its anchors stand for. -/
structure Anchored where
  root : Tree
  nodes : List (Nat × Tree)

/-- The state of a reading: the tokens ahead, what handles stand for, and the anchors so far, by
their names, by their numbers, and with their nodes. -/
structure Growth where
  tokens : List Token
  handles : Fields String := []
  names : Fields Nat := []
  marks : List (Nat × Nat) := []
  nodes : List (Nat × Tree) := []

namespace Tree

/-- A step of reading a tree. -/
abbrev Grow (α : Type) := StateT Growth Option α

/-- The token ahead; none at the end. -/
def peek : Grow (Option Token) := return (← get).tokens.head?

def advance : Grow Unit := modify fun growth => { growth with tokens := growth.tokens.tail }

def expect (token : Token) : Grow Unit := do
  if (← peek) = some token then advance else failure

/-- An anchor, when there is one ahead. -/
def readAnchor : Grow (Option String) := do
  match ← peek with
  | some (.anchor name) => do
    advance
    return some name
  | _ => return none

/-- A tag, when there is one ahead. -/
def readTag : Grow (Option Tag) := do
  match ← peek with
  | some (.tag tag) => do
    advance
    return some tag
  | _ => return none

/-- The anchor and the tag before a node, in any order. -/
def readProperties : Grow (Option String × Option Tag) := do
  let anchor ← readAnchor
  let tag ← readTag
  let anchor ← if anchor.isNone && tag.isSome then readAnchor else pure anchor
  return (anchor, tag)

def tagText (tag : Tag) : Grow String := do
  if tag.handle.isEmpty then return tag.suffix
  else match Fields.get? tag.handle (← get).handles with
    | some expansion => return expansion ++ tag.suffix
    | none => failure

/-- Give a node an anchor before its parts are read: the number of the mark for it. -/
def placeMark (name : String) : Grow Nat := do
  let growth ← get
  let number := growth.names.length
  let mark := growth.marks.length
  set { growth with
    names := Fields.set name number growth.names
    marks := (number, mark) :: growth.marks }
  return mark

def recordNode (mark : Nat) (tree : Tree) : Grow Unit :=
  modify fun growth => { growth with nodes := (mark, tree) :: growth.nodes }

def readAlias (name : String) : Grow Tree := do
  match Fields.get? name (← get).names with
  | some number => return .aliasOf number
  | none => failure

/-- The empty node when one of some tokens, or nothing, is ahead where a node could be. -/
def emptyBefore (ends : List Token) (read : Grow Tree) : Grow Tree := do
  match ← peek with
  | some token => if ends.contains token then return empty else read
  | none => read

/-- The value of a key: the empty node when it is not announced. -/
def valueBefore (ends : List Token) (read : Grow Tree) : Grow Tree := do
  if (← peek) = some .value then
    advance
    emptyBefore ends read
  else return empty

mutual

/-- Read a node. Where blocks may stand, a sequence of entries without a block of its own is a node
as well when it is the key or the value of a mapping. -/
def readNode : Nat → Bool → Bool → Grow Tree
  | 0, _, _ => failure
  | fuel + 1, block, unindented => do
    match ← peek with
    | some (.aliasName name) => do
      advance
      readAlias name
    | _ => do
      let (anchor, tag) ← readProperties
      let tagged ← tag.mapM tagText
      let mark ← anchor.mapM placeMark
      let tree ← readContent fuel block unindented (anchor.isSome || tag.isSome) tagged
      match mark with
      | some mark => recordNode mark tree
      | none => pure ()
      return tree

def readContent : Nat → Bool → Bool → Bool → Option String → Grow Tree
  | 0, _, _, _, _ => failure
  | fuel + 1, block, unindented, hasProperties, tag => do
    match ← peek with
    | some (.scalar style text) => do
      advance
      return .scalar (if tag = some "!" then none else tag) style text
    | some .sequenceStart => do
      advance
      return .sequence tag (← readFlowItems fuel true)
    | some .mappingStart => do
      advance
      return .mapping tag (← readFlowEntries fuel true)
    | token =>
      if unindented && token = some .entry then
        return .sequence tag (← readUnindentedItems fuel)
      else if block && token = some .blockSequence then do
        advance
        return .sequence tag (← readBlockItems fuel)
      else if block && token = some .blockMapping then do
        advance
        return .mapping tag (← readBlockEntries fuel)
      else if hasProperties then return .scalar tag .plain ""
      else failure

/-- Read the items of a block sequence, to the end of the block. -/
def readBlockItems : Nat → Grow (List Tree)
  | 0 => failure
  | fuel + 1 => do
    match ← peek with
    | some .entry => do
      advance
      let item ← emptyBefore [.entry, .blockEnd] (readNode fuel true false)
      return item :: (← readBlockItems fuel)
    | some .blockEnd => do
      advance
      return []
    | _ => failure

/-- Read the items of a sequence without a block of its own, to the last one. -/
def readUnindentedItems : Nat → Grow (List Tree)
  | 0 => failure
  | fuel + 1 => do
    match ← peek with
    | some .entry => do
      advance
      let item ← emptyBefore [.entry, .key, .value, .blockEnd] (readNode fuel true false)
      return item :: (← readUnindentedItems fuel)
    | _ => return []

/-- Read the entries of a block mapping, to the end of the block. -/
def readBlockEntries : Nat → Grow (List (Tree × Tree))
  | 0 => failure
  | fuel + 1 => do
    match ← peek with
    | some .key => do
      advance
      let key ← emptyBefore [.key, .value, .blockEnd] (readNode fuel true true)
      let value ← valueBefore [.key, .value, .blockEnd] (readNode fuel true true)
      return (key, value) :: (← readBlockEntries fuel)
    | some .blockEnd => do
      advance
      return []
    | _ => failure

/-- Read the items of a flow sequence, to its end. A key makes a mapping of one entry. An empty key
takes the token after it along. -/
def readFlowItems : Nat → Bool → Grow (List Tree)
  | 0, _ => failure
  | fuel + 1, first => do
    if (← peek) = some .sequenceEnd then
      advance
      return []
    unless first do expect .comma
    match ← peek with
    | some .sequenceEnd => do
      advance
      return []
    | some .key => do
      advance
      let key ← match ← peek with
        | some .value | some .comma | some .sequenceEnd => do
          advance
          pure empty
        | _ => readNode fuel false false
      let value ← valueBefore [.comma, .sequenceEnd] (readNode fuel false false)
      return .mapping none [(key, value)] :: (← readFlowItems fuel false)
    | _ => do
      let item ← readNode fuel false false
      return item :: (← readFlowItems fuel false)

/-- Read the entries of a flow mapping, to its end. A node without a key before it is a key without
a value. -/
def readFlowEntries : Nat → Bool → Grow (List (Tree × Tree))
  | 0, _ => failure
  | fuel + 1, first => do
    if (← peek) = some .mappingEnd then
      advance
      return []
    unless first do expect .comma
    match ← peek with
    | some .mappingEnd => do
      advance
      return []
    | some .key => do
      advance
      let ends : List Token := [.comma, .mappingEnd]
      let key ← emptyBefore (.value :: ends) (readNode fuel false false)
      let value ← valueBefore ends (readNode fuel false false)
      return (key, value) :: (← readFlowEntries fuel false)
    | _ => do
      let key ← readNode fuel false false
      return (key, empty) :: (← readFlowEntries fuel false)

end

/-- What handles stand for when no directive says otherwise. -/
def defaultHandles : Fields String := [("!", "!"), ("!!", "tag:yaml.org,2002:")]

/-- The directives before a document: whether there is a version among them, and the handles. -/
def directives : Bool → Fields String → List Token → Option (Fields String × List Token)
  | versioned, handles, .directive (.version major minor) :: rest =>
    if !versioned && major = 1 && (minor = 1 || minor = 2) then directives true handles rest
    else none
  | versioned, handles, .directive (.shorthand handle expansion) :: rest =>
    if Fields.has handle handles then none
    else directives versioned (Fields.set handle expansion handles) rest
  | _, handles, rest => some (handles, rest)

/-- Read the node of a document. Each step of a reading takes at least one token or is the only one
after the last token. -/
def readRoot (fuel : Nat) : Grow Tree := do
  match ← peek with
  | some (.directive _) | some .documentStart => do
    let (handles, rest) ← directives false [] (← get).tokens
    set { (← get) with handles := Fields.merge defaultHandles handles, tokens := rest }
    expect .documentStart
    match ← peek with
    | none | some (.directive _) | some .documentStart | some .documentEnd => return empty
    | _ => readNode fuel true false
  | _ => readNode fuel true false

/-- Pass over the marks at the end of a document. Nothing may follow them. -/
def atEnd : List Token → Bool
  | [] => true
  | .documentEnd :: rest => atEnd rest
  | _ => false

/-- The node that each number of an anchor belongs to. -/
def anchoredNodes (growth : Growth) : List (Nat × Tree) :=
  growth.marks.filterMap fun (number, mark) =>
    (growth.nodes.lookup mark).map fun tree => (number, tree)

end Tree

/-- The document of a text, which holds at most one. A text without one is an empty node. -/
def Anchored.ofText? (text : String) : Option Anchored := do
  let tokens ← Token.ofText? text
  if tokens.isEmpty then return ⟨.empty, []⟩
  let (root, growth) ← (Tree.readRoot (3 * tokens.length + 4)).run
    { tokens := tokens, handles := Tree.defaultHandles }
  if Tree.atEnd growth.tokens then return ⟨root, Tree.anchoredNodes growth⟩ else none

end EventContracts.Yaml

import EventContracts.Reading
import EventContracts.Yaml.Plain
import EventContracts.Yaml.Tree

/-!
# Reading YAML

The answers that a YAML document gives to the questions asked of every format. What a scalar means
depends on what it is read as: as a text every scalar is its text, and as any value a plain scalar
is what it looks like. An empty plain scalar is an empty list or map.

Anchored nodes are read wherever an alias stands for them. Collections lie in each other up to a
limit, which also ends the reading of a node that holds itself.
-/

namespace EventContracts.Yaml

/-- A part of a document: its tree, what its aliases stand for, and how many collections may still
lie in each other. -/
structure Part where
  anchors : List (Nat × Tree)
  room : Nat
  tree : Tree

namespace Part

/-- The greatest number of collections that lie in each other. -/
def maxDepth : Nat := 128

def ofText? (text : String) : Option Part :=
  (Anchored.ofText? text).map fun document => ⟨document.nodes, maxDepth, document.root⟩

def target? (anchors : List (Nat × Tree)) : Tree → Option Tree
  | .aliasOf anchor => anchors.lookup anchor
  | tree => some tree

def node? (part : Part) : Option Tree := target? part.anchors part.tree

def coreTag (name : String) : String := "tag:yaml.org,2002:" ++ name

def isLocal (tag : Option String) : Bool := tag.any fun tag => tag.startsWith "!"

/-- The value of a scalar with a tag of the common schema, which the text has to fit. -/
def taggedValue? (tag : String) (text : String) : Option Json :=
  if tag = coreTag "bool" then (Plain.truth? text).map Json.bool
  else if tag = coreTag "int" then
    (Plain.whole? text.toList).bind fun n => Plain.toJson? text (.whole n)
  else if tag = coreTag "float" then (Plain.double? text.toList).bind (Plain.toJson? text)
  else if tag = coreTag "null" then if Plain.isNullWord text then some .null else none
  else some (.string text)

/-- The value of a scalar. Tags of a document alone have no values. -/
def scalarValue? (tag : Option String) (style : Style) (text : String) : Option Json :=
  if isLocal tag then none
  else match tag with
    | some tag => taggedValue? tag text
    | none => if style = .plain then (Plain.ofText text).toJson? text else some (.string text)

/-- The text of a key, which has to be a scalar. -/
def keyText? (anchors : List (Nat × Tree)) (key : Tree) : Option String :=
  match target? anchors key with
  | some (.scalar _ _ text) => some text
  | _ => none

/-- The value of a tree with room for some collections in each other. -/
def valueWithin? (anchors : List (Nat × Tree)) : Nat → Tree → Option Json
  | room, tree =>
    match target? anchors tree with
    | some (.scalar tag style text) => scalarValue? tag style text
    | some (.sequence tag items) =>
      match room with
      | 0 => none
      | room + 1 =>
        if isLocal tag then none else (items.mapM (valueWithin? anchors room)).map Json.array
    | some (.mapping tag entries) =>
      match room with
      | 0 => none
      | room + 1 =>
        if isLocal tag then none
        else
          (entries.mapM fun (entry : Tree × Tree) => do
            let key ← keyText? anchors entry.1
            let value ← valueWithin? anchors room entry.2
            return (key, value)).map fun pairs => Json.object (Fields.ofPairs pairs)
    | _ => none

def value? (part : Part) : Option Json := valueWithin? part.anchors part.room part.tree

def text? (part : Part) : Option String := keyText? part.anchors part.tree

/-- The text of a scalar that is read as a word of a kind: a plain one, or a literal block that is
tagged as such. -/
def word? (kind : String) (part : Part) : Option String :=
  match part.node? with
  | some (.scalar tag style text) =>
    if style = .plain || (style = .literal && tag = some (coreTag kind)) then some text else none
  | _ => none

/-- Whether a part says that there is nothing. Only words for nothing can be tagged as such. -/
def isAbsent? (part : Part) : Option Bool :=
  match part.node? with
  | some (.scalar tag .plain text) =>
    match tag with
    | none => some (text.isEmpty || Plain.isNullWord text)
    | some tag =>
      if tag = coreTag "null" then if Plain.isNullWord text then some true else none
      else some false
  | some _ => some false
  | none => none

def inner? (part : Part) (tree : Tree) : Option Part :=
  match part.room with
  | 0 => none
  | room + 1 => some ⟨part.anchors, room, tree⟩

def list? (part : Part) : Option (List Part) :=
  match part.node? with
  | some (.sequence _ items) => if part.room = 0 then none else items.mapM part.inner?
  | some (.scalar _ .plain "") => some []
  | _ => none

def entries? (part : Part) : Option (List (String × Part)) :=
  match part.node? with
  | some (.mapping _ entries) =>
    if part.room = 0 then none
    else entries.mapM fun (entry : Tree × Tree) => do
      return (← keyText? part.anchors entry.1, ← part.inner? entry.2)
  | some (.scalar _ .plain "") => some []
  | _ => none

instance : Format Part where
  text? := text?
  flag? part := (part.word? "bool").bind Plain.truth?
  count? part := (part.word? "int").bind fun text => Plain.unsigned? (Nat.pow 2 64 - 1) text.toList
  value? := value?
  isAbsent? := isAbsent?
  list? := list?
  entries? := entries?
  record? names part := part.entries?.bind (Fields.select? names)

end Part

end EventContracts.Yaml

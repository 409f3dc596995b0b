import EventContracts.Direction
import EventContracts.Schema.Node

/-!
# Events

Which events exist in which namespace, which way their data flows, and what their arguments are.
-/

namespace EventContracts

/-- An event: a list of arguments, and one of the acknowledgement when there is any. -/
structure Event where
  name : String
  direction : Direction
  payload : Node
  ack : Option Node := none
  examples : List Json := []
  description : Option String := none

/-- A namespace: a path, the names of the security schemes that protect it, and its events. -/
structure Namespace where
  path : String
  security : List String := []
  events : List Event := []

/-- The events of a namespace that flow in a direction. -/
def Namespace.eventsIn (ns : Namespace) (direction : Direction) : List Event :=
  ns.events.filter fun event => event.direction = direction

namespace Node

/-- The fixed items and the further one of a tuple. -/
def tupleParts? (node : Node) : Option (List Node × Option Node) :=
  match node.kind with
  | .tuple items rest => some (items, rest)
  | _ => none

def procedure (args : List Node) (rest : Option Node) : Node :=
  .of (.function (.of (.tuple args rest)) (.of .void))

end Node

namespace Event

/-- The further argument at a position, counted from one, when further arguments are written out. -/
def numbered (rest : Node) (position : Nat) : Node :=
  rest.described (rest.notes.description.getD "Rest argument" ++ s!" #{position}")

/-- The function that handles an event. An acknowledgement adds a callback as last parameter. With
further arguments before it, the function has one signature for every number of them up to
`maxOverloads`. -/
def handler (payload : Node) (ack : Option Node) (maxOverloads : Nat) : Node :=
  let (items, rest) := payload.tupleParts?.getD ([payload], none)
  match ack with
  | none => .procedure items rest
  | some ack =>
    let callback := Node.of (.function ack (.of .void))
    match rest with
    | none => .procedure (items ++ [callback]) none
    | some rest =>
      let signature (count : Nat) : Node :=
        .procedure (items ++ (List.range count).map (fun i => numbered rest (i + 1)) ++ [callback])
          none
      match maxOverloads with
      | 0 => signature 0
      | most + 1 => .of (.union ((List.range (most + 2)).map signature))

def handlerOf (event : Event) (maxOverloads : Nat) : Node :=
  let node := handler event.payload event.ack maxOverloads
  match event.description with
  | some description => node.described description
  | none => node

end Event

end EventContracts

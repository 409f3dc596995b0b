import EventContracts.Json.Value

/-!
# Deep merge

Two values made one: objects field by field, lists one after the other, and equal values once.
Other pairs do not fit together, and then nothing around them does.
-/

namespace EventContracts.Json

mutual

def mergeDeep (left : Json) : Json → Option Json
  | object fields => match left with
    | object into => (mergeFields into fields).map object
    | _ => none
  | array items => match left with
    | array into => some (array (into ++ items))
    | _ => none
  | null => if left.same null then some null else none
  | bool b => if left.same (bool b) then some (bool b) else none
  | number n => if left.same (number n) then some (number n) else none
  | string s => if left.same (string s) then some (string s) else none
termination_by structural right => right

/-- Merge fields into an object, one after the other. -/
def mergeFields (into : Fields Json) : List (String × Json) → Option (Fields Json)
  | [] => some into
  | (key, v) :: rest => do
    let merged ← match Fields.get? key into with
      | some old => mergeDeep old v
      | none => some v
    mergeFields (Fields.set key merged into) rest
termination_by structural fields => fields

end

end EventContracts.Json

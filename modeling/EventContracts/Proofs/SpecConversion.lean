import EventContracts.Contract
import EventContracts.Proofs.KeyedJson
import EventContracts.Proofs.ValidationDepth

/-! What conversion makes of specs. A node comes with the layers that specs can ask for only: its
references go to defined names and have the keys of these, its transforms are those that manifests
can name, and what nothing is known about is not called like something that is known. The values in
a node come from its spec, so what holds of a value and its parts holds of them. -/

namespace EventContracts

/-- What can be said of values that are taken out of a spec: it holds of the parts of a value, and
of the double that a number is read as. -/
structure Json.Hereditary (good : Json → Prop) : Prop where
  parts : ∀ v part, good v → part ∈ v.parts → good part
  double : ∀ n d, good (.number n) → n.toDouble? = some d → good (.number (.double d))

namespace Spec

/-- The types that a spec can ask for by name. Every other one is a type that nothing is known
about. -/
def knownTypes : List String :=
  ["string", "number", "integer", "bigint", "boolean", "date", "null", "any", "unknown", "void",
    "literal", "enum", "array", "tuple", "object", "record", "union", "discriminatedUnion",
    "intersection", "optional", "nullable", "readonly", "default", "catch", "branded", "transform",
    "preprocess", "pipeline", "function", "ref"]

end Spec

/-- Whether bounds of numbers are good values. -/
def NumberChecks.Holds (checks : NumberChecks) (good : Json → Prop) : Prop :=
  ∀ d, checks.minimum = some d ∨ checks.maximum = some d ∨ checks.exclusiveMinimum = some d ∨
    checks.exclusiveMaximum = some d → good (.number (.double d))

/-- Whether a layer is one that conversion can make. -/
def Kind.Converted {α : Type} (defined : List String) (good : Json → Prop) : Kind α → Prop
  | number checks => checks.Holds good
  | literal value => good value
  | default _ value => good value
  | fallback _ value => good value
  | effect _ (.transform t) => t ∈ Transform.builtins
  | effect _ (.refine _) => False
  | preprocess _ t => t ∈ Transform.builtins
  | reference key target => key = Spec.Parts.referenceKey target ∧ target ∈ defined
  | custom name => name ∉ Spec.knownTypes
  | _ => True

/-- Whether a tree is one that conversion can make, given the defined names and what can be said of
the values in the spec. -/
inductive Node.Converted (defined : List String) (good : Json → Prop) : Node → Prop where
  | mk {kind : Kind Node} {notes : Notes} (layer : kind.Converted defined good)
      (examples : ∀ v ∈ notes.examples, good v)
      (children : ∀ child ∈ kind.children, child.Converted defined good) :
      Converted defined good (.mk kind notes)

lemma Node.Converted.of {defined : List String} {good : Json → Prop} {kind : Kind Node}
    (layer : kind.Converted defined good)
    (children : ∀ child ∈ kind.children, child.Converted defined good) :
    (Node.of kind).Converted defined good :=
  .mk layer nofun children

lemma Node.Converted.leaf {defined : List String} {good : Json → Prop} {kind : Kind Node}
    (layer : kind.Converted defined good) (bare : kind.children = []) :
    (Node.of kind).Converted defined good :=
  .of layer (by simp [bare])

lemma Node.Converted.around {defined : List String} {good : Json → Prop} {kind : Kind Node}
    {inner : Node} (layer : kind.Converted defined good) (one : kind.children = [inner])
    (inside : inner.Converted defined good) : (Node.of kind).Converted defined good :=
  .of layer (by simpa [one] using inside)

namespace Spec

variable {defined : List String} {good : Json → Prop}

/-- Whether what a conversion gives, if it gives anything, has a property. -/
def Gives {α : Type} (holds : α → Prop) (made : Converted α) : Prop := ∀ a, made = .ok a → holds a

namespace Gives

variable {α β : Type} {holds : α → Prop} {holds' : β → Prop}

lemma any (made : Converted α) : Gives (fun _ => True) made := fun _ _ => trivial

lemma pure {a : α} (here : holds a) : Gives holds (Pure.pure a : Converted α) := by
  rintro _ ⟨⟩
  exact here

lemma bind {first : Converted α} {next : α → Converted β} (one : Gives holds first)
    (rest : ∀ a, holds a → Gives holds' (next a)) : Gives holds' (first >>= next) := by
  intro b h
  obtain ⟨a, made, h⟩ := exists_of_bind h
  exact rest a (one a made) b h

end Gives

variable (good) in
/-- Whether a part and everything it converts to is good. -/
structure Part.Sound (holds : Node → Prop) (part : Part) : Prop where
  value : good part.value
  node : ∀ path, Gives holds (part.node path)
  nodes : ∀ path, Gives (fun nodes => ∀ node ∈ nodes, holds node) (part.nodes path)
  shape : ∀ path, Gives (fun shape => ∀ field ∈ shape, holds field.2) (part.shape path)

namespace Parts

variable (good) in
/-- Whether the parts that a layer asks for are sound. The type itself is only read. -/
def Sound (holds : Node → Prop) (parts : Parts) : Prop :=
  ∀ key part, key ≠ "type" → Fields.get? key parts = some part → part.Sound good holds

variable {holds : Node → Prop} {parts : Parts} {key path : String}

lemma Sound.required (sound : parts.Sound good holds) (other : key ≠ "type") :
    Gives (Part.Sound good holds) (required parts key path) := by
  intro part h
  rw [Parts.required] at h
  split at h
  · rename_i found
    obtain rfl := Except.ok.inj h
    exact sound key _ other found
  · cases h

lemma Sound.list (sound : parts.Sound good holds) (other : key ≠ "type") :
    Gives (fun nodes => ∀ node ∈ nodes, holds node) (list parts key path) := by
  refine .bind (sound.required other) fun part whole nodes h => ?_
  split at h
  · exact whole.nodes _ nodes h
  · cases h

lemma Sound.inner (sound : parts.Sound good holds) (other : key ≠ "type") :
    Gives holds (inner parts key path) :=
  .bind (sound.required other) fun _ whole => whole.node _

/-- A part that may be missing: what it converts to, or something else in its place. -/
lemma Sound.orElse (sound : parts.Sound good holds) (other : key ≠ "type") {otherwise : Node}
    {read : Part → Converted Node} {next : Node → Converted Node} (fine : holds otherwise)
    (each : ∀ part, part.Sound good holds → Gives holds (read part))
    (rest : ∀ node, holds node → Gives holds (next node)) :
    Gives holds (match Fields.get? key parts with
      | some part => read part >>= next
      | none => pure otherwise >>= next) := by
  cases found : Fields.get? key parts with
  | none => exact .bind (.pure fine) rest
  | some part => exact .bind (each part (sound key part other found)) rest

lemma Sound.mapM (sound : parts.Sound good holds) (other : key ≠ "type")
    {read : Part → Converted Node}
    (each : ∀ part, part.Sound good holds → Gives holds (read part)) :
    Gives (fun made => ∀ node ∈ made, holds node) ((Fields.get? key parts).mapM read) := by
  cases found : Fields.get? key parts with
  | none => exact .pure nofun
  | some part =>
    refine .bind (each part (sound key part other found)) fun node here => .pure ?_
    rintro _ ⟨⟩
    exact here

lemma Sound.number? (hereditary : Json.Hereditary good) (sound : parts.Sound good holds)
    (other : key ≠ "type") {d : Double} (h : number? parts key path = .ok (some d)) :
    good (.number (.double d)) := by
  rw [Parts.number?] at h
  split at h
  · cases h
  · rename_i n given
    obtain ⟨part, found, same⟩ := Option.map_eq_some_iff.mp given
    have value := (sound key part other found).value
    rw [same] at value
    exact hereditary.double n d value (Except.ok.inj h)
  · cases h

lemma Sound.numberChecks (hereditary : Json.Hereditary good) (sound : parts.Sound good holds)
    (whole : Bool) : Gives (NumberChecks.Holds · good) (numberChecks parts whole path) := by
  intro checks h
  obtain ⟨least, least_ok, h⟩ := exists_of_bind h
  obtain ⟨most, most_ok, h⟩ := exists_of_bind h
  obtain ⟨above, above_ok, h⟩ := exists_of_bind h
  obtain ⟨below, below_ok, h⟩ := exists_of_bind h
  obtain rfl := Except.ok.inj h
  rintro d (rfl | rfl | rfl | rfl)
  · exact sound.number? hereditary (by decide) least_ok
  · exact sound.number? hereditary (by decide) most_ok
  · exact sound.number? hereditary (by decide) above_ok
  · exact sound.number? hereditary (by decide) below_ok

lemma Sound.properties (sound : parts.Sound good holds) :
    Gives (fun shape => ∀ node ∈ shape.map Prod.snd, holds node) (properties parts path) := by
  intro shape h
  rw [Parts.properties] at h
  split at h
  · obtain rfl := Except.ok.inj h
    exact nofun
  · rename_i part found
    split at h
    · exact List.forall_mem_map.mpr ((sound "properties" part (by decide) found).shape _ shape h)
    · cases h

lemma transform_known : Gives (· ∈ Transform.builtins) (transform parts path) := by
  intro t h
  obtain ⟨name, -, h⟩ := exists_of_bind h
  split at h
  · rename_i found
    obtain rfl := Except.ok.inj h
    exact List.mem_of_find?_eq_some found
  · cases h

lemma intersection_converted {nodes : List Node}
    (members : ∀ node ∈ nodes, node.Converted defined good) :
    Gives (Node.Converted defined good) (intersection path nodes) := by
  intro node h
  have pair {left right : Node} (first : left.Converted defined good)
      (second : right.Converted defined good) :
      (Node.of (.intersection left right)).Converted defined good :=
    .of trivial (by simp [Kind.children, first, second])
  obtain _ | ⟨first, _ | ⟨second, rest⟩⟩ := nodes
  · cases h
  · cases h
  obtain rfl := Except.ok.inj h
  simp only [List.mem_cons, forall_eq_or_imp] at members
  obtain ⟨one, two, members⟩ := members
  -- along the fold the members so far are one converted node
  suffices ∀ start, start.Converted defined good →
      (rest.foldl (fun left right => Node.of (.intersection left right)) start).Converted
        defined good from this _ (pair one two)
  clear one two h
  induction rest with
  | nil => exact fun _ start => start
  | cons node rest ih =>
    intro start converted
    exact ih (fun n mem => members n (List.mem_cons_of_mem _ mem)) _
      (pair converted (members node List.mem_cons_self))

lemma reference_converted :
    Gives (Node.Converted defined good) (reference parts defined path) := by
  intro node h
  obtain ⟨name, -, h⟩ := exists_of_bind h
  split at h
  · rename_i listed
    obtain rfl := Except.ok.inj h
    exact .of ⟨rfl, List.contains_iff_mem.mp listed⟩ nofun
  · cases h

lemma arguments_converted {part : Part} (sound : part.Sound good (Node.Converted defined good)) :
    Gives (Node.Converted defined good) (arguments part path) := by
  rw [arguments]
  split
  · refine .bind (sound.nodes _) fun nodes each => .pure (.of trivial ?_)
    simpa [Kind.children] using each
  · exact sound.node _

/-- What a type makes of sound parts. A type that is not among the known ones has its own name for a
kind. -/
lemma ofType_converted (hereditary : Json.Hereditary good) (type : String)
    (sound : parts.Sound good (Node.Converted defined good)) :
    Gives (Node.Converted defined good) (ofType parts defined type path) := by
  have inner {key : String} (other : key ≠ "type") :
      Gives (Node.Converted defined good) (inner parts key path) := sound.inner other
  unfold ofType
  dsimp only
  split
  case h_1 | h_12 => exact .bind (.any _) fun _ _ => .pure (.leaf trivial rfl)
  case h_2 | h_3 =>
    exact .bind (sound.numberChecks hereditary _) fun _ bounds => .pure (.leaf bounds rfl)
  case h_4 | h_5 | h_6 | h_7 | h_8 | h_9 | h_10 => exact .pure (.leaf trivial rfl)
  case h_11 =>
    exact .bind (sound.required (by decide)) fun _ whole => .pure (.leaf whole.value rfl)
  case h_13 =>
    refine .bind (inner (by decide)) fun _ item => ?_
    exact .bind (.any _) fun _ _ => .bind (.any _) fun _ _ => .pure (.around trivial rfl item)
  case h_14 =>
    refine .bind (sound.list (by decide)) fun items each => ?_
    refine .bind (sound.mapM (by decide) fun _ whole => whole.node _) fun rest last => ?_
    refine .pure (.of trivial fun child mem => ?_)
    exact (List.mem_append.mp mem).elim (each child) fun mem => last child (Option.mem_toList.mp mem)
  case h_15 => exact .bind sound.properties fun _ each => .pure (.of trivial each)
  case h_16 =>
    refine sound.orElse (by decide) (.leaf trivial rfl) (fun _ whole => whole.node _) ?_
    intro _ key
    refine .bind (inner (by decide)) fun _ value => .pure (.of trivial ?_)
    simp [Kind.children, key, value]
  case h_17 => exact .bind (sound.list (by decide)) fun _ each => .pure (.of trivial each)
  case h_18 =>
    refine .bind (.any _) fun _ _ => ?_
    exact .bind (sound.list (by decide)) fun _ each => .pure (.of trivial each)
  case h_19 => exact .bind (sound.list (by decide)) fun _ => intersection_converted
  case h_20 | h_21 | h_22 =>
    exact .bind (inner (by decide)) fun _ inside => .pure (.around trivial rfl inside)
  case h_23 | h_24 =>
    refine .bind (inner (by decide)) fun _ inside => ?_
    exact .bind (sound.required (by decide)) fun _ whole => .pure (.around whole.value rfl inside)
  case h_25 =>
    refine .bind (.any _) fun _ _ => ?_
    exact .bind (inner (by decide)) fun _ inside => .pure (.around trivial rfl inside)
  case h_26 =>
    refine .bind (inner (by decide)) fun _ inside => ?_
    exact .bind transform_known fun _ known => .pure (.around known rfl inside)
  case h_27 =>
    refine .bind transform_known fun _ known => ?_
    exact .bind (inner (by decide)) fun _ inside => .pure (.around known rfl inside)
  case h_28 =>
    refine .bind (inner (by decide)) fun _ input => ?_
    refine .bind (inner (by decide)) fun _ output => .pure (.of trivial ?_)
    simp [Kind.children, input, output]
  case h_29 =>
    refine sound.orElse (by decide) (.leaf trivial rfl) (fun _ => arguments_converted) ?_
    intro _ args
    refine sound.orElse (by decide) (.leaf trivial rfl) (fun _ whole => whole.node _) ?_
    intro _ returns
    exact .pure (.of trivial (by simp [Kind.children, args, returns]))
  case h_30 => exact reference_converted
  case h_31 => exact .pure (.leaf (by simp_all [Kind.Converted, knownTypes]) rfl)

lemma wrapped_converted {type : String} {node made : Node}
    (sound : parts.Sound good (Node.Converted defined good))
    (converted : node.Converted defined good)
    (h : wrapped parts type path node = .ok made) : made.Converted defined good := by
  unfold wrapped at h
  extract_lets defaulted nulled opted fixed at h
  have first : defaulted.Converted defined good := by
    simp only [defaulted]
    split
    · rename_i part found
      split
      · exact converted
      · exact .around (sound "default" part (by decide) found).value rfl converted
    · exact converted
  have second : nulled.Converted defined good := by
    simp only [nulled]
    split
    · exact .around trivial rfl first
    · exact first
  have third : opted.Converted defined good := by
    simp only [opted]
    split
    · exact .around trivial rfl second
    · exact second
  have fourth : fixed.Converted defined good := by
    simp only [fixed]
    split
    · exact .around trivial rfl third
    · exact third
  split at h
  · obtain rfl := Except.ok.inj h
    exact fourth
  · obtain ⟨brand?, -, h⟩ := exists_of_bind h
    cases brand? with
    | none =>
      obtain rfl := Except.ok.inj h
      exact fourth
    | some brand =>
      obtain rfl := Except.ok.inj h
      exact .around trivial rfl fourth

lemma noted_converted (hereditary : Json.Hereditary good) {node made : Node}
    (sound : parts.Sound good (Node.Converted defined good))
    (converted : node.Converted defined good) (h : noted parts path node = .ok made) :
    made.Converted defined good := by
  obtain ⟨description?, -, h⟩ := exists_of_bind h
  extract_lets noted at h
  have described : noted.Converted defined good := by
    simp only [noted]
    split
    · obtain ⟨layer, examples, children⟩ := converted
      exact ⟨layer, examples, children⟩
    · exact converted
  clear_value noted
  split at h
  · obtain rfl := Except.ok.inj h
    exact described
  · rename_i samples given
    obtain rfl := Except.ok.inj h
    obtain ⟨part, found, same⟩ := Option.map_eq_some_iff.mp given
    obtain ⟨layer, examples, children⟩ := described
    refine .mk layer ?_ children
    intro v mem
    rcases List.mem_append.mp mem with mem | mem
    · exact examples v mem
    · have value := (sound "examples" part (by decide) found).value
      rw [same] at value
      exact hereditary.parts _ v value mem
  · cases h

lemma toNode_converted (hereditary : Json.Hereditary good) {node : Node}
    (sound : parts.Sound good (Node.Converted defined good))
    (h : parts.toNode defined path = .ok node) : node.Converted defined good := by
  unfold Parts.toNode at h
  split at h
  · obtain ⟨bare, made, h⟩ := exists_of_bind h
    obtain ⟨wrapped, around, h⟩ := exists_of_bind h
    exact noted_converted hereditary sound
      (wrapped_converted sound (ofType_converted hereditary _ sound bare made) around) h
  · cases h

end Parts

/-- A spec as a part. -/
def Part.ofSpec (defined : List String) (spec : Json) : Part :=
  ⟨spec, toNode defined spec, toNodes defined spec, toShape defined spec⟩

lemma get?_partsOf {fields : List (String × Json)} {key : String} {part : Part}
    (found : Fields.get? key (partsOf defined fields) = some part) :
    ∃ spec ∈ fields.map Prod.snd, part = .ofSpec defined spec := by
  induction fields with
  | nil => cases found
  | cons field fields ih =>
    obtain ⟨name, spec⟩ := field
    simp only [partsOf, Fields.get?] at found
    split at found
    · exact ⟨spec, List.mem_cons_self, (Option.some.inj found).symm⟩
    · obtain ⟨other, mem, same⟩ := ih found
      exact ⟨other, List.mem_cons_of_mem _ mem, same⟩

lemma nodesOf_ok {holds : Node → Prop} {specs : List Json} {position : Nat} {path : String}
    {nodes : List Node}
    (each : ∀ spec ∈ specs, ∀ path node, toNode defined spec path = .ok node → holds node)
    (h : nodesOf defined specs position path = .ok nodes) : ∀ node ∈ nodes, holds node := by
  induction specs generalizing position nodes with
  | nil =>
    obtain rfl := Except.ok.inj h
    exact nofun
  | cons spec specs ih =>
    obtain ⟨node, first, h⟩ := exists_of_bind h
    obtain ⟨more, rest, h⟩ := exists_of_bind h
    obtain rfl := Except.ok.inj h
    refine List.forall_mem_cons.mpr ⟨each spec List.mem_cons_self _ node first, ?_⟩
    exact ih (fun other mem => each other (List.mem_cons_of_mem _ mem)) rest

lemma shapeOf_ok {holds : Node → Prop} {specs : List (String × Json)} {path : String}
    {shape : Fields Node}
    (each : ∀ spec ∈ specs.map Prod.snd, ∀ path node,
      toNode defined spec path = .ok node → holds node)
    (h : shapeOf defined specs path = .ok shape) : ∀ field ∈ shape, holds field.2 := by
  induction specs generalizing shape with
  | nil =>
    obtain rfl := Except.ok.inj h
    exact nofun
  | cons spec specs ih =>
    obtain ⟨node, first, h⟩ := exists_of_bind h
    obtain ⟨more, rest, h⟩ := exists_of_bind h
    obtain rfl := Except.ok.inj h
    refine List.forall_mem_cons.mpr ⟨each spec.2 List.mem_cons_self _ node first, ?_⟩
    exact ih (fun other mem => each other (List.mem_cons_of_mem _ mem)) rest

/-- A good spec is a sound part, by induction on the spec. -/
lemma ofSpec_sound (hereditary : Json.Hereditary good) (spec : Json) (holds : good spec) :
    (Part.ofSpec defined spec).Sound good (Node.Converted defined good) := by
  induction spec using Json.induct with
  | step spec ih =>
    have inner (part : Json) (mem : part ∈ spec.parts) :=
      ih part mem (hereditary.parts _ _ holds mem)
    clear ih
    have each (part : Json) (mem : part ∈ spec.parts) (path : String) (node : Node)
        (h : toNode defined part path = .ok node) : node.Converted defined good :=
      (inner part mem).node path node h
    refine ⟨holds, ?_, ?_, ?_⟩
    · intro path node h
      cases spec with
      | string type =>
        change Parts.toNode [("type", Part.ofName type)] defined path = .ok node at h
        refine Parts.toNode_converted hereditary ?_ h
        intro key part other found
        have named : (if "type" = key then some (Part.ofName type) else none) = some part := found
        rw [if_neg (Ne.symm other)] at named
        cases named
      | object fields =>
        change Parts.toNode (partsOf defined fields) defined path = .ok node at h
        refine Parts.toNode_converted hereditary ?_ h
        intro key part _ found
        obtain ⟨value, mem, rfl⟩ := get?_partsOf found
        exact inner value mem
      | null | bool _ | number _ | array _ => cases h
    · intro path nodes h
      cases spec with
      | array items => exact nodesOf_ok each h
      | _ =>
        obtain rfl := Except.ok.inj h
        exact nofun
    · intro path shape h
      cases spec with
      | object fields => exact shapeOf_ok each h
      | _ =>
        obtain rfl := Except.ok.inj h
        exact nofun

/-- What conversion makes of a good spec. -/
theorem toNode_converted (hereditary : Json.Hereditary good) {spec : Json} (holds : good spec)
    {path : String} {node : Node} (h : toNode defined spec path = .ok node) :
    node.Converted defined good :=
  (ofSpec_sound hereditary spec holds).node path node h

lemma toArguments_converted (hereditary : Json.Hereditary good) {spec : Json} (holds : good spec)
    {path : String} {node : Node} (h : toArguments defined spec path = .ok node) :
    node.Converted defined good :=
  Parts.arguments_converted (ofSpec_sound hereditary spec holds) node h

end Spec

end EventContracts

import EventContracts.Proofs.KeptRequirements

/-! What an intersection of two objects keeps of what its output view requires. The results of both
sides are put together field by field, and a field of both sides is the one of the second side; the
views are put together at every depth. So everything that the second side requires is kept, and what
the first side requires is kept where the second one declares no field of the same name. -/

namespace EventContracts

/-- Whether a layer is a plain one that does not coerce. -/
def Kind.Basic {α : Type} : Kind α → Prop
  | string checks => checks.coerce = false
  | number checks => checks.coerce = false
  | boolean coerce => coerce = false
  | null => True
  | any => True
  | array .. => True
  | object _ => True
  | optional _ => True
  | _ => False

namespace Node

/-- Whether a tree has plain layers only that do not coerce. -/
inductive Basic : Node → Prop where
  | mk {kind : Kind Node} {notes : Notes} (layer : kind.Basic)
      (children : ∀ child ∈ kind.children, Basic child) : Basic (.mk kind notes)

lemma basic_mk {kind : Kind Node} {notes : Notes} :
    (Node.mk kind notes).Basic ↔ kind.Basic ∧ ∀ child ∈ kind.children, child.Basic :=
  ⟨fun ⟨layer, children⟩ => ⟨layer, children⟩, fun ⟨layer, children⟩ => ⟨layer, children⟩⟩

variable {node : Node} {patterns : PatternReader} {deref : String → Option Json → Outcome}

lemma Basic.not_refers (basic : node.Basic) (target : String) : ¬ node.Refers target := by
  intro refers
  induction refers with
  | here => exact (basic_mk.mp basic).1
  | child mem _ ih => exact ih ((basic_mk.mp basic).2 _ mem)

lemma Basic.shows (basic : node.Basic) (keyed : node.Keyed) : node.Shows := by
  induction node using Node.induct with
  | step kind notes ih =>
    obtain ⟨layer, children⟩ := basic_mk.mp basic
    obtain ⟨distinct, -, childrenKeyed⟩ := keyed_mk.mp keyed
    refine shows_mk.mpr ⟨?_, fun part mem => ?_⟩
    · cases kind <;> first | exact distinct | trivial
    · have child := kind.outputParts_subset mem
      exact ih part child (children part child) (childrenKeyed part child)

/-- An absent value stays absent where it is accepted. -/
lemma Basic.absent (basic : node.Basic) (w : Json) :
    validateWith patterns deref node none ≠ .ok (some w) := by
  obtain ⟨kind, notes⟩ := node
  have layer := (basic_mk.mp basic).1
  intro made
  cases makes_of_validateWith made with
  | @string checks _ _ made =>
    have uncoerced : checks.coerce = false := layer
    obtain ⟨text, -, subject, -⟩ := StringChecks.validate_ok made
    rw [StringChecks.subject, uncoerced] at subject
    cases subject
  | @number checks _ _ made =>
    have uncoerced : checks.coerce = false := layer
    obtain ⟨d, subject, -⟩ := exists_of_bind made
    simp only [NumberChecks.subject, uncoerced] at subject
    cases subject
  | @boolean coerce _ _ made =>
    obtain rfl : coerce = false := layer
    cases made
  | _ => exact layer

end Node

namespace SchemaObject

variable {components : Fields SchemaObject} {s s' : SchemaObject} {v : Json}

lemma mem_parts_of_furtherDemands {further : Option (Further SchemaObject)} {values : List Json}
    {part : SchemaObject × Json} (mem : part ∈ furtherDemands further values) :
    part.1 ∈ (further.map Further.parts).getD [] := by
  rcases further with _ | _ | t
  · cases mem
  · cases mem
  · obtain ⟨w, -, rfl⟩ := List.mem_map.mp mem
    exact List.mem_singleton_self t

/-- What parts of a value have to fit are parts of the schema. -/
lemma mem_parts_of_demands {part : SchemaObject × Json} (mem : part ∈ s.demands v) :
    part.1 ∈ s.parts := by
  rw [mem_parts]
  cases v with
  | object fields =>
    rcases List.mem_append.mp mem with mem | mem
    · obtain ⟨name, inside, -⟩ := mem_propertyDemands mem
      exact .inl (List.mem_map_of_mem inside)
    · exact .inr (.inl (mem_parts_of_furtherDemands mem))
  | array values =>
    rw [demands] at mem
    split at mem
    · rename_i t is
      obtain ⟨w, -, rfl⟩ := List.mem_map.mp mem
      exact .inr (.inr (.inl (by rw [is]; exact List.mem_singleton_self t)))
    · rename_i schemas is
      rcases List.mem_append.mp mem with mem | mem
      · exact .inr (.inr (.inl (by rw [is]; exact (List.of_mem_zip mem).1)))
      · exact .inr (.inr (.inr (.inl (mem_parts_of_furtherDemands mem))))
    · cases mem
  | _ => cases mem

/-- A value that fits a schema keeps what it requires. -/
lemma Fits.kept (fits : Fits components s v) (tree : s.Throughout Tree) : s.Kept v := by
  induction tree generalizing v with
  | @mk s here _ ih =>
    cases fits with
    | reference refers _ _ =>
      rw [here.itself] at refers
      cases refers
    | direct _ meets parts _ _ =>
      refine .mk ?_ (fun part mem => ?_) ?_
      · intro fields is name mem
        cases needed : s.required with
        | none =>
          rw [needed] at mem
          cases mem
        | some names =>
          rw [needed] at mem
          exact meets.required names fields needed is name mem
      · exact ih part.1 (mem_parts_of_demands mem) (parts part mem)
      · rw [here.allOf]
        exact List.forall_mem_nil _

lemma kept_congr (required : s'.required = s.required) (demands : s'.demands v = s.demands v)
    (allOf : s'.allOf = s.allOf) : s'.Kept v ↔ s.Kept v := by
  rw [kept_mk, kept_mk, required, demands, allOf]

end SchemaObject

namespace Document

open SchemaObject Depicter

variable {setting : Setting} {table : AliasTable SchemaObject} {direction : Direction} {node : Node}
  {s s' : SchemaObject} {v : Json}

lemma kept_annotated (h : depicter.replay setting table (annotate node direction s) = .ok s') :
    s'.Kept v ↔ s.Kept v := by
  rcases replay_annotate h with rfl | ⟨nullable, description, examples, rfl⟩
  · rfl
  · exact kept_congr rfl (by cases v <;> rfl) rfl

lemma tree_annotated (tree : s.Throughout Tree)
    (h : depicter.replay setting table (annotate node direction s) = .ok s') :
    s'.Throughout Tree := by
  rcases replay_annotate h with rfl | ⟨nullable, description, examples, rfl⟩
  · exact tree
  · exact .mk ⟨tree.here.itself, tree.here.further, tree.here.items, tree.here.allOf⟩ tree.parts

/-- The view of a plain tree says everything by properties and items. -/
lemma tree_of_replay (basic : node.Basic)
    (h : depicter.replay setting table (walk direction node) = .ok s) : s.Throughout Tree := by
  induction node using Node.induct generalizing s with
  | step kind notes ih =>
    obtain ⟨layer, children⟩ := Node.basic_mk.mp basic
    obtain ⟨view, drawn, annotated⟩ := layer_of_replay h
    refine tree_annotated ?_ annotated
    have child {node : Node} {t : SchemaObject} (mem : node ∈ kind.children)
        (shown : Viewed setting table direction node t) : t.Throughout Tree :=
      ih node mem (children node mem) shown
    have gathered (gathers : kind.gathers) : ∀ t ∈ view.parts, t.Throughout Tree := by
      intro t mem
      obtain ⟨node, inside, shown⟩ := drawn.parts_viewed gathers mem
      exact child (Kind.mem_children_of_gathers gathers inside) shown
    cases drawn with
    | string | number | boolean | null | any | array _ | object _ =>
      exact .mk ⟨rfl, rfl, fun _ is => (by cases is), rfl⟩ (gathered rfl)
    | optional shown => exact child List.mem_cons_self shown
    | _ => exact layer.elim

/-- The view of an object has the fields of the object as properties. -/
lemma propertyNames_of_replay {shape : List (String × Node)} {notes : Notes}
    (h : depicter.replay setting table (walk direction (.mk (.object shape) notes)) = .ok s) :
    s.propertyNames = Fields.names shape := by
  obtain ⟨properties, required, shown, same, -⟩ := object_of_replay h
  rw [SchemaObject.propertyNames, same]
  exact replay_walkShape_names shown

lemma walk_intersection (left right : Node) (notes : Notes) :
    depicter.walk (.mk (.intersection left right) notes) direction =
      depicter.walk left direction >>= fun l => depicter.walk right direction >>= fun r =>
        annotate (.mk (.intersection left right) notes) direction (l.intersect r) := by
  change ((walk direction left >>= fun l => walk direction right >>= fun r =>
    pure (l.intersect r)) >>= annotate _ direction) = _
  rw [Walk.bind_assoc]
  refine congrArg (walk direction left >>= ·) (funext fun l => ?_)
  exact Walk.bind_assoc _ _ _

/-- The views of both sides of an intersection are made one after the other. -/
lemma sides_of_depict {left right : Node} {notes : Notes} {before after : AliasTable SchemaObject}
    (depicted : depict setting direction (.mk (.intersection left right) notes) before =
      (.ok s, after)) :
    ∃ l r middle later, depict setting direction left before = (.ok l, middle) ∧
      depict setting direction right middle = (.ok r, later) ∧
      depicter.replay setting after (walk direction left) = .ok l ∧
      depicter.replay setting after (walk direction right) = .ok r ∧
      ∀ v, s.Kept v ↔ (l.intersect r).Kept v := by
  obtain ⟨visits, run⟩ := runs_depict setting uniform.unknown before
    (.mk (.intersection left right) notes) direction
  rw [depict] at depicted
  rw [depicted, walk_intersection] at run
  obtain ⟨l, _, _, middle, first, rest⟩ := run.first
  obtain ⟨r, _, _, later, second, last⟩ := rest.first
  exact ⟨l, r, middle, later, first.depicted uniform.unknown, second.depicted uniform.unknown,
    first.replayed rest.extends rfl, second.replayed last.extends rfl,
    fun v => kept_annotated (last.replayed (.refl _) rfl)⟩

/-- What a plain tree gives keeps what its view requires. -/
lemma kept_of_validate {depth : Nat} {input : Option Json} (basic : node.Basic)
    (keyed : node.Keyed) (shown : Views setting table node s)
    (made : Node.validateWith setting.library.patterns (setting.library.follow depth) node input =
      .ok (some v)) : s.Kept v := by
  have references : References setting table depth fun _ => False := fun _ _ nowhere => nowhere.elim
  exact (fitting_of_references references (basic.shows keyed)
    (fun target refers => basic.not_refers target refers) s shown input v made).kept
      (tree_of_replay basic shown)

end Document

section Together

open SchemaObject

variable {patterns : PatternReader} {deref : String → Option Json → Outcome}
  {shape shape' : List (String × Node)}
  {fields a b : Fields Json} {l r : SchemaObject}

/-- A field that the second side declares is the one of the second side. -/
lemma get?_together (basic : ∀ node ∈ shape.map Prod.snd, node.Basic)
    (present : ∀ target v, deref target (some v) ≠ .ok none)
    (nodup : (Fields.names shape').Nodup)
    (first : Node.validateShape patterns deref shape fields = .ok a)
    (second : Node.validateShape patterns deref shape' fields = .ok b) {name : String}
    (declared : name ∈ Fields.names shape') :
    Fields.get? name (Fields.merge a b) = Fields.get? name b := by
  have distinct := (Node.sublist_validateShape second).nodup nodup
  rw [Fields.get?_merge distinct]
  cases here : Fields.get? name b with
  | some w => rfl
  | none =>
    obtain ⟨⟨key, node'⟩, inside, same⟩ := List.mem_map.mp declared
    obtain rfl : key = name := same
    have lost := (Node.validateShape_ok second).2 _ inside (Fields.get?_eq_none.mp here)
    have absent : Fields.get? key fields = none := by
      cases given : Fields.get? key fields with
      | none => rfl
      | some v =>
        dsimp only at lost
        rw [given] at lost
        exact absurd lost (Node.validateWith_present present node' v)
    rw [Option.none_or]
    cases other : Fields.get? key a with
    | none => rfl
    | some w =>
      obtain ⟨node, among, made⟩ := (Node.validateShape_ok first).1 _ (Fields.mem_of_get? other)
      rw [absent] at made
      exact absurd made ((basic node (List.mem_map_of_mem among)).absent w)

lemma get?_together_of_not_mem (nodup : (Fields.names shape').Nodup)
    (second : Node.validateShape patterns deref shape' fields = .ok b) {name : String}
    (undeclared : name ∉ Fields.names shape') :
    Fields.get? name (Fields.merge a b) = Fields.get? name a := by
  have sublist := Node.sublist_validateShape second
  rw [Fields.get?_merge (sublist.nodup nodup),
    Fields.get?_eq_none.mpr fun mem => undeclared (sublist.subset mem), Option.none_or]

/-- What the second side requires is kept when all of its fields are taken over. -/
lemma kept_of_second (tree : r.Tree) (nodup : r.propertyNames.Nodup) (kept : r.Kept (.object b))
    (covered : ∀ name ∈ Fields.names b, name ∈ Fields.names fields)
    (taken : ∀ name ∈ r.propertyNames, Fields.get? name fields = Fields.get? name b) :
    r.Kept (.object fields) := by
  obtain ⟨ofFields, -⟩ := (kept_iff_of_tree tree nodup).mp kept
  obtain ⟨needed, declared⟩ := ofFields b rfl
  refine (kept_iff_of_tree tree nodup).mpr ⟨?_, by simp⟩
  rintro _ ⟨⟩
  refine ⟨fun name mem => covered name (needed name mem), fun name t found v present => ?_⟩
  rw [taken name (List.mem_map_of_mem (Fields.mem_of_get? found))] at present
  exact declared name t found v present

/-- What the first side requires is kept exactly when it is in the fields that are not its own. -/
lemma kept_of_first (tree : l.Tree) (nodup : l.propertyNames.Nodup) (kept : l.Kept (.object a))
    (covered : ∀ name ∈ Fields.names a, name ∈ Fields.names fields) {lost : List String}
    (taken : ∀ name, name ∉ lost → Fields.get? name fields = Fields.get? name a) :
    (∀ name ∈ l.required.getD [], name ∈ Fields.names fields) ∧
      (l.Kept (.object fields) ↔ ∀ property ∈ l.properties.getD [], property.1 ∈ lost →
        ∀ v, Fields.get? property.1 fields = some v → property.2.Kept v) := by
  obtain ⟨ofFields, -⟩ := (kept_iff_of_tree tree nodup).mp kept
  obtain ⟨needed, declared⟩ := ofFields a rfl
  have names : ∀ name ∈ l.required.getD [], name ∈ Fields.names fields :=
    fun name mem => covered name (needed name mem)
  refine ⟨names, fun whole property mem _ v present => ?_, fun shared => ?_⟩
  · obtain ⟨ofFields, -⟩ := (kept_iff_of_tree tree nodup).mp whole
    exact (ofFields fields rfl).2 property.1 property.2 (Fields.get?_of_mem nodup mem) v present
  · refine (kept_iff_of_tree tree nodup).mpr ⟨?_, by simp⟩
    rintro _ ⟨⟩
    refine ⟨names, fun name t found v present => ?_⟩
    by_cases among : name ∈ lost
    · exact shared (name, t) (Fields.mem_of_get? found) among v present
    · rw [taken name among] at present
      exact declared name t found v present

end Together

/-- What an intersection of two plain objects gives keeps all that its second side requires, and all
that its first side requires of the object itself. It keeps what the view of the intersection
requires, put together or not, exactly when each field of both sides keeps what the first side
requires of it; so it does when no field is declared by both sides. -/
theorem intersections_keep_requirements (setting : Setting)
    (definitions : ∀ field ∈ setting.library.definitions, field.2.Keyed)
    {left right : Node} {shape shape' : List (String × Node)} {notes : Notes}
    (isLeft : left.kind = .object shape) (isRight : right.kind = .object shape')
    (basic : left.Basic) (basic' : right.Basic)
    (keyed : (Node.mk (.intersection left right) notes).Keyed)
    {before after : AliasTable SchemaObject} {s : SchemaObject}
    (depicted : Document.depict setting .output (.mk (.intersection left right) notes) before =
      (.ok s, after))
    {input result : Option Json}
    (made : setting.library.validate (.mk (.intersection left right) notes) input = .ok result) :
    ∃ l r middle later fields,
      Document.depict setting .output left before = (.ok l, middle) ∧
      Document.depict setting .output right middle = (.ok r, later) ∧
      result = some (.object fields) ∧ r.Kept (.object fields) ∧
      (∀ name ∈ l.required.getD [], name ∈ Fields.names fields) ∧
      (s.Kept (.object fields) ↔ ∀ property ∈ l.properties.getD [],
        property.1 ∈ Fields.names shape' →
          ∀ v, Fields.get? property.1 fields = some v → property.2.Kept v) ∧
      ((Fields.names shape).Disjoint (Fields.names shape') → s.Kept (.object fields)) := by
  obtain ⟨kind, leftNotes⟩ := left
  obtain rfl : kind = .object shape := isLeft
  obtain ⟨kind', rightNotes⟩ := right
  obtain rfl : kind' = .object shape' := isRight
  obtain ⟨-, -, sides⟩ := Node.keyed_mk.mp keyed
  have keyedLeft := sides _ List.mem_cons_self
  have keyedRight := sides _ (List.mem_cons_of_mem _ List.mem_cons_self)
  have basics := (Node.basic_mk.mp basic).2
  obtain ⟨l, r, middle, later, first, second, shown, shown', together⟩ :=
    Document.sides_of_depict depicted
  have keyedL := Document.keyed_of_replay definitions keyedLeft shown
  have keyedR := Document.keyed_of_replay definitions keyedRight shown'
  have treeL := Document.tree_of_replay basic shown
  have treeR := Document.tree_of_replay basic' shown'
  rw [Library.validate, Node.validate_eq] at made
  obtain ⟨_, valid, made⟩ := exists_of_bind made
  obtain ⟨_, valid', made⟩ := exists_of_bind made
  obtain ⟨given, a, rfl, rfl, shaped⟩ := Node.validateWith_object_ok valid
  obtain ⟨_, b, same, rfl, shaped'⟩ := Node.validateWith_object_ok valid'
  obtain rfl := Json.object.inj (Option.some.inj same)
  obtain rfl := Except.ok.inj made
  have keptL := Document.kept_of_validate basic keyedLeft shown valid
  have keptR := Document.kept_of_validate basic' keyedRight shown' valid'
  have present :=
    Node.follow_present setting.library.patterns setting.library.definitions setting.library.depth
  have nodup : (Fields.names shape').Nodup := (Node.keyed_mk.mp keyedRight).1
  have allOfRight : r.Kept (.object (Fields.merge a b)) := by
    refine kept_of_second treeR.here keyedR.here.properties keptR
      (fun name mem => Fields.mem_names_merge.mpr (.inr mem)) fun name mem => ?_
    rw [Document.propertyNames_of_replay shown'] at mem
    exact get?_together basics present nodup shaped shaped' mem
  obtain ⟨names, allOfLeft⟩ := kept_of_first treeL.here keyedL.here.properties keptL
    (fun name mem => Fields.mem_names_merge.mpr (.inl mem))
    fun name undeclared => get?_together_of_not_mem nodup shaped' undeclared
  have both := (together _).trans ((SchemaObject.kept_intersect keyedL treeL keyedR treeR).trans
    ((and_iff_left allOfRight).trans allOfLeft))
  refine ⟨l, r, middle, later, _, first, second, rfl, allOfRight, names, both, fun apart => ?_⟩
  refine both.mpr fun property mem declared => (apart ?_ declared).elim
  rw [← Document.propertyNames_of_replay shown]
  exact List.mem_map_of_mem mem

def lodgeSetting : Setting where
  library := {}
  fingerprint node := node.kindName

/-- A guest of whom one thing is asked. -/
def guestWith (part : String) : Node :=
  .of (.object [("guest", .of (.object [(part, .of (.string {}))]))])

/-- A stay in a house, of a guest who may say how long. -/
def stay : Node := .of (.object [
  ("house", .of (.string {})),
  ("guest", .of (.object [("nights", .of (.optional (.of (.number {}))))]))])

lemma basic_guestWith (part : String) : (guestWith part).Basic := by
  simp [guestWith, Node.of, Node.basic_mk, Kind.Basic, Kind.children]

lemma basic_stay : stay.Basic := by
  simp [stay, Node.of, Node.basic_mk, Kind.Basic, Kind.children]

lemma keyed_guestWith (part : String) : (guestWith part).Keyed := by
  simp [guestWith, Node.of, Node.keyed_mk, Kind.Keyed, Kind.children, Fields.names]

lemma keyed_stay : stay.Keyed := by
  simp [stay, Node.of, Node.keyed_mk, Kind.Keyed, Kind.children, Fields.names]

lemma keyed_stay_intersection : (Node.of (.intersection stay (guestWith "mail"))).Keyed := by
  simpa [Node.of, Node.keyed_mk, Kind.Keyed, Kind.children] using
    And.intro keyed_stay (keyed_guestWith "mail")

/-- A guest who says more than the second side asks. -/
def stayInput : Json := .object [
  ("house", .string "oak"),
  ("guest", .object [("mail", .string "a@b"), ("nights", .number (.whole 3))])]

/-- What is kept of it. -/
def stayResult : Fields Json :=
  [("house", .string "oak"), ("guest", .object [("mail", .string "a@b")])]

theorem stay_keeps_requirements :
    ∃ s, Document.depict lodgeSetting .output (.of (.intersection stay (guestWith "mail")))
        Document.noComponents = (.ok s, Document.noComponents) ∧
      lodgeSetting.library.validate (.of (.intersection stay (guestWith "mail")))
        (some stayInput) = .ok (some (.object stayResult)) ∧
      s.Kept (.object stayResult) := by
  obtain ⟨s, depicted⟩ : ∃ s,
      Document.depict lodgeSetting .output (.of (.intersection stay (guestWith "mail")))
        Document.noComponents = (.ok s, Document.noComponents) := ⟨_, rfl⟩
  have made : lodgeSetting.library.validate (.of (.intersection stay (guestWith "mail")))
      (some stayInput) = .ok (some (.object stayResult)) := rfl
  have shown : Document.depict lodgeSetting .output stay Document.noComponents = (.ok {
      typeNames := some (.one "object")
      properties := some [
        ("house", { typeNames := some (.one "string") }),
        ("guest", {
          typeNames := some (.one "object")
          properties := some [
            ("nights", { typeNames := some (.one "number"), format := some "double" })] })]
      required := some ["house", "guest"] }, Document.noComponents) := rfl
  refine ⟨s, depicted, made, ?_⟩
  obtain ⟨l, r, middle, later, fields, first, -, same, -, -, both, -⟩ :=
    intersections_keep_requirements lodgeSetting (List.forall_mem_nil _) rfl rfl basic_stay
      (basic_guestWith "mail") keyed_stay_intersection depicted made
  obtain rfl := Json.object.inj (Option.some.inj same)
  obtain rfl := Except.ok.inj (Prod.mk.inj (first.symm.trans shown)).1
  refine both.mpr fun property mem declared v found => ?_
  rcases List.mem_cons.mp mem with rfl | mem
  · have absent : "house" ∉ ["guest"] := by simp
    exact absurd declared absent
  · obtain rfl := List.mem_singleton.mp mem
    obtain rfl : Json.object [("mail", .string "a@b")] = v := Option.some.inj found
    refine .mk ?_ (List.forall_mem_nil _) (List.forall_mem_nil _)
    exact fun _ _ => List.forall_mem_nil _

/-- The name of a guest is required and lost: the guest of the second side takes the place of the
other one. -/
theorem guest_loses_requirements :
    ∃ s, Document.depict lodgeSetting .output
        (.of (.intersection (guestWith "name") (guestWith "mail"))) Document.noComponents =
        (.ok s, Document.noComponents) ∧
      lodgeSetting.library.validate (.of (.intersection (guestWith "name") (guestWith "mail")))
          (some (.object [
            ("guest", .object [("name", .string "Ann"), ("mail", .string "a@b")])])) =
        .ok (some (.object [("guest", .object [("mail", .string "a@b")])])) ∧
      ¬ s.Kept (.object [("guest", .object [("mail", .string "a@b")])]) := by
  refine ⟨{
    typeNames := some (.one "object")
    properties := some [("guest", {
      typeNames := some (.one "object")
      properties := some [
        ("name", { typeNames := some (.one "string") }),
        ("mail", { typeNames := some (.one "string") })]
      required := some ["name", "mail"] })]
    required := some ["guest"] }, rfl, rfl, fun kept => ?_⟩
  obtain ⟨-, parts, -⟩ := SchemaObject.kept_mk.mp kept
  have guest := parts _ List.mem_cons_self
  obtain ⟨required, -, -⟩ := SchemaObject.kept_mk.mp guest
  have found : "name" ∈ ["mail"] := required _ rfl "name" List.mem_cons_self
  simp at found

end EventContracts

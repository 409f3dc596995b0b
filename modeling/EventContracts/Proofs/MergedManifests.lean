import EventContracts.Manifest.Loading
import EventContracts.Proofs.MergedFields
import EventContracts.Proofs.ValidationDepth

/-! Merged manifests do not depend on the grouping in which they were merged, and hold what any of
them declares: of a name that several of them declare, what the last one says. Definitions and
events take the later value, namespaces are merged in turn, security schemes are listed once, and
the last configuration that is not the default one counts. -/

namespace EventContracts

lemma mem_foldl_insertName {names later : List String} {name : String} :
    name ∈ later.foldl insertName names ↔ name ∈ names ∨ name ∈ later := by
  induction later generalizing names with
  | nil => simp
  | cons other rest ih =>
    rw [List.foldl_cons, ih, insertName]
    by_cases known : other ∈ names
    · rw [if_pos (List.contains_iff_mem.mpr known)]
      grind
    · rw [if_neg (List.contains_iff_mem.not.mpr known), List.mem_append, List.mem_singleton,
        List.mem_cons, or_assoc]

/-- A name that comes last can be inserted into the names that come before it first. -/
lemma insertName_foldl (first middle : List String) (name : String) :
    insertName (middle.foldl insertName first) name =
      (insertName middle name).foldl insertName first := by
  by_cases known : name ∈ middle
  · have united : name ∈ middle.foldl insertName first := mem_foldl_insertName.mpr (.inr known)
    rw [insertName, if_pos (List.contains_iff_mem.mpr united), insertName,
      if_pos (List.contains_iff_mem.mpr known)]
  · conv_rhs => rw [insertName, if_neg (List.contains_iff_mem.not.mpr known), List.foldl_append]
    rfl

lemma foldl_insertName_assoc (first middle last : List String) :
    last.foldl insertName (middle.foldl insertName first) =
      (last.foldl insertName middle).foldl insertName first := by
  induction last generalizing middle with
  | nil => rfl
  | cons name rest ih => rw [List.foldl_cons, List.foldl_cons, insertName_foldl, ih]

namespace NamespaceSpec

/-- Whether no event is declared twice. -/
structure Keyed (spec : NamespaceSpec) : Prop where
  emission : (Fields.names spec.emission).Nodup
  actions : (Fields.names spec.actions).Nodup

/-- The events that flow in a direction. -/
def events : Direction → NamespaceSpec → Fields EventSpec
  | .input, spec => spec.actions
  | .output, spec => spec.emission

lemma Keyed.events {spec : NamespaceSpec} (keyed : spec.Keyed) (direction : Direction) :
    (Fields.names (spec.events direction)).Nodup := by
  cases direction with
  | input => exact keyed.actions
  | output => exact keyed.emission

lemma events_merge (direction : Direction) (spec later : NamespaceSpec) :
    (spec.merge later).events direction =
      Fields.merge (spec.events direction) (later.events direction) := by
  cases direction <;> rfl

lemma Keyed.merge {spec : NamespaceSpec} (keyed : spec.Keyed) (later : NamespaceSpec) :
    (spec.merge later).Keyed :=
  ⟨Fields.names_merge_nodup keyed.emission _, Fields.names_merge_nodup keyed.actions _⟩

lemma keyed_empty : ({} : NamespaceSpec).Keyed := ⟨List.nodup_nil, List.nodup_nil⟩

lemma merge_assoc (first : NamespaceSpec) {middle last : NamespaceSpec} (keyed : middle.Keyed)
    (keyed' : last.Keyed) : (first.merge middle).merge last = first.merge (middle.merge last) := by
  simp only [merge, mk.injEq]
  exact ⟨foldl_insertName_assoc _ _ _, Fields.merge_assoc keyed.emission keyed'.emission _,
    Fields.merge_assoc keyed.actions keyed'.actions _⟩

/-- What becomes of what is said about a namespace, given what was said about it. -/
def mergeOnto (old : Option NamespaceSpec) (spec : NamespaceSpec) : Option NamespaceSpec :=
  some ((old.getD {}).merge spec)

lemma regroups_mergeOnto {given : Option NamespaceSpec} {later : NamespaceSpec}
    (keyed : ∀ spec ∈ given, spec.Keyed) (keyed' : later.Keyed) :
    Fields.Regroups mergeOnto given later := by
  intro old
  cases given with
  | none => exact congrArg some (merge_assoc (old.getD {}) keyed_empty keyed').symm
  | some spec => exact congrArg some (merge_assoc (old.getD {}) (keyed spec rfl) keyed').symm

end NamespaceSpec

namespace Manifest

lemma mergeWith?_mergeOnto (namespaces later : Fields NamespaceSpec) :
    Fields.mergeWith? NamespaceSpec.mergeOnto namespaces later =
      some (later.foldl mergeNamespace namespaces) := by
  induction later generalizing namespaces with
  | nil => rfl
  | cons entry rest ih => exact ih (mergeNamespace namespaces entry)

/-- Whether no definition, no namespace and no event is declared twice. -/
structure Keyed (manifest : Manifest) : Prop where
  definitions : (Fields.names manifest.definitions).Nodup
  namespaces : (Fields.names manifest.namespaces).Nodup
  specs : ∀ entry ∈ manifest.namespaces, entry.2.Keyed

lemma merge_assoc (first : Manifest) {middle last : Manifest} (keyed : middle.Keyed)
    (keyed' : last.Keyed) : (first.merge middle).merge last = first.merge (middle.merge last) := by
  have configs : (first.merge middle |>.merge last).config =
      (first.merge (middle.merge last)).config := by
    simp only [merge]
    by_cases same : last.config.same {} <;> simp [same]
  have spaces : (first.merge middle |>.merge last).namespaces =
      (first.merge (middle.merge last)).namespaces := by
    have each : ∀ entry ∈ last.namespaces,
        Fields.Regroups NamespaceSpec.mergeOnto (Fields.get? entry.1 middle.namespaces) entry.2 :=
      fun entry mem => NamespaceSpec.regroups_mergeOnto
        (fun spec found => keyed.specs _ (Fields.mem_of_get? found)) (keyed'.specs entry mem)
    have either := Fields.mergeWith?_assoc keyed.namespaces keyed'.namespaces each first.namespaces
    simp only [mergeWith?_mergeOnto, Option.bind_some, Option.some.injEq] at either
    exact either
  have definitions := Fields.merge_assoc keyed.definitions keyed'.definitions first.definitions
  simp only [merge, mk.injEq] at configs spaces ⊢
  exact ⟨configs, definitions, spaces⟩

/-- The events of a namespace that flow in a direction; none of a namespace that is not there. -/
def eventsAt (path : String) (direction : Direction) (manifest : Manifest) : Fields EventSpec :=
  ((Fields.get? path manifest.namespaces).getD {}).events direction

lemma Keyed.eventsAt {manifest : Manifest} (keyed : manifest.Keyed) (path : String)
    (direction : Direction) : (Fields.names (manifest.eventsAt path direction)).Nodup := by
  rw [Manifest.eventsAt]
  cases found : Fields.get? path manifest.namespaces with
  | none => exact NamespaceSpec.keyed_empty.events direction
  | some spec => exact (keyed.specs _ (Fields.mem_of_get? found)).events direction

lemma eventsAt_merge (manifest : Manifest) {later : Manifest} (keyed : later.Keyed) (path : String)
    (direction : Direction) : (manifest.merge later).eventsAt path direction =
      Fields.merge (manifest.eventsAt path direction) (later.eventsAt path direction) := by
  have found := Fields.get?_mergeWith? keyed.namespaces
    (mergeWith?_mergeOnto manifest.namespaces later.namespaces) path
  simp only [eventsAt, merge]
  rw [found]
  cases Fields.get? path later.namespaces with
  | none => cases direction <;> rfl
  | some spec => exact NamespaceSpec.events_merge direction _ spec

section Read

open Format

variable {σ α β : Type}

lemma exists_of_mem_mapM_some {f : α → Option β} {items : List α} {results : List β}
    (h : items.mapM f = some results) {b : β} (mem : b ∈ results) : ∃ a ∈ items, f a = some b := by
  induction items generalizing results with
  | nil =>
    obtain rfl := Option.some.inj h
    cases mem
  | cons a items ih =>
    rw [List.mapM_cons] at h
    obtain ⟨first, made, h⟩ := Option.bind_eq_some_iff.mp h
    obtain ⟨more, rest, same⟩ := Option.bind_eq_some_iff.mp h
    obtain rfl := Option.some.inj same
    rcases List.mem_cons.mp mem with rfl | mem
    · exact ⟨a, List.mem_cons_self, made⟩
    · obtain ⟨other, inside, made⟩ := ih rest mem
      exact ⟨other, List.mem_cons_of_mem _ inside, made⟩

lemma of_orDefault? {read : σ → Option α} {record : Fields σ} {name : String} {missing a : α}
    (h : orDefault? record name missing read = some a) : a = missing ∨ ∃ p, read p = some a := by
  unfold orDefault? at h
  split at h
  · exact .inr ⟨_, h⟩
  · exact .inl (Option.some.inj h).symm

variable [Format σ] {read : σ → Option α} {part : σ} {fields : Fields α}

/-- A map that is read has no name twice, and its values are read as such. -/
lemma of_mapOf? (h : mapOf? read part = some fields) :
    (Fields.names fields).Nodup ∧ ∀ field ∈ fields, ∃ p, read p = some field.2 := by
  obtain ⟨entries, -, h⟩ := Option.bind_eq_some_iff.mp h
  obtain ⟨pairs, made, rfl⟩ := Option.map_eq_some_iff.mp h
  refine ⟨Fields.names_ofPairs_nodup pairs, fun field mem => ?_⟩
  obtain ⟨entry, -, here⟩ := exists_of_mem_mapM_some made (Fields.mem_of_mem_ofPairs mem)
  obtain ⟨a, found, rfl⟩ := Option.map_eq_some_iff.mp here
  exact ⟨entry.2, found⟩

lemma nodup_of_orDefault? {record : Fields σ} {name : String}
    (h : orDefault? record name [] (mapOf? read) = some fields) : (Fields.names fields).Nodup := by
  rcases of_orDefault? h with rfl | ⟨p, found⟩
  · exact List.nodup_nil
  · exact (of_mapOf? found).1

lemma keyed_of_spec_read? {spec : NamespaceSpec} (h : NamespaceSpec.read? part = some spec) :
    spec.Keyed := by
  obtain ⟨record, -, h⟩ := Option.bind_eq_some_iff.mp h
  obtain ⟨security, -, h⟩ := Option.bind_eq_some_iff.mp h
  obtain ⟨emission, out, h⟩ := Option.bind_eq_some_iff.mp h
  obtain ⟨actions, into, h⟩ := Option.bind_eq_some_iff.mp h
  obtain rfl := Option.some.inj h
  exact ⟨nodup_of_orDefault? out, nodup_of_orDefault? into⟩

lemma keyed_of_read? {manifest : Manifest} (h : Manifest.read? part = some manifest) :
    manifest.Keyed := by
  obtain ⟨record, -, h⟩ := Option.bind_eq_some_iff.mp h
  obtain ⟨config, -, h⟩ := Option.bind_eq_some_iff.mp h
  obtain ⟨definitions, named, h⟩ := Option.bind_eq_some_iff.mp h
  obtain ⟨namespaces, spaces, h⟩ := Option.bind_eq_some_iff.mp h
  obtain rfl := Option.some.inj h
  refine ⟨nodup_of_orDefault? named, nodup_of_orDefault? spaces, fun entry mem => ?_⟩
  rcases of_orDefault? spaces with rfl | ⟨p, found⟩
  · cases mem
  · obtain ⟨q, here⟩ := (of_mapOf? found).2 entry mem
    exact keyed_of_spec_read? here

end Read

lemma keyed_empty : ({} : Manifest).Keyed := ⟨List.nodup_nil, List.nodup_nil, nofun⟩

lemma keyed_mergeNamespace {namespaces : Fields NamespaceSpec}
    (keyed : ∀ entry ∈ namespaces, entry.2.Keyed) (later : String × NamespaceSpec) :
    ∀ entry ∈ mergeNamespace namespaces later, entry.2.Keyed := by
  intro entry mem
  rcases Fields.mem_of_mem_set mem with rfl | mem
  · cases found : Fields.get? later.1 namespaces with
    | none => exact NamespaceSpec.keyed_empty.merge _
    | some spec => exact (keyed _ (Fields.mem_of_get? found)).merge _
  · exact keyed entry mem

/-- A merge declares nothing twice when its first side does not. -/
lemma Keyed.merge {manifest : Manifest} (keyed : manifest.Keyed) (later : Manifest) :
    (manifest.merge later).Keyed where
  definitions := Fields.names_merge_nodup keyed.definitions _
  namespaces := Fields.names_mergeWith?_nodup keyed.namespaces (mergeWith?_mergeOnto _ _)
  specs := List.foldlRecOn (motive := fun spaces => ∀ entry ∈ spaces, entry.2.Keyed)
    later.namespaces mergeNamespace keyed.specs fun _ each entry _ =>
      keyed_mergeNamespace each entry

lemma keyed_of_ofFile {path : String} {text : Option String} {manifest : Manifest}
    (h : ofFile path text = .ok manifest) : manifest.Keyed := by
  cases text with
  | none => cases h
  | some text =>
    obtain ⟨format, read⟩ : ∃ format, ofText? format text = some manifest := by
      simp only [ofFile] at h
      split at h
      · rename_i read
        obtain rfl := Except.ok.inj h
        exact ⟨_, read⟩
      · cases h
    cases format with
    | json =>
      obtain ⟨part, -, read⟩ := Option.bind_eq_some_iff.mp read
      exact keyed_of_read? read
    | yaml =>
      obtain ⟨part, -, read⟩ := Option.bind_eq_some_iff.mp read
      exact keyed_of_read? read

/-- Nothing is declared twice in a manifest that is loaded. -/
theorem keyed_of_load {path : String} {found : Option FileTree} {manifest : Manifest}
    (h : load path found = .ok manifest) : manifest.Keyed := by
  have listed (listing : Listing) : (ofListing listing).Keyed := by
    refine List.foldlRecOn listing.files _ keyed_empty fun merged keyed file _ => ?_
    dsimp only
    split
    · exact keyed.merge _
    · exact keyed
  obtain ⟨listing, -, h⟩ := exists_of_bind h
  split at h
  · cases made : ofFile path _ with
    | ok m =>
      rw [made] at h
      obtain rfl := Except.ok.inj h
      exact keyed_of_ofFile made
    | error e =>
      rw [made] at h
      cases h
  · split at h
    · cases h
    · obtain rfl := Except.ok.inj h
      exact listed listing

/-- Whether a manifest holds what any of several manifests declares in a part of it, and of a name
that several of them declare what the last of these says. -/
def Unites {α : Type} (declared : Manifest → Fields α) (manifests : List Manifest)
    (merged : Manifest) : Prop :=
  ∀ name, (name ∈ Fields.names (declared merged) ↔
      ∃ m ∈ manifests, name ∈ Fields.names (declared m)) ∧
    Fields.get? name (declared merged) =
      (manifests.filterMap fun m => Fields.get? name (declared m)).getLast?

/-- A part in which the later value counts is united by merges. -/
lemma unites_foldl {α : Type} {declared : Manifest → Fields α} {later : List Manifest}
    (merges : ∀ m, ∀ other ∈ later,
      declared (m.merge other) = Fields.merge (declared m) (declared other))
    (nodup : ∀ other ∈ later, (Fields.names (declared other)).Nodup) (first : Manifest) :
    Unites declared (first :: later) (later.foldl merge first) := by
  induction later generalizing first with
  | nil =>
    intro name
    refine ⟨by simp, ?_⟩
    cases found : Fields.get? name (declared first) <;> simp [found]
  | cons second rest ih =>
    intro name
    obtain ⟨names, value⟩ := ih (fun m other mem => merges m other (List.mem_cons_of_mem _ mem))
      (fun other mem => nodup other (List.mem_cons_of_mem _ mem)) (first.merge second) name
    have once := merges first second List.mem_cons_self
    constructor
    · rw [List.foldl_cons, names]
      simp only [List.exists_mem_cons_iff, once, Fields.mem_names_merge, or_assoc]
    · rw [List.foldl_cons, value]
      have both : Fields.get? name (declared (first.merge second)) =
          (Fields.get? name (declared second)).or (Fields.get? name (declared first)) := by
        rw [once, Fields.get?_merge (nodup second List.mem_cons_self)]
      cases given : Fields.get? name (declared second) <;>
        cases old : Fields.get? name (declared first) <;>
        simp [both, given, old, List.getLast?_cons]

lemma mem_namespaces_foldl (first : Manifest) (later : List Manifest) (path : String) :
    path ∈ Fields.names (later.foldl merge first).namespaces ↔
      ∃ m ∈ first :: later, path ∈ Fields.names m.namespaces := by
  induction later generalizing first with
  | nil => simp
  | cons second rest ih =>
    rw [List.foldl_cons, ih]
    have once : path ∈ Fields.names (first.merge second).namespaces ↔
        path ∈ Fields.names first.namespaces ∨ path ∈ Fields.names second.namespaces :=
      Fields.mem_names_mergeWith? (mergeWith?_mergeOnto first.namespaces second.namespaces)
    simp only [List.exists_mem_cons_iff, once, or_assoc]

/-- Manifests can be merged in any grouping: the order of definitions, namespaces, events and
security schemes, what they say, and the configuration are the same. A manifest that is merged of
several ones declares what any of them does, as the last of these does it. -/
theorem manifests_merge_in_any_grouping :
    (∀ first middle last : Manifest, middle.Keyed → last.Keyed →
      (first.merge middle).merge last = first.merge (middle.merge last)) ∧
    ∀ (first : Manifest) (later : List Manifest), (∀ m ∈ later, m.Keyed) →
      Unites definitions (first :: later) (later.foldl merge first) ∧
      (∀ path, path ∈ Fields.names (later.foldl merge first).namespaces ↔
        ∃ m ∈ first :: later, path ∈ Fields.names m.namespaces) ∧
      ∀ path direction,
        Unites (eventsAt path direction) (first :: later) (later.foldl merge first) := by
  refine ⟨fun first _ _ keyed keyed' => merge_assoc first keyed keyed',
    fun first later keyed => ⟨?_, mem_namespaces_foldl first later, fun path direction => ?_⟩⟩
  · exact unites_foldl (fun _ _ _ => rfl) (fun m mem => (keyed m mem).definitions) first
  · refine unites_foldl (fun m other mem =>
      eventsAt_merge m (keyed other mem) path direction) ?_ first
    exact fun m mem => (keyed m mem).eventsAt path direction

/-- The manifest of a harbour. -/
def harbour : Manifest where
  config := { info := { title := "Harbour" } }
  definitions := [("Ship", .string "string"), ("Crane", .string "string")]
  namespaces := [("/dock", { security := ["token"], actions := [("moor", {})] })]

/-- The manifest of its pilots. -/
def pilots : Manifest where
  definitions := [("Ship", .string "number")]
  namespaces := [("/sea", { emission := [("fog", {})] }),
    ("/dock", {
      security := ["badge", "token"]
      actions := [("moor", { rest := some (.string "any") })] })]

/-- The manifest of its tides. -/
def tides : Manifest where
  config := { info := { title := "Tides" } }
  definitions := [("Moon", .string "string"), ("Ship", .string "boolean")]
  namespaces := [("/dock", { security := ["badge"], actions := [("flood", {})] })]

theorem harbours_merge_in_any_grouping :
    pilots.Keyed ∧ tides.Keyed ∧
      (harbour.merge pilots).merge tides = harbour.merge (pilots.merge tides) ∧
      Fields.get? "Ship" ((harbour.merge pilots).merge tides).definitions =
        some (.string "boolean") ∧
      "moor" ∈ Fields.names (((harbour.merge pilots).merge tides).eventsAt "/dock" .input) := by
  have keyed : pilots.Keyed := by
    refine ⟨by decide, by decide, ?_⟩
    rintro entry (_ | ⟨_, _ | ⟨_, ⟨⟩⟩⟩) <;> exact ⟨by decide, by decide⟩
  have keyed' : tides.Keyed := by
    refine ⟨by decide, by decide, ?_⟩
    rintro entry (_ | ⟨_, ⟨⟩⟩)
    exact ⟨by decide, by decide⟩
  obtain ⟨regroup, sequence⟩ := manifests_merge_in_any_grouping
  obtain ⟨definitions, -, events⟩ := sequence harbour [pilots, tides]
    (List.forall_mem_cons.mpr ⟨keyed, List.forall_mem_singleton.mpr keyed'⟩)
  exact ⟨keyed, keyed', regroup harbour pilots tides keyed keyed', (definitions "Ship").2,
    (events "/dock" .input "moor").1.mpr ⟨harbour, List.mem_cons_self, List.mem_cons_self⟩⟩

end Manifest

end EventContracts

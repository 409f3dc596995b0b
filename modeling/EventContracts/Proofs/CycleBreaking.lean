import EventContracts.Proofs.DocumentedWalks
import EventContracts.Proofs.TypedWalks
import Mathlib.Data.Finset.Prod

/-! How recursive schemas come to an end. The entry of a reference is reserved before its body is
walked, so a body is walked once for a direction and a fingerprint, whatever mentions it on the way.
A fresh table is the start, and calls follow one another on it, whether they succeed or not. -/

namespace EventContracts

/-- Whether all references of a tree are to the definitions. -/
def Definitions.Cover (definitions : Definitions) (node : Node) : Prop :=
  ∀ target, node.Refers target → target ∈ Fields.names definitions

/-- The fingerprints of the named schemas. -/
def Setting.fingerprints (setting : Setting) : List String :=
  setting.library.definitions.map fun field => setting.fingerprint field.2

lemma Setting.resolve_mem {setting : Setting} {target : String}
    (h : target ∈ Fields.names setting.library.definitions) :
    ∃ field ∈ setting.library.definitions, field.2 = setting.resolve target := by
  cases found : Fields.get? target setting.library.definitions with
  | none => exact absurd h (Fields.get?_eq_none.mp found)
  | some node =>
    exact ⟨_, Fields.mem_of_get? found, by simp [resolve, Definitions.resolve, found]⟩

namespace Depicter

variable {U : Type} {depicter : Depicter U} {setting : Setting}
  {rename : (String → String) → U → U}

/-- A run gives up for want of depth only when a validation in it did. -/
lemma Runs.unfinished (uniform : depicter.Uniform rename) {table later : AliasTable U}
    {w : Walk U U} {visits : List Visit} {result : Except Halt U}
    (h : depicter.Runs setting table w visits result later) {asked : String → Prop}
    (alike : ∃ w', Walk.Alike asked (rename id) (rename id) w w')
    (eq : result = .error .unfinished) :
    ∃ node input, Visit.validation node input ∈ visits ∧
      setting.library.validate node input = .unfinished := by
  induction h generalizing asked with
  | done => cases eq
  | halt =>
    obtain ⟨_, alike⟩ := alike
    obtain rfl := Except.error.inj eq
    cases alike with
    | halt genuine => cases genuine
  | @ask _ node input _ _ _ _ _ ih =>
    obtain ⟨_, alike⟩ := alike
    cases alike with
    | ask _ _ rest =>
      by_cases unfinished : setting.library.validate node input = .unfinished
      · exact ⟨node, input, List.mem_cons_self, unfinished⟩
      · obtain ⟨node, input, mem, found⟩ := ih ⟨_, rest _ unfinished⟩ eq
        exact ⟨node, input, List.mem_cons_of_mem _ mem, found⟩
  | known _ _ ih =>
    obtain ⟨_, alike⟩ := alike
    cases alike with
    | refer _ rest => exact ih ⟨_, rest _⟩ eq
  | produced _ _ _ _ restIH =>
    obtain ⟨_, alike⟩ := alike
    cases alike with
    | refer _ rest =>
      obtain ⟨node, input, mem, found⟩ := restIH ⟨_, rest _⟩ eq
      exact ⟨node, input, List.mem_cons_of_mem _ (List.mem_append_right _ mem), found⟩
  | failed _ _ bodyIH =>
    obtain ⟨node, input, mem, found⟩ := bodyIH ⟨_, uniform.self _ _⟩ eq
    exact ⟨node, input, List.mem_cons_of_mem _ mem, found⟩

/-- Over definitions that mention only one another, the walked bodies are theirs. -/
lemma Runs.bodies_subset (uniform : depicter.Uniform rename)
    (closed : ∀ field ∈ setting.library.definitions, setting.library.definitions.Cover field.2)
    {table later : AliasTable U} {w : Walk U U} {visits : List Visit} {result : Except Halt U}
    (h : depicter.Runs setting table w visits result later)
    (asks : w.Asks (· ∈ Fields.names setting.library.definitions)) :
    ∀ body ∈ Visit.bodies visits, body.2 ∈ setting.fingerprints := by
  have walked {target : String} (mem : target ∈ Fields.names setting.library.definitions)
      (direction : Direction) :
      setting.fingerprint (setting.resolve target) ∈ setting.fingerprints ∧
        (depicter.walk (setting.resolve target) direction).Asks
          (· ∈ Fields.names setting.library.definitions) := by
    obtain ⟨field, inside, eq⟩ := Setting.resolve_mem mem
    rw [← eq]
    exact ⟨List.mem_map_of_mem inside, (uniform.asks field.2 direction).mono (closed field inside)⟩
  induction h with
  | done => simp [Visit.bodies]
  | halt => simp [Visit.bodies]
  | ask _ ih => cases asks with | ask rest => exact ih (rest _)
  | known _ _ ih => cases asks with | refer _ rest => exact ih (rest _)
  | @produced _ target direction _ _ _ _ _ _ _ _ _ _ bodyIH restIH =>
    cases asks with
    | refer mem rest =>
      obtain ⟨inside, covered⟩ := walked mem direction
      simp only [Visit.bodies, List.filterMap_cons, Visit.body?, List.filterMap_append]
      intro body here
      rcases List.mem_cons.mp here with rfl | here
      · exact inside
      · rcases List.mem_append.mp here with here | here
        · exact bodyIH covered body here
        · exact restIH (rest _) body here
  | @failed _ target direction _ _ _ _ _ _ bodyIH =>
    cases asks with
    | refer mem _ =>
      obtain ⟨inside, covered⟩ := walked mem direction
      simp only [Visit.bodies, List.filterMap_cons, Visit.body?]
      intro body here
      rcases List.mem_cons.mp here with rfl | here
      · exact inside
      · exact bodyIH covered body here

/-- What is done by a sequence of calls that starts with a fresh table: each of them has a run,
however deep productions are nested, and gives up for want of depth only when one of its
validations did; more depth makes no difference; no body is walked twice, and every entry comes from
a walked body. -/
structure BreaksCycles (depicter : Depicter U) (setting : Setting)
    (calls : List (Node × Direction)) (visits : List (List Visit)) : Prop where
  runs : depicter.RunsAll setting depicter.noAliases calls visits
    (depicter.session setting calls depicter.noAliases).1
    (depicter.session setting calls depicter.noAliases).2
  ended : ∀ call ∈ visits.zip (depicter.session setting calls depicter.noAliases).1,
    call.2 = .error .unfinished → ∃ node input, Visit.validation node input ∈ call.1 ∧
      setting.library.validate node input = .unfinished
  deeper : ∀ extra table node direction,
    depicter.depictWithin setting (setting.aliasDepth + extra) node direction table =
      depicter.depict setting node direction table
  once : (Visit.bodies visits.flatten).Nodup
  keys : (depicter.session setting calls depicter.noAliases).2.keys =
    (Visit.bodies visits.flatten).map bodyKey
  bound : (depicter.session setting calls depicter.noAliases).2.entries.length ≤
    2 * setting.fingerprints.dedup.length

lemma RunsAll.unfinished (uniform : depicter.Uniform rename) {table later : AliasTable U}
    {calls : List (Node × Direction)} {visits : List (List Visit)}
    {results : List (Except Halt U)}
    (h : depicter.RunsAll setting table calls visits results later) :
    ∀ call ∈ visits.zip results, call.2 = .error .unfinished →
      ∃ node input, Visit.validation node input ∈ call.1 ∧
        setting.library.validate node input = .unfinished := by
  induction h with
  | nil => intro call mem; cases mem
  | cons first _ ih =>
    intro call mem
    rcases List.mem_cons.mp mem with rfl | mem
    · exact first.unfinished uniform ⟨_, uniform.self _ _⟩
    · exact ih call mem

lemma RunsAll.bodies_subset (uniform : depicter.Uniform rename)
    (closed : ∀ field ∈ setting.library.definitions, setting.library.definitions.Cover field.2)
    {table later : AliasTable U} {calls : List (Node × Direction)} {visits : List (List Visit)}
    {results : List (Except Halt U)}
    (inScope : ∀ call ∈ calls, setting.library.definitions.Cover call.1)
    (h : depicter.RunsAll setting table calls visits results later) :
    ∀ body ∈ Visit.bodies visits.flatten, body.2 ∈ setting.fingerprints := by
  induction h with
  | nil => intro body mem; cases mem
  | cons first _ ih =>
    intro body mem
    simp only [List.flatten_cons, Visit.bodies, List.filterMap_append] at mem
    rcases List.mem_append.mp mem with mem | mem
    · exact first.bodies_subset uniform closed
        ((uniform.asks _ _).mono (inScope _ List.mem_cons_self)) body mem
    · exact ih (fun call inside => inScope call (List.mem_cons_of_mem _ inside)) body mem

lemma length_bodies_le {bodies : List (Direction × String)} (once : bodies.Nodup)
    (subset : ∀ body ∈ bodies, body.2 ∈ setting.fingerprints) :
    bodies.length ≤ 2 * setting.fingerprints.dedup.length := by
  have inside : bodies.toFinset ⊆
      {Direction.input, Direction.output} ×ˢ setting.fingerprints.toFinset := by
    rintro ⟨direction, fingerprint⟩ mem
    refine Finset.mem_product.mpr ⟨by cases direction <;> simp, ?_⟩
    exact List.mem_toFinset.mpr (subset _ (List.mem_toFinset.mp mem))
  have most := Finset.card_le_card inside
  rw [Finset.card_product, List.toFinset_card_of_nodup once, List.card_toFinset] at most
  simpa using most

lemma breaksCycles (uniform : depicter.Uniform rename)
    (closed : ∀ field ∈ setting.library.definitions, setting.library.definitions.Cover field.2)
    (calls : List (Node × Direction))
    (inScope : ∀ call ∈ calls, setting.library.definitions.Cover call.1) :
    ∃ visits, depicter.BreaksCycles setting calls visits := by
  obtain ⟨visits, runs⟩ := runsAll_session setting uniform.unknown calls depicter.noAliases
  have keys := runs.keys_eq
  rw [show depicter.noAliases.keys = [] from rfl, List.nil_append] at keys
  have numbered := runs.numbered (.empty depicter.stem)
  have once : (Visit.bodies visits.flatten).Nodup := by
    have nodup := numbered.keys_nodup
    rw [keys] at nodup
    exact nodup.of_map
  refine ⟨visits, runs, runs.unfinished uniform, depictWithin_add setting uniform.unknown, once,
    keys, ?_⟩
  rw [← AliasTable.length_keys, keys, List.length_map]
  exact length_bodies_le once (runs.bodies_subset uniform closed inScope)

end Depicter

/-- Over definitions that mention one another in any way, sequences of depictions of both views
end, walk no body twice for a direction and a fingerprint, and fill their table with at most two
entries for every fingerprint of the definitions. -/
theorem depictions_break_cycles (setting : Setting) (style : OptionalStyle)
    (calls : List (Node × Direction))
    (closed : ∀ field ∈ setting.library.definitions, setting.library.definitions.Cover field.2)
    (inScope : ∀ call ∈ calls, setting.library.definitions.Cover call.1) :
    (∃ visits, Document.depicter.BreaksCycles setting calls visits) ∧
      ∃ visits, (TypeScript.depicter style).BreaksCycles setting calls visits :=
  ⟨Depicter.breaksCycles Document.uniform closed calls inScope,
    Depicter.breaksCycles (TypeScript.uniform style) closed calls inScope⟩

/-- Two named schemas that mention each other. -/
def mutualSetting : Setting where
  library := {
    definitions := [
      ("Tree", .of (.array (.of (.reference "forest" "Forest")) none none)),
      ("Forest", .of (.array (.of (.optional (.of (.reference "tree" "Tree")))) none none))] }
  fingerprint node := node.kindName

theorem mutual_depictions_break_cycles :
    (∃ visits, Document.depicter.BreaksCycles mutualSetting
        [(.of (.reference "tree" "Tree"), .output), (.of (.reference "tree" "Tree"), .input)]
        visits) ∧
      ∃ visits, (TypeScript.depicter {}).BreaksCycles mutualSetting
        [(.of (.reference "tree" "Tree"), .output), (.of (.reference "tree" "Tree"), .input)]
        visits := by
  refine depictions_break_cycles mutualSetting {} _ ?_ ?_
  · simp [mutualSetting, Definitions.Cover, Node.of, Node.refers_mk, Kind.children, Fields.names]
  · simp [mutualSetting, Definitions.Cover, Node.of, Node.refers_mk, Kind.children, Fields.names]

end EventContracts

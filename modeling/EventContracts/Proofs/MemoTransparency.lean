import EventContracts.Proofs.DepictionReplay
import EventContracts.Proofs.DocumentedWalks
import EventContracts.Proofs.TypedWalks

/-! The order of depictions shows in nothing but names. Two sequences of the same calls meet the
bodies of references in different orders, so they number their aliases differently; what one of them
gives is what the other one gives, under a renaming of the aliases. The second run is compared with
what the steady table of the first one replays, whatever state its own table is in. -/

namespace EventContracts

namespace Setting

/-- Whether a target is mentioned by one of the calls or by a named schema. -/
def Mentions (setting : Setting) (calls : List (Node × Direction)) (target : String) : Prop :=
  (∃ call ∈ calls, call.1.Refers target) ∨
    ∃ field ∈ setting.library.definitions, field.2.Refers target

/-- Whether the schemas that targets stand for have equal fingerprints only when they are equal. -/
def Distinguishes (setting : Setting) (asked : String → Prop) : Prop :=
  ∀ a b, asked a → asked b →
    setting.fingerprint (setting.resolve a) = setting.fingerprint (setting.resolve b) →
    setting.resolve a = setting.resolve b

lemma closed_mentions (setting : Setting) (calls : List (Node × Direction)) :
    setting.Closed (setting.Mentions calls) := by
  intro target _ other refers
  rcases setting.resolve_cases target with ⟨field, mem, same⟩ | ⟨name, custom⟩
  · exact .inr ⟨field, mem, same ▸ refers⟩
  · rw [custom] at refers
    cases refers with
    | child mem _ => cases mem

variable {setting : Setting} {asked : String → Prop}

lemma Distinguishes.of_key (distinguishes : setting.Distinguishes asked) {a b : String}
    (mem : asked a) (mem' : asked b) {d e : Direction}
    (same : setting.aliasKey d (setting.resolve a) = setting.aliasKey e (setting.resolve b)) :
    d = e ∧ setting.resolve a = setting.resolve b := by
  obtain ⟨directions, fingerprints⟩ := Prod.mk.inj
    (bodyKey_inj (a := (d, setting.fingerprint (setting.resolve a)))
      (b := (e, setting.fingerprint (setting.resolve b))) same)
  exact ⟨directions, distinguishes a b mem mem' fingerprints⟩

end Setting

/-- Names that two tables give to the same fingerprints can be exchanged by a permutation, which
is made of one transposition for each fingerprint and moves no other name. -/
lemma exists_perm {name name' : String → Option String}
    (inj : ∀ a b s, name a = some s → name b = some s → a = b)
    (inj' : ∀ a b s, name' a = some s → name' b = some s → a = b) (keys : List String) :
    ∃ f : Equiv.Perm String,
      (∀ key ∈ keys, ∀ s s', name key = some s → name' key = some s' → f s = s') ∧
        ∀ s, (∀ key ∈ keys, name key ≠ some s ∧ name' key ≠ some s) → f s = s := by
  induction keys with
  | nil => exact ⟨Equiv.refl String, fun key mem => absurd mem List.not_mem_nil, fun s _ => rfl⟩
  | cons key keys ih =>
    obtain ⟨f, maps, fixes⟩ := ih
    have skip (unmatched : ∀ s s', name key = some s → name' key ≠ some s') :
        ∃ f : Equiv.Perm String,
          (∀ other ∈ key :: keys, ∀ s s', name other = some s → name' other = some s' →
            f s = s') ∧
          ∀ s, (∀ other ∈ key :: keys, name other ≠ some s ∧ name' other ≠ some s) → f s = s := by
      refine ⟨f, fun other mem s s' hs hs' => ?_,
        fun s away => fixes s fun other mem => away other (List.mem_cons_of_mem _ mem)⟩
      rcases List.mem_cons.mp mem with rfl | mem
      · exact absurd hs' (unmatched s s' hs)
      · exact maps other mem s s' hs hs'
    cases left : name key with
    | none => exact skip (by simp [left])
    | some a =>
      cases right : name' key with
      | none => exact skip (by simp [right])
      | some b =>
        -- the transposition moves no name that an earlier fingerprint was matched with
        refine ⟨f.trans (Equiv.swap (f a) b), fun other mem s s' hs hs' => ?_, fun s away => ?_⟩
        · by_cases same : other = key
          · subst same
            obtain rfl := Option.some.inj (left.symm.trans hs)
            obtain rfl := Option.some.inj (right.symm.trans hs')
            simp
          · have moved := maps other ((List.mem_cons.mp mem).resolve_left same) s s' hs hs'
            have notLeft : s' ≠ f a := by
              rw [← moved]
              exact fun e => same (inj other key a (f.injective e ▸ hs) left)
            have notRight : s' ≠ b := fun e => same (inj' other key b (e ▸ hs') right)
            simp [moved, Equiv.swap_apply_of_ne_of_ne notLeft notRight]
        · have kept := fixes s fun other mem => away other (List.mem_cons_of_mem _ mem)
          have here := away key List.mem_cons_self
          have notRight : s ≠ b := fun e => here.2 (e ▸ right)
          have notLeft : s ≠ f a := by
            intro e
            have : s = a := f.injective (kept.trans e)
            exact here.1 (this ▸ left)
          simp [kept, Equiv.swap_apply_of_ne_of_ne notLeft notRight]

/-- Tables with the same fingerprints give the same names, if not to the same fingerprints. -/
lemma AliasTable.Numbered.names_eq_of_keys {α : Type} {table other : AliasTable α}
    (numbered : table.Numbered) (numbered' : other.Numbered) (stem : other.stem = table.stem)
    (same : ∀ key, key ∈ other.keys ↔ key ∈ table.keys) : other.names = table.names := by
  have count := ((List.perm_ext_iff_of_nodup numbered'.keys_nodup numbered.keys_nodup).mpr
    same).length_eq
  rw [length_keys, length_keys] at count
  rw [numbered.names_eq, numbered'.names_eq, count, stem]

namespace Depicter

variable {U : Type} {depicter : Depicter U} {setting : Setting}
  {rename : (String → String) → U → U} {asked : String → Prop}
  {table later base final : AliasTable U}

/-- The definition under a fingerprint is replayed for every target with this fingerprint. -/
lemma Steady.replays (steady : depicter.Steady setting asked base)
    (distinguishes : setting.Distinguishes asked) {target : String} {direction : Direction}
    {entry : Alias U} (mem : asked target)
    (found : base.get? (setting.aliasKey direction (setting.resolve target)) = some entry) :
    depicter.replay setting base (depicter.walk (setting.resolve target) direction) =
      .ok entry.definition := by
  obtain ⟨target', direction', mem', same, replayed⟩ := steady.settled base (.refl base) _ entry
    found (steady.complete _ (Fields.mem_of_get? found))
  obtain ⟨rfl, eq⟩ := distinguishes.of_key mem mem' same
  rw [eq]
  exact replayed

/-- How the names of a table in the making correspond to those of a steady one. -/
structure Corresponds (depicter : Depicter U) (f : String → String)
    (base final : AliasTable U) : Prop where
  injective : Function.Injective f
  kept : ∀ s, (∀ i, s ≠ AliasTable.numberedName depicter.stem i) → f s = s
  agree : ∀ key name name', base.nameOf? key = some name → final.nameOf? key = some name' →
    f name = name'

lemma Corresponds.symm {f : Equiv.Perm String} (h : depicter.Corresponds f base final) :
    depicter.Corresponds f.symm final base where
  injective := f.symm.injective
  kept s away := f.symm_apply_eq.mpr (h.kept s away).symm
  agree key name' name named' named :=
    f.symm_apply_eq.mpr (h.agree key name name' named named').symm

lemma exists_corresponds (numbered : base.Numbered) (numbered' : final.Numbered)
    (stem : base.stem = depicter.stem) (stem' : final.stem = depicter.stem) :
    ∃ f : Equiv.Perm String, depicter.Corresponds f base final ∧
      ∀ s, s ∉ base.names → s ∉ final.names → f s = s := by
  obtain ⟨f, maps, fixes⟩ := exists_perm (fun _ _ _ => numbered.key_inj)
    (fun _ _ _ => numbered'.key_inj) base.keys
  refine ⟨f, ⟨f.injective, fun s away => fixes s fun key _ => ⟨fun named => ?_, fun named => ?_⟩,
    fun key name name' named named' =>
      maps key (AliasTable.mem_keys.mpr ⟨name, named⟩) name name' named named'⟩,
    fun s away away' => fixes s fun key _ => ⟨fun named => away (AliasTable.name_mem_names named),
      fun named => away' (AliasTable.name_mem_names named)⟩⟩
  · obtain ⟨i, -, rfl⟩ := numbered.mem_names.mp (AliasTable.name_mem_names named)
    exact away i (by rw [stem])
  · obtain ⟨i, -, rfl⟩ := numbered'.mem_names.mp (AliasTable.name_mem_names named)
    exact away i (by rw [stem'])

/-- A run whose walk is replayed from a steady table succeeds with the renamed result, and it
reserves nothing that is not in that table. -/
lemma Runs.transfer (uniform : depicter.Uniform rename) (closed : setting.Closed asked)
    (distinguishes : setting.Distinguishes asked) (steady : depicter.Steady setting asked base)
    {f : String → String} (corresponds : depicter.Corresponds f base final) {w w' : Walk U U}
    {visits : List Visit} {result : Except Halt U}
    (h : depicter.Runs setting table w' visits result later) (ext : later.Extends final)
    (alike : Walk.Alike asked (rename f) (rename f) w w') {view : U}
    (replayed : depicter.replay setting base w = .ok view) :
    result = .ok (rename f view) ∧ ∀ key ∈ later.keys, key ∈ table.keys ∨ key ∈ base.keys := by
  have bodies {target : String} (mem : asked target) (direction : Direction) :
      Walk.Alike asked (rename f) (rename f) (depicter.walk (setting.resolve target) direction)
        (depicter.walk (setting.resolve target) direction) :=
    (uniform.alike f corresponds.injective corresponds.kept _ _).mono (closed target mem)
  induction h generalizing w view with
  | done =>
    cases alike
    obtain rfl := Except.ok.inj replayed
    exact ⟨rfl, fun key mem => .inl mem⟩
  | halt =>
    cases alike
    cases replayed
  | @ask _ node input _ _ _ _ _ ih =>
    cases alike with
    | ask stops _ rest =>
      rw [replay_ask] at replayed
      by_cases unfinished : setting.library.validate node input = .unfinished
      · rw [unfinished, stops] at replayed
        cases replayed
      · exact ih ext (rest _ unfinished) replayed
  | known found run ih =>
    cases alike with
    | refer _ rest =>
      obtain ⟨name, named, replayed⟩ := replay_refer_ok replayed
      have same := corresponds.agree _ _ _ named (ext.kept _ _ (run.extends.kept _ _ found))
      have next := rest (depicter.refer name)
      rw [uniform.refer, same] at next
      exact ih ext next replayed
  | @produced table target direction _ _ _ middle _ _ later absent body run bodyIH restIH =>
    cases alike with
    | refer mem rest =>
      obtain ⟨name, named, replayed⟩ := replay_refer_ok replayed
      obtain ⟨entry, found, -⟩ := AliasTable.get?_of_nameOf? named
      have toFinal := (AliasTable.extends_resolve middle _ _).trans (run.extends.trans ext)
      obtain ⟨eq, bodyKeys⟩ := bodyIH toFinal (bodies mem direction)
        (steady.replays distinguishes mem found)
      have same := corresponds.agree _ _ _ named (body.extends.trans toFinal).kept_reserved
      have next := rest (depicter.refer name)
      rw [uniform.refer, same] at next
      obtain ⟨ends, restKeys⟩ := restIH ext next replayed
      refine ⟨ends, ?_⟩
      intro key mem
      rcases restKeys key mem with mem | mem
      · rw [AliasTable.keys_resolve] at mem
        rcases bodyKeys key mem with mem | mem
        · rw [AliasTable.keys_reserve absent] at mem
          rcases List.mem_append.mp mem with mem | mem
          · exact .inl mem
          · obtain rfl := List.mem_singleton.mp mem
            exact .inr (AliasTable.mem_keys.mpr ⟨name, named⟩)
        · exact .inr mem
      · exact .inr mem
  | failed _ body bodyIH =>
    cases alike with
    | refer mem rest =>
      obtain ⟨name, named, -⟩ := replay_refer_ok replayed
      obtain ⟨entry, found, -⟩ := AliasTable.get?_of_nameOf? named
      obtain ⟨eq, -⟩ := bodyIH ext (bodies mem _) (steady.replays distinguishes mem found)
      cases eq

lemma RunsAll.transfer (uniform : depicter.Uniform rename) (closed : setting.Closed asked)
    (distinguishes : setting.Distinguishes asked) (steady : depicter.Steady setting asked base)
    {f : String → String} (corresponds : depicter.Corresponds f base final)
    {calls : List (Node × Direction)} {visits : List (List Visit)} {results : List (Except Halt U)}
    (h : depicter.RunsAll setting table calls visits results later) (ext : later.Extends final)
    (inScope : ∀ call ∈ calls, ∀ target, call.1.Refers target → asked target)
    {view : Node × Direction → U}
    (replayed : ∀ call ∈ calls,
      depicter.replay setting base (depicter.walk call.1 call.2) = .ok (view call)) :
    (results = calls.map fun call => .ok (rename f (view call))) ∧
      ∀ key ∈ later.keys, key ∈ table.keys ∨ key ∈ base.keys := by
  induction h with
  | nil => exact ⟨rfl, fun key mem => .inl mem⟩
  | cons first rest ih =>
    obtain ⟨eq, firstKeys⟩ := first.transfer uniform closed distinguishes steady corresponds
      (rest.extends.trans ext)
      ((uniform.alike f corresponds.injective corresponds.kept _ _).mono
        (inScope _ List.mem_cons_self))
      (replayed _ List.mem_cons_self)
    obtain ⟨more, restKeys⟩ := ih ext (fun call mem => inScope call (List.mem_cons_of_mem _ mem))
      fun call mem => replayed call (List.mem_cons_of_mem _ mem)
    refine ⟨by rw [eq, more, List.map_cons], ?_⟩
    intro key mem
    rcases restKeys key mem with mem | mem
    · exact firstKeys key mem
    · exact .inr mem

/-- Two sequences of calls, each on a fresh table: when all calls of the first one succeed, so do
those of the second one, and a permutation that moves nothing but names of aliases takes the results
and the entries of the first one to those of the second one. -/
def Transparent (depicter : Depicter U) (rename : (String → String) → U → U) (setting : Setting)
    (calls calls' : List (Node × Direction)) : Prop :=
  ∀ (results : List (Except Halt U)) (table : AliasTable U),
    depicter.session setting calls depicter.noAliases = (results, table) →
    (∀ result ∈ results, ∃ view, result = .ok view) →
    ∃ (f : Equiv.Perm String) (view : Node × Direction → U) (table' : AliasTable U),
      (results = calls.map fun call => .ok (view call)) ∧
      depicter.session setting calls' depicter.noAliases =
        (calls'.map fun call => .ok (rename f (view call)), table') ∧
      (∀ s, s ∉ table.names → f s = s) ∧
      ∀ key, table'.get? key = (table.get? key).map fun entry =>
        ⟨f entry.name, entry.resolved, rename f entry.definition⟩

/-- Steady tables with the same fingerprints have the same entries, up to the renaming. -/
lemma Steady.get?_eq (uniform : depicter.Uniform rename)
    (distinguishes : setting.Distinguishes asked) (steady : depicter.Steady setting asked base)
    (steady' : depicter.Steady setting asked final) {f : String → String}
    (corresponds : depicter.Corresponds f base final)
    (same : ∀ key, key ∈ final.keys ↔ key ∈ base.keys) (key : String) :
    final.get? key = (base.get? key).map fun entry =>
      ⟨f entry.name, entry.resolved, rename f entry.definition⟩ := by
  cases left : base.get? key with
  | none =>
    have absent : key ∉ base.keys := Fields.get?_eq_none.mp left
    exact Fields.get?_eq_none.mpr fun mem => absent ((same key).mp mem)
  | some entry =>
    obtain ⟨name, named⟩ := AliasTable.mem_keys.mp ((same key).mpr
      (AliasTable.mem_keys.mpr ⟨entry.name, by simp [AliasTable.nameOf?, left]⟩))
    obtain ⟨entry', right, rfl⟩ := AliasTable.get?_of_nameOf? named
    have names := corresponds.agree key entry.name entry'.name (by simp [AliasTable.nameOf?, left])
      named
    have resolved := steady.complete _ (Fields.mem_of_get? left)
    have resolved' := steady'.complete _ (Fields.mem_of_get? right)
    obtain ⟨target, direction, mem, rfl, replayed⟩ :=
      steady.settled base (.refl base) key entry left resolved
    have definitions := replay_alike
      (uniform.alike f corresponds.injective corresponds.kept _ _)
      (fun key name name' h h' => by rw [uniform.refer, corresponds.agree key name name' h h'])
      replayed (steady'.replays distinguishes mem right)
    rw [right, Option.map_some]
    obtain ⟨name, isResolved, definition⟩ := entry'
    simp only [Option.some.injEq, Alias.mk.injEq]
    exact ⟨names.symm, resolved'.trans resolved.symm, definitions⟩

lemma transparent (uniform : depicter.Uniform rename) {calls calls' : List (Node × Direction)}
    (members : ∀ call, call ∈ calls' ↔ call ∈ calls)
    (distinguishes : setting.Distinguishes (setting.Mentions calls)) :
    depicter.Transparent rename setting calls calls' := by
  intro results table ran ok
  have closed := setting.closed_mentions calls
  have inScope : ∀ call ∈ calls, ∀ target, call.1.Refers target → setting.Mentions calls target :=
    fun call mem target refers => .inl ⟨call, mem, refers⟩
  have inScope' : ∀ call ∈ calls', ∀ target, call.1.Refers target → setting.Mentions calls target :=
    fun call mem => inScope call ((members call).mp mem)
  obtain ⟨visits, runs⟩ := runsAll_session setting uniform.unknown calls depicter.noAliases
  rw [ran] at runs
  dsimp only at runs
  have within := uniform.within closed
  obtain ⟨steady, replayed⟩ := runs.steady within
    (fun call mem => (uniform.asks _ _).mono (inScope call mem)) ok (.empty depicter setting _)
  replace replayed := replayed table (.refl table)
  obtain ⟨view, isView⟩ : ∃ view : Node × Direction → U, ∀ call ∈ calls,
      depicter.replay setting table (depicter.walk call.1 call.2) = .ok (view call) := by
    refine ⟨fun call => match depicter.replay setting table (depicter.walk call.1 call.2) with
      | .ok view => view
      | .error _ => depicter.placeholder, fun call mem => ?_⟩
    obtain ⟨view, eq⟩ := ok _ (replayed ▸ List.mem_map_of_mem mem)
    simp only [eq]
  obtain ⟨visits', runs'⟩ := runsAll_session setting uniform.unknown calls' depicter.noAliases
  generalize ran' : depicter.session setting calls' depicter.noAliases = ending at runs'
  obtain ⟨results', table'⟩ := ending
  dsimp only at runs'
  obtain ⟨f, corresponds, fixes⟩ := exists_corresponds steady.numbered
    (runs'.numbered (.empty depicter.stem)) steady.stem runs'.extends.stem
  obtain ⟨eq, fewer⟩ := runs'.transfer uniform closed distinguishes steady corresponds (.refl _)
    inScope' fun call mem => isView call ((members call).mp mem)
  have ok' : ∀ result ∈ results', ∃ view, result = .ok view := by
    rw [eq]
    intro result mem
    obtain ⟨call, -, rfl⟩ := List.mem_map.mp mem
    exact ⟨_, rfl⟩
  obtain ⟨steady', replayed'⟩ := runs'.steady within
    (fun call mem => (uniform.asks _ _).mono (inScope' call mem)) ok' (.empty depicter setting _)
  replace replayed' := replayed' table' (.refl table')
  obtain ⟨-, more⟩ := runs.transfer uniform closed distinguishes steady' corresponds.symm (.refl _)
    inScope fun call mem => (List.map_inj_left.mp (eq.symm.trans replayed') call
      ((members call).mpr mem)).symm
  have same : ∀ key, key ∈ table'.keys ↔ key ∈ table.keys := fun key =>
    ⟨fun mem => (fewer key mem).resolve_left List.not_mem_nil,
      fun mem => (more key mem).resolve_left List.not_mem_nil⟩
  refine ⟨f, view, table', ?_, by rw [eq], fun s away => ?_, fun key =>
    steady.get?_eq uniform distinguishes steady' corresponds same key⟩
  · rw [replayed]
    exact List.map_inj_left.mpr isView
  · refine fixes s away ?_
    rw [steady.numbered.names_eq_of_keys steady'.numbered
      (steady'.stem.trans steady.stem.symm) same]
    exact away

end Depicter

/-- Memoization is transparent: in any order, the same calls of a view give the same results and the
same definitions, up to a one-to-one renaming of its components or aliases. -/
theorem memoization_is_transparent (setting : Setting) (style : OptionalStyle)
    (calls calls' : List (Node × Direction)) (members : ∀ call, call ∈ calls' ↔ call ∈ calls)
    (distinguishes : setting.Distinguishes (setting.Mentions calls)) :
    Document.depicter.Transparent (fun f => SchemaObject.rename (SchemaObject.alongPaths f)) setting
        calls calls' ∧
      (TypeScript.depicter style).Transparent TypeScript.TypeExpr.rename setting calls calls' :=
  ⟨Depicter.transparent Document.uniform members distinguishes,
    Depicter.transparent (TypeScript.uniform style) members distinguishes⟩

/-- Two named schemas that mention each other, told apart by their kinds. -/
def ringSetting : Setting where
  library := {
    definitions := [
      ("Tree", .of (.array (.of (.reference "forest" "Forest")) none none)),
      ("Forest", .of (.tuple [.of (.reference "tree" "Tree")] none))] }
  fingerprint node := node.kindName

def ringTree : Node × Direction := (.of (.reference "tree" "Tree"), .output)

def ringForest : Node × Direction := (.of (.reference "forest" "Forest"), .output)

theorem ring_memoization_is_transparent :
    (∀ result ∈ (Document.depicter.session ringSetting [ringTree, ringForest]
        Document.depicter.noAliases).1, result.isOk) ∧
      (∀ result ∈ ((TypeScript.depicter {}).session ringSetting [ringTree, ringForest]
        (TypeScript.depicter {}).noAliases).1, result.isOk) ∧
      Document.depicter.Transparent (fun f => SchemaObject.rename (SchemaObject.alongPaths f))
        ringSetting [ringTree, ringForest] [ringForest, ringTree] ∧
      (TypeScript.depicter {}).Transparent TypeScript.TypeExpr.rename ringSetting
        [ringTree, ringForest] [ringForest, ringTree] := by
  refine ⟨by decide +kernel, by decide +kernel,
    memoization_is_transparent ringSetting {} _ _ (fun call => ?_) ?_⟩
  · simp only [List.mem_cons, List.not_mem_nil, or_false]
    exact or_comm
  · have targets (a : String) (mem : ringSetting.Mentions [ringTree, ringForest] a) :
        a = "Tree" ∨ a = "Forest" := by
      simp [Setting.Mentions, ringSetting, ringTree, ringForest, Node.of, Node.refers_mk,
        Kind.children] at mem
      tauto
    intro a b left right same
    rcases targets a left with rfl | rfl <;> rcases targets b right with rfl | rfl
    · rfl
    · exact absurd same (by decide)
    · exact absurd same (by decide)
    · rfl

end EventContracts

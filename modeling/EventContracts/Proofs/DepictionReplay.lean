import EventContracts.Proofs.AlikeWalks
import EventContracts.Proofs.ValidationDepth

/-! What a depiction gives does not depend on when it is made: its result is the one that the walk
has when a later table answers for all references. References are handed out while definitions are
still provisional, so the answers are those of a table that the run has not reached yet. -/

namespace EventContracts

lemma exists_of_forall₂ {α β : Type} {R : α → β → Prop} {as : List α} {bs : List β} {a : α}
    (h : List.Forall₂ R as bs) (mem : a ∈ as) : ∃ b ∈ bs, R a b := by
  induction h with
  | nil => cases mem
  | cons first _ ih =>
    rcases List.mem_cons.mp mem with rfl | mem
    · exact ⟨_, List.mem_cons_self, first⟩
    · obtain ⟨b, inside, related⟩ := ih mem
      exact ⟨b, List.mem_cons_of_mem _ inside, related⟩

/-- Whether the schemas that targets stand for have references to the targets only. -/
def Setting.Closed (setting : Setting) (asked : String → Prop) : Prop :=
  ∀ target, asked target → ∀ other, (setting.resolve target).Refers other → asked other

namespace Depicter

variable {U : Type} (depicter : Depicter U) (setting : Setting)

/-- The view of a reference that a table gives, if it has an entry for it. -/
def replayReference (table : AliasTable U) (target : String) (direction : Direction) :
    Except Halt U :=
  match table.nameOf? (setting.aliasKey direction (setting.resolve target)) with
  | some name => .ok (depicter.refer name)
  | none => .error .unfinished

/-- The result of a walk when a table answers for references. -/
def replay {α : Type} (table : AliasTable U) (w : Walk U α) : Except Halt α :=
  w.run (fun node input => .ok (setting.library.validate node input))
    (depicter.replayReference setting table)

/-- Whether every definition of a table is what a later one replays for its fingerprint, which is
that of one of the targets. -/
def SettledIn (asked : String → Prop) (final table : AliasTable U) : Prop :=
  ∀ key entry, table.get? key = some entry → entry.resolved = true →
    ∃ target direction, asked target ∧
      key = setting.aliasKey direction (setting.resolve target) ∧
      depicter.replay setting final (depicter.walk (setting.resolve target) direction) =
        .ok entry.definition

/-- Whether the bodies of the targets ask for views of the targets only. -/
def AsksWithin (asked : String → Prop) : Prop :=
  ∀ target direction, asked target →
    (depicter.walk (setting.resolve target) direction).Asks asked

/-- A table between depictions: its names count its entries, and every entry has a definition, the
one that all later tables replay. -/
structure Steady (asked : String → Prop) (table : AliasTable U) : Prop where
  numbered : table.Numbered
  stem : table.stem = depicter.stem
  complete : table.Complete
  settled : ∀ final, table.Extends final → depicter.SettledIn setting asked final table

variable {depicter setting} {α β : Type} {table later final other : AliasTable U}
  {asked : String → Prop}

lemma replayReference_of_name {target name : String} {direction : Direction}
    (found : table.nameOf? (setting.aliasKey direction (setting.resolve target)) = some name) :
    depicter.replayReference setting table target direction = .ok (depicter.refer name) := by
  simp only [replayReference, found]

lemma name_of_replayReference {target : String} {direction : Direction} {view : U}
    (h : depicter.replayReference setting table target direction = .ok view) :
    ∃ name, table.nameOf? (setting.aliasKey direction (setting.resolve target)) = some name ∧
      view = depicter.refer name := by
  rw [replayReference] at h
  cases found : table.nameOf? (setting.aliasKey direction (setting.resolve target)) with
  | none => rw [found] at h; cases h
  | some name =>
    rw [found] at h
    exact ⟨name, rfl, (Except.ok.inj h).symm⟩

lemma replay_ask (node : Node) (input : Option Json) (next : Outcome → Walk U α) :
    depicter.replay setting table (.ask node input next) =
      depicter.replay setting table (next (setting.library.validate node input)) := rfl

lemma replay_refer (target : String) (direction : Direction) (next : U → Walk U α) :
    depicter.replay setting table (.refer target direction next) =
      depicter.replayReference setting table target direction >>= fun view =>
        depicter.replay setting table (next view) := rfl

lemma replay_refer_ok {target : String} {direction : Direction} {next : U → Walk U α} {a : α}
    (h : depicter.replay setting table (.refer target direction next) = .ok a) :
    ∃ name, table.nameOf? (setting.aliasKey direction (setting.resolve target)) = some name ∧
      depicter.replay setting table (next (depicter.refer name)) = .ok a := by
  rw [replay_refer] at h
  cases answered : depicter.replayReference setting table target direction with
  | error cause => rw [answered] at h; cases h
  | ok view =>
    obtain ⟨name, found, rfl⟩ := name_of_replayReference answered
    rw [answered] at h
    exact ⟨name, found, h⟩

lemma replay_bind (w : Walk U α) (next : α → Walk U β) :
    depicter.replay setting table (w >>= next) =
      depicter.replay setting table w >>= fun a => depicter.replay setting table (next a) := by
  induction w with
  | done a => rfl
  | halt cause => rfl
  | ask node input rest ih => exact ih _
  | refer target direction rest ih =>
    change depicter.replay setting table (.refer target direction fun view => rest view >>= next) =
      depicter.replay setting table (.refer target direction rest) >>= _
    rw [replay_refer, replay_refer]
    cases depicter.replayReference setting table target direction with
    | error cause => rfl
    | ok view => exact ih view

lemma replay_bind_ok {w : Walk U α} {next : α → Walk U β} {b : β}
    (h : depicter.replay setting table (w >>= next) = .ok b) :
    ∃ a, depicter.replay setting table w = .ok a ∧
      depicter.replay setting table (next a) = .ok b := by
  rw [replay_bind] at h
  exact exists_of_bind h

/-- A later table answers as an earlier one does. -/
lemma replay_extends (ext : table.Extends later) {w : Walk U α} {a : α}
    (h : depicter.replay setting table w = .ok a) : depicter.replay setting later w = .ok a := by
  induction w with
  | done b => exact h
  | halt cause => cases h
  | ask node input next ih => exact ih _ h
  | refer target direction next ih =>
    obtain ⟨name, found, rest⟩ := replay_refer_ok h
    rw [replay_refer, replayReference_of_name (ext.kept _ _ found)]
    exact ih _ rest

/-- A table that answers for all references of a walk is not changed by a run of it. -/
lemma runs_of_replay {w : Walk U U} {view : U} (h : depicter.replay setting table w = .ok view) :
    ∃ visits, depicter.Runs setting table w visits (.ok view) table := by
  induction w with
  | done b =>
    obtain rfl := Except.ok.inj h
    exact ⟨_, .done⟩
  | halt cause => cases h
  | ask node input next ih =>
    obtain ⟨visits, run⟩ := ih _ h
    exact ⟨_, .ask run⟩
  | refer target direction next ih =>
    obtain ⟨name, found, rest⟩ := replay_refer_ok h
    obtain ⟨visits, run⟩ := ih _ rest
    exact ⟨_, .known found run⟩

lemma depict_of_replay
    (unknown : ∀ name direction, ∃ cause,
      depicter.walk (.of (.custom name)) direction = .halt cause)
    {node : Node} {direction : Direction} {view : U}
    (h : depicter.replay setting table (depicter.walk node direction) = .ok view) :
    depicter.depict setting node direction table = (.ok view, table) := by
  obtain ⟨visits, run⟩ := runs_of_replay h
  obtain ⟨visits', run'⟩ := runs_depict setting unknown table node direction
  obtain ⟨-, result, same⟩ := run'.unique run
  exact Prod.ext result same

lemma SettledIn.reserve (settled : depicter.SettledIn setting asked final table) (key : String)
    (placeholder : U) : depicter.SettledIn setting asked final (table.reserve key placeholder) := by
  intro other entry found resolved
  rw [AliasTable.get?_reserve] at found
  by_cases e : key = other
  · rw [if_pos e] at found
    obtain rfl := Option.some.inj found
    cases resolved
  · rw [if_neg e] at found
    exact settled other entry found resolved

lemma SettledIn.resolve (settled : depicter.SettledIn setting asked final table) {target : String}
    {direction : Direction} {view : U} (mem : asked target)
    (replayed : depicter.replay setting final
      (depicter.walk (setting.resolve target) direction) = .ok view) :
    depicter.SettledIn setting asked final
      (table.resolve (setting.aliasKey direction (setting.resolve target)) view) := by
  intro other entry found resolved
  cases here : table.get? (setting.aliasKey direction (setting.resolve target)) with
  | none =>
    simp only [AliasTable.resolve, here] at found
    exact settled other entry found resolved
  | some old =>
    rw [AliasTable.get?_resolve here] at found
    by_cases e : setting.aliasKey direction (setting.resolve target) = other
    · rw [if_pos e] at found
      obtain rfl := Option.some.inj found
      exact ⟨target, direction, mem, e.symm, replayed⟩
    · rw [if_neg e] at found
      exact settled other entry found resolved

/-- The result of a run that succeeds is the one that is replayed later. What a later table answers
for a reference is the name that the run was given, whether its definition is there yet or not. -/
lemma Runs.replayed {w : Walk U U} {visits : List Visit} {result : Except Halt U}
    (h : depicter.Runs setting table w visits result later) (ext : later.Extends final) {view : U}
    (ok : result = .ok view) : depicter.replay setting final w = .ok view := by
  induction h with
  | done => exact ok
  | halt => cases ok
  | ask _ ih => exact ih ext ok
  | known found rest ih =>
    have kept := ext.kept _ _ (rest.extends.kept _ _ found)
    rw [replay_refer, replayReference_of_name kept]
    exact ih ext ok
  | produced _ body rest _ restIH =>
    have grown := (AliasTable.extends_resolve _ _ _).trans (rest.extends.trans ext)
    have kept := (body.extends.trans grown).kept_reserved
    rw [replay_refer, replayReference_of_name kept]
    exact restIH ext ok
  | failed _ _ _ => cases ok

lemma replay_of_depict
    (unknown : ∀ name direction, ∃ cause,
      depicter.walk (.of (.custom name)) direction = .halt cause)
    {node : Node} {direction : Direction} {view : U}
    (ok : depicter.depict setting node direction table = (.ok view, later)) :
    depicter.replay setting later (depicter.walk node direction) = .ok view := by
  obtain ⟨visits, run⟩ := runs_depict setting unknown table node direction
  rw [ok] at run
  exact run.replayed (.refl _) rfl

/-- A run goes through the run of what it begins with. -/
lemma Runs.first {w : Walk U U} {next : U → Walk U U} {visits : List Visit} {view : U}
    (h : depicter.Runs setting table (w >>= next) visits (.ok view) later) :
    ∃ a before after middle, depicter.Runs setting table w before (.ok a) middle ∧
      depicter.Runs setting middle (next a) after (.ok view) later := by
  induction w generalizing table visits with
  | done a => exact ⟨a, _, _, _, .done, h⟩
  | halt cause => cases h
  | ask node input rest ih =>
    cases h with
    | ask h =>
      obtain ⟨a, before, after, middle, run, run'⟩ := ih _ h
      exact ⟨a, _, _, _, .ask run, run'⟩
  | refer target direction rest ih =>
    cases h with
    | known found h =>
      obtain ⟨a, before, after, middle, run, run'⟩ := ih _ h
      exact ⟨a, _, _, _, .known found run, run'⟩
    | produced absent body h =>
      obtain ⟨a, before, after, middle, run, run'⟩ := ih _ h
      exact ⟨a, _, _, _, .produced absent body run, run'⟩

/-- The run of a node is its depiction. -/
lemma Runs.depicted {visits : List Visit} {view : U} {node : Node} {direction : Direction}
    (h : depicter.Runs setting table (depicter.walk node direction) visits (.ok view) later)
    (unknown : ∀ name direction, ∃ cause,
      depicter.walk (.of (.custom name)) direction = .halt cause) :
    depicter.depict setting node direction table = (.ok view, later) := by
  obtain ⟨visits', run⟩ := runs_depict setting unknown table node direction
  obtain ⟨-, result, same⟩ := run.unique h
  exact Prod.ext result same

/-- A run leaves settled tables settled. -/
lemma Runs.settled {w : Walk U U} {visits : List Visit} {result : Except Halt U}
    (h : depicter.Runs setting table w visits result later)
    (within : depicter.AsksWithin setting asked) (asks : w.Asks asked) (ext : later.Extends final)
    (settled : depicter.SettledIn setting asked final table) :
    depicter.SettledIn setting asked final later := by
  induction h with
  | done => exact settled
  | halt => exact settled
  | ask _ ih =>
    cases asks with
    | ask next => exact ih (next _) ext settled
  | known _ _ ih =>
    cases asks with | refer _ next =>
    exact ih (next _) ext settled
  | @produced table target direction _ _ view middle _ _ _ absent body rest bodyIH restIH =>
    cases asks with | refer mem next =>
    -- the entry holds a placeholder until the body has been walked, and settled tables allow for it
    have fromMiddle := (AliasTable.extends_resolve middle
      (setting.aliasKey direction (setting.resolve target)) view).trans (rest.extends.trans ext)
    have bodySettled := bodyIH (within target direction mem) fromMiddle (settled.reserve _ _)
    exact restIH (next _) ext (bodySettled.resolve mem (body.replayed fromMiddle rfl))
  | failed _ _ bodyIH =>
    cases asks with | refer mem _ =>
    exact bodyIH (within _ _ mem) ext (settled.reserve _ _)

/-- A run that succeeds leaves no entry pending that was not pending before it. -/
lemma Runs.pending {w : Walk U U} {visits : List Visit} {result : Except Halt U}
    (h : depicter.Runs setting table w visits result later) {view : U} (eq : result = .ok view)
    {key : String} (pending : later.Pending key) : table.Pending key := by
  induction h generalizing view with
  | done => exact pending
  | halt => cases eq
  | ask _ ih => exact ih eq pending
  | known _ _ ih => exact ih eq pending
  | produced _ _ _ bodyIH restIH =>
    obtain ⟨inMiddle, different⟩ := AliasTable.pending_resolve (restIH eq pending)
    rcases AliasTable.pending_reserve (bodyIH rfl inMiddle) with same | before
    · exact absurd same different
    · exact before
  | failed _ _ _ => cases eq

variable (depicter setting asked) in
lemma Steady.empty : depicter.Steady setting asked depicter.noAliases where
  numbered := .empty depicter.stem
  stem := rfl
  complete := fun _ mem => absurd mem List.not_mem_nil
  settled := fun _ _ _ _ found => by cases found

/-- A run that succeeds leads from a steady table to a steady one. -/
lemma Runs.steady {w : Walk U U} {visits : List Visit} {view : U}
    (h : depicter.Runs setting table w visits (.ok view) later)
    (within : depicter.AsksWithin setting asked) (asks : w.Asks asked)
    (steady : depicter.Steady setting asked table) :
    depicter.Steady setting asked later ∧
      ∀ final, later.Extends final → depicter.replay setting final w = .ok view := by
  have numbered := h.numbered steady.numbered
  refine ⟨⟨numbered, h.extends.stem.trans steady.stem, ?_, fun final ext =>
    h.settled within asks ext (steady.settled final (h.extends.trans ext))⟩,
    fun final ext => h.replayed ext rfl⟩
  exact AliasTable.complete_of_not_pending numbered fun key pending =>
    steady.complete.not_pending key (h.pending rfl pending)

lemma RunsAll.steady {calls : List (Node × Direction)} {visits : List (List Visit)}
    {results : List (Except Halt U)}
    (h : depicter.RunsAll setting table calls visits results later)
    (within : depicter.AsksWithin setting asked)
    (asks : ∀ call ∈ calls, (depicter.walk call.1 call.2).Asks asked)
    (ok : ∀ result ∈ results, ∃ view, result = .ok view)
    (steady : depicter.Steady setting asked table) :
    depicter.Steady setting asked later ∧ ∀ final, later.Extends final →
      results = calls.map fun call =>
        depicter.replay setting final (depicter.walk call.1 call.2) := by
  induction h with
  | nil => exact ⟨steady, fun _ _ => rfl⟩
  | cons first rest ih =>
    obtain ⟨view, rfl⟩ := ok _ List.mem_cons_self
    obtain ⟨middle, replayed⟩ := first.steady within (asks _ List.mem_cons_self) steady
    obtain ⟨steady', more⟩ := ih (fun call mem => asks call (List.mem_cons_of_mem _ mem))
      (fun result mem => ok result (List.mem_cons_of_mem _ mem)) middle
    refine ⟨steady', ?_⟩
    intro final ext
    rw [List.map_cons, ← more final ext, replayed final (rest.extends.trans ext)]

lemma Uniform.within {rename : (String → String) → U → U} (uniform : depicter.Uniform rename)
    (closed : setting.Closed asked) : depicter.AsksWithin setting asked :=
  fun target direction mem =>
    (uniform.asks (setting.resolve target) direction).mono (closed target mem)

/-- A depiction that succeeds leads from a steady table to a steady one, and is replayed later. -/
lemma Steady.depict {rename : (String → String) → U → U}
    (steady : depicter.Steady setting asked table) (uniform : depicter.Uniform rename)
    (closed : setting.Closed asked) {node : Node} {direction : Direction}
    (inScope : ∀ target, node.Refers target → asked target) {view : U}
    (ok : depicter.depict setting node direction table = (.ok view, later)) :
    table.Extends later ∧ depicter.Steady setting asked later ∧ ∀ final, later.Extends final →
      depicter.replay setting final (depicter.walk node direction) = .ok view := by
  obtain ⟨visits, run⟩ := runs_depict setting uniform.unknown table node direction
  rw [ok] at run
  exact ⟨run.extends, run.steady (uniform.within closed)
    ((uniform.asks node direction).mono inScope) steady⟩

/-- Replayed from tables whose answers are alike, alike walks have alike results. -/
lemma replay_alike {rename : U → U} {g : α → β} {w : Walk U α}
    {w' : Walk U β} {a : α} {b : β} (alike : Walk.Alike asked rename g w w')
    (answers : ∀ key name name', table.nameOf? key = some name → other.nameOf? key = some name' →
      depicter.refer name' = rename (depicter.refer name))
    (left : depicter.replay setting table w = .ok a)
    (right : depicter.replay setting other w' = .ok b) : b = g a := by
  induction alike with
  | done x =>
    obtain rfl := Except.ok.inj left
    exact (Except.ok.inj right).symm
  | halt _ => cases left
  | @ask node input next next' stops stops' _ ih =>
    rw [replay_ask] at left right
    by_cases unfinished : setting.library.validate node input = .unfinished
    · rw [unfinished, stops] at left
      cases left
    · exact ih _ unfinished left right
  | refer _ _ ih =>
    obtain ⟨name, found, left⟩ := replay_refer_ok left
    obtain ⟨name', found', right⟩ := replay_refer_ok right
    rw [answers _ _ _ found found'] at right
    exact ih _ left right

end Depicter

end EventContracts

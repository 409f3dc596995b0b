import EventContracts.Depiction
import EventContracts.Proofs.AliasGrowth
import Mathlib.Data.Finset.Card

/-! Runs of walks, without a bound on how deep productions of aliases are nested. A run goes from a
table to a later one and records what it does on the way: the validations that it asks for, and the
bodies of references that it walks. The bounded depictions have the same results, because every
production of a named schema reserves a fingerprint that was absent. -/

namespace EventContracts

/-- What a run does on its way: a validation, or the walk over the body of a reference. -/
inductive Visit where
  | validation (node : Node) (input : Option Json)
  | body (direction : Direction) (fingerprint : String)

namespace Visit

/-- The direction and the fingerprint of a walked body. -/
def body? : Visit → Option (Direction × String)
  | body direction fingerprint => some (direction, fingerprint)
  | validation .. => none

/-- The bodies that were walked, in order. -/
def bodies (visits : List Visit) : List (Direction × String) := visits.filterMap body?

end Visit

/-- The table key of a direction and a fingerprint. -/
def bodyKey (body : Direction × String) : String := body.1.text ++ ":" ++ body.2

lemma bodyKey_inj {a b : Direction × String} (h : bodyKey a = bodyKey b) : a = b := by
  obtain ⟨d, x⟩ := a
  obtain ⟨e, y⟩ := b
  cases d <;> cases e
  case input.input => simpa [bodyKey, String.append_assoc] using h
  case output.output => simpa [bodyKey, String.append_assoc] using h
  all_goals
    have first := congrArg (fun s : String => s.toList.head?) h
    simp [bodyKey, Direction.text] at first

namespace Setting

variable (setting : Setting)

/-- The keys under which the named schemas can be reserved. -/
def bodyKeys : List String :=
  [Direction.input, .output].flatMap fun direction =>
    setting.library.definitions.map fun field => setting.aliasKey direction field.2

lemma length_bodyKeys : setting.bodyKeys.length = 2 * setting.library.definitions.length := by
  simp [bodyKeys]
  omega

/-- A reference stands for a named schema, or for one that nothing is known about. -/
lemma resolve_cases (target : String) :
    (∃ field ∈ setting.library.definitions, setting.resolve target = field.2) ∨
      ∃ name, setting.resolve target = .of (.custom name) := by
  cases h : Fields.get? target setting.library.definitions with
  | none => exact .inr ⟨_, by simp only [resolve, Definitions.resolve, h, Option.getD_none]; rfl⟩
  | some node =>
    exact .inl ⟨_, Fields.mem_of_get? h, by simp [resolve, Definitions.resolve, h]⟩

lemma aliasKey_mem_bodyKeys {field : String × Node} (mem : field ∈ setting.library.definitions)
    (direction : Direction) : setting.aliasKey direction field.2 ∈ setting.bodyKeys :=
  List.mem_flatMap.mpr ⟨direction, by cases direction <;> simp, List.mem_map_of_mem mem⟩

/-- How many named schemas are not reserved yet, each in its two directions. -/
def room {U : Type} (table : AliasTable U) : Nat :=
  (setting.bodyKeys.toFinset \ table.keys.toFinset).card

variable {setting} {U : Type} {table later : AliasTable U}

lemma room_le (setting : Setting) (table : AliasTable U) :
    setting.room table ≤ 2 * setting.library.definitions.length := by
  rw [← length_bodyKeys]
  exact (Finset.card_le_card Finset.sdiff_subset).trans (List.toFinset_card_le _)

lemma room_mono (h : table.Extends later) : setting.room later ≤ setting.room table := by
  refine Finset.card_le_card (Finset.sdiff_subset_sdiff subset_rfl fun key mem => ?_)
  obtain ⟨name, found⟩ := AliasTable.mem_keys.mp (List.mem_toFinset.mp mem)
  exact List.mem_toFinset.mpr (AliasTable.mem_keys.mpr ⟨name, h.kept key name found⟩)

lemma room_reserve {key : String} (absent : table.nameOf? key = none)
    (mem : key ∈ setting.bodyKeys) (placeholder : U) :
    setting.room (table.reserve key placeholder) < setting.room table := by
  refine Finset.card_lt_card ⟨?_, fun sub => ?_⟩
  · intro other h
    simp only [AliasTable.keys_reserve absent, Finset.mem_sdiff, List.mem_toFinset,
      List.mem_append, not_or] at h ⊢
    exact ⟨h.1, h.2.1⟩
  · have here : key ∈ setting.bodyKeys.toFinset \ table.keys.toFinset :=
      Finset.mem_sdiff.mpr ⟨List.mem_toFinset.mpr mem,
        fun h => AliasTable.nameOf?_eq_none.mp absent (List.mem_toFinset.mp h)⟩
    have gone := (Finset.mem_sdiff.mp (sub here)).2
    simp [AliasTable.keys_reserve absent] at gone

end Setting

namespace Depicter

variable {U : Type} (depicter : Depicter U) (setting : Setting)

/-- A run of a walk from a table: what it does, how it ends, and the table after it. The entry of a
reference is reserved before its body is walked, and what is done to the table stays done. -/
inductive Runs : AliasTable U → Walk U U → List Visit → Except Halt U → AliasTable U → Prop where
  | done {table view} : Runs table (.done view) [] (.ok view) table
  | halt {table cause} : Runs table (.halt cause) [] (.error cause) table
  | ask {table node input next visits result later}
      (rest : Runs table (next (setting.library.validate node input)) visits result later) :
      Runs table (.ask node input next) (.validation node input :: visits) result later
  | known {table target direction next visits result later name}
      (found : table.nameOf? (setting.aliasKey direction (setting.resolve target)) = some name)
      (rest : Runs table (next (depicter.refer name)) visits result later) :
      Runs table (.refer target direction next) visits result later
  | produced {table target direction next inner view middle visits result later}
      (absent : table.nameOf? (setting.aliasKey direction (setting.resolve target)) = none)
      (body : Runs
        (table.reserve (setting.aliasKey direction (setting.resolve target)) depicter.placeholder)
        (depicter.walk (setting.resolve target) direction) inner (.ok view) middle)
      (rest : Runs (middle.resolve (setting.aliasKey direction (setting.resolve target)) view)
        (next (depicter.refer table.nextName)) visits result later) :
      Runs table (.refer target direction next)
        (.body direction (setting.fingerprint (setting.resolve target)) :: (inner ++ visits))
        result later
  | failed {table target direction next inner cause middle}
      (absent : table.nameOf? (setting.aliasKey direction (setting.resolve target)) = none)
      (body : Runs
        (table.reserve (setting.aliasKey direction (setting.resolve target)) depicter.placeholder)
        (depicter.walk (setting.resolve target) direction) inner (.error cause) middle) :
      Runs table (.refer target direction next)
        (.body direction (setting.fingerprint (setting.resolve target)) :: inner) (.error cause)
        middle

variable {depicter setting} {table later : AliasTable U} {w : Walk U U} {visits : List Visit}
  {result : Except Halt U}

lemma Runs.extends (h : depicter.Runs setting table w visits result later) :
    table.Extends later := by
  induction h with
  | done => exact .refl _
  | halt => exact .refl _
  | ask _ ih => exact ih
  | known _ _ ih => exact ih
  | produced absent _ _ bodyIH restIH =>
    exact (AliasTable.extends_reserve absent _).trans
      (bodyIH.trans ((AliasTable.extends_resolve _ _ _).trans restIH))
  | failed absent _ bodyIH => exact (AliasTable.extends_reserve absent _).trans bodyIH

lemma Runs.numbered (h : depicter.Runs setting table w visits result later)
    (numbered : table.Numbered) : later.Numbered := by
  induction h with
  | done => exact numbered
  | halt => exact numbered
  | ask _ ih => exact ih numbered
  | known _ _ ih => exact ih numbered
  | produced absent _ _ bodyIH restIH =>
    exact restIH ((bodyIH (numbered.reserve absent _)).resolve _ _)
  | failed absent _ bodyIH => exact bodyIH (numbered.reserve absent _)

/-- The new entries of a run are those of the bodies that it walks, in the same order. -/
lemma Runs.keys_eq (h : depicter.Runs setting table w visits result later) :
    later.keys = table.keys ++ (Visit.bodies visits).map bodyKey := by
  induction h with
  | done => simp [Visit.bodies]
  | halt => simp [Visit.bodies]
  | ask _ ih => rw [ih]; rfl
  | known _ _ ih => exact ih
  | produced absent _ _ bodyIH restIH =>
    rw [restIH, AliasTable.keys_resolve, bodyIH, AliasTable.keys_reserve absent]
    simp [Visit.bodies, Visit.body?, bodyKey, Setting.aliasKey]
  | failed absent _ bodyIH =>
    rw [bodyIH, AliasTable.keys_reserve absent]
    simp [Visit.bodies, Visit.body?, bodyKey, Setting.aliasKey]

/-- A walk has one run from a table. -/
lemma Runs.unique {visits' : List Visit} {result' : Except Halt U} {later' : AliasTable U}
    (h : depicter.Runs setting table w visits result later)
    (h' : depicter.Runs setting table w visits' result' later') :
    visits = visits' ∧ result = result' ∧ later = later' := by
  induction h generalizing visits' result' later' with
  | done => cases h'; exact ⟨rfl, rfl, rfl⟩
  | halt => cases h'; exact ⟨rfl, rfl, rfl⟩
  | ask _ ih =>
    cases h' with
    | ask rest =>
      obtain ⟨rfl, rfl, rfl⟩ := ih rest
      exact ⟨rfl, rfl, rfl⟩
  | known found _ ih =>
    cases h' with
    | known found' rest =>
      obtain rfl := Option.some.inj (found.symm.trans found')
      exact ih rest
    | produced absent _ _ => rw [found] at absent; cases absent
    | failed absent _ => rw [found] at absent; cases absent
  | produced absent _ _ bodyIH restIH =>
    cases h' with
    | known found _ => rw [absent] at found; cases found
    | produced _ body rest =>
      obtain ⟨rfl, same, rfl⟩ := bodyIH body
      obtain rfl := Except.ok.inj same
      obtain ⟨rfl, rfl, rfl⟩ := restIH rest
      exact ⟨rfl, rfl, rfl⟩
    | failed _ body => cases (bodyIH body).2.1
  | failed absent _ bodyIH =>
    cases h' with
    | known found _ => rw [absent] at found; cases found
    | produced _ body _ => cases (bodyIH body).2.1
    | failed _ body =>
      obtain ⟨rfl, same, rfl⟩ := bodyIH body
      obtain rfl := Except.error.inj same
      exact ⟨rfl, rfl, rfl⟩

variable (depicter setting)

/-- How a bounded depiction answers for the view of a reference. -/
def answer : Nat → String → Direction → Depicting U U
  | 0 => depicter.depictReference setting fun _ _ => throw (.interrupted .unfinished)
  | depth + 1 => depicter.depictReference setting (depicter.depictWithin setting depth)

/-- What a bounded depiction makes of a walk and a table. -/
def attend (depth : Nat) (w : Walk U U) : Depicting U U :=
  w.run (fun node input => pure (setting.library.validate node input))
    (depicter.answer setting depth)

lemma depictWithin_eq (depth : Nat) (node : Node) (direction : Direction) :
    depicter.depictWithin setting depth node direction =
      depicter.attend setting depth (depicter.walk node direction) := by
  cases depth <;> rfl

variable {depicter setting}

lemma attend_refer {depth : Nat} {target : String} {direction : Direction}
    {next : U → Walk U U} :
    depicter.attend setting depth (.refer target direction next) table =
      match depicter.answer setting depth target direction table with
      | (.ok view, later) => depicter.attend setting depth (next view) later
      | (.error cause, later) => (.error cause, later) := by
  have unfolded : depicter.attend setting depth (.refer target direction next) =
      depicter.answer setting depth target direction >>= fun view =>
        depicter.attend setting depth (next view) := rfl
  rw [unfolded]
  rcases made : depicter.answer setting depth target direction table with ⟨cause | view, later⟩
  · exact bind_of_error made _
  · exact bind_of_ok made _

lemma answer_known {depth : Nat} {target name : String} {direction : Direction}
    (found : table.nameOf? (setting.aliasKey direction (setting.resolve target)) = some name) :
    depicter.answer setting depth target direction table = (.ok (depicter.refer name), table) := by
  cases depth with
  | zero => exact bind_of_ok (AliasTable.make_known found _ _) _
  | succ depth => exact bind_of_ok (AliasTable.make_known found _ _) _

lemma answer_absent {depth : Nat} {target : String} {direction : Direction}
    (absent : table.nameOf? (setting.aliasKey direction (setting.resolve target)) = none) :
    depicter.answer setting (depth + 1) target direction table =
      match depicter.attend setting depth (depicter.walk (setting.resolve target) direction)
        (table.reserve (setting.aliasKey direction (setting.resolve target))
          depicter.placeholder) with
      | (.ok view, middle) =>
        (.ok (depicter.refer table.nextName),
          middle.resolve (setting.aliasKey direction (setting.resolve target)) view)
      | (.error cause, middle) => (.error cause, middle) := by
  have made := AliasTable.make_absent absent depicter.placeholder
    (depicter.attend setting depth (depicter.walk (setting.resolve target) direction))
  rw [answer, depictReference, depictWithin_eq]
  rcases drawn : depicter.attend setting depth (depicter.walk (setting.resolve target) direction)
    (table.reserve (setting.aliasKey direction (setting.resolve target)) depicter.placeholder)
    with ⟨cause | view, middle⟩
  · rw [drawn] at made
    exact bind_of_error made _
  · rw [drawn] at made
    exact bind_of_ok made _

variable (setting) in
/-- With depth for every named schema that is not reserved yet, a bounded depiction has a run. The
induction on the depth goes into bodies, and the one on the walk goes on after them. -/
lemma runs_attend
    (unknown : ∀ name direction, ∃ cause,
      depicter.walk (.of (.custom name)) direction = .halt cause)
    (depth : Nat) (w : Walk U U) (table : AliasTable U) (enough : setting.room table < depth) :
    ∃ visits, depicter.Runs setting table w visits (depicter.attend setting depth w table).1
      (depicter.attend setting depth w table).2 := by
  induction depth generalizing w table with
  | zero => omega
  | succ depth bodyIH =>
    induction w generalizing table with
    | done view => exact ⟨_, .done⟩
    | halt cause => exact ⟨_, .halt⟩
    | ask node input next ih =>
      obtain ⟨visits, rest⟩ := ih (setting.library.validate node input) table enough
      exact ⟨_, .ask rest⟩
    | refer target direction next ih =>
      rw [attend_refer]
      cases found : table.nameOf? (setting.aliasKey direction (setting.resolve target)) with
      | some name =>
        obtain ⟨visits, rest⟩ := ih (depicter.refer name) table enough
        rw [answer_known found]
        exact ⟨_, .known found rest⟩
      | none =>
        let start := table.reserve (setting.aliasKey direction (setting.resolve target))
          depicter.placeholder
        have body : ∃ inner ending middle,
            depicter.attend setting depth (depicter.walk (setting.resolve target) direction) start =
              (ending, middle) ∧
            depicter.Runs setting start (depicter.walk (setting.resolve target) direction) inner
              ending middle := by
          rcases setting.resolve_cases target with ⟨field, mem, same⟩ | ⟨name, custom⟩
          · have key := setting.aliasKey_mem_bodyKeys mem direction
            rw [← same] at key
            have less := Setting.room_reserve found key depicter.placeholder
            obtain ⟨inner, run⟩ := bodyIH (depicter.walk (setting.resolve target) direction) start
              (Nat.lt_of_lt_of_le less (Nat.le_of_lt_succ enough))
            exact ⟨inner, _, _, rfl, run⟩
          · obtain ⟨cause, halts⟩ := unknown name direction
            rw [custom, halts]
            exact ⟨_, _, _, rfl, .halt⟩
        obtain ⟨inner, cause | view, middle, eq, body⟩ := body <;> rw [answer_absent found, eq]
        · exact ⟨_, .failed found body⟩
        · have grown := (AliasTable.extends_reserve found _).trans
            (body.extends.trans (AliasTable.extends_resolve _
              (setting.aliasKey direction (setting.resolve target)) view))
          obtain ⟨visits, rest⟩ := ih (depicter.refer table.nextName)
            (middle.resolve (setting.aliasKey direction (setting.resolve target)) view)
            (Nat.lt_of_le_of_lt (Setting.room_mono grown) enough)
          exact ⟨_, .produced found body rest⟩

variable (setting) in
lemma runs_depict
    (unknown : ∀ name direction, ∃ cause,
      depicter.walk (.of (.custom name)) direction = .halt cause)
    (table : AliasTable U) (node : Node) (direction : Direction) :
    ∃ visits, depicter.Runs setting table (depicter.walk node direction) visits
      (depicter.depict setting node direction table).1
      (depicter.depict setting node direction table).2 := by
  rw [depict, depictWithin_eq]
  have most := Setting.room_le setting table
  exact runs_attend setting unknown _ _ table (by simp only [Setting.aliasDepth]; omega)

variable (setting) in
/-- More depth than the usual one makes no difference. -/
lemma depictWithin_add
    (unknown : ∀ name direction, ∃ cause,
      depicter.walk (.of (.custom name)) direction = .halt cause)
    (extra : Nat) (table : AliasTable U) (node : Node) (direction : Direction) :
    depicter.depictWithin setting (setting.aliasDepth + extra) node direction table =
      depicter.depict setting node direction table := by
  obtain ⟨visits, run⟩ := runs_depict setting unknown table node direction
  have most := Setting.room_le setting table
  obtain ⟨visits', run'⟩ := runs_attend setting unknown (setting.aliasDepth + extra)
    (depicter.walk node direction) table (by simp only [Setting.aliasDepth]; omega)
  rw [← depictWithin_eq] at run'
  obtain ⟨-, result, later⟩ := run'.unique run
  exact Prod.ext result later

variable (depicter setting)

/-- Depictions one after the other with one table, whether they succeed or not. -/
def session (calls : List (Node × Direction)) : StateM (AliasTable U) (List (Except Halt U)) :=
  calls.mapM fun call => (depicter.depict setting call.1 call.2).run

/-- The runs of a session, with what each of them does. -/
inductive RunsAll : AliasTable U → List (Node × Direction) → List (List Visit) →
    List (Except Halt U) → AliasTable U → Prop where
  | nil {table : AliasTable U} : RunsAll table [] [] [] table
  | cons {table middle later : AliasTable U} {call : Node × Direction}
      {calls : List (Node × Direction)} {visits : List Visit} {more : List (List Visit)}
      {result : Except Halt U} {results : List (Except Halt U)}
      (first : depicter.Runs setting table (depicter.walk call.1 call.2) visits result middle)
      (rest : RunsAll middle calls more results later) :
      RunsAll table (call :: calls) (visits :: more) (result :: results) later

variable {depicter setting}

lemma session_cons (call : Node × Direction) (calls : List (Node × Direction))
    (table : AliasTable U) :
    depicter.session setting (call :: calls) table =
      let (result, middle) := depicter.depict setting call.1 call.2 table
      let (results, later) := depicter.session setting calls middle
      (result :: results, later) := by
  simp only [session, List.mapM_cons]
  rfl

variable (setting) in
lemma runsAll_session
    (unknown : ∀ name direction, ∃ cause,
      depicter.walk (.of (.custom name)) direction = .halt cause)
    (calls : List (Node × Direction)) (table : AliasTable U) :
    ∃ visits, depicter.RunsAll setting table calls visits
      (depicter.session setting calls table).1 (depicter.session setting calls table).2 := by
  induction calls generalizing table with
  | nil => exact ⟨[], .nil⟩
  | cons call calls ih =>
    obtain ⟨visits, first⟩ := runs_depict setting unknown table call.1 call.2
    obtain ⟨more, rest⟩ := ih (depicter.depict setting call.1 call.2 table).2
    exact ⟨visits :: more, by rw [session_cons]; exact .cons first rest⟩

section RunsAll

variable {table later : AliasTable U} {calls : List (Node × Direction)}
  {visits : List (List Visit)} {results : List (Except Halt U)}

lemma RunsAll.extends (h : depicter.RunsAll setting table calls visits results later) :
    table.Extends later := by
  induction h with
  | nil => exact .refl _
  | cons first _ ih => exact first.extends.trans ih

lemma RunsAll.numbered (h : depicter.RunsAll setting table calls visits results later)
    (numbered : table.Numbered) : later.Numbered := by
  induction h with
  | nil => exact numbered
  | cons first _ ih => exact ih (first.numbered numbered)

lemma RunsAll.keys_eq (h : depicter.RunsAll setting table calls visits results later) :
    later.keys = table.keys ++ (Visit.bodies visits.flatten).map bodyKey := by
  induction h with
  | nil => simp [Visit.bodies]
  | cons first _ ih =>
    rw [ih, first.keys_eq]
    simp [Visit.bodies]

end RunsAll

end Depicter

end EventContracts

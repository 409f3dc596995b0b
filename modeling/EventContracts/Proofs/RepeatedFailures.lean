import EventContracts.Proofs.DepictionReplay
import EventContracts.Proofs.DocumentedWalks
import EventContracts.Proofs.TypedWalks

/-! What becomes of a failed depiction when it is repeated later. A failure that leaves no
definition unfinished is repeated, since every reference before it is answered as it was. Any other
failure came out of the body of a reference, whose entry stays reserved: its placeholder is never
replaced, and the reference is answered by it from then on. -/

namespace EventContracts

namespace Depicter

variable {U : Type} {depicter : Depicter U} {setting : Setting} {asked : String → Prop}
  {table later final : AliasTable U} {w : Walk U U} {visits : List Visit} {result : Except Halt U}

/-- Entries that are there before a run are not changed by it. -/
lemma Runs.kept_entry (h : depicter.Runs setting table w visits result later) {key : String}
    {entry : Alias U} (found : table.get? key = some entry) : later.get? key = some entry := by
  have apart {table : AliasTable U} {other : String} (found : table.get? key = some entry)
      (absent : table.nameOf? other = none) : other ≠ key := by
    rintro rfl
    rw [AliasTable.nameOf?, found] at absent
    cases absent
  have reserved {table : AliasTable U} {other : String} (found : table.get? key = some entry)
      (absent : table.nameOf? other = none) :
      (table.reserve other depicter.placeholder).get? key = some entry := by
    rw [AliasTable.get?_reserve, if_neg (apart found absent)]
    exact found
  induction h with
  | done => exact found
  | halt => exact found
  | ask _ ih => exact ih found
  | known _ _ ih => exact ih found
  | @produced table target direction _ _ view middle _ _ _ absent _ _ bodyIH restIH =>
    apply restIH
    have inMiddle := bodyIH (reserved found absent)
    cases here : middle.get? (setting.aliasKey direction (setting.resolve target)) with
    | none => rwa [AliasTable.resolve, here]
    | some old => rwa [AliasTable.get?_resolve here, if_neg (apart found absent)]
  | failed absent _ bodyIH => exact bodyIH (reserved found absent)

lemma RunsAll.kept_entry {calls : List (Node × Direction)} {visits : List (List Visit)}
    {results : List (Except Halt U)}
    (h : depicter.RunsAll setting table calls visits results later) {key : String}
    {entry : Alias U} (found : table.get? key = some entry) : later.get? key = some entry := by
  induction h with
  | nil => exact found
  | cons first _ ih => exact ih (first.kept_entry found)

/-- A failed run leaves no entry pending that was not, and then it is repeated from every later
table, or it abandoned the definition of a reference. -/
lemma Runs.repeats_or_abandons (h : depicter.Runs setting table w visits result later)
    (asks : w.Asks asked) {cause : Halt} (failed : result = .error cause) :
    ((∀ key, later.Pending key → table.Pending key) ∧
      ∀ final, later.Extends final → ∃ again, depicter.Runs setting final w again result final) ∨
    ∃ target direction name, asked target ∧
      table.nameOf? (setting.aliasKey direction (setting.resolve target)) = none ∧
      later.get? (setting.aliasKey direction (setting.resolve target)) =
        some ⟨name, false, depicter.placeholder⟩ := by
  induction h with
  | done => cases failed
  | halt => exact .inl ⟨fun _ pending => pending, fun _ _ => ⟨_, .halt⟩⟩
  | ask _ ih =>
    cases asks with | ask next =>
    rcases ih (next _) failed with ⟨calm, again⟩ | abandoned
    · refine .inl ⟨calm, ?_⟩
      intro final ext
      obtain ⟨visits, run⟩ := again final ext
      exact ⟨_, .ask run⟩
    · exact .inr abandoned
  | known found rest ih =>
    cases asks with | refer _ next =>
    rcases ih (next _) failed with ⟨calm, again⟩ | abandoned
    · refine .inl ⟨calm, ?_⟩
      intro final ext
      obtain ⟨visits, run⟩ := again final ext
      exact ⟨_, .known (ext.kept _ _ (rest.extends.kept _ _ found)) run⟩
    · exact .inr abandoned
  | @produced table own flow _ _ view middle _ _ _ absent body rest _ restIH =>
    cases asks with | refer _ next =>
    have grown := body.extends.trans
      (AliasTable.extends_resolve middle (setting.aliasKey flow (setting.resolve own)) view)
    rcases restIH (next _) failed with ⟨calm, again⟩ | ⟨target, direction, name, mem, fresh, left⟩
    · refine .inl ⟨?_, ?_⟩
      · intro key pending
        obtain ⟨inMiddle, different⟩ := AliasTable.pending_resolve (calm key pending)
        rcases AliasTable.pending_reserve (body.pending rfl inMiddle) with same | before
        · exact absurd same different
        · exact before
      · intro final ext
        obtain ⟨visits, run⟩ := again final ext
        exact ⟨_, .known (grown.trans (rest.extends.trans ext)).kept_reserved run⟩
    · have whole := (AliasTable.extends_reserve absent _).trans grown
      exact .inr ⟨target, direction, name, mem, whole.absent fresh, left⟩
  | @failed table target direction _ _ _ _ absent body _ =>
    cases asks with | refer mem _ =>
    refine .inr ⟨target, direction, table.nextName, mem, absent, body.kept_entry ?_⟩
    rw [AliasTable.get?_reserve, if_pos rfl]

/-- Whether the view of a reference is that of its alias, but for a description. -/
def Forwards (depicter : Depicter U) : Prop :=
  ∀ key target notes direction, ∃ next,
    depicter.walk (.mk (.reference key target) notes) direction = .refer target direction next ∧
      ∀ name, ∃ view, next (depicter.refer name) = .done view ∧
        (notes.description = none → view = depicter.refer name)

/-- Whether a reference is answered by a placeholder: its entry has no definition, and depicting the
reference gives the name of the entry. -/
def HandsOut (depicter : Depicter U) (setting : Setting) (table : AliasTable U) (target : String)
    (direction : Direction) : Prop :=
  ∃ name, table.get? (setting.aliasKey direction (setting.resolve target)) =
      some ⟨name, false, depicter.placeholder⟩ ∧
    ∀ key notes, ∃ view,
      depicter.depict setting (.mk (.reference key target) notes) direction table =
        (.ok view, table) ∧ (notes.description = none → view = depicter.refer name)

/-- What becomes of a failed call: the state before it and after it, and that of a later repetition.
-/
structure Repeats (depicter : Depicter U) (setting : Setting) (node : Node) (direction : Direction)
    (cause : Halt) (table later final : AliasTable U) : Prop where
  /-- A failure that leaves no definition unfinished is repeated, and the state is not changed. -/
  finished : (∀ key, later.Pending key → table.Pending key) →
    depicter.depict setting node direction final = (.error cause, final)
  /-- Any other failure came out of the body of a reference that was met for the first time, which
  is answered by its placeholder from then on. -/
  unfinished : ¬ (∀ key, later.Pending key → table.Pending key) →
    ∃ target flow, node.Refers target ∧
      table.nameOf? (setting.aliasKey flow (setting.resolve target)) = none ∧
      depicter.HandsOut setting final target flow
  /-- A reference that could not be depicted is answered by its placeholder from then on. -/
  reference : ∀ key target notes, node = .mk (.reference key target) notes →
    depicter.HandsOut setting final target direction

lemma depict_reference (unknown : ∀ name direction, ∃ cause,
      depicter.walk (.of (.custom name)) direction = .halt cause)
    (forwards : depicter.Forwards) {key target name : String} {notes : Notes}
    {direction : Direction}
    (found : table.nameOf? (setting.aliasKey direction (setting.resolve target)) = some name) :
    ∃ view, depicter.depict setting (.mk (.reference key target) notes) direction table =
        (.ok view, table) ∧ (notes.description = none → view = depicter.refer name) := by
  obtain ⟨next, walked, answers⟩ := forwards key target notes direction
  obtain ⟨view, done, bare⟩ := answers name
  refine ⟨view, ?_, bare⟩
  apply depict_of_replay unknown
  rw [walked, replay_refer, replayReference_of_name found]
  exact congrArg (depicter.replay setting table) done

lemma handsOut_of_entry (unknown : ∀ name direction, ∃ cause,
      depicter.walk (.of (.custom name)) direction = .halt cause)
    (forwards : depicter.Forwards) {target name : String} {direction : Direction}
    (found : table.get? (setting.aliasKey direction (setting.resolve target)) =
      some ⟨name, false, depicter.placeholder⟩) :
    depicter.HandsOut setting table target direction := by
  refine ⟨name, found, ?_⟩
  intro key notes
  exact depict_reference unknown forwards (by rw [AliasTable.nameOf?, found]; rfl)

variable (setting) in
lemma repeats {rename : (String → String) → U → U} (uniform : depicter.Uniform rename)
    (forwards : depicter.Forwards) {node : Node} {direction : Direction} {cause : Halt}
    (failed : depicter.depict setting node direction table = (.error cause, later))
    (calls : List (Node × Direction)) :
    depicter.Repeats setting node direction cause table later
      (depicter.session setting calls later).2 := by
  obtain ⟨visits, run⟩ := runs_depict setting uniform.unknown table node direction
  rw [failed] at run
  obtain ⟨others, between⟩ := runsAll_session setting uniform.unknown calls later
  have handed {target : String} {flow : Direction} {name : String}
      (left : later.get? (setting.aliasKey flow (setting.resolve target)) =
        some ⟨name, false, depicter.placeholder⟩) :
      depicter.HandsOut setting (depicter.session setting calls later).2 target flow :=
    handsOut_of_entry uniform.unknown forwards (between.kept_entry left)
  have pending {target : String} {flow : Direction} {name : String}
      (absent : table.nameOf? (setting.aliasKey flow (setting.resolve target)) = none)
      (left : later.get? (setting.aliasKey flow (setting.resolve target)) =
        some ⟨name, false, depicter.placeholder⟩) :
      ¬ ∀ key, later.Pending key → table.Pending key := by
    intro calm
    obtain ⟨entry, found, -⟩ := calm _ ⟨_, left, rfl⟩
    rw [AliasTable.nameOf?, found] at absent
    cases absent
  have cases := run.repeats_or_abandons (uniform.asks node direction) rfl
  constructor
  · intro calm
    rcases cases with ⟨-, again⟩ | ⟨target, flow, name, -, absent, left⟩
    · obtain ⟨visits', run'⟩ := again _ between.extends
      obtain ⟨visits'', run''⟩ := runs_depict setting uniform.unknown
        (depicter.session setting calls later).2 node direction
      obtain ⟨-, result, same⟩ := run''.unique run'
      exact Prod.ext result same
    · exact absurd calm (pending absent left)
  · intro wild
    rcases cases with ⟨calm, -⟩ | ⟨target, flow, name, refers, absent, left⟩
    · exact absurd calm wild
    · exact ⟨target, flow, refers, absent, handed left⟩
  · rintro key target notes rfl
    obtain ⟨next, walked, answers⟩ := forwards key target notes direction
    rw [walked] at run
    cases run with
    | known found rest =>
      obtain ⟨view, done, -⟩ := answers _
      rw [done] at rest
      cases rest
    | produced absent body rest =>
      obtain ⟨view, done, -⟩ := answers _
      rw [done] at rest
      cases rest
    | failed absent body =>
      have left : later.get? (setting.aliasKey direction (setting.resolve target)) =
          some ⟨table.nextName, false, depicter.placeholder⟩ :=
        body.kept_entry (by rw [AliasTable.get?_reserve, if_pos rfl])
      exact handed left

end Depicter

namespace Document

lemma forwards : depicter.Forwards := by
  intro key target notes direction
  refine ⟨_, rfl, ?_⟩
  intro name
  exact ⟨_, rfl, fun _ => rfl⟩

end Document

namespace TypeScript

lemma forwards (style : OptionalStyle) : (depicter style).Forwards := by
  intro key target notes direction
  refine ⟨_, rfl, ?_⟩
  intro name
  refine ⟨annotate notes (.reference name), rfl, ?_⟩
  intro bare
  rw [annotate, bare]
  rfl

end TypeScript

/-- What becomes of failed calls that are repeated, for both views, from any state, with any calls
in between. -/
theorem failures_repeat_unless_unfinished (setting : Setting) (style : OptionalStyle) :
    (∀ node direction cause table later,
      Document.depict setting direction node table = (.error cause, later) → ∀ calls,
        Document.depicter.Repeats setting node direction cause table later
          (Document.depicter.session setting calls later).2) ∧
    ∀ node direction cause table later,
      TypeScript.depict setting style direction node table = (.error cause, later) → ∀ calls,
        (TypeScript.depicter style).Repeats setting node direction cause table later
          ((TypeScript.depicter style).session setting calls later).2 := by
  constructor
  · intro node direction cause table later failed
    exact Depicter.repeats setting Document.uniform Document.forwards failed
  · intro node direction cause table later failed
    exact Depicter.repeats setting (TypeScript.uniform style) (TypeScript.forwards style) failed

/-- A schema that nothing can be made of, under a name. -/
def cellarSetting : Setting where
  library := { definitions := [("Vault", .of (.custom "symbol"))] }
  fingerprint node := node.kindName

def vault : Node := .of (.reference "vault" "Vault")

/-- Keys to the vault and to what nothing can be made of. -/
def keyring : Node := .of (.tuple [.of (.string {}), .of (.custom "symbol")] none)

theorem cellar_failures_repeat_unless_unfinished :
    (∃ cause table later,
      Document.depict cellarSetting .input keyring table = (.error cause, later) ∧
      Document.depict cellarSetting .input keyring
        (Document.depicter.session cellarSetting [(vault, .output)] later).2 =
          (.error cause, (Document.depicter.session cellarSetting [(vault, .output)] later).2)) ∧
    ∃ cause later,
      TypeScript.depict cellarSetting {} .input vault TypeScript.noAliases =
        (.error cause, later) ∧
      (TypeScript.depicter {}).HandsOut cellarSetting
        ((TypeScript.depicter {}).session cellarSetting [(keyring, .input)] later).2 "Vault"
        .input := by
  obtain ⟨documented, typed⟩ := failures_repeat_unless_unfinished cellarSetting {}
  constructor
  · have failed : Document.depict cellarSetting .input keyring Document.noComponents =
        (.error (.error (.unsupportedKind "symbol" .input)), Document.noComponents) := rfl
    refine ⟨_, _, _, failed, ?_⟩
    exact (documented _ _ _ _ _ failed [(vault, .output)]).finished fun _ pending => pending
  · have failed : TypeScript.depict cellarSetting {} .input vault TypeScript.noAliases =
        (.error (.error (.unsupportedKind "symbol" .input)),
          TypeScript.noAliases.reserve "input:symbol" (.keyword .any)) := rfl
    refine ⟨_, _, failed, ?_⟩
    exact (typed _ _ _ _ _ failed [(keyring, .input)]).reference _ _ _ rfl

/-- A reference fails once and is answered by its placeholder afterwards, in both views. -/
theorem vault_is_handed_out :
    Document.depicter.session cellarSetting [(vault, .input), (vault, .input)]
        Document.noComponents =
      ([.error (.error (.unsupportedKind "symbol" .input)),
          .ok (.refer (SchemaObject.componentPath "Schema1"))],
        Document.noComponents.reserve "input:symbol" {}) ∧
    (TypeScript.depicter {}).session cellarSetting [(vault, .input), (vault, .input)]
        TypeScript.noAliases =
      ([.error (.error (.unsupportedKind "symbol" .input)), .ok (.reference "Type1")],
        TypeScript.noAliases.reserve "input:symbol" (.keyword .any)) := ⟨rfl, rfl⟩

end EventContracts

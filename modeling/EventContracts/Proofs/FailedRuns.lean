import EventContracts.CommandLine.Run
import EventContracts.Proofs.ChangedFiles
import EventContracts.Proofs.FallibleSteps

/-! A run that fails changes no file, but for the document when it was written and the types could
not be written after it. Directories that were made on the way stay. -/

namespace EventContracts.CommandLine

open FileTree

variable {tree after between : FileTree} {output : String × String} {e : RunError}
  {arguments : Arguments}

lemma writeFile_ofTree (path text : String) (tree : FileTree) :
    (Disk.ofTree.writeFile path text : Run Bool) tree =
      match tree.writeFile path text with
      | some after => (.ok true, after)
      | none => (.ok false, tree) := by
  change (fun written : Bool × FileTree => (Except.ok written.1, written.2))
    (match tree.writeFile path text with
      | some after => (true, after)
      | none => (false, tree)) = _
  cases tree.writeFile path text with
  | none => rfl
  | some after => rfl

lemma writeOutput_eq (path text : String) (tree : FileTree) :
    writeOutput (path, text) tree =
      if !(tree.makeDirectories (Path.parent path)).2 then
        (.error (.directory (Path.parent path)), (tree.makeDirectories (Path.parent path)).1)
      else match (tree.makeDirectories (Path.parent path)).1.writeFile path text with
        | some after => (.ok (), after)
        | none => (.error (.file path), (tree.makeDirectories (Path.parent path)).1) := by
  have first : (Disk.ofTree.makeDirectories (Path.parent path) : Run Bool) tree =
    (.ok (tree.makeDirectories (Path.parent path)).2,
      (tree.makeDirectories (Path.parent path)).1) := rfl
  refine (bind_of_ok first _).trans ?_
  generalize tree.makeDirectories (Path.parent path) = made
  obtain ⟨next, made⟩ := made
  cases made with
  | false => rfl
  | true =>
    have second := writeFile_ofTree path text next
    cases written : next.writeFile path text with
    | none =>
      rw [written] at second
      exact bind_of_ok second _
    | some after =>
      rw [written] at second
      exact bind_of_ok second _

/-- An output that cannot be written changes no file. -/
lemma of_failed_output {path text : String}
    (h : writeOutput (path, text) tree = (.error e, after)) :
    Changes [] tree after ∧ (e = .directory (Path.parent path) ∨ e = .file path) := by
  have made := changes_makeDirectories tree (Path.parent path)
  rw [writeOutput_eq] at h
  split at h
  · cases h
    exact ⟨made, .inl rfl⟩
  · split at h
    · cases h
    · cases h
      exact ⟨made, .inr rfl⟩

lemma of_written_output {path text : String} {u : Unit}
    (h : writeOutput (path, text) tree = (.ok u, after)) : Written path text tree after := by
  have made := changes_makeDirectories tree (Path.parent path)
  rw [writeOutput_eq] at h
  split at h
  · cases h
  · split at h
    · rename_i next written
      cases h
      exact (written_writeFile written).later made
    · cases h

/-- A run that fails has failed before anything was written, or in writing its outputs. -/
lemma of_failed_run (h : run arguments tree = (.error e, after)) :
    (arguments.artifacts (tree.at? arguments.manifest) = .error e ∧ after = tree) ∨
      ∃ artifacts, arguments.artifacts (tree.at? arguments.manifest) = .ok artifacts ∧
        (arguments.outputs artifacts).forM writeOutput tree = (.error e, after) := by
  have found : (Disk.ofTree.find arguments.manifest : Run (Option FileTree)) tree =
    (.ok (tree.at? arguments.manifest), tree) := rfl
  rw [run, Disk.run, bind_of_ok found] at h
  cases made : arguments.artifacts (tree.at? arguments.manifest) with
  | error cause =>
    have stops : (throw cause : Run Artifacts) tree = (.error cause, tree) := rfl
    simp only [made] at h
    rw [bind_of_error stops] at h
    cases h
    exact .inl ⟨rfl, rfl⟩
  | ok artifacts =>
    simp only [made] at h
    rw [bind_of_ok (pure_step artifacts tree)] at h
    rcases written : (arguments.outputs artifacts).forM writeOutput tree with ⟨cause | _, next⟩
    · cases (bind_of_error written _).symm.trans h
      exact .inr ⟨artifacts, rfl, written⟩
    · cases (bind_of_ok written _).symm.trans h

/-- Whether the document is asked for and can be written. -/
def Arguments.WritesDocument (arguments : Arguments) (artifacts : Artifacts) (tree : FileTree) :
    Prop :=
  ∃ docs between, arguments.docs = some docs ∧
    (writeOutput (docs, arguments.docsText artifacts)).run.run tree = (.ok (), between)

/-- The first output is the document when it is asked for, and after it come at most the types. -/
lemma outputs_cases {artifacts : Artifacts} {done rest : List (String × String)}
    (h : arguments.outputs artifacts = done ++ output :: rest) :
    (done = [] ∧ ∀ docs ∈ arguments.docs, output = (docs, arguments.docsText artifacts)) ∨
      ∃ docs types, arguments.docs = some docs ∧ arguments.types = some types ∧
        done = [(docs, arguments.docsText artifacts)] ∧ output = (types, artifacts.types) := by
  unfold Arguments.outputs at h
  cases asked : arguments.docs with
  | none =>
    rw [asked] at h
    cases done with
    | nil => exact .inl ⟨rfl, nofun⟩
    | cons first done => cases asked' : arguments.types <;> simp [asked'] at h
  | some docs =>
    rw [asked] at h
    rcases List.cons_eq_append_iff.mp h with ⟨rfl, first⟩ | ⟨others, rfl, further⟩
    · obtain ⟨rfl, -⟩ := List.cons.inj first
      exact .inl ⟨rfl, fun _ is => Option.some.inj is ▸ rfl⟩
    · cases asked' : arguments.types with
      | none => simp [asked'] at further
      | some types =>
        rw [asked'] at further
        cases others with
        | nil =>
          obtain ⟨rfl, -⟩ := List.cons.inj further
          exact .inr ⟨docs, types, rfl, rfl, rfl, rfl⟩
        | cons second others => simp at further

/-- A failing run changes no file, unless the document was written before the types could not be:
then the document is at its path in full, and no other file is changed. -/
theorem failing_runs_keep_files (failed : (run arguments).run.run tree = (.error e, after)) :
    (arguments.artifacts (tree.at? arguments.manifest) = .error e ∧ after = tree) ∨
      ∃ artifacts, arguments.artifacts (tree.at? arguments.manifest) = .ok artifacts ∧
        (¬ arguments.WritesDocument artifacts tree → Changes [] tree after) ∧
        (arguments.WritesDocument artifacts tree → ∃ docs types,
          arguments.docs = some docs ∧ arguments.types = some types ∧
          (e = .directory (Path.parent types) ∨ e = .file types) ∧
          Written docs (arguments.docsText artifacts) tree after) := by
  rcases of_failed_run failed with before | ⟨artifacts, made, failed⟩
  · exact .inl before
  refine .inr ⟨artifacts, made, ?_⟩
  obtain ⟨done, output, rest, between, listed, before, stopped⟩ := forM_error failed
  rcases outputs_cases listed with ⟨rfl, first⟩ | ⟨docs, types, asked, asked', rfl, rfl⟩
  · cases before
    refine ⟨fun _ => (of_failed_output stopped).1, ?_⟩
    rintro ⟨docs, between, asked, written⟩
    rw [first docs asked] at stopped
    cases written.symm.trans stopped
  · obtain ⟨_, middle, written, ended⟩ := bind_ok before
    cases ended
    obtain ⟨changes, cause⟩ := of_failed_output stopped
    refine ⟨fun not => absurd ⟨docs, between, asked, written⟩ not, fun _ => ?_⟩
    exact ⟨docs, types, asked, asked', cause, (of_written_output written).andThen changes⟩

/-- A directory with a manifest of nothing, and a file where a directory is wanted. -/
def desk : FileTree :=
  .directory [("e.json", .file (some "\x7b\x7d")), ("file", .file (some "x"))]

/-- Both artifacts, the types below the file. -/
def bothArtifacts : Arguments :=
  { manifest := "e.json", docs := some "ok", types := some "file/t" }

/-- The files after the run. -/
def deskAfter : FileTree := ((run bothArtifacts).run.run desk).2

lemma run_bothArtifacts :
    (run bothArtifacts).run.run desk = (.error (.directory "file"), deskAfter) :=
  Prod.ext (by decide +kernel) rfl

lemma look?_deskAfter : ∃ text, deskAfter.look? ["ok"] = some (.file text) := by
  have readable : (deskAfter.textAt? "ok").isSome := by decide +kernel
  have leads : deskAfter.place? (Path.parts "ok") = some ["ok"] := by decide +kernel
  obtain ⟨text, read⟩ := Option.isSome_iff_exists.mp readable
  obtain ⟨-, place, leads', there⟩ := at?_eq_file.mp (at?_of_textAt? read)
  obtain rfl := Option.some.inj (leads.symm.trans leads')
  exact ⟨text, there⟩

theorem types_fail_after_the_document : ∃ artifacts,
    (run bothArtifacts).run.run desk = (.error (.directory "file"), deskAfter) ∧
      bothArtifacts.artifacts (desk.at? "e.json") = .ok artifacts ∧
      Written "ok" (bothArtifacts.docsText artifacts) desk deskAfter := by
  obtain ⟨text, there⟩ := look?_deskAfter
  have absent : desk.look? ["ok"] = none := rfl
  rcases failing_runs_keep_files run_bothArtifacts with ⟨-, same⟩ | ⟨artifacts, made, kept, written⟩
  · rw [same, absent] at there
    cases there
  · have writes : bothArtifacts.WritesDocument artifacts desk := by
      by_contra not
      have before := ((kept not).files ["ok"] List.not_mem_nil text).mp there
      rw [absent] at before
      cases before
    obtain ⟨docs, types, asked, -, -, written⟩ := written writes
    cases asked
    exact ⟨artifacts, run_bothArtifacts, made, written⟩

/-- An output file is there after a run that failed, where there was none before. -/
theorem failing_runs_leave_the_document :
    ¬ ∀ (arguments : Arguments) (tree after : FileTree) (e : RunError),
      (run arguments).run.run tree = (.error e, after) →
        ∀ path place, arguments.docs = some path ∨ arguments.types = some path →
          after.place? (Path.parts path) = some place →
            ∀ text, after.look? place = some (.file text) ↔
              tree.look? place = some (.file text) := by
  intro keeps
  obtain ⟨text, there⟩ := look?_deskAfter
  have leads : deskAfter.place? (Path.parts "ok") = some ["ok"] := by decide +kernel
  have before := (keeps _ _ _ _ run_bothArtifacts "ok" ["ok"] (.inl rfl) leads text).mp there
  cases before

end EventContracts.CommandLine

import EventContracts.Proofs.AliasGrowth

/-! Programs of calls on an alias table. A production may itself be a program of calls on the same
table, for other fingerprints or for those that are in progress, may catch what fails inside of it,
and may fail at last. The runs of a program are those of `AliasTable.make`, with a record of what
happens; a relation that follows the calls says the same step by step. Whatever a program does, the
table stays disciplined: every entry stands where it was first reserved, has the name that counts
it, and says whether its one production has succeeded. -/

namespace EventContracts

/-- A program of calls on an alias table: it finishes, or it asks for the name of a fingerprint and
goes on with the answer, a name or an error. What a call produces is a program too. -/
inductive AliasProgram (α ε : Type) where
  | finish (result : Except ε α)
  | call (key : String) (placeholder : α) (produce : AliasProgram α ε)
      (next : Except ε String → AliasProgram α ε)

/-- What happens while a program runs: a production starts, when its entry has the placeholder, and
ends, and a call is answered. -/
inductive AliasEvent (α ε : Type) where
  | started (key : String) (placeholder : α)
  | ended (key : String) (result : Except ε α)
  | answered (key : String) (answer : Except ε String)

namespace AliasEvent

variable {α ε : Type}

/-- The fingerprint whose production starts. -/
def start? : AliasEvent α ε → Option String
  | started key _ => some key
  | _ => none

/-- The fingerprints whose productions start, in order. -/
def starts (events : List (AliasEvent α ε)) : List String := events.filterMap start?

end AliasEvent

/-- A computation on an alias table that may fail, and that records what happens. -/
abbrev Observed (α ε β : Type) :=
  ExceptT ε (StateT (AliasTable α) (StateM (List (AliasEvent α ε)))) β

namespace Observed

variable {α ε β γ : Type}

/-- Record an event. -/
def note (event : AliasEvent α ε) : Observed α ε PUnit :=
  modifyThe (List (AliasEvent α ε)) (· ++ [event])

/-- Do something, and catch how it ends. -/
def attempt (action : Observed α ε β) : Observed α ε (Except ε β) :=
  ExceptT.mk (Except.ok <$> action.run)

/-- A production, with its start and its end recorded. -/
def watch (key : String) (placeholder : α) (produce : Observed α ε α) : Observed α ε α := do
  note (.started key placeholder)
  let result ← attempt produce
  note (.ended key result)
  liftExcept result

lemma liftExcept_apply (result : Except ε β) (table : AliasTable α) (log : List (AliasEvent α ε)) :
    (liftExcept result : Observed α ε β) table log = ((result, table), log) := by
  cases result <;> rfl

lemma watch_apply (key : String) (placeholder : α) (produce : Observed α ε α)
    (table : AliasTable α) (log : List (AliasEvent α ε)) :
    watch key placeholder produce table log =
      match produce table (log ++ [.started key placeholder]) with
      | ((result, later), more) => ((result, later), more ++ [.ended key result]) := by
  change (fun made : (Except ε α × AliasTable α) × List (AliasEvent α ε) =>
    (liftExcept made.1.1 : Observed α ε α) made.1.2 (made.2 ++ [.ended key made.1.1]))
      (produce table (log ++ [.started key placeholder])) = _
  generalize produce table (log ++ [.started key placeholder]) = ending
  obtain ⟨⟨result, later⟩, more⟩ := ending
  exact liftExcept_apply result later _

end Observed

namespace AliasProgram

variable {α ε : Type}

open Observed AliasEvent

/-- Run a program: every call makes an alias, with its production watched. -/
def run : AliasProgram α ε → Observed α ε α
  | finish result => liftExcept result
  | call key placeholder produce next => do
    let answer ← attempt (AliasTable.make key placeholder (watch key placeholder produce.run))
    note (.answered key answer)
    (next answer).run

/-- The runs of programs, call by call: from a table, what happens, how the program ends, and the
table after it. -/
inductive Runs : AliasTable α → AliasProgram α ε → List (AliasEvent α ε) → Except ε α →
    AliasTable α → Prop where
  | finish {table result} : Runs table (.finish result) [] result table
  | known {table key name placeholder produce next events result later}
      (found : table.nameOf? key = some name)
      (rest : Runs table (next (.ok name)) events result later) :
      Runs table (.call key placeholder produce next) (.answered key (.ok name) :: events) result
        later
  | produced {table key placeholder produce next inner definition middle events result later}
      (absent : table.nameOf? key = none)
      (body : Runs (table.reserve key placeholder) produce inner (.ok definition) middle)
      (rest : Runs (middle.resolve key definition) (next (.ok table.nextName)) events result
        later) :
      Runs table (.call key placeholder produce next)
        (.started key placeholder :: (inner ++ (.ended key (.ok definition) ::
          .answered key (.ok table.nextName) :: events))) result later
  | failed {table key placeholder produce next inner cause middle events result later}
      (absent : table.nameOf? key = none)
      (body : Runs (table.reserve key placeholder) produce inner (.error cause) middle)
      (rest : Runs middle (next (.error cause)) events result later) :
      Runs table (.call key placeholder produce next)
        (.started key placeholder :: (inner ++ (.ended key (.error cause) ::
          .answered key (.error cause) :: events))) result later

/-- A call makes an alias, with its production watched, and is answered. -/
lemma run_call (key : String) (placeholder : α) (produce : AliasProgram α ε)
    (next : Except ε String → AliasProgram α ε) (table : AliasTable α)
    (log : List (AliasEvent α ε)) :
    (call key placeholder produce next).run table log =
      match AliasTable.make key placeholder (watch key placeholder produce.run) table log with
      | ((answer, later), more) => (next answer).run later (more ++ [.answered key answer]) := rfl

lemma run_known {table : AliasTable α} {key name : String}
    (found : table.nameOf? key = some name) (placeholder : α) (produce : AliasProgram α ε)
    (next : Except ε String → AliasProgram α ε) (log : List (AliasEvent α ε)) :
    (call key placeholder produce next).run table log =
      (next (.ok name)).run table (log ++ [.answered key (.ok name)]) := by
  rw [run_call, AliasTable.make_known found]
  rfl

lemma run_absent {table : AliasTable α} {key : String} (absent : table.nameOf? key = none)
    (placeholder : α) (produce : AliasProgram α ε) (next : Except ε String → AliasProgram α ε)
    (log : List (AliasEvent α ε)) :
    (call key placeholder produce next).run table log =
      match produce.run (table.reserve key placeholder) (log ++ [.started key placeholder]) with
      | ((.ok definition, middle), more) =>
        (next (.ok table.nextName)).run (middle.resolve key definition)
          (more ++ [.ended key (.ok definition), .answered key (.ok table.nextName)])
      | ((.error cause, middle), more) =>
        (next (.error cause)).run middle
          (more ++ [.ended key (.error cause), .answered key (.error cause)]) := by
  have made : AliasTable.make key placeholder (watch key placeholder produce.run) table log =
      match watch key placeholder produce.run (table.reserve key placeholder) log with
      | (ending, more) => (AliasTable.settle key table.nextName ending, more) := by
    rw [AliasTable.make_absent absent]
    rfl
  rw [run_call, made, watch_apply]
  generalize
    produce.run (table.reserve key placeholder) (log ++ [.started key placeholder]) = ending
  obtain ⟨⟨cause | definition, middle⟩, more⟩ := ending
  · simp [AliasTable.settle]
  · simp [AliasTable.settle]

/-- What a program does is a run of it. -/
lemma runs_run (program : AliasProgram α ε) (table : AliasTable α)
    (log : List (AliasEvent α ε)) :
    ∃ events, Runs table program events (program.run table log).1.1 (program.run table log).1.2 ∧
      (program.run table log).2 = log ++ events := by
  induction program generalizing table log with
  | finish result =>
    refine ⟨[], ?_⟩
    rw [run, liftExcept_apply]
    exact ⟨.finish, (List.append_nil log).symm⟩
  | call key placeholder produce next bodyIH nextIH =>
    cases found : table.nameOf? key with
    | some name =>
      rw [run_known found]
      obtain ⟨events, rest, logged⟩ := nextIH (.ok name) table (log ++ [.answered key (.ok name)])
      exact ⟨_, .known found rest, by simp [logged]⟩
    | none =>
      rw [run_absent found]
      obtain ⟨inner, body, recorded⟩ :=
        bodyIH (table.reserve key placeholder) (log ++ [.started key placeholder])
      generalize produce.run (table.reserve key placeholder) (log ++ [.started key placeholder]) =
        ending at body recorded
      obtain ⟨⟨cause | definition, middle⟩, more⟩ := ending <;>
        obtain rfl : more = log ++ [.started key placeholder] ++ inner := recorded
      · obtain ⟨events, rest, logged⟩ := nextIH (.error cause) middle
          (log ++ [.started key placeholder] ++ inner ++
            [.ended key (.error cause), .answered key (.error cause)])
        exact ⟨_, .failed found body rest, by rw [logged]; simp⟩
      · obtain ⟨events, rest, logged⟩ := nextIH (.ok table.nextName)
          (middle.resolve key definition)
          (log ++ [.started key placeholder] ++ inner ++
            [.ended key (.ok definition), .answered key (.ok table.nextName)])
        exact ⟨_, .produced found body rest, by rw [logged]; simp⟩

section Runs

variable {table later : AliasTable α} {program : AliasProgram α ε}
  {events : List (AliasEvent α ε)} {result : Except ε α}

lemma Runs.extends (h : Runs table program events result later) : table.Extends later := by
  induction h with
  | finish => exact .refl _
  | known _ _ ih => exact ih
  | produced absent _ _ bodyIH restIH =>
    exact (AliasTable.extends_reserve absent _).trans
      (bodyIH.trans ((AliasTable.extends_resolve _ _ _).trans restIH))
  | failed absent _ _ bodyIH restIH =>
    exact (AliasTable.extends_reserve absent _).trans (bodyIH.trans restIH)

lemma Runs.numbered (h : Runs table program events result later) (numbered : table.Numbered) :
    later.Numbered := by
  induction h with
  | finish => exact numbered
  | known _ _ ih => exact ih numbered
  | produced absent _ _ bodyIH restIH =>
    exact restIH ((bodyIH (numbered.reserve absent _)).resolve _ _)
  | failed absent _ _ bodyIH restIH => exact restIH (bodyIH (numbered.reserve absent _))

/-- The new entries of a run are those of the productions that start in it, in the same order. -/
lemma Runs.keys_eq (h : Runs table program events result later) :
    later.keys = table.keys ++ starts events := by
  induction h with
  | finish => simp [starts]
  | known _ _ ih => exact ih
  | produced absent _ _ bodyIH restIH =>
    rw [restIH, AliasTable.keys_resolve, bodyIH, AliasTable.keys_reserve absent]
    simp [starts, start?, List.filterMap_cons]
  | failed absent _ _ bodyIH restIH =>
    rw [restIH, bodyIH, AliasTable.keys_reserve absent]
    simp [starts, start?, List.filterMap_cons]

/-- An entry that a run finds stays as it is: only the call that reserves an entry resolves it. -/
lemma Runs.kept (h : Runs table program events result later) {key : String} {entry : Alias α}
    (found : table.get? key = some entry) : later.get? key = some entry := by
  induction h with
  | finish => exact found
  | known _ _ ih => exact ih found
  | @produced table other _ _ _ _ _ middle _ _ _ absent body _ bodyIH restIH =>
    have different : other ≠ key := by
      rintro rfl
      simp [AliasTable.nameOf?, found] at absent
    have inMiddle : middle.get? key = some entry := by
      apply bodyIH
      rw [AliasTable.get?_reserve, if_neg different]
      exact found
    obtain ⟨reserved, here, -⟩ := AliasTable.get?_of_nameOf? body.extends.kept_reserved
    apply restIH
    rw [AliasTable.get?_resolve here, if_neg different]
    exact inMiddle
  | @failed table other _ _ _ _ _ _ _ _ _ absent _ _ bodyIH restIH =>
    have different : other ≠ key := by
      rintro rfl
      simp [AliasTable.nameOf?, found] at absent
    apply restIH
    apply bodyIH
    rw [AliasTable.get?_reserve, if_neg different]
    exact found

/-- A successful call is answered with the name that its fingerprint keeps. -/
lemma Runs.answered (h : Runs table program events result later) {key name : String}
    (mem : .answered key (.ok name) ∈ events) : later.nameOf? key = some name := by
  induction h with
  | finish => cases mem
  | known found rest ih =>
    rcases List.mem_cons.mp mem with eq | mem
    · obtain ⟨rfl, ⟨⟩⟩ := AliasEvent.answered.inj eq
      exact rest.extends.kept _ _ found
    · exact ih mem
  | produced _ body rest bodyIH restIH =>
    simp only [List.mem_cons, List.mem_append, reduceCtorEq, false_or] at mem
    rcases mem with mem | eq | mem
    · rw [← AliasTable.nameOf?_resolve] at bodyIH
      exact rest.extends.kept _ _ (bodyIH mem)
    · obtain ⟨rfl, ⟨⟩⟩ := AliasEvent.answered.inj eq
      apply rest.extends.kept
      rw [AliasTable.nameOf?_resolve]
      exact body.extends.kept_reserved
    · exact restIH mem
  | failed _ _ rest bodyIH restIH =>
    simp only [List.mem_cons, List.mem_append, reduceCtorEq, false_or] at mem
    rcases mem with mem | eq | mem
    · exact rest.extends.kept _ _ (bodyIH mem)
    · cases (AliasEvent.answered.inj eq).2
    · exact restIH mem

/-- A production that ends has started in the same run, so its fingerprint was absent before. -/
lemma Runs.ended_start (h : Runs table program events result later) {key : String}
    {ending : Except ε α} (mem : .ended key ending ∈ events) : key ∈ starts events := by
  induction h with
  | finish => cases mem
  | known _ _ ih =>
    simp only [List.mem_cons, reduceCtorEq, false_or] at mem
    simpa [starts, start?, List.filterMap_cons] using ih mem
  | produced _ _ _ bodyIH restIH | failed _ _ _ bodyIH restIH =>
    simp only [List.mem_cons, List.mem_append, reduceCtorEq, false_or] at mem
    simp only [starts, List.filterMap_cons, start?, List.filterMap_append, List.mem_cons,
      List.mem_append]
    rcases mem with mem | eq | mem
    · exact .inr (.inl (bodyIH mem))
    · exact .inl (AliasEvent.ended.inj eq).1
    · exact .inr (.inr (restIH mem))

/-- When a production succeeds, its entry is resolved with what it gave. -/
lemma Runs.resolved (h : Runs table program events result later) (nodup : later.keys.Nodup)
    {key : String} {definition : α} (mem : .ended key (.ok definition) ∈ events) :
    ∃ name, later.get? key = some ⟨name, true, definition⟩ := by
  induction h with
  | finish => cases mem
  | known _ _ ih =>
    simp only [List.mem_cons, reduceCtorEq, false_or] at mem
    exact ih nodup mem
  | @produced table other _ _ _ inner made middle events _ later absent body rest bodyIH restIH =>
    simp only [List.mem_cons, List.mem_append, reduceCtorEq, false_or] at mem
    obtain ⟨reserved, here, -⟩ := AliasTable.get?_of_nameOf? body.extends.kept_reserved
    rcases mem with mem | eq | mem
    · have prior := nodup
      rw [rest.keys_eq, AliasTable.keys_resolve] at prior
      obtain ⟨name, found⟩ := bodyIH (List.nodup_append.mp prior).1 mem
      have different : other ≠ key := by
        rintro rfl
        have twice := (List.nodup_append.mp prior).1
        rw [body.keys_eq, AliasTable.keys_reserve absent, List.nodup_append] at twice
        exact twice.2.2 _ (by simp) _ (body.ended_start mem) rfl
      refine ⟨name, rest.kept ?_⟩
      rw [AliasTable.get?_resolve here, if_neg different]
      exact found
    · obtain ⟨rfl, ⟨⟩⟩ := AliasEvent.ended.inj eq
      refine ⟨reserved.name, rest.kept ?_⟩
      rw [AliasTable.get?_resolve here, if_pos rfl]
    · exact restIH nodup mem
  | @failed table _ _ _ _ _ _ _ _ _ _ absent body rest bodyIH restIH =>
    simp only [List.mem_cons, List.mem_append, reduceCtorEq, false_or] at mem
    rcases mem with mem | eq | mem
    · have prior := nodup
      rw [rest.keys_eq] at prior
      obtain ⟨name, found⟩ := bodyIH (List.nodup_append.mp prior).1 mem
      exact ⟨name, rest.kept found⟩
    · cases (AliasEvent.ended.inj eq).2
    · exact restIH nodup mem

/-- What the events of a run say about an entry: that its production has succeeded with the
definition, or, while it is provisional, that its production started with the placeholder. -/
def Explains (events : List (AliasEvent α ε)) (key : String) (entry : Alias α) : Prop :=
  if entry.resolved then .ended key (.ok entry.definition) ∈ events
  else .started key entry.definition ∈ events

lemma Explains.mono {events more : List (AliasEvent α ε)} {key : String} {entry : Alias α}
    (subset : events ⊆ more) (explains : Explains events key entry) :
    Explains more key entry := by
  unfold Explains at *
  cases done : entry.resolved <;> rw [done] at explains <;> exact subset explains

/-- Every entry of a run was there before, or the events of the run explain it. -/
lemma Runs.explains (h : Runs table program events result later) {key : String} {entry : Alias α}
    (found : later.get? key = some entry) :
    table.get? key = some entry ∨ Explains events key entry := by
  induction h with
  | finish => exact .inl found
  | known _ _ ih =>
    rcases ih found with before | explained
    · exact .inl before
    · exact .inr (explained.mono (List.subset_cons_self _ _))
  | @produced table other placeholder _ _ inner made middle events _ _ absent body _ bodyIH
      restIH =>
    obtain ⟨reserved, here, -⟩ := AliasTable.get?_of_nameOf? body.extends.kept_reserved
    rcases restIH found with resolved | explained
    · rw [AliasTable.get?_resolve here] at resolved
      by_cases same : other = key
      · rw [if_pos same] at resolved
        obtain rfl := Option.some.inj resolved
        right
        simp [Explains, same]
      · rw [if_neg same] at resolved
        rcases bodyIH resolved with start | explained
        · rw [AliasTable.get?_reserve, if_neg same] at start
          exact .inl start
        · refine .inr (explained.mono ?_)
          intro event mem
          simp [mem]
    · refine .inr (explained.mono ?_)
      intro event mem
      simp [mem]
  | @failed table other placeholder _ _ _ _ _ _ _ _ absent _ _ bodyIH restIH =>
    rcases restIH found with inMiddle | explained
    · rcases bodyIH inMiddle with start | explained
      · rw [AliasTable.get?_reserve] at start
        by_cases same : other = key
        · rw [if_pos same] at start
          obtain rfl := Option.some.inj start
          right
          simp [Explains, same]
        · rw [if_neg same] at start
          exact .inl start
      · refine .inr (explained.mono ?_)
        intro event mem
        simp [mem]
    · refine .inr (explained.mono ?_)
      intro event mem
      simp [mem]

end Runs

/-- What the events of a run say about the table after it, where `stem` is what names start with.
An entry is reserved when its production starts. -/
structure Disciplined (stem : String) (events : List (AliasEvent α ε)) (table : AliasTable α) :
    Prop where
  /-- The entries stand in the order in which they were first reserved, -/
  order : table.keys = starts events
  /-- the names count them, -/
  names_eq : table.names = (List.range table.entries.length).map (AliasTable.numberedName stem)
  /-- and are pairwise different. -/
  names_nodup : table.names.Nodup
  /-- No fingerprint is produced twice. -/
  once : (starts events).Nodup
  /-- A call that succeeds is answered with the name of the entry. -/
  answers : ∀ key name, .answered key (.ok name) ∈ events → table.nameOf? key = some name
  /-- An entry is resolved with a definition if and only if its production has given it. -/
  resolved : ∀ key definition, (∃ name, table.get? key = some ⟨name, true, definition⟩) ↔
    .ended key (.ok definition) ∈ events
  /-- An entry that is not resolved has the placeholder with which its production started. -/
  provisional : ∀ key entry, table.get? key = some entry → entry.resolved = false →
    .started key entry.definition ∈ events

lemma Runs.disciplined {stem : String} {program : AliasProgram α ε}
    {events : List (AliasEvent α ε)} {result : Except ε α} {later : AliasTable α}
    (h : Runs { stem := stem } program events result later) : Disciplined stem events later := by
  have numbered := h.numbered (.empty stem)
  have order : later.keys = starts events := by
    rw [h.keys_eq]
    rfl
  have explained : ∀ key entry, later.get? key = some entry → Explains events key entry := by
    intro key entry found
    exact (h.explains found).resolve_left (by simp [AliasTable.get?])
  refine {
    order, names_nodup := numbered.names_nodup, once := order ▸ numbered.keys_nodup
    names_eq := ?_, answers := fun _ _ => h.answered, resolved := ?_, provisional := ?_ }
  · rw [numbered.names_eq, h.extends.stem]
  · intro key definition
    constructor
    · rintro ⟨name, found⟩
      exact explained _ _ found
    · intro ended
      exact h.resolved numbered.keys_nodup ended
  · intro key entry found unresolved
    have why := explained key entry found
    rw [Explains, unresolved] at why
    exact why

/-- Whatever a program of nested calls does on a new alias table, the table it leaves is
disciplined, also when the program fails. -/
theorem alias_tables_are_disciplined (stem : String) (program : AliasProgram α ε) :
    Disciplined stem (program.run { stem := stem } []).2 (program.run { stem := stem } []).1.2 := by
  obtain ⟨events, runs, recorded⟩ := runs_run program { stem := stem } []
  rw [recorded, List.nil_append]
  exact runs.disciplined

/-- After a production that fails, the placeholder stays, and the next call does not produce. -/
example :
    ((call "a" 0 (finish (.error "broken")) fun _ =>
        call "a" 1 (finish (.ok 2)) fun _ => finish (.ok 3) : AliasProgram Nat String).run
      { stem := "S" } []).1.2.definitions = [("S1", 0)] := by
  rfl

end AliasProgram

end EventContracts

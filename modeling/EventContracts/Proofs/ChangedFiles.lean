import EventContracts.Files.Tree
import EventContracts.Proofs.OrderedFields

/-! What writing changes in a tree of files. Making directories changes no file, and writing a file
changes no other one; what was there stays there, so paths go on to lead where they led. -/

namespace EventContracts.FileTree

variable {tree before between after new : FileTree} {place : List String} {name : String}

/-- What is at a place, whatever is inside of it. -/
inductive Entry where
  | file (text : Option String)
  | directory

/-- A tree from the outside. -/
def entry : FileTree → Entry
  | file text => .file text
  | _ => .directory

/-- What is at a place of a tree, if there is anything. -/
def look? (tree : FileTree) (place : List String) : Option Entry := (tree.get? place).map entry

lemma get?_cons (tree : FileTree) (name : String) (place : List String) :
    tree.get? (name :: place) = (tree.entry? name).bind fun inner => inner.get? place := rfl

lemma look?_cons (tree : FileTree) (name : String) (place : List String) :
    tree.look? (name :: place) = (tree.entry? name).bind fun inner => inner.look? place := by
  rw [look?, get?_cons, Option.map_bind]
  rfl

lemma hasDirectory_iff : tree.hasDirectory place ↔ tree.look? place = some .directory := by
  rw [hasDirectory, look?]
  cases tree.get? place with
  | none => simp
  | some inner => cases inner <;> simp [isDirectory, entry]

lemma isSome_look? : (tree.look? place).isSome = (tree.get? place).isSome := Option.isSome_map

/-- Only directories hold anything. -/
lemma look?_cons_of_ne (closed : tree.entry ≠ .directory) : tree.look? (name :: place) = none := by
  cases tree with
  | file text => rfl
  | directory entries => exact absurd rfl closed
  | closed => exact absurd rfl closed

lemma put_nil (tree new : FileTree) : tree.put [] new = new := by
  cases tree <;> rfl

lemma put_cons (entries : Fields FileTree) (name : String) (place : List String) (new : FileTree) :
    (directory entries).put (name :: place) new =
      directory (Fields.set name (((Fields.get? name entries).getD (directory [])).put place new)
        entries) := rfl

lemma look?_directory_cons (entries : Fields FileTree) (name : String) (place : List String) :
    (directory entries).look? (name :: place) =
      (Fields.get? name entries).bind fun inner => inner.look? place := look?_cons _ _ _

/-- An entry with nothing inside of it, put into an open directory in the place of no other
directory, changes nothing at any other place. -/
lemma look?_put (opened : tree.hasOpenDirectory place)
    (free : tree.look? (place ++ [name]) ≠ some .directory)
    (bare : ∀ inner rest, new.look? (inner :: rest) = none) (other : List String) :
    (tree.put (place ++ [name]) new).look? other =
      if other = place ++ [name] then some new.entry else tree.look? other := by
  induction place generalizing tree other with
  | nil =>
    cases tree with
    | file text => cases opened
    | closed => cases opened
    | directory entries =>
      rw [List.nil_append, put_cons, put_nil]
      cases other with
      | nil => rfl
      | cons first rest =>
        rw [look?_directory_cons, Fields.get?_set]
        by_cases here : name = first
        · subst here
          rw [if_pos rfl, Option.bind_some]
          cases rest with
          | nil => rw [if_pos rfl]; rfl
          | cons inner rest =>
            rw [bare, if_neg (by simp), look?_directory_cons]
            cases found : Fields.get? name entries with
            | none => rfl
            | some old =>
              refine (look?_cons_of_ne fun closed => free ?_).symm
              rw [List.nil_append, look?_directory_cons, found]
              exact congrArg some closed
        · rw [if_neg here, if_neg (by simpa using fun same => absurd same.symm here),
            look?_directory_cons]
  | cons first place ih =>
    cases tree with
    | file text => cases opened
    | closed => cases opened
    | directory entries =>
      obtain ⟨inner, found, opened⟩ : ∃ inner, Fields.get? first entries = some inner ∧
          inner.hasOpenDirectory place := by
        rw [hasOpenDirectory, get?_cons, entry?] at opened
        cases found : Fields.get? first entries with
        | none => rw [found] at opened; cases opened
        | some inner => rw [found] at opened; exact ⟨inner, rfl, opened⟩
      rw [List.cons_append, look?_directory_cons, found, Option.bind_some] at free
      rw [List.cons_append, put_cons, found, Option.getD_some]
      cases other with
      | nil => rfl
      | cons second rest =>
        rw [look?_directory_cons, Fields.get?_set, look?_directory_cons]
        by_cases here : first = second
        · subst here
          rw [if_pos rfl, Option.bind_some, ih opened free, found, Option.bind_some]
          simp only [List.cons.injEq, true_and]
        · rw [if_neg here, if_neg]
          rintro ⟨⟩
          exact here rfl

lemma follow?_eq_some {part : String} {inner : List String} :
    tree.follow? place part = some inner ↔ tree.hasDirectory place ∧
      if Path.isHere part then place = inner
      else if part = ".." then place.dropLast = inner
      else (tree.look? (place ++ [part])).isSome ∧ place ++ [part] = inner := by
  rw [follow?, isSome_look?]
  cases tree.hasDirectory place with
  | false => simp
  | true =>
    rw [Bool.not_true, if_neg Bool.false_ne_true]
    by_cases here : Path.isHere part
    · simp [here]
    · rw [if_neg here, if_neg here]
      by_cases up : part = ".."
      · simp [up]
      · simp [up]

/-- Whether files change at some places only: at all other places the files before and after are
the same, directories stay, and what is there stays there. -/
structure Changes (places : List (List String)) (before after : FileTree) : Prop where
  files : ∀ place ∉ places, ∀ text,
    after.look? place = some (.file text) ↔ before.look? place = some (.file text)
  directories : ∀ place, before.look? place = some .directory → after.look? place = some .directory
  kept : ∀ place, (before.look? place).isSome → (after.look? place).isSome

namespace Changes

variable {places more : List (List String)}

lemma refl (tree : FileTree) : Changes [] tree tree :=
  ⟨fun _ _ _ => Iff.rfl, fun _ => id, fun _ => id⟩

lemma trans (first : Changes places before between) (second : Changes more between after) :
    Changes (places ++ more) before after where
  files place others text := by
    obtain ⟨notFirst, notSecond⟩ := not_or.mp (List.mem_append.not.mp others)
    exact (second.files place notSecond text).trans (first.files place notFirst text)
  directories place inside := second.directories place (first.directories place inside)
  kept place there := second.kept place (first.kept place there)

lemma hasDirectory (changes : Changes places before after) (h : before.hasDirectory place) :
    after.hasDirectory place :=
  hasDirectory_iff.mpr (changes.directories place (hasDirectory_iff.mp h))

lemma follow? (changes : Changes places before after) {part : String} {inner : List String}
    (h : before.follow? place part = some inner) : after.follow? place part = some inner := by
  rw [follow?_eq_some] at h ⊢
  refine h.imp changes.hasDirectory fun leads => ?_
  by_cases here : Path.isHere part
  · rwa [if_pos here] at leads ⊢
  · rw [if_neg here] at leads ⊢
    by_cases up : part = ".."
    · rwa [if_pos up] at leads ⊢
    · rw [if_neg up] at leads ⊢
      exact leads.imp_left (changes.kept _)

/-- A path goes on to lead where it led. -/
lemma place? (changes : Changes places before after) {parts : List String} {inner : List String}
    (h : parts.foldlM before.follow? place = some inner) :
    parts.foldlM after.follow? place = some inner := by
  induction parts generalizing place with
  | nil => exact h
  | cons part parts ih =>
    rw [List.foldlM_cons] at h ⊢
    obtain ⟨next, first, rest⟩ := Option.bind_eq_some_iff.mp h
    exact Option.bind_eq_some_iff.mpr ⟨next, changes.follow? first, ih rest⟩

end Changes

lemma hasDirectory_of_open (opened : tree.hasOpenDirectory place) : tree.hasDirectory place := by
  rw [hasOpenDirectory, Option.any_eq_true] at opened
  obtain ⟨inner, found, opened⟩ := opened
  rw [hasDirectory, Option.any_eq_true]
  refine ⟨inner, found, ?_⟩
  cases inner with
  | directory entries => rfl
  | _ => cases opened

lemma name_of_isName {part : String} (h : Path.isName part) :
    ¬Path.isHere part ∧ part ≠ ".." := by
  simpa [Path.isName] using h

/-- What a name does not lead to from a directory is not there. -/
lemma look?_of_follow?_eq_none {part : String} (h : tree.follow? place part = none)
    (directory : tree.hasDirectory place) (named : Path.isName part) :
    tree.look? (place ++ [part]) = none := by
  obtain ⟨here, up⟩ := name_of_isName named
  rw [← Option.not_isSome_iff_eq_none]
  intro there
  have leads : tree.follow? place part = some (place ++ [part]) := by
    rw [follow?_eq_some, if_neg here, if_neg up]
    exact ⟨directory, there, rfl⟩
  rw [h] at leads
  cases leads

/-- An entry put where no directory is changes no file but the one that it replaces. -/
lemma changes_put (opened : tree.hasOpenDirectory place)
    (free : tree.look? (place ++ [name]) ≠ some .directory)
    (bare : ∀ inner rest, new.look? (inner :: rest) = none) :
    Changes [place ++ [name]] tree (tree.put (place ++ [name]) new) where
  files other apart text := by rw [look?_put opened free bare, if_neg (by simpa using apart)]
  directories other inside := by
    rw [look?_put opened free bare, if_neg]
    · exact inside
    · rintro rfl
      exact free inside
  kept other there := by
    rw [look?_put opened free bare]
    split
    · rfl
    · exact there

/-- A new directory changes no file. -/
lemma changes_newDirectory (opened : tree.hasOpenDirectory place)
    (absent : tree.look? (place ++ [name]) = none) :
    Changes [] tree (tree.put (place ++ [name]) (directory [])) := by
  have free : tree.look? (place ++ [name]) ≠ some .directory := by
    rw [absent]
    exact nofun
  have bare : ∀ inner rest, (directory []).look? (inner :: rest) = none := fun _ _ => rfl
  have changes := changes_put opened free bare
  refine { changes with files := fun other _ text => ?_ }
  rw [look?_put opened free bare]
  split
  · rename_i same
    rw [same, absent]
    exact ⟨nofun, nofun⟩
  · rfl

lemma changes_makePart {part : String} {inner : List String}
    (h : makePart (tree, place) part = some (after, inner)) : Changes [] tree after := by
  simp only [makePart] at h
  split at h
  · obtain ⟨-, same⟩ := Option.ite_none_right_eq_some.mp h
    cases same
    exact .refl tree
  · rename_i nowhere
    obtain ⟨allowed, same⟩ := Option.ite_none_right_eq_some.mp h
    cases same
    simp only [Bool.and_eq_true] at allowed
    obtain ⟨⟨opened, named⟩, -⟩ := allowed
    exact changes_newDirectory opened
      (look?_of_follow?_eq_none nowhere (hasDirectory_of_open opened) named)

lemma changes_makeParts (tree : FileTree) (place parts : List String) :
    Changes [] tree (makeParts (tree, place) parts).1 := by
  induction parts generalizing tree place with
  | nil => exact .refl tree
  | cons part parts ih =>
    rw [makeParts]
    split
    · rename_i next made
      exact (changes_makePart made).trans (ih next.1 next.2)
    · exact .refl tree

lemma changes_makeDirectories (tree : FileTree) (path : String) :
    Changes [] tree (tree.makeDirectories path).1 := by
  rw [makeDirectories]
  split
  · exact .refl tree
  · split
    · exact .refl tree
    · exact changes_makeParts tree [] (Path.parts path)

/-- What is asked of a path and a tree for a file to be written there, and where it goes. -/
lemma writeFile_eq_some {path text : String} (h : tree.writeFile path text = some after) :
    ∃ place name, Path.parts path = (Path.parts path).dropLast ++ [name] ∧ Path.isName name ∧
      tree.place? (Path.parts path).dropLast = some place ∧ tree.hasOpenDirectory place ∧
      tree.look? (place ++ [name]) ≠ some .directory ∧
      after = tree.put (place ++ [name]) (file (some text)) := by
  simp only [writeFile] at h
  split at h
  · cases h
  · rename_i usable
    obtain ⟨place, found, h⟩ := Option.bind_eq_some_iff.mp h
    split at h
    · cases h
    · rename_i free
      obtain rfl := Option.some.inj h
      simp only [Bool.or_eq_true, not_or, Bool.not_eq_true', Bool.not_eq_false] at usable free
      obtain ⟨named, -⟩ := usable
      refine ⟨place, _, ?_, named, found, free.1, fun inside =>
        free.2 (hasDirectory_iff.mpr inside), rfl⟩
      cases last : (Path.parts path).getLast? with
      | none =>
        rw [last] at named
        cases named
      | some name =>
        exact (List.dropLast_append_getLast? name last).symm

lemma get?_eq_file {text : Option String} :
    tree.get? place = some (.file text) ↔ tree.look? place = some (.file text) := by
  rw [look?]
  cases tree.get? place with
  | none => exact ⟨nofun, nofun⟩
  | some inner => cases inner <;> simp [entry]

/-- What has to be the case for a file to be found at a path. -/
lemma at?_eq_file {path : String} {text : Option String} :
    tree.at? path = some (.file text) ↔ path.isEmpty = false ∧
      ∃ place, tree.place? (Path.parts path) = some place ∧
        tree.look? place = some (.file text) := by
  rw [at?]
  cases path.isEmpty with
  | true => simp
  | false => simp [Option.bind_eq_some_iff, get?_eq_file]

lemma at?_of_textAt? {path text : String} (h : tree.textAt? path = some text) :
    tree.at? path = some (.file (some text)) := by
  rw [textAt?] at h
  split at h
  · rename_i found
    rw [found, h]
  · cases h

/-- Whether a file was written: it is at its path, and no other file is changed. -/
def Written (path text : String) (before after : FileTree) : Prop :=
  ∃ place, after.place? (Path.parts path) = some place ∧
    after.at? path = some (.file (some text)) ∧ Changes [place] before after

namespace Written

variable {path text : String}

/-- A file that was written stays when no file is changed. -/
lemma andThen (written : Written path text before between) (changes : Changes [] between after) :
    Written path text before after := by
  obtain ⟨place, leads, found, changed⟩ := written
  refine ⟨place, changes.place? leads, ?_, changed.trans changes⟩
  rw [at?_eq_file] at found ⊢
  obtain ⟨usable, inner, leads, there⟩ := found
  exact ⟨usable, inner, changes.place? leads, (changes.files inner List.not_mem_nil _).mpr there⟩

lemma later (changes : Changes [] before between) (written : Written path text between after) :
    Written path text before after := by
  obtain ⟨place, leads, found, changed⟩ := written
  exact ⟨place, leads, found, changes.trans changed⟩

end Written

lemma written_writeFile {path text : String} (h : tree.writeFile path text = some after) :
    Written path text tree after := by
  obtain ⟨place, name, parts, named, found, opened, free, rfl⟩ := writeFile_eq_some h
  have bare : ∀ inner rest, (file (some text)).look? (inner :: rest) = none := fun _ _ => rfl
  have changes := changes_put opened free bare
  have there : (tree.put (place ++ [name]) (file (some text))).look? (place ++ [name]) =
      some (.file (some text)) := (look?_put opened free bare _).trans (if_pos rfl)
  obtain ⟨here, up⟩ := name_of_isName named
  have last : (tree.put (place ++ [name]) (file (some text))).follow? place name =
      some (place ++ [name]) := by
    rw [follow?_eq_some, if_neg here, if_neg up, there]
    exact ⟨changes.hasDirectory (hasDirectory_of_open opened), rfl, rfl⟩
  have leads : (tree.put (place ++ [name]) (file (some text))).place? (Path.parts path) =
      some (place ++ [name]) := by
    rw [parts, place?, List.foldlM_append, changes.place? found]
    change ([name].foldlM (tree.put (place ++ [name]) (file (some text))).follow? place) = _
    rw [List.foldlM_cons, last]
    rfl
  refine ⟨place ++ [name], leads, at?_eq_file.mpr ⟨?_, place ++ [name], leads, there⟩, changes⟩
  rw [Bool.eq_false_iff]
  intro empty
  obtain rfl : path = "" := String.isEmpty_iff.mp empty
  obtain rfl : "" = name := List.singleton_inj.mp parts
  cases named

end EventContracts.FileTree

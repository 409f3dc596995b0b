import EventContracts.Alias
import EventContracts.Error
import EventContracts.Schema.Canonical
import EventContracts.Schema.Probe

/-!
# Depiction

What the two views of a schema, the documented one and the typed one, have in common. A view goes
over the tree of a schema in a direction, and asks two kinds of questions on the way: what a schema
makes of a value, and what the view of a reference is. A `Walk` holds the questions, with how to go
on for each answer. To run a walk is to answer them: validation answers the first kind, and the
second kind is answered by an entry of an alias table, which every schema that a reference stands
for has under its direction and fingerprint.
-/

namespace EventContracts

/-- A walk over a schema, with results of type `α` and views of type `U`: a result, a halt, or a
question and how to go on from its answer. -/
inductive Walk (U α : Type) where
  | done (result : α)
  | halt (cause : Halt)
  | ask (node : Node) (input : Option Json) (next : Outcome → Walk U α)
  | refer (target : String) (direction : Direction) (next : U → Walk U α)

namespace Walk

variable {U α β : Type}

/-- Go on from the result of a walk. -/
protected def bind : Walk U α → (α → Walk U β) → Walk U β
  | done a, f => f a
  | halt cause, _ => halt cause
  | ask node input next, f => ask node input fun outcome => (next outcome).bind f
  | refer target direction next, f => refer target direction fun view => (next view).bind f

instance : Monad (Walk U) where
  pure := done
  bind := Walk.bind

/-- What a schema makes of a value. -/
def outcome (node : Node) (input : Option Json) : Walk U Outcome := ask node input done

/-- The view of a reference. -/
def view (target : String) (direction : Direction) : Walk U U := refer target direction done

/-- An answer that may be missing because a validation was interrupted. -/
def check : Except Interruption α → Walk U α
  | .ok a => done a
  | .error cause => halt (.interrupted cause)

def unsupported (node : Node) (direction : Direction) : Walk U α :=
  halt (.error (.unsupportedKind node.kindName direction))

def accepts (node : Node) (input : Option Json) : Walk U Bool := do
  check (← outcome node input).accepted

/-- Whether a field of an object may be left out. What a coercing schema gives is always there, even
though it accepts an absent value. -/
def fieldOptional (direction : Direction) (node : Node) : Walk U Bool :=
  if direction.isOutput && node.coerces then return node.isOptionalKind else accepts node none

/-- Run a schema on a sample and tell the type of the result. -/
def probe (node : Node) (sample : Json) : Walk U (Except ProbeError Primitive) := do
  check (← outcome node (some sample)).probed

/-- The result of a walk whose questions are answered in a monad. -/
def run {m : Type → Type} [Monad m] [MonadExceptOf Halt m]
    (validate : Node → Option Json → m Outcome)
    (reference : String → Direction → m U) : Walk U α → m α
  | done a => pure a
  | halt cause => throw cause
  | ask node input next => do (next (← validate node input)).run validate reference
  | refer target direction next => do
    (next (← reference target direction)).run validate reference

end Walk

/-- What a depiction needs to know: the named schemas, and how schemas are told apart. -/
structure Setting where
  library : Library
  fingerprint : Node → String

namespace Setting

/-- A setting with one of the given ways to tell schemas apart. -/
def of (strategy : Fingerprinter) (library : Library) : Setting :=
  ⟨library, strategy.fingerprint library.definitions⟩

def resolve (setting : Setting) (target : String) : Node :=
  setting.library.definitions.resolve target

def aliasKey (setting : Setting) (direction : Direction) (node : Node) : String :=
  direction.text ++ ":" ++ setting.fingerprint node

/-- How deep the productions of aliases can be nested: each of them reserves an entry for one of
the named schemas, or for a name without schema, in one of two directions. -/
def aliasDepth (setting : Setting) : Nat := 2 * (setting.library.definitions.length + 1)

end Setting

/-- A depiction in progress, with results of type `α` and aliases for views of type `U`. -/
abbrev Depicting (U α : Type) := AliasTable.Action U Halt α

/-- A kind of view: what the names of its aliases begin with, what stands for a definition until
there is one, the view of a reference that has a name, and the walk over a node. -/
structure Depicter (U : Type) where
  stem : String
  placeholder : U
  refer : String → U
  walk : Node → Direction → Walk U U

namespace Depicter

variable {U : Type} (depicter : Depicter U) (setting : Setting)

/-- The view of a reference: the alias of what it stands for, whose definition is produced when
there is none yet. -/
def depictReference {m : Type → Type} [Monad m] [MonadStateOf (AliasTable U) m]
    (produce : Node → Direction → m U) (target : String) (direction : Direction) : m U := do
  let node := setting.resolve target
  let name ← AliasTable.make (setting.aliasKey direction node) depicter.placeholder
    (produce node direction)
  return depicter.refer name

/-- The view of a node, with productions of aliases nested to a depth. -/
def depictWithin : Nat → Node → Direction → Depicting U U
  | 0, node, direction =>
    (depicter.walk node direction).run (fun node input =>
      pure (setting.library.validate node input))
      (depicter.depictReference setting fun _ _ => throw (.interrupted .unfinished))
  | depth + 1, node, direction =>
    (depicter.walk node direction).run (fun node input =>
      pure (setting.library.validate node input))
      (depicter.depictReference setting (depictWithin depth))

/-- The view of a node. -/
def depict (node : Node) (direction : Direction) : Depicting U U :=
  depicter.depictWithin setting setting.aliasDepth node direction

def noAliases : AliasTable U := { stem := depicter.stem }

end Depicter

end EventContracts

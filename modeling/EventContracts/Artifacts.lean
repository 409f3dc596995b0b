import EventContracts.Contract
import EventContracts.Document.Assembly
import EventContracts.TypeScript.Assembly

/-!
# Artifacts

What is generated from a contract: a document and type declarations, each with aliases of its own.
The document comes first, so its errors do, and an error leaves no artifact at all.
-/

namespace EventContracts

/-- A document and type declarations of the same events. -/
structure Artifacts where
  document : Document
  declarations : List TypeScript.Declaration

def Artifacts.types (artifacts : Artifacts) : String :=
  TypeScript.Declaration.textAll artifacts.declarations

namespace Contract

section Generation

variable (contract : Contract) (config : Config) (depth : Nat := Library.usualDepth)
  (patterns : PatternReader := Regex.reader)

/-- What depictions of the contract need to know, with validations that follow references to a
depth. -/
def setting : Setting :=
  .of .digest { definitions := contract.definitions, depth := depth, patterns := patterns }

/-- A draft when all namespaces of the contract are added to it. -/
def assembled {σ : Type} (add : Namespace → ExceptT Halt (StateM σ) Unit) (start : σ) :
    Except Halt σ :=
  let (result, draft) := (contract.namespaces.forM add).run.run start
  result.map fun _ => draft

def drafted : Except Halt Draft :=
  contract.assembled (Draft.addNamespace (contract.setting depth patterns)) {}

def document : Except Halt Document := (contract.drafted depth patterns).map (·.finish config)

def typed : Except Halt TypeScript.Draft :=
  contract.assembled
    (TypeScript.Draft.addNamespace (contract.setting depth patterns) config.types) {}

def declarations : Except Halt (List TypeScript.Declaration) :=
  (contract.typed config depth patterns).map TypeScript.Draft.finish

def generate : Except Halt Artifacts := do
  let document ← contract.document config depth patterns
  return ⟨document, ← contract.declarations config depth patterns⟩

end Generation

end Contract

end EventContracts

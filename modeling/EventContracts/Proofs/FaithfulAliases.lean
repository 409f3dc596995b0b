import EventContracts.Proofs.ContractClosure
import EventContracts.Proofs.MemoTransparency
import EventContracts.Proofs.RegularForms

/-! Aliases are faithful. A canonical form belongs to one schema, a text to one canonical form and a
name to one fingerprint, so two references have one name in one direction only when they stand for
the same schema, as long as the digest tells the texts of the definitions apart. -/

namespace EventContracts

namespace Depicter

variable {U : Type}

/-- Whether two targets have the same alias in a direction, after a sequence of calls on a fresh
table. -/
def SharesAlias (depicter : Depicter U) (setting : Setting) (calls : List (Node × Direction))
    (direction : Direction) (a b : String) : Prop :=
  ∃ name,
    (depicter.session setting calls depicter.noAliases).2.nameOf?
      (setting.aliasKey direction (setting.resolve a)) = some name ∧
    (depicter.session setting calls depicter.noAliases).2.nameOf?
      (setting.aliasKey direction (setting.resolve b)) = some name

variable {depicter : Depicter U} {setting : Setting} {rename : (String → String) → U → U}
  {calls : List (Node × Direction)} {direction : Direction} {a b : String}

lemma SharesAlias.key_eq (uniform : depicter.Uniform rename)
    (shared : depicter.SharesAlias setting calls direction a b) :
    setting.aliasKey direction (setting.resolve a) =
      setting.aliasKey direction (setting.resolve b) := by
  obtain ⟨name, left, right⟩ := shared
  obtain ⟨visits, runs⟩ := runsAll_session setting uniform.unknown calls depicter.noAliases
  exact (runs.numbered (.empty depicter.stem)).key_inj left right

end Depicter

namespace Definitions

/-- The text that the fingerprint of a named schema is taken from. -/
def canonicalText (definitions : Definitions) (name : String) : String :=
  (definitions.canonical (definitions.resolve name)).compact

end Definitions

namespace Manifest

variable {manifest : Manifest} {definitions : Definitions}

/-- Definitions with one text are one schema, when their numbers are regular. -/
lemma canonicalText_injective (regular : ∀ field ∈ manifest.definitions, field.2.Regular)
    (h : manifest.toDefinitions = .ok definitions) {a b : String}
    (mem : a ∈ manifest.definitions.names) (also : b ∈ manifest.definitions.names)
    (same : definitions.canonicalText a = definitions.canonicalText b) :
    definitions.resolve a = definitions.resolve b := by
  have closed (name : String) (mem : name ∈ manifest.definitions.names) :
      (definitions.resolve name).Converted manifest.definitions.names Json.Regular :=
    resolve_converted Json.regular_hereditary regular h mem
  have forms := Json.compact_injective (Definitions.regular_canonical closed (closed a mem))
    (Definitions.regular_canonical closed (closed b also)) same
  exact definitions.canonical_injective (closed a mem) (closed b also) forms

end Manifest

/-- The canonical form is faithful: specs that are converted against the definitions of a manifest
have one canonical form only when their schemas are equal. So when the numbers in the definitions
are doubles in the form of their format, and the digest does not give one fingerprint to two texts
of definitions, two references share an alias in one direction only when they stand for the same
schema. -/
theorem aliases_are_faithful (manifest : Manifest) (contract : Contract)
    (converted : manifest.toContract = .ok contract) :
    (∀ spec spec' path path' node other,
      Spec.toNode manifest.definitions.names spec path = .ok node →
      Spec.toNode manifest.definitions.names spec' path' = .ok other →
      contract.definitions.canonical node = contract.definitions.canonical other →
      node = other) ∧
    ((∀ field ∈ manifest.definitions, field.2.Regular) →
      (∀ a ∈ manifest.definitions.names, ∀ b ∈ manifest.definitions.names,
        Digest.ofText (contract.definitions.canonicalText a) =
          Digest.ofText (contract.definitions.canonicalText b) →
        contract.definitions.canonicalText a = contract.definitions.canonicalText b) →
      ∀ depth patterns style calls direction,
        ∀ a ∈ manifest.definitions.names, ∀ b ∈ manifest.definitions.names,
          Document.depicter.SharesAlias (contract.setting depth patterns) calls direction a b ∨
            (TypeScript.depicter style).SharesAlias (contract.setting depth patterns) calls
              direction a b →
          contract.definitions.resolve a = contract.definitions.resolve b) := by
  have definitions := Manifest.definitions_of_toContract converted
  constructor
  · intro spec spec' path path' node other made made' same
    have anything : Json.Hereditary fun _ => True :=
      ⟨fun _ _ _ _ => trivial, fun _ _ _ _ => trivial⟩
    exact contract.definitions.canonical_injective (Spec.toNode_converted anything trivial made)
      (Spec.toNode_converted anything trivial made') same
  · intro regular apart depth patterns style calls direction a mem b also shared
    have keys :
        (contract.setting depth patterns).aliasKey direction (contract.definitions.resolve a) =
        (contract.setting depth patterns).aliasKey direction (contract.definitions.resolve b) := by
      rcases shared with shared | shared
      · exact shared.key_eq Document.uniform
      · exact shared.key_eq (TypeScript.uniform style)
    have bodies := bodyKey_inj
      (a := (direction, Digest.ofText (contract.definitions.canonicalText a)))
      (b := (direction, Digest.ofText (contract.definitions.canonicalText b))) keys
    have texts := apart a mem b also (Prod.mk.inj bodies).2
    exact Manifest.canonicalText_injective regular definitions mem also texts

/-- Two names for flags, and a weight of one and a half. -/
def flagManifest : Manifest where
  definitions := [
    ("Flag", .object [("type", .string "boolean")]),
    ("Switch", .object [("type", .string "boolean")]),
    ("Weight", .object [("type", .string "literal"),
      ("value", .number (.double ⟨false, 6755399441055744, -52⟩))])]

theorem flag_aliases_are_faithful :
    ∃ contract, flagManifest.toContract = .ok contract ∧
      contract.definitions.canonicalText "Flag" = contract.definitions.canonicalText "Switch" ∧
      ∀ depth patterns calls direction,
        ¬ Document.depicter.SharesAlias (contract.setting depth patterns) calls direction "Flag"
          "Weight" := by
  have succeeds : flagManifest.toContract.isOk = true := by decide +kernel
  cases converted : flagManifest.toContract with
  | error cause =>
    rw [converted] at succeeds
    cases succeeds
  | ok contract =>
    have definitions : contract.definitions = flagManifest.toDefinitions.toOption.getD [] := by
      rw [Manifest.definitions_of_toContract converted]
      rfl
    have half : Double.Regular ⟨false, 6755399441055744, -52⟩ :=
      ⟨by decide, by decide, by decide⟩
    have regular : ∀ field ∈ flagManifest.definitions, field.2.Regular := by
      simp only [flagManifest, List.forall_mem_cons]
      refine ⟨.object ?_, .object ?_, .object ?_, nofun⟩ <;> simp [Number.Regular, half]
    have switch : contract.definitions.canonicalText "Switch" =
        contract.definitions.canonicalText "Flag" := by
      rw [definitions]
      decide +kernel
    have digests : Digest.ofText (contract.definitions.canonicalText "Flag") ≠
        Digest.ofText (contract.definitions.canonicalText "Weight") := by
      rw [definitions]
      decide +kernel
    have kinds : ∀ a ∈ flagManifest.definitions.names,
        contract.definitions.canonicalText a = contract.definitions.canonicalText "Flag" ∨
          a = "Weight" := by
      change ∀ a ∈ ["Flag", "Switch", "Weight"], _
      simp [switch]
    have apart : ∀ a ∈ flagManifest.definitions.names, ∀ b ∈ flagManifest.definitions.names,
        Digest.ofText (contract.definitions.canonicalText a) =
          Digest.ofText (contract.definitions.canonicalText b) →
        contract.definitions.canonicalText a = contract.definitions.canonicalText b := by
      intro a mem b also same
      rcases kinds a mem with left | rfl <;> rcases kinds b also with right | rfl
      · rw [left, right]
      · exact absurd (left ▸ same) digests
      · exact absurd (right ▸ same).symm digests
      · rfl
    obtain ⟨-, faithful⟩ := aliases_are_faithful flagManifest contract converted
    refine ⟨contract, rfl, switch.symm, ?_⟩
    intro depth patterns calls direction shared
    have same := faithful regular apart depth patterns {} calls direction "Flag" (by decide) "Weight"
      (by decide) (.inl shared)
    exact digests (congrArg
      (fun node => Digest.ofText (contract.definitions.canonical node).compact) same)

end EventContracts

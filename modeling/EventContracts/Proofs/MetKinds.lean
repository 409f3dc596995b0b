import EventContracts.Proofs.MemoTransparency
import EventContracts.Proofs.ViewedParts

/-! Which kinds a view meets. From a node it goes through the parts of layers and follows
references, as often as it takes. A depiction that succeeds has met no kind at which it stops, even
though it walks no body twice: the bodies that were walked for an earlier reference are those that
the reference stands for. A depiction that meets no such kind succeeds, if its validations end. -/

namespace EventContracts

namespace Kind

lemma Near.refers {kind : Kind Node} {node : Node} (near : kind.Near node) {notes : Notes}
    {target : String} (refers : node.Refers target) : (Node.mk kind notes).Refers target := by
  rcases near with mem | ⟨⟨middle, middleNotes⟩, mem, inside⟩
  · exact .child mem refers
  · exact .child mem (.child inside refers)

lemma Near.sizeOf_lt {kind : Kind Node} {node : Node} (near : kind.Near node) (notes : Notes) :
    sizeOf node < sizeOf (Node.mk kind notes) := by
  have outer : sizeOf kind < sizeOf (Node.mk kind notes) := by simp; omega
  rcases near with mem | ⟨⟨middle, middleNotes⟩, mem, inside⟩
  · exact (sizeOf_lt_of_mem mem).trans outer
  · have inner : sizeOf node < sizeOf middle := sizeOf_lt_of_mem inside
    have here : sizeOf (Node.mk middle middleNotes) < sizeOf kind := sizeOf_lt_of_mem mem
    simp only [Node.mk.sizeOf_spec] at here outer ⊢
    omega

end Kind

/-- Whether a bad kind is met from a node in a direction, through the parts of layers and with
references followed. -/
inductive Meets (definitions : Definitions)
    (parts : Direction → Kind Node → List (Node × Direction)) (bad : Kind Node → Bool) :
    Node → Direction → Prop where
  | here {kind notes direction} (is : bad kind) :
      Meets definitions parts bad (.mk kind notes) direction
  | part {kind notes direction part} (mem : part ∈ parts direction kind)
      (meets : Meets definitions parts bad part.1 part.2) :
      Meets definitions parts bad (.mk kind notes) direction
  | follow {key target notes direction}
      (meets : Meets definitions parts bad (definitions.resolve target) direction) :
      Meets definitions parts bad (.mk (.reference key target) notes) direction

namespace Meets

variable {definitions : Definitions}
  {parts fewer : Direction → Kind Node → List (Node × Direction)} {bad worse : Kind Node → Bool}
  {node : Node} {direction : Direction}

/-- Through more parts, more kinds are met. -/
lemma mono (more : ∀ direction kind, fewer direction kind ⊆ parts direction kind)
    (wider : ∀ kind, bad kind → worse kind) (meets : Meets definitions fewer bad node direction) :
    Meets definitions parts worse node direction := by
  induction meets with
  | here is => exact .here (wider _ is)
  | part mem _ ih => exact .part (more _ _ mem) ih
  | follow _ ih => exact .follow ih

/-- Notes do not matter for what is met. -/
lemma of_notes {kind : Kind Node} {notes other : Notes}
    (meets : Meets definitions parts bad (.mk kind notes) direction) :
    Meets definitions parts bad (.mk kind other) direction := by
  cases meets with
  | here is => exact .here is
  | part mem meets => exact .part mem meets
  | follow meets => exact .follow meets

lemma mk_iff {kind : Kind Node} {notes : Notes} :
    Meets definitions parts bad (.mk kind notes) direction ↔
      bad kind ∨ (∃ part ∈ parts direction kind, Meets definitions parts bad part.1 part.2) ∨
        ∃ key target, kind = .reference key target ∧
          Meets definitions parts bad (definitions.resolve target) direction := by
  constructor
  · intro meets
    cases meets with
    | here is => exact .inl is
    | part mem meets => exact .inr (.inl ⟨_, mem, meets⟩)
    | follow meets => exact .inr (.inr ⟨_, _, rfl, meets⟩)
  · rintro (is | ⟨part, mem, meets⟩ | ⟨key, target, rfl, meets⟩)
    · exact .here is
    · exact .part mem meets
    · exact .follow meets

end Meets

/-- What is kept on the way through a tree, and when references are followed. -/
structure Setting.Keeps (setting : Setting) (seen : Node → Prop) : Prop where
  child : ∀ kind notes, seen (.mk kind notes) → ∀ child ∈ kind.children, seen child
  follow : ∀ key target notes, seen (.mk (.reference key target) notes) →
    seen (setting.resolve target)

lemma Setting.Keeps.near {setting : Setting} {seen : Node → Prop} (keeps : setting.Keeps seen)
    {kind : Kind Node} {notes : Notes} {node : Node} (here : seen (.mk kind notes))
    (near : kind.Near node) : seen node := by
  rcases near with mem | ⟨⟨middle, middleNotes⟩, mem, inside⟩
  · exact keeps.child kind notes here node mem
  · exact keeps.child middle middleNotes (keeps.child kind notes here _ mem) node inside

namespace Depicter

variable {U : Type} {depicter : Depicter U} {setting : Setting}
  {parts : Direction → Kind Node → List (Node × Direction)} {bad : Kind Node → Bool}
  {asked : String → Prop} {table later : AliasTable U}

/-- The walk over a part, or the view of a reference, is a step of the walk over a layer. -/
lemma mem_steps {direction : Direction} {kind : Kind Node} {step : Walk U U}
    (mem : step ∈ depicter.steps parts direction kind) :
    (∃ key target, kind = .reference key target ∧ step = Walk.view target direction) ∨
      ∃ part ∈ parts direction kind, step = depicter.walk part.1 part.2 := by
  cases kind with
  | reference key target => exact .inl ⟨key, target, rfl, List.mem_singleton.mp mem⟩
  | _ =>
    obtain ⟨part, inside, rfl⟩ := List.mem_map.mp mem
    exact .inr ⟨part, inside, rfl⟩

lemma walk_mem_steps (composes : depicter.Composes parts bad) {direction : Direction}
    {kind : Kind Node} {part : Node × Direction} (mem : part ∈ parts direction kind) :
    depicter.walk part.1 part.2 ∈ depicter.steps parts direction kind := by
  cases kind with
  | reference key target =>
    rcases composes.near _ _ _ mem with inside | ⟨_, inside, -⟩ <;> cases inside
  | _ => exact List.mem_map.mpr ⟨part, mem, rfl⟩

/-- What a steady table replays meets no kind at which the walk stops. -/
lemma Steady.not_meets (steady : depicter.Steady setting asked table)
    (distinguishes : setting.Distinguishes asked) (closed : setting.Closed asked)
    (composes : depicter.Composes parts bad)
    {node : Node} {direction : Direction} (inScope : ∀ target, node.Refers target → asked target)
    {view : U}
    (replayed : depicter.replay setting table (depicter.walk node direction) = .ok view) :
    ¬ Meets setting.library.definitions parts bad node direction := by
  intro meets
  induction meets generalizing view with
  | here is =>
    obtain ⟨cause, halts⟩ := composes.halts _ _ _ is
    rw [halts] at replayed
    cases replayed
  | @part kind notes direction part mem _ ih =>
    cases is : bad kind with
    | true =>
      obtain ⟨cause, halts⟩ := composes.halts kind notes direction is
      rw [halts] at replayed
      cases replayed
    | false =>
      obtain ⟨inner, done⟩ := replay_part (composes.composed kind notes direction is) replayed
        (walk_mem_steps composes mem)
      exact ih (fun target refers => inScope target ((composes.near _ _ _ mem).refers refers)) done
  | @follow key target notes direction _ ih =>
    cases is : bad (.reference key target) with
    | true =>
      obtain ⟨cause, halts⟩ := composes.halts _ notes direction is
      rw [halts] at replayed
      cases replayed
    | false =>
      obtain ⟨inner, done⟩ := replay_part (composes.composed _ notes direction is) replayed
        (List.mem_singleton.mpr rfl)
      obtain ⟨name, found, -⟩ := replay_refer_ok done
      obtain ⟨entry, here, -⟩ := AliasTable.get?_of_nameOf? found
      have mem := inScope target .here
      exact ih (closed target mem) (steady.replays distinguishes mem here)

/-- The walk over a node that meets no kind at which it stops is calm. -/
lemma calm_walk (composes : depicter.Composes parts bad)
    {seen : Node → Prop} (keeps : setting.Keeps seen) (node : Node) (direction : Direction)
    (here : seen node) (fine : ¬ Meets setting.library.definitions parts bad node direction) :
    (depicter.walk node direction).Calm seen fun target flow => seen (setting.resolve target) ∧
      ¬ Meets setting.library.definitions parts bad (setting.resolve target) flow := by
  match node with
  | .mk kind notes =>
    have known : bad kind = false := by
      cases is : bad kind with
      | true => exact absurd (.here is) fine
      | false => rfl
    have composed : Walk.Composed seen (depicter.steps parts direction kind)
        (depicter.walk (.mk kind notes) direction) := by
      refine (composes.composed kind notes direction known).mono ?_
      rintro other (rfl | mem)
      · exact here
      · exact keeps.child kind notes here other mem
    refine composed.calm fun step mem => ?_
    rcases mem_steps mem with ⟨key, target, rfl, rfl⟩ | ⟨part, inside, rfl⟩
    · exact .refer ⟨keeps.follow key target notes here, fun meets => fine (.follow meets)⟩
        fun view => .done view
    · have smaller := (composes.near _ _ _ inside).sizeOf_lt notes
      exact calm_walk composes keeps part.1 part.2 (keeps.near here (composes.near _ _ _ inside))
        fun meets => fine (.part inside meets)
termination_by sizeOf node
decreasing_by simpa using smaller

end Depicter

end EventContracts

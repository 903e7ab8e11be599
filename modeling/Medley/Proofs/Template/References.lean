import Medley.Proofs.Template.Made
import Medley.Render.Render

/-! What a template refers to. All names that its nodes refer to, however deep, and the layout that
its page data name, are among its dependencies. -/
namespace Medley

namespace Node

/- No reference but to known names; what is inside is not looked at. -/
def RefersTo (known : String → Prop) (n : Node Value) : Prop :=
  match n with
  | embed _ name _ => known name
  | component _ name _ _ => name = slotTag ∨ known name
  | layout _ props _ => known (Value.layoutName props)
  | _ => True

theorem refersAnywhere (n : Node Value) : n.RefersTo fun _ => True := by
  cases n with
  | component => exact .inr trivial
  | _ => trivial

structure AsRead (debug : Bool) (n : Node Value) : Prop where
  props : Layer.Plain n.props
  layout : ∀ pos props children, n ≠ .layout pos props children
  diagnostic : debug = false → ∀ pos code message source, n ≠ .diagnostic pos code message source

theorem commonAsRead (debug : Bool) : Common debug (AsRead debug) :=
  .ofOther (fun _ plain alone absent => ⟨plain, alone, fun _ => absent⟩)
    fun wanted _ _ _ _ => ⟨List.forall_mem_nil _, nofun, fun off =>
      absurd (wanted.symm.trans off) nofun⟩

theorem allReferences {α : Type} {n : Node α} {ns : List (Node α)} (member : n ∈ ns)
    {r : Reference} (h : r ∈ n.references) : r ∈ references.ofAll ns := by
  induction ns with
  | nil => cases member
  | cons m ns ih =>
    rw [references.ofAll, List.mem_append]
    rcases List.mem_cons.mp member with rfl | later
    · exact .inl h
    · exact .inr (ih later)

theorem childReferences {α : Type} {n m : Node α} (member : m ∈ n.children) {r : Reference}
    (h : r ∈ m.references) : r ∈ n.references := by
  cases n with
  | cond | each | layout =>
    rw [references]
    exact allReferences member h
  | component =>
    rw [references]
    exact List.mem_append_right _ (allReferences member h)
  | _ => cases member

variable {debug : Bool} {known : String → Prop}

theorem refersAlone {n : Node Value} (h : n.AsRead debug)
    (names : ∀ r ∈ n.references, known r.name) : n.RefersTo known := by
  cases n with
  | embed pos name props => exact names (.embed name) (by simp [references])
  | component pos name props children =>
    by_cases slot : name = slotTag
    · exact .inl slot
    · exact .inr (names (.component name) (by simp [references, slot]))
  | layout pos props children => exact absurd rfl (h.layout pos props children)
  | _ => trivial

theorem everyRefers {n : Node Value} (h : n.Every (AsRead debug))
    (names : ∀ r ∈ n.references, known r.name) :
    n.Every fun m => m.AsRead debug ∧ m.RefersTo known := by
  induction h with
  | intro here below ih =>
    exact .intro ⟨here, refersAlone here names⟩ fun m member =>
      ih m member fun r inside => names r (childReferences member inside)

end Node

theorem firstPlacesMember {names : List String} {name : String} (h : name ∈ names) :
    name ∈ firstPlaces names := by
  suffices ∀ names acc : List String, name ∈ names ∨ name ∈ acc →
      name ∈ names.foldl (fun acc n => if n ∈ acc then acc else acc ++ [n]) acc from
    this names [] (.inl h)
  intro names
  induction names with
  | nil => exact fun acc h => h.resolve_left List.not_mem_nil
  | cons n names ih =>
    intro acc h
    refine ih _ ?_
    rcases h with first | old
    · rcases List.mem_cons.mp first with rfl | later
      · refine .inr ?_
        dsimp only
        split
        · assumption
        · exact List.mem_append_right _ List.mem_cons_self
      · exact .inl later
    · refine .inr ?_
      dsimp only
      split
      · exact old
      · exact List.mem_append_left _ old

namespace Template

theorem ReadWith.metadata {debug : Bool} {issues : List Issue} {t : Template}
    (h : t.ReadWith debug issues) :
    t.metadata = .of t.nodes t.metadata.frontmatter (layoutOf t.metadata.frontmatter) := by
  obtain ⟨o, source, _, found⟩ := h
  unfold read at found
  dsimp only at found
  split at found
  · cases found
    rfl
  · obtain ⟨data, _, found⟩ := okBind found
    cases found
    rfl

structure Lists (debug : Bool) (known : String → Prop) (t : Template) : Prop where
  nodes : ∀ n ∈ t.nodes, n.Every fun m => m.AsRead debug ∧ m.RefersTo known
  data : Layer.Plain t.metadata.frontmatter
  layout : ∀ name, t.metadata.layout = some name → known name

/-- What is read refers only to its dependencies. -/
theorem ReadWith.lists {debug : Bool} {issues : List Issue} {t : Template}
    (h : t.ReadWith debug issues) {known : String → Prop}
    (names : ∀ name ∈ t.metadata.dependencies, known name) : t.Lists debug known := by
  have metadata := h.metadata
  obtain ⟨o, source, rfl, found⟩ := h
  have every := Template.readEvery (Node.commonAsRead o.debug) found
  have dependencies := congrArg Metadata.dependencies metadata
  refine ⟨fun n member => ?_, every.data, fun name wrapped => ?_⟩
  · refine Node.everyRefers (every.nodes n member) fun r inside => names _ ?_
    rw [dependencies]
    exact firstPlacesMember (List.mem_append_left _
      (List.mem_map.mpr ⟨r, Node.allReferences member inside, rfl⟩))
  · refine names _ ?_
    rw [congrArg Metadata.layout metadata] at wrapped
    rw [dependencies]
    refine firstPlacesMember (List.mem_append_right _ ?_)
    have full : name.isEmpty = false := by
      dsimp only [Metadata.of] at wrapped
      unfold layoutOf at wrapped
      split at wrapped
      · simpa using (Option.filter_eq_some_iff.mp wrapped).2
      · contradiction
    dsimp only [Metadata.of] at wrapped
    rw [wrapped]
    simp [Option.filter, full]

end Template
end Medley

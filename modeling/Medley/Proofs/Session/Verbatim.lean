import Medley.Proofs.Render.Halting
import Medley.Proofs.Render.Output

/-! Degrading to text loses nothing. Where a source without comments is read as text alone, because
all that could have been a marker in it was malformed, rendering it puts the source out again. -/
namespace Medley.Session

/-- A source that is read as text alone is kept as it is, in the tree and in the output. -/
theorem textsVerbatim (o : ReadOptions) {source : String} (mark : '!' ∉ source.toList)
    (percent : ¬ "<%#".toList <:+: source.toList) :
    ∃ out, Template.read { o with frontmatter := false, debug := false } source = .ok out ∧
      ((∀ n ∈ out.template.nodes, n.isText = true) →
        String.join (out.template.nodes.map Node.wording) = source ∧
          ∀ (s : Session) (values : Layer) (options : RenderOptions),
            (s.render (.template out.template) values { options with layout := none }
              .plain).1.output = .ok source) := by
  refine ⟨_, rfl, fun texts => ?_⟩
  generalize made : Template.assemble { o with frontmatter := false, debug := false } [] 0
    source.toList = out at texts ⊢
  have same : String.join (out.template.nodes.map Node.wording) = source := by
    subst made
    refine String.toList_inj.mp ?_
    rw [String.toList_join, List.flatMap_map]
    exact Reading.verbatim ⟨mark, percent⟩ texts
  refine ⟨same, fun s values options => ?_⟩
  have alone : (Page.template out.template).layout? none = none := by
    subst made
    rfl
  rw [renderOutput, Stage.pageOutput rfl rfl alone]
  refine ((Stage.textsWrite _ 0 _ rfl texts).output rfl).trans (congrArg Except.ok ?_)
  rw [Node.literalsText, same]

/- Two blocks and an element without their ends, an empty tag, a stray closing marker and the start
of a marker. -/
def tattered : String :=
  "\x7b\x7b#if a\x7d\x7dx<Box>\x7b\x7b#each b\x7d\x7d\x7b\x7b\x7d\x7d\x7b\x7b/with\x7d\x7d < \x7b\x7b y"

theorem tatteredVerbatim : ∃ out, Template.read { frontmatter := false } tattered = .ok out ∧
    (∀ n ∈ out.template.nodes, n.isText = true) ∧
      String.join (out.template.nodes.map Node.wording) = tattered ∧
        (Session.render { engine := {}, host := Stage.echoHost } (.template out.template) [] {}
          .plain).1.output = .ok tattered := by
  have mark : '!' ∉ tattered.toList := by decide +kernel
  have percent : ¬ "<%#".toList <:+: tattered.toList := by decide +kernel
  obtain ⟨out, found, kept⟩ := textsVerbatim {} mark percent
  have texts : ((Template.read { frontmatter := false } tattered).toOption.all
      fun out => out.template.nodes.all Node.isText) = true := by decide +kernel
  rw [found] at texts
  have all : ∀ n ∈ out.template.nodes, n.isText = true := List.all_eq_true.mp texts
  exact ⟨out, found, all, (kept all).1, (kept all).2 _ [] {}⟩

end Medley.Session

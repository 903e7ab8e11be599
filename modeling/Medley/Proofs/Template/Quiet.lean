import Medley.Proofs.Template.Diagnostics
import Medley.Proofs.Template.References

/-! Readings without issues. Issues are never taken back, so where there are none at the end no
mark was malformed and no block was left open on the way: then a source is read the same whether
diagnostics are wanted or not. -/
namespace Medley

namespace Builder

theorem closeFromQuiet {debug : Bool} {closer : Closer} {issues : List Issue} {frames : List Frame}
    {current : List (Node Value)}
    (quiet : (closeFrom debug closer current issues frames).issues = []) :
    issues = [] ∧ ∀ debug', closeFrom debug' closer current issues frames =
      closeFrom debug closer current issues frames := by
  induction frames generalizing current issues with
  | nil => exact ⟨quiet, fun _ => rfl⟩
  | cons f frames ih =>
    simp only [closeFrom] at quiet ⊢
    split at quiet
    · rename_i fits
      exact ⟨quiet, fun _ => by rw [if_pos fits, if_pos fits]⟩
    · exact absurd (ih quiet).1 (List.cons_ne_nil _ _)

theorem finishFromQuiet {debug : Bool} {issues : List Issue} {frames : List Frame}
    {current : List (Node Value)} (quiet : (finishFrom debug current issues frames).issues = []) :
    issues = [] ∧ ∀ debug', finishFrom debug' current issues frames =
      finishFrom debug current issues frames := by
  induction frames generalizing current issues with
  | nil => exact ⟨quiet, fun _ => rfl⟩
  | cons f frames ih => exact absurd (ih quiet).1 (List.cons_ne_nil _ _)

/- One mark. `inner` is the same for shorter sources, which the children of an element are. -/
theorem takeQuiet {debug : Bool} {pos : Position} {b : Builder} {s : List Char} (nonempty : s ≠ [])
    {raw : String} {m : Meaning}
    (inner : ∀ t : List Char, t.length < s.length → ∀ pos b, (read debug pos b t).issues = [] →
      b.issues = [] ∧ ∀ debug', read debug' pos b t = read debug pos b t)
    (quiet : (b.take debug pos s raw m).issues = []) :
    b.issues = [] ∧ ∀ debug', b.take debug' pos s raw m = b.take debug pos s raw m := by
  cases m with
  | closes closer =>
    simp only [take] at quiet ⊢
    unfold close? at quiet ⊢
    cases closer with
    | none => cases quiet
    | some closer =>
      simp only [bind, Option.bind] at quiet ⊢
      split at quiet
      · rename_i fits
        obtain ⟨before, same⟩ := closeFromQuiet quiet
        exact ⟨before, fun debug' => by rw [if_pos fits, if_pos fits]; exact same debug'⟩
      · cases quiet
  | broken code message => cases quiet
  | element name props tag width positive =>
    obtain ⟨within, closed⟩ := finishFromQuiet quiet
    obtain ⟨before, same⟩ := inner _ (inside_length_lt width positive nonempty) _ _ within
    refine ⟨before, fun debug' => ?_⟩
    have children : finish debug' (read debug' (pos.advance (s.take tag)) ⟨[], [], b.issues⟩
          ((s.drop tag).take width)) =
        finish debug (read debug (pos.advance (s.take tag)) ⟨[], [], b.issues⟩
          ((s.drop tag).take width)) := by
      rw [same debug']
      exact closed debug'
    simp only [take, children]
  | _ => exact ⟨quiet, fun _ => rfl⟩

theorem readQuiet {debug : Bool} {pos : Position} {b : Builder} {s : List Char}
    (quiet : (read debug pos b s).issues = []) :
    b.issues = [] ∧ ∀ debug', read debug' pos b s = read debug pos b s := by
  induction s using bySource generalizing pos b with
  | nil =>
    rw [readNil] at quiet ⊢
    exact ⟨quiet, fun _ => readNil ..⟩
  | next s source shorter =>
    rw [readCons debug pos b source] at quiet ⊢
    obtain ⟨taken, rest⟩ := shorter _ ((Mark.next s).rest_length_lt source) quiet
    obtain ⟨before, first⟩ :=
      takeQuiet source (fun t less pos b quiet => shorter t less quiet) taken
    refine ⟨before, fun debug' => ?_⟩
    rw [readCons debug' pos b source, first debug', rest debug']

end Builder

theorem Reading.quiet {debug : Bool} {pos : Position} {s : List Char}
    (quiet : (ofSource debug pos s).issues = []) (debug' : Bool) :
    ofSource debug' pos s = ofSource debug pos s := by
  have finished := Builder.finishFromQuiet (List.reverse_eq_nil_iff.mp quiet)
  have read := (Builder.readQuiet finished.1).2 debug'
  have same : (Builder.read debug' pos ⟨[], [], []⟩ s).finish debug' =
      (Builder.read debug pos ⟨[], [], []⟩ s).finish debug := by
    rw [read]
    exact finished.2 debug'
  rw [ofSource, ofSource, same]

namespace Template

theorem assembleQuiet {o : ReadOptions} {data : Layer} {lines : Nat} {body : List Char}
    (quiet : (assemble o data lines body).issues = []) (debug' : Bool) :
    assemble { o with debug := debug' } data lines body = assemble o data lines body := by
  simp only [assemble, Reading.quiet quiet debug']

def parts (o : ReadOptions) (source : String) : Except Fault (Layer × Nat × List Char) :=
  match if o.frontmatter then Frontmatter.split source.toList else none with
  | none => .ok ([], 0, source.toList)
  | some split => (Frontmatter.data split.block).map fun data => (data, split.lines, split.body)

theorem readParts (o : ReadOptions) (source : String) :
    read o source = (parts o source).map fun p => assemble o p.1 p.2.1 p.2.2 := by
  unfold read parts
  dsimp only
  cases (if o.frontmatter then Frontmatter.split source.toList else none) with
  | none => rfl
  | some split =>
    dsimp only
    cases Frontmatter.data split.block <;> rfl

theorem readQuiet {o : ReadOptions} {source : String} {out : Outcome}
    (h : read o source = .ok out) (quiet : out.issues = []) (debug' : Bool) :
    read { o with debug := debug' } source = .ok out := by
  have same : parts { o with debug := debug' } source = parts o source := rfl
  rw [readParts] at h ⊢
  obtain ⟨p, found, rfl⟩ := okMap h
  rw [same, found]
  exact congrArg Except.ok (assembleQuiet quiet debug')

theorem readText {o : ReadOptions} {source : String} {out : Outcome}
    (h : read { o with debug := true } source = .ok out) :
    read { o with debug := false } source = .ok out.withText := by
  have same : parts { o with debug := false } source = parts { o with debug := true } source := rfl
  rw [readParts] at h ⊢
  obtain ⟨p, found, rfl⟩ := okMap h
  rw [same, found]
  exact congrArg Except.ok (assembleWithText o _ _ _)

theorem readFails {o : ReadOptions} {source : String} {fault : Fault}
    (h : read { o with debug := true } source = .error fault) :
    read { o with debug := false } source = .error fault := by
  have same : parts { o with debug := false } source = parts { o with debug := true } source := rfl
  rw [readParts] at h ⊢
  rw [same]
  cases found : parts { o with debug := true } source with
  | ok p =>
    rw [found] at h
    cases h
  | error fault' =>
    rw [found] at h
    cases h
    rfl

def Clean (t : Template) : Prop := t.ReadWith true []

theorem Clean.normal {t : Template} (h : t.Clean) : t.ReadWith false [] := by
  obtain ⟨o, source, _, found⟩ := h
  exact ⟨{ o with debug := false }, source, rfl, readQuiet found rfl false⟩

/-- The same template, or readings of one source without diagnostics and with them. -/
inductive Twins (t : Template) : Template → Prop where
  | same : Twins t t
  | read {o : ReadOptions} {source : String} {issues : List Issue} {t'}
      (normal : read { o with debug := false } source = .ok ⟨t, issues⟩)
      (wanted : Template.read { o with debug := true } source = .ok ⟨t', issues⟩) : Twins t t'

theorem Clean.withText {t : Template} (h : t.Clean) : Node.withText t.nodes = t.nodes := by
  obtain ⟨o, source, wanted, found⟩ := h
  have same : { o with debug := true } = o := by rw [← wanted]
  rw [← same] at found
  have text := (readText found).symm.trans (readQuiet found rfl false)
  exact congrArg (fun out => out.template.nodes) (Except.ok.inj text)

theorem Twins.eq {t t' : Template} (twins : t.Twins t') (clean : t'.Clean) : t' = t := by
  cases twins with
  | same => rfl
  | @read o source issues _ normal wanted =>
    have text := normal.symm.trans (readText wanted)
    have same := congrArg Outcome.template (Except.ok.inj text)
    dsimp only [Outcome.withText] at same
    rw [same, clean.withText]

end Template
end Medley

import Medley.Proofs.Template.Attributes
import Medley.Proofs.Template.Data
import Medley.Proofs.Template.Reading

/-! Nodes that reading makes. What holds of every node that a mark can stand for, where it stands,
holds of all nodes of a tree that is read, however blocks are spilled and texts are joined;
diagnostics are among them only where they are wanted. Issues are about text of the source. -/
namespace Medley

namespace Tag

theorem attributeValuePlain (s : List Char) : Value.Plain (attributeEnd s).1 := by
  unfold attributeEnd
  dsimp only
  split
  · split <;> exact .scalar rfl
  · exact .scalar rfl

theorem itemPlain {first : Bool} {s rest : List Char} {key : String} {value : Value}
    (h : item first s = .sets key value rest) : Value.Plain value := by
  unfold item at h
  split at h
  · contradiction
  · contradiction
  · split at h
    · contradiction
    · split at h
      · cases h
        exact attributeValuePlain _
      · contradiction
  · contradiction

theorem attributesPlain {name : String} (s : List Char) {acc : List (String × Value)}
    {first : Bool} {tag : Opening} (plain : Layer.Plain acc)
    (h : attributesFrom name acc first s = some tag) : Layer.Plain tag.props := by
  obtain ⟨_, _, _, kept, _⟩ := tagEnds (motive := fun props _ => Layer.Plain props)
    (fun _ _ _ _ _ _ next plain => setPropPlain plain _ (itemPlain next)) plain h
  exact kept

theorem openingPlain {s : List Char} {tag : Opening} (h : opening? s = some tag) :
    Layer.Plain tag.props := by
  unfold opening? at h
  split at h
  · split at h
    · exact attributesPlain _ (List.forall_mem_nil _) h
    · contradiction
  · contradiction

theorem attributesName {name : String} (s : List Char) {acc : List (String × Value)}
    {first : Bool} {tag : Opening} (h : attributesFrom name acc first s = some tag) :
    tag.name = name :=
  (tagEnds (motive := fun _ _ => True) (fun _ _ _ _ _ _ _ kept => kept) trivial h).1

theorem openingName {s : List Char} {tag : Opening} (h : opening? s = some tag) :
    '<' :: tag.name.toList <+: s := by
  unfold opening? at h
  split at h
  · rename_i c rest
    split at h
    · rw [attributesName _ h, String.toList_ofList]
      refine ⟨rest.dropWhile inTagName, ?_⟩
      simp
    · contradiction
  · contradiction

end Tag

namespace Mark

def Opens (s : List Char) : Prop := ['\x7b', '\x7b'] <+: s ∨ ['<', '%'] <+: s

def Fits (s : List Char) : Meaning → Prop
  | .text | .comment | .closes _ | .broken .. => True
  | .output .. | .embed .. | .opens .. => Opens s
  | .element name props .. => '<' :: name.toList <+: s ∧ Layer.Plain props

section
variable {s : List Char} (opens : Opens s)
include opens

theorem bracesMeaningFits (triple : Bool) (content raw : List Char) :
    Fits s (bracesMeaning triple content raw) := by
  unfold bracesMeaning
  split
  · trivial
  · trivial
  · split
    · exact opens
    · trivial
  · unfold embedMeaning
    split
    · trivial
    · exact opens
  · split
    · exact opens
    · trivial
  · exact opens

theorem statementMeaningFits (content raw : List Char) :
    Fits s (statementMeaning content raw) := by
  unfold statementMeaning
  split
  · dsimp only
    split
    · trivial
    · exact opens
  · split
    · exact opens
    · split
      · trivial
      · exact opens

theorem percentMeaningFits (inside raw : List Char) : Fits s (percentMeaning inside raw) := by
  unfold percentMeaning
  dsimp only
  split
  · trivial
  · split
    · trivial
    · exact opens
  · split
    · trivial
    · exact opens
  · split
    · trivial
    · exact statementMeaningFits opens _ raw

theorem bracesOfFits (count : Nat) (h : 0 < count) (t : List Char) :
    Fits s (bracesOf count h t).meaning := by
  unfold bracesOf
  dsimp only
  split
  · exact bracesMeaningFits opens _ _ _
  · trivial

theorem percentOfFits (t : List Char) : Fits s (percentOf t).meaning := by
  unfold percentOf
  split
  · exact percentMeaningFits opens _ _
  · trivial

end

theorem tagOfFits (s : List Char) : Fits s (tagOf s).meaning := by
  have element : ∀ tag, Tag.opening? s = some tag →
      '<' :: tag.name.toList <+: s ∧ Layer.Plain tag.props :=
    fun _ opened => ⟨Tag.openingName opened, Tag.openingPlain opened⟩
  exact ofTag (motive := fun m => Fits s m.meaning) trivial
    (fun tag _ opened _ => element tag opened) (fun tag _ _ _ _ opened _ _ => element tag opened)
    fun _ _ _ _ _ => trivial

theorem nextFits (s : List Char) : Fits s (next s).meaning := by
  refine ofNext (motive := fun m => Fits s m.meaning) (fun _ => trivial) ?closing ?note ?braces
    ?percent (tagOfFits s)
  case closing =>
    intro m closer _ meaning
    rw [meaning]
    trivial
  case note =>
    intro t _
    unfold bracesComment
    split <;> trivial
  case braces =>
    intro count count_pos t two same
    refine bracesOfFits (.inl ?_) count count_pos t
    obtain ⟨more, rfl⟩ := Nat.exists_eq_add_of_le' two
    exact ⟨List.replicate more '\x7b' ++ t, same.symm⟩
  case percent =>
    rintro t rfl
    exact percentOfFits (.inr ⟨t, rfl⟩) t

end Mark

/-- What reading makes of a source that goes on with `s` at `p` wherever `lies p s` says so. -/
structure Made (debug : Bool) (lies : Position → List Char → Prop) (q : Node Value → Prop) :
    Prop where
  along : ∀ p s n, lies p s → lies (p.advance (s.take n)) (s.drop n)
  short : ∀ p s n, lies p s → lies p (s.take n)
  text : ∀ p s t, lies p s → t <+: s → t ≠ [] → q (.text p (String.ofList t))
  joined : ∀ p s t, q (.text p s) → q (.text p (s ++ t))
  lookup : ∀ p s path escape filters, lies p s → Mark.Opens s → q (.lookup p path escape filters)
  call : ∀ p s name args escape filters, lies p s → Mark.Opens s →
    q (.call p name args escape filters)
  block : ∀ (f : Frame) s children, lies f.pos s → Mark.Opens s → q (f.node children)
  component : ∀ p s name props children, lies p s → '<' :: name.toList <+: s →
    Layer.Plain props → q (.component p name props children)
  embed : ∀ p s name props, lies p s → Mark.Opens s → q (.embed p name props)
  diagnostic : debug = true → ∀ p s t (code : Code) message, lies p s → t <+: s → t ≠ [] →
    q (.diagnostic p code.text message (String.ofList t))

def Issue.Sited (lies : Position → List Char → Prop) (i : Issue) : Prop :=
  ∃ s t, lies i.pos s ∧ t <+: s ∧ t ≠ [] ∧ i.source = String.ofList t

def Frame.Sited (lies : Position → List Char → Prop) (f : Frame) : Prop :=
  ∃ s t, lies f.pos s ∧ Mark.Opens s ∧ t <+: s ∧ t ≠ [] ∧ f.raw = String.ofList t

namespace Builder
variable {debug : Bool} {lies : Position → List Char → Prop} {q : Node Value → Prop}

theorem everyText (made : Made debug lies q) {p : Position} {s t : List Char} (here : lies p s)
    (front : t <+: s) (nonempty : t ≠ []) : (Node.text p (String.ofList t)).Every q :=
  .intro (made.text p s t here front nonempty) fun m member => by cases member

theorem everyIssue (made : Made debug lies q) {i : Issue} (sited : i.Sited lies) :
    (i.node debug).Every q := by
  obtain ⟨s, t, here, front, nonempty, source⟩ := sited
  unfold Issue.node
  rw [source]
  split
  · rename_i wanted
    exact .intro (made.diagnostic wanted _ s t _ _ here front nonempty)
      fun m member => by cases member
  · exact everyText made here front nonempty

theorem everyFrame (made : Made debug lies q) {f : Frame} (sited : f.Sited lies)
    {children : List (Node Value)} (inside : ∀ n ∈ children, n.Every q) :
    (f.node children).Every q := by
  obtain ⟨s, _, here, opens, _⟩ := sited
  have same : (f.node children).children = children := by
    unfold Frame.node
    split <;> rfl
  exact .intro (made.block f s children here opens) fun m member => inside m (same ▸ member)

theorem unclosedSited {f : Frame} (sited : f.Sited lies) : f.unclosed.Sited lies := by
  obtain ⟨s, t, here, _, rest⟩ := sited
  exact ⟨s, t, here, rest⟩

theorem everyExpression (made : Made debug lies q) {p : Position} {s : List Char} (here : lies p s)
    (opens : Mark.Opens s) (escape : Bool) (content : List Char) :
    (Node.ofExpression p escape content).Every q := by
  unfold Node.ofExpression
  dsimp only
  split
  · split
    · exact .intro (made.call _ s _ _ _ _ here opens) fun m member => by cases member
    · exact .intro (made.lookup _ s _ _ _ here opens) fun m member => by cases member
  · exact .intro (made.lookup _ s _ _ _ here opens) fun m member => by cases member

theorem pushEvery (made : Made debug lies q) {siblings : List (Node Value)} {n : Node Value}
    (before : ∀ m ∈ siblings, m.Every q) (new : n.Every q) :
    ∀ m ∈ Node.push siblings n, m.Every q := by
  have added : ∀ m ∈ n :: siblings, m.Every q := by
    intro m member
    rcases List.mem_cons.mp member with rfl | old
    · exact new
    · exact before m old
  unfold Node.push
  split
  · rename_i rest
    split
    · exact before
    · intro m member
      rcases List.mem_cons.mp member with rfl | old
      · have first := before _ List.mem_cons_self
        exact .intro (made.joined _ _ _ first.here) fun m member => by cases member
      · exact before m (List.mem_cons_of_mem _ old)
  · split
    · exact before
    · exact added
  · exact added

theorem pushAllEvery (made : Made debug lies q) {siblings nodes : List (Node Value)}
    (before : ∀ m ∈ siblings, m.Every q) (new : ∀ n ∈ nodes, n.Every q) :
    ∀ m ∈ Node.pushAll siblings nodes, m.Every q := by
  induction nodes generalizing siblings with
  | nil => exact before
  | cons n nodes ih =>
    exact ih (pushEvery made before (new n List.mem_cons_self))
      fun m member => new m (List.mem_cons_of_mem n member)

structure Every (lies : Position → List Char → Prop) (q : Node Value → Prop) (b : Builder) :
    Prop where
  current : ∀ n ∈ b.current, n.Every q
  frames : ∀ f ∈ b.frames, f.Sited lies ∧ ∀ n ∈ f.before, n.Every q
  issues : ∀ i ∈ b.issues, i.Sited lies

theorem everyNothing {issues : List Issue} (sited : ∀ i ∈ issues, i.Sited lies) :
    (⟨[], [], issues⟩ : Builder).Every lies q :=
  ⟨List.forall_mem_nil _, List.forall_mem_nil _, sited⟩

theorem spillEvery (made : Made debug lies q) {f : Frame} (sited : f.Sited lies)
    {children : List (Node Value)} (before : ∀ n ∈ f.before, n.Every q)
    (inside : ∀ n ∈ children, n.Every q) : ∀ n ∈ spill debug f children, n.Every q :=
  pushAllEvery made (pushEvery made before (everyIssue made (unclosedSited sited)))
    fun n member => inside n (List.mem_reverse.mp member)

theorem unclosedEvery (made : Made debug lies q) {f : Frame} {frames : List Frame}
    {current : List (Node Value)} {issues : List Issue}
    (every : (Builder.mk current (f :: frames) issues).Every lies q) :
    (Builder.mk (spill debug f current) frames (f.unclosed :: issues)).Every lies q := by
  obtain ⟨sited, before⟩ := every.frames f List.mem_cons_self
  refine ⟨spillEvery made sited before every.current,
    fun g member => every.frames g (List.mem_cons_of_mem f member), fun i member => ?_⟩
  rcases List.mem_cons.mp member with rfl | old
  · exact unclosedSited sited
  · exact every.issues i old

theorem closeFromEvery (made : Made debug lies q) (closer : Closer) (issues : List Issue)
    {frames : List Frame} {current : List (Node Value)}
    (every : (Builder.mk current frames issues).Every lies q) :
    (closeFrom debug closer current issues frames).Every lies q := by
  induction frames generalizing current issues with
  | nil => exact every
  | cons f frames ih =>
    rw [closeFrom]
    split
    · obtain ⟨sited, before⟩ := every.frames f List.mem_cons_self
      have node := everyFrame made sited fun n member =>
        every.current n (List.mem_reverse.mp member)
      exact ⟨pushEvery made before node,
        fun g member => every.frames g (List.mem_cons_of_mem f member), every.issues⟩
    · exact ih _ (unclosedEvery made every)

theorem finishFromEvery (made : Made debug lies q) (issues : List Issue) {frames : List Frame}
    {current : List (Node Value)} (every : (Builder.mk current frames issues).Every lies q) :
    (finishFrom debug current issues frames).Every lies q := by
  induction frames generalizing current issues with
  | nil => exact every
  | cons f frames ih => exact ih _ (unclosedEvery made every)

theorem malformedEvery (made : Made debug lies q) {b : Builder} (every : b.Every lies q) {i : Issue}
    (sited : i.Sited lies) : (b.malformed debug i).Every lies q := by
  refine ⟨pushEvery made every.current (everyIssue made sited), every.frames, fun j member => ?_⟩
  rcases List.mem_cons.mp member with rfl | old
  · exact sited
  · exact every.issues j old

theorem pushedEvery (made : Made debug lies q) {b : Builder} (every : b.Every lies q)
    {n : Node Value} (new : n.Every q) : (b.push n).Every lies q :=
  ⟨pushEvery made every.current new, every.frames, every.issues⟩

theorem closeEvery (made : Made debug lies q) {b c : Builder} (every : b.Every lies q)
    {closer : Option Closer} (h : b.close? debug closer = some c) : c.Every lies q := by
  obtain ⟨closer, _, h⟩ := Option.bind_eq_some_iff.mp h
  split at h
  · cases h
    exact closeFromEvery made closer b.issues every
  · contradiction

/- A mark adds nothing else. The children of an element are read from a shorter source, for which
this is `inner`. -/
theorem takeEvery (made : Made debug lies q) {b : Builder} (every : b.Every lies q) {pos : Position}
    {s raw : List Char} (here : lies pos s) (front : raw <+: s) (nonempty : raw ≠ []) (m : Meaning)
    (fits : Mark.Fits s m)
    (inner : ∀ t : List Char, t.length < s.length → ∀ pos b, lies pos t → b.Every lies q →
      (read debug pos b t).Every lies q) :
    (b.take debug pos s (String.ofList raw) m).Every lies q := by
  have sited : ∀ code message,
      (Issue.mk code message pos (String.ofList raw)).Sited lies := fun _ _ =>
    ⟨s, raw, here, front, nonempty, rfl⟩
  cases m with
  | text => exact pushedEvery made every (everyText made here front nonempty)
  | comment => exact every
  | output escape content =>
    exact pushedEvery made every (everyExpression made here fits escape content)
  | embed name props =>
    exact pushedEvery made every
      (.intro (made.embed _ s _ _ here fits) fun m member => by cases member)
  | opens spelling header =>
    refine ⟨List.forall_mem_nil _, fun f member => ?_, every.issues⟩
    rcases List.mem_cons.mp member with rfl | outer
    · exact ⟨⟨s, raw, here, fits, front, nonempty, rfl⟩, every.current⟩
    · exact every.frames f outer
  | closes closer =>
    rw [take]
    cases found : b.close? debug closer with
    | none => exact malformedEvery made every (sited _ _)
    | some c => exact closeEvery made every found
  | broken code message => exact malformedEvery made every (sited _ _)
  | element name props tag width positive =>
    obtain ⟨name', plain⟩ := fits
    have source : s ≠ [] := fun empty => by
      rw [empty] at front
      exact nonempty (List.prefix_nil.mp front)
    have short := inside_length_lt width positive source
    have children := finishFromEvery made _ (inner _ short (pos.advance (s.take tag))
      ⟨[], [], b.issues⟩ (made.short _ _ _ (made.along _ _ tag here)) (everyNothing every.issues))
    have node : (Node.component pos name props (finish debug (read debug (pos.advance (s.take tag))
        ⟨[], [], b.issues⟩ ((s.drop tag).take width))).current.reverse).Every q :=
      .intro (made.component _ s _ _ _ here name' plain) fun m member =>
        children.current m (List.mem_reverse.mp member)
    exact ⟨pushEvery made every.current node, every.frames, children.issues⟩

theorem readEvery (made : Made debug lies q) {b : Builder} (every : b.Every lies q) {pos : Position}
    {s : List Char} (here : lies pos s) : (read debug pos b s).Every lies q := by
  induction s using bySource generalizing pos b with
  | nil =>
    rw [readNil]
    exact every
  | next s source shorter =>
    rw [readCons debug pos b source]
    have taken := takeEvery made every here (List.take_prefix _ _)
      ((Mark.next s).rawNonempty source) _ (Mark.nextFits s)
      fun t less pos b located every => shorter t less every located
    exact shorter _ ((Mark.next s).rest_length_lt source) taken (made.along _ _ _ here)

end Builder

theorem Reading.every {debug : Bool} {lies : Position → List Char → Prop} {q : Node Value → Prop}
    (made : Made debug lies q) {pos : Position} {s : List Char} (here : lies pos s) :
    (∀ n ∈ (Reading.ofSource debug pos s).nodes, n.Every q) ∧
      ∀ i ∈ (Reading.ofSource debug pos s).issues, i.Sited lies := by
  have every := Builder.readEvery made (Builder.everyNothing (List.forall_mem_nil _)) here
  have finished := Builder.finishFromEvery made _ every
  exact ⟨fun n member => finished.current n (List.mem_reverse.mp member),
    fun i member => finished.issues i (List.mem_reverse.mp member)⟩

/- What holds of nodes wherever they stand. -/
structure Common (debug : Bool) (q : Node Value → Prop) : Prop where
  text : ∀ p s, q (.text p s)
  lookup : ∀ p path escape filters, q (.lookup p path escape filters)
  call : ∀ p name args escape filters, q (.call p name args escape filters)
  block : ∀ (f : Frame) children, q (f.node children)
  component : ∀ p name props children, Layer.Plain props → q (.component p name props children)
  embed : ∀ p name props, q (.embed p name props)
  diagnostic : debug = true → ∀ p (code : Code) message source,
    q (.diagnostic p code.text message source)

theorem Common.ofOther {debug : Bool} {q : Node Value → Prop}
    (other : ∀ n : Node Value, Layer.Plain n.props → (∀ p props ns, n ≠ .layout p props ns) →
      (∀ p code message source, n ≠ .diagnostic p code message source) → q n)
    (diagnostic : debug = true → ∀ p (code : Code) message source,
      q (.diagnostic p code.text message source)) : Common debug q := by
  have nothing : Layer.Plain [] := List.forall_mem_nil _
  refine ⟨fun _ _ => other _ nothing nofun nofun, fun _ _ _ _ => other _ nothing nofun nofun,
    fun _ _ _ _ _ => other _ nothing nofun nofun, fun f children => ?_,
    fun _ _ _ _ plain => other _ plain nofun nofun, fun _ _ _ => other _ nothing nofun nofun,
    diagnostic⟩
  unfold Frame.node
  split <;> exact other _ nothing nofun nofun

theorem Common.made {debug : Bool} {q : Node Value → Prop} (common : Common debug q) :
    Made debug (fun _ _ => True) q where
  along _ _ _ _ := trivial
  short _ _ _ _ := trivial
  text _ _ _ _ _ _ := common.text _ _
  joined _ _ _ _ := common.text _ _
  lookup _ _ _ _ _ _ _ := common.lookup _ _ _ _
  call _ _ _ _ _ _ _ _ := common.call _ _ _ _ _
  block _ _ _ _ _ := common.block _ _
  component _ _ _ _ _ _ _ plain := common.component _ _ _ _ plain
  embed _ _ _ _ _ _ := common.embed _ _ _
  diagnostic wanted _ _ _ _ _ _ _ _ := common.diagnostic wanted _ _ _ _

namespace Template

def ReadWith (debug : Bool) (issues : List Issue) (t : Template) : Prop :=
  ∃ o source, o.debug = debug ∧ read o source = .ok ⟨t, issues⟩

def IsRead (t : Template) : Prop := ∃ debug issues, t.ReadWith debug issues

structure Every (q : Node Value → Prop) (t : Template) : Prop where
  nodes : ∀ n ∈ t.nodes, n.Every q
  data : Layer.Plain t.metadata.frontmatter

theorem readEvery {o : ReadOptions} {q : Node Value → Prop} (common : Common o.debug q)
    {source : String} {out : Outcome} (h : read o source = .ok out) : out.template.Every q := by
  unfold read at h
  dsimp only at h
  generalize (if o.frontmatter then Frontmatter.split source.toList else none) = front at h
  cases front with
  | none =>
    cases h
    exact ⟨(Reading.every common.made trivial).1, List.forall_mem_nil _⟩
  | some front =>
    obtain ⟨data, found, h⟩ := okBind h
    cases h
    exact ⟨(Reading.every common.made trivial).1, Frontmatter.dataPlain found⟩

end Template
end Medley

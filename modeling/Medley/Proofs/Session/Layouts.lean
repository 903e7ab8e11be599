import Medley.Proofs.Session.Dependencies
import Medley.Proofs.Session.Wrappers

/-! Layouts in layouts. A layout is text around the content, with page data that may name another
layout. A page is wrapped once for each layout on its way: until one names no other, or one is
missing, or no more templates can be nested. -/
namespace Medley

theorem layoutOfGiven (data : Layer) :
    (layoutOf data).filter (fun name => !name.isEmpty) = layoutOf data := by
  unfold layoutOf
  split
  · rw [Option.filter_filter]
    simp only [Bool.and_self]
  · rfl

structure Sheet where
  before : String
  after : String
  data : Layer

namespace Sheet

def parent? (sheet : Sheet) (name : String) : Option String :=
  (layoutOf sheet.data).filter fun parent => parent != name

theorem parentNone (sheet : Sheet) {name parent : String} (last : sheet.parent? name = none)
    (named : layoutOf sheet.data = some parent) : parent = name := by
  rw [parent?, named, Option.filter_eq_none_iff] at last
  simpa using last parent rfl

theorem parentSome (sheet : Sheet) {name parent : String}
    (next : sheet.parent? name = some parent) :
    layoutOf sheet.data = some parent ∧ parent.isEmpty = false ∧ parent ≠ name := by
  obtain ⟨named, other⟩ := Option.filter_eq_some_iff.mp next
  have given := named
  rw [← layoutOfGiven] at given
  exact ⟨named, by simpa using (Option.filter_eq_some_iff.mp given).2, by simpa using other⟩

/- The layouts on the way from one by its name, as far as there are any and not more than so many.
-/
def chain (family : String → Option Sheet) : Nat → String → List Sheet
  | 0, _ => []
  | n + 1, name => match family name with
    | none => []
    | some sheet => sheet :: match sheet.parent? name with
      | none => []
      | some parent => chain family n parent

def around : List Sheet → String → String
  | [], text => text
  | sheet :: sheets, text => around sheets (sheet.before ++ (text ++ sheet.after))

theorem aroundText (sheets : List Sheet) (text : String) :
    around sheets text =
      String.join (sheets.reverse.map before) ++ (text ++ String.join (sheets.map after)) := by
  induction sheets generalizing text with
  | nil => simp [around]
  | cons sheet sheets ih =>
    rw [around, ih]
    simp [String.join_append, String.append_assoc]

/- It is written without marks, and its page data leave the name of the content alone. -/
structure Sound (sheet : Sheet) : Prop where
  before : Template.Bare sheet.before
  after : Template.Bare sheet.after
  free : sheet.data.lookup "content" = none

def source (sheet : Sheet) : String := Template.around sheet.before "content" sheet.after

structure Of (sheet : Sheet) (t : Template) : Prop where
  nodes : Node.Amid sheet.before (.lookup .start "content" false []) sheet.after t.nodes
  frontmatter : t.metadata.frontmatter = sheet.data
  layout : t.metadata.layout = layoutOf sheet.data

theorem Sound.read {sheet : Sheet} (sound : sheet.Sound) {e : Engine} {name source : String}
    (parts : Frontmatter.Parts source sheet.data sheet.source)
    (registers : e.Registers .layout name source) :
    ∃ t, sheet.Of t ∧ (e.registered.ofKind .layout).lookup name = some t := by
  obtain ⟨t, pos, read, nodes, frontmatter, layout⟩ := e.readParts parts (some name) none
  obtain ⟨t', reading, found⟩ := registers
  obtain rfl := Except.ok.inj (read.symm.trans reading)
  refine ⟨t, ⟨?_, frontmatter, layout⟩, found⟩
  rw [nodes]
  exact Template.aroundAmid (by decide) sound.before sound.after e.debug pos

end Sheet

namespace Stage
variable {s : Stage}

theorem resolveContentUnder {above props : Layer} (free : above.lookup "content" = none)
    (own : props.lookup "content" = none) (level : Nat) (children : List (Node Value))
    (scope : Scope) :
    s.resolve (above :: layoutScope level props children scope) "content" =
      .fragment level children (props :: scope) := by
  refine resolveName (by decide) ?_
  unfold Scope.lookup? layoutScope
  rw [List.findSome?_cons, free]
  dsimp only
  rw [List.findSome?_cons, own]
  rfl

/- A stage whose layouts are those of a family, for the names that are asked for. -/
structure Hangs (s : Stage) (family : String → Option Sheet) (asked : String → Prop)
    (start : Cache) : Prop where
  plain : s.sink = .plain
  free : ∀ name sheet, family name = some sheet → sheet.data.lookup "content" = none
  onward : ∀ name sheet parent, family name = some sheet → layoutOf sheet.data = some parent →
    asked parent
  known : ∀ name sheet, family name = some sheet →
    ∃ t, sheet.Of t ∧ (s.engine.registered.ofKind .layout).lookup name = some t
  missing : ∀ name, asked name → family name = none →
    s.engine.resolved start .layout name = .ok none

section
variable {family : String → Option Sheet} {asked : String → Prop} {start : Cache}
  (hangs : s.Hangs family asked start)
include hangs

theorem sheetPrints {sheet : Sheet} {t : Template} (shows : sheet.Of t) {c : RenderContext}
    {level inner : Nat} (below : inner < level) {scope under : Scope} {children : List (Node Value)}
    (found : s.resolve scope "content" = .fragment inner children under) {text : String}
    (inside : Run.Prints (fun _ => True) (s.nodes c inner under children) text []) :
    Run.Prints (fun _ => True) (s.nodes c level scope t.nodes)
      (sheet.before ++ (text ++ sheet.after)) [] := by
  refine amidPrints hangs.plain shows.nodes c level scope fun m same => ?_
  obtain ⟨pos, rfl⟩ : ∃ pos, m = .lookup pos "content" false [] := by
    cases m <;> cases same
    exact ⟨_, rfl⟩
  rwa [nodeFragment found below]

theorem layoutPrints (room : Nat) {c : RenderContext} (quiet : c.debug = false)
    (remaining : c.remaining = room) (level : Nat) (scope : Scope) (line : Int) {props : Layer}
    (free : props.lookup "content" = none) (known : asked (Value.layoutName props))
    (children : List (Node Value)) {text : String}
    (inside : ∀ c' : RenderContext, c'.debug = false →
      Run.Prints (fun _ => True) (s.nodes c' level (props :: scope) children) text []) :
    Run.Prints (· = start) (s.layout c level scope line props children)
      (Sheet.around (Sheet.chain family room (Value.layoutName props)) text) [] := by
  induction room generalizing c level scope props children text with
  | zero =>
    rw [layout]
    dsimp only
    rw [dif_pos (RenderContext.full remaining), exceededQuiet s quiet, pure_bind]
    exact (inside c quiet).anywhere
  | succ room ih =>
    have left := RenderContext.roomy remaining
    have deeper := RenderContext.childRoom remaining (Value.layoutName props) line
    rw [Sheet.chain]
    cases here : family (Value.layoutName props) with
    | none =>
      intro w held
      obtain ⟨logs, run⟩ := s.engine.onResolve .layout (Value.layoutName props) w
      rw [held, hangs.missing _ known here] at run
      rw [layout]
      dsimp only
      rw [dif_neg (by simp [left]), Run.onBindOk run]
      dsimp only
      rw [missingQuiet s quiet, pure_bind]
      exact inside c quiet _ trivial
    | some sheet =>
      dsimp only
      obtain ⟨t, shows, found⟩ := hangs.known _ _ here
      have resolved : s.engine.resolve? .layout (Value.layoutName props) = pure (some t) := by
        rw [Engine.resolve?, found]
      have wrapped : ∀ scope', s.resolve scope' "content" =
          .fragment level children (props :: scope) → ∀ c' : RenderContext, c'.debug = false →
            Run.Prints (fun _ => True) (s.nodes c' (level + 1) scope' t.nodes)
              (sheet.before ++ (text ++ sheet.after)) [] := fun scope' content c' quiet' =>
        sheetPrints hangs shows level.lt_succ_self content (inside c' quiet')
      cases next : sheet.parent? (Value.layoutName props) with
      | none =>
        rw [layoutLast left resolved fun parent named =>
          .inr (sheet.parentNone next (shows.layout ▸ named))]
        exact (wrapped _ (resolveContent free children) (c.child _ line) quiet).anywhere
      | some parent =>
        obtain ⟨named, nonempty, other⟩ := sheet.parentSome next
        have own : (layoutProps sheet.data parent).lookup "content" = none := by
          rw [layoutProps, lookupSetPropOther _ (by decide), hangs.free _ _ here]
        have onward : asked (Value.layoutName (layoutProps sheet.data parent)) := by
          rw [layoutNameProps]
          exact hangs.onward _ _ _ here named
        have outer := ih (c := c.child (Value.layoutName props) line) quiet deeper (level + 1) _ own
          onward t.nodes fun c' quiet' =>
            wrapped _ (resolveContentUnder own free level children scope) c' quiet'
        rw [layoutNameProps] at outer
        rw [layoutNext left resolved (shows.layout.trans named) nonempty other, shows.frontmatter]
        exact outer

end

end Stage

namespace Session
variable {s : Session} {family : String → Option Sheet} {first : String}

def Asks (family : String → Option Sheet) (first name : String) : Prop :=
  name = first ∨ ∃ below sheet, family below = some sheet ∧ layoutOf sheet.data = some name

/- The layouts of a family are registered as they are written. Others that are asked for are
missing. -/
structure Hangs (s : Session) (family : String → Option Sheet) (first : String) : Prop where
  sound : ∀ name sheet, family name = some sheet → sheet.Sound
  registered : ∀ name sheet, family name = some sheet → ∃ source,
    Frontmatter.Parts source sheet.data sheet.source ∧ s.engine.Registers .layout name source
  missing : ∀ name, Asks family first name → family name = none →
    (s.resolve? .layout name).1.result = .ok none

theorem Hangs.stage (hangs : s.Hangs family first) (limit : Int) :
    Stage.Hangs (Stage.limited s.engine s.host limit) family (Asks family first) s.cache where
  plain := rfl
  free name sheet here := (hangs.sound name sheet here).free
  onward name sheet parent here named := .inr ⟨name, sheet, here, named⟩
  known name sheet here := by
    obtain ⟨source, parts, registers⟩ := hangs.registered name sheet here
    exact (hangs.sound name sheet here).read parts registers
  missing name asked absent := by
    have nothing := hangs.missing name asked absent
    rwa [resolveResult] at nothing

/-- A page is put in the layouts on its way, the first one innermost, as many as the limit allows,
whether they lead in a circle or to one that is missing. -/
theorem layoutsWrap (hangs : s.Hangs family first) (normal : s.engine.debug = false)
    {source body : String} {data : Layer} (parts : Frontmatter.Parts source data body)
    (bare : Template.Bare body) (free : data.lookup "content" = none)
    (name filename : Option String) :
    ∃ t, s.engine.read source name filename = .ok t ∧ ∀ (limit : Int) values o,
      (o.layout.filter (fun name => !name.isEmpty) <|> layoutOf data) = some first →
        let chain := Sheet.chain family limit.toNat first
        ((s.limited limit).render (.template t) values o .plain).1.output =
          .ok (String.join (chain.reverse.map Sheet.before) ++
            (body ++ String.join (chain.map Sheet.after))) := by
  obtain ⟨t, pos, read, nodes, frontmatter, layout⟩ := s.engine.readParts parts name filename
  refine ⟨t, read, fun limit values o asked => ?_⟩
  rw [← layoutOfGiven, ← layout] at asked
  have wrapped : (Page.template t).layout? o.layout = some first := asked
  dsimp only
  obtain ⟨texts, words⟩ := Node.textReading bare.plain s.engine.debug pos
  rw [← nodes] at texts words
  have own : (Stage.layoutProps t.metadata.frontmatter first).lookup "content" = none := by
    rw [Stage.layoutProps, lookupSetPropOther _ (by decide), frontmatter, free]
  have prints := Stage.layoutPrints (hangs.stage limit) limit.toNat
    (c := Stage.start (Stage.limited s.engine s.host limit) (.template t)) normal
    (congrArg Int.toNat (Int.sub_zero limit)) 0 [[], values, s.engine.globals]
    Position.start.line own (.inl (Stage.layoutNameProps ..)) t.nodes fun c _ =>
      words ▸ Stage.textsPrint c 0 _ rfl texts
  rw [Stage.layoutNameProps] at prints
  rw [renderOutput, Stage.pageInLayout rfl rfl wrapped, ← Sheet.aroundText]
  exact (prints.output rfl rfl).1

def dress (s : Session) (wardrobe : List (String × String × Sheet)) : Session :=
  wardrobe.foldr (fun e s => s.registering .layout e.1 e.2.1) s

theorem dressAdds (s : Session) {wardrobe : List (String × String × Sheet)}
    (parts : ∀ e ∈ wardrobe, Frontmatter.Parts e.2.1 e.2.2.data e.2.2.source) :
    (s.dress wardrobe).engine.debug = s.engine.debug ∧ (s.dress wardrobe).cache = s.cache ∧
      (∀ name source sheet, wardrobe.lookup name = some (source, sheet) →
        (s.dress wardrobe).engine.Registers .layout name source) ∧
      ∀ name, wardrobe.lookup name = none → ∀ c,
        (s.dress wardrobe).engine.resolved c .layout name = s.engine.resolved c .layout name := by
  induction wardrobe with
  | nil => exact ⟨rfl, rfl, nofun, fun _ _ _ => rfl⟩
  | cons d wardrobe ih =>
    obtain ⟨key, written, made⟩ := d
    obtain ⟨here, rest⟩ := List.forall_mem_cons.mp parts
    obtain ⟨debug, cache, known, unknown⟩ := ih rest
    obtain ⟨t, _, read, _⟩ := (s.dress wardrobe).engine.readParts here (some key) none
    have adds := (s.dress wardrobe).registeringAdds (by decide : Kind.layout ≠ .page) read
    refine ⟨adds.debug.trans debug, adds.cache.trans cache, fun name source sheet found => ?_,
      fun name missing c => ?_⟩
    · rw [List.lookup_cons] at found
      split at found
      · rename_i same
        obtain rfl := eq_of_beq same
        cases found
        exact adds.registers
      · rename_i apart
        exact adds.kept _ _ _ (.inr (by simpa using apart)) (known name source sheet found)
    · rw [List.lookup_cons] at missing
      split at missing
      · cases missing
      · rename_i apart
        exact (adds.elsewhere _ _ (.inr (by simpa using apart)) c).trans (unknown name missing c)

theorem dressHangs (s : Session) (wardrobe : List (String × String × Sheet))
    (parts : ∀ e ∈ wardrobe, Frontmatter.Parts e.2.1 e.2.2.data e.2.2.source)
    (sound : ∀ e ∈ wardrobe, e.2.2.Sound)
    (missing : ∀ name, wardrobe.lookup name = none → (s.resolve? .layout name).1.result = .ok none)
    (first : String) :
    (s.dress wardrobe).engine.debug = s.engine.debug ∧
      (s.dress wardrobe).Hangs (fun name => (wardrobe.lookup name).map Prod.snd) first := by
  obtain ⟨debug, cache, known, unknown⟩ := s.dressAdds parts
  have found : ∀ {name sheet}, (wardrobe.lookup name).map Prod.snd = some sheet →
      ∃ source, wardrobe.lookup name = some (source, sheet) := fun {name sheet} here => by
    obtain ⟨⟨source, _⟩, found, rfl⟩ := Option.map_eq_some_iff.mp here
    exact ⟨source, found⟩
  refine ⟨debug, fun name sheet here => ?_, fun name sheet here => ?_, fun name _ here => ?_⟩
  · obtain ⟨source, here⟩ := found here
    exact sound _ (Value.lookupMember here)
  · obtain ⟨source, here⟩ := found here
    exact ⟨source, parts _ (Value.lookupMember here), known name source sheet here⟩
  · have absent := Option.map_eq_none_iff.mp here
    rw [resolveResult, cache, unknown name absent s.cache, ← resolveResult]
    exact missing name absent

def bare : Session := { engine := {}, host := Stage.echoHost }

def wardrobe : List (String × String × Sheet) :=
  [("a", "---\nlayout: b\n---\n(\x7b\x7b\x7b content \x7d\x7d\x7d)",
      ⟨"(", ")", [("layout", .text "b")]⟩),
    ("b", "---\nlayout: a\n---\n[\x7b\x7b\x7b content \x7d\x7d\x7d]",
      ⟨"[", "]", [("layout", .text "a")]⟩)]

theorem wardrobeParts : ∀ e ∈ wardrobe, Frontmatter.Parts e.2.1 e.2.2.data e.2.2.source := by
  intro e member
  simp only [wardrobe, List.mem_cons, List.not_mem_nil, or_false] at member
  rcases member with rfl | rfl
  · exact .fenced ⟨"layout: b".toList, "(\x7b\x7b\x7b content \x7d\x7d\x7d)".toList, 3⟩
      (by rfl) (by cbv) (by decide)
  · exact .fenced ⟨"layout: a".toList, "[\x7b\x7b\x7b content \x7d\x7d\x7d]".toList, 3⟩
      (by rfl) (by cbv) (by decide)

/- In a circle of two the limit of three cuts; where the second is missing, there is one. -/
theorem wardrobeWraps :
    let circle := bare.dress wardrobe
    let torn := bare.dress (wardrobe.take 1)
    (circle.Hangs (fun name => (wardrobe.lookup name).map Prod.snd) "a" ∧
      ∃ t, circle.engine.read "B" none none = .ok t ∧
        ((circle.limited 3).render (.template t) [] { layout := "a" } .plain).1.output =
          .ok "([(B)])") ∧
    (torn.Hangs (fun name => ((wardrobe.take 1).lookup name).map Prod.snd) "a" ∧
      ∃ t, torn.engine.read "B" none none = .ok t ∧
        ((torn.limited 3).render (.template t) [] { layout := "a" } .plain).1.output =
          .ok "(B)") := by
  have sound : ∀ e ∈ wardrobe, e.2.2.Sound := by
    intro e member
    simp only [wardrobe, List.mem_cons, List.not_mem_nil, or_false] at member
    rcases member with rfl | rfl <;> exact ⟨by decide, by decide, by decide⟩
  have unknown : ∀ name, (bare.resolve? .layout name).1.result = .ok none := fun _ => rfl
  have page : Frontmatter.Parts "B" [] "B" := .bare rfl
  obtain ⟨normal, hangs⟩ :=
    bare.dressHangs wardrobe wardrobeParts sound (fun name _ => unknown name) "a"
  obtain ⟨t, read, prints⟩ := layoutsWrap hangs normal page (by decide) rfl none none
  obtain ⟨normal', hangs'⟩ := bare.dressHangs (wardrobe.take 1)
    (fun e member => wardrobeParts e (List.mem_of_mem_take member))
    (fun e member => sound e (List.mem_of_mem_take member)) (fun name _ => unknown name) "a"
  obtain ⟨t', reading, prints'⟩ := layoutsWrap hangs' normal' page (by decide) rfl none none
  exact ⟨⟨hangs, t, read, prints 3 [] { layout := "a" } rfl⟩,
    hangs', t', reading, prints' 3 [] { layout := "a" } rfl⟩

end Session
end Medley

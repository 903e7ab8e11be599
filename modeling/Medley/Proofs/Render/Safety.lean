import Medley.Proofs.Render.Halting
import Medley.Proofs.Text.Pieces
import Medley.Session

/-! Escaped output. Where no template puts out raw text and only built-in functions are called,
all that is put out is text of a template, or has no character in it that ends text or a quoted
attribute. Safe text is held to the same: whatever functions it went through, it is escaped text. -/
namespace Medley

namespace Html

def isSpecial (c : Char) : Bool := c = '<' || c = '>' || c = '"' || c = '\''

def Inert (s : String) : Prop := ∀ c ∈ s.toList, isSpecial c = false

theorem escapeCharInert (c : Char) : ∀ d ∈ escapeChar c, isSpecial d = false := by
  unfold escapeChar
  split
  · exact Text.eachOf rfl
  · split
    · exact Text.eachOf rfl
    · split
      · exact Text.eachOf rfl
      · split
        · exact Text.eachOf rfl
        · split
          · exact Text.eachOf rfl
          · intro d member
            rw [List.mem_singleton.mp member]
            simp [isSpecial, *]

theorem escapeInert (s : String) : Inert (escapeText s) := by
  intro d member
  unfold escapeText at member
  rw [String.toList_ofList] at member
  obtain ⟨c, _, here⟩ := List.mem_flatMap.mp member
  exact escapeCharInert c d here

theorem appendInert {s t : String} (first : Inert s) (second : Inert t) : Inert (s ++ t) := by
  intro c member
  rw [String.toList_append] at member
  exact (List.mem_append.mp member).elim (first c) (second c)

end Html

namespace Node

def Escaped : Node Value → Prop
  | lookup _ _ escape _ | call _ _ _ escape _ => escape = true
  | _ => True

def Normal (n : Node Value) : Prop :=
  n.PlainProps ∧ ∀ pos code message source, n ≠ .diagnostic pos code message source

inductive Among {α : Type} (n : Node α) : List (Node α) → Prop where
  | here {ns} (member : n ∈ ns) : Among n ns
  | inside {m ns} (member : m ∈ ns) (deeper : Among n m.children) : Among n ns

theorem everyAmong {α : Type} {q : Node α → Prop} {n : Node α} {ns : List (Node α)}
    (h : ∀ n ∈ ns, n.Every q) (among : n.Among ns) : q n := by
  induction among with
  | here member => exact (h _ member).here
  | inside member _ ih => exact ih (h _ member).inside

theorem amongEvery {α : Type} {q : Node α → Prop} {ns : List (Node α)}
    (h : ∀ n, n.Among ns → q n) {n : Node α} (member : n ∈ ns) : n.Every q := by
  refine .intro (h n (.here member)) fun m child => ?_
  have smaller := Nat.lt_of_lt_of_le (List.sizeOf_lt_of_mem child) n.childrenSize
  exact amongEvery (fun k among => h k (.inside member among)) child
termination_by sizeOf n

theorem commonNormal : Common false Normal := .ofOther
    (fun _ plain _ absent => ⟨plain, absent⟩) nofun

end Node

/- What output is allowed that the templates do not put out themselves: none but escaped text. -/
def Policy.safe (known : String → Prop) : Policy where
  markup := Html.Inert
  node n := n.Normal ∧ n.Escaped ∧ ∀ pos s, n = .text pos s → known s
  chunk c := c.text ≠ "" ∧ (known c.text ∨ Html.Inert c.text)
  props _ h := h.1.1

namespace Policy
variable {known : String → Prop}

theorem safeShows : (safe known).Shows true := by
  intro l v obeys other text shown nonempty
  refine ⟨fun empty => ?_, .inr ?_⟩
  · simp only [Chunk.text] at empty
    rw [empty] at nonempty
    contradiction
  · unfold Stage.outputText at shown
    rw [if_pos rfl] at shown
    cases v with
    | markup s =>
      cases shown
      exact obeys.safe
    | object => exact absurd obeys Value.noObject
    | _ =>
      obtain ⟨written, _, rfl⟩ := okMap shown
      exact Html.escapeInert written

theorem safeFits : (safe known).Fits false where
  escaped := ⟨Html.escapeInert, fun s _ inert => Html.appendInert (Html.escapeInert s) inert⟩
  layout _ _ _ plain := ⟨⟨plain, nofun⟩, trivial, nofun⟩
  literal pos s h nonempty := by
    refine ⟨fun empty => ?_, .inl (h.2.2 pos s rfl)⟩
    simp only [Chunk.text] at empty
    rw [empty] at nonempty
    contradiction
  lookup _ _ escape _ h := by
    have escaped : escape = true := h.2.1
    rw [escaped]
    exact safeShows
  call _ _ _ escape _ h := by
    have escaped : escape = true := h.2.1
    rw [escaped]
    exact safeShows
  diagnostic _ _ _ _ h := absurd rfl (h.1.2 _ _ _ _)
  comment absent := by contradiction

end Policy

namespace Engine

theorem builtinTableMember {entries : List (String × Builtin)} {e : String × Function}
    (member : e ∈ builtinTable entries) : ∃ b, e.2 = .builtin b := by
  obtain ⟨d, _, rfl⟩ := List.mem_map.mp member
  exact ⟨d.2, rfl⟩

theorem tableNoHost (name h : String) : (helperTable []).lookup name ≠ some (.host h) ∧
    (filterTable []).lookup name ≠ some (.host h) := by
  refine ⟨fun helper => ?_, fun filter => ?_⟩
  · rcases List.mem_append.mp (Value.lookupMember helper) with builtin | translated
    · obtain ⟨b, same⟩ := builtinTableMember builtin
      cases same
    · simp at translated
  · obtain ⟨b, same⟩ := builtinTableMember (Value.lookupMember filter)
    cases same

theorem newNoHost {e : Engine} (helpers : e.helpers = helperTable [])
    (filters : e.filters = filterTable []) (name h : String) :
    e.helper? name ≠ some (.host h) ∧ e.filter? name ≠ some (.host h) := by
  obtain ⟨helper, filter⟩ := tableNoHost name h
  unfold helper? filter?
  simp only [helpers, filters, Option.orElse_eq_orElse, Option.orElse_eq_or]
  refine ⟨fun found => ?_, fun found => ?_⟩
  · exact (Option.or_eq_some_iff.mp found).elim helper fun other => filter other.2
  · exact (Option.or_eq_some_iff.mp found).elim filter fun other => helper other.2

end Engine

namespace Session

/- The node lists of the templates that a render can come across: the page, and those that are
registered, remembered or loaded. -/
inductive Uses (s : Session) (page : Page) : List (Node Value) → Prop where
  | page : Uses s page page.body
  | registered {kind e} (member : e ∈ s.engine.registered.ofKind kind) : Uses s page e.2.nodes
  | remembered {e} (member : e ∈ s.cache.entries) : Uses s page e.2.nodes
  | loaded {kind name t} (found : s.engine.fetch kind name = .ok t) : Uses s page t.nodes

variable (s : Session) (page : Page)

def Writes (text : String) : Prop := ∃ ns, s.Uses page ns ∧ ∃ pos, (Node.text pos text).Among ns

variable {s page}

theorem usedObey (escaped : ∀ ns, s.Uses page ns → ∀ n : Node Value, n.Among ns → n.Escaped)
    {ns : List (Node Value)} (used : s.Uses page ns) (normal : ∀ n ∈ ns, n.Every Node.Normal) :
    ∀ n ∈ ns, n.Every (Policy.safe (s.Writes page)).node := by
  intro n member
  refine Node.amongEvery (fun m among => ?_) member
  refine ⟨Node.everyAmong normal among, escaped ns used m among, ?_⟩
  rintro pos text rfl
  exact ⟨ns, used, pos, among⟩

/-- Without raw outputs, and with built-in functions alone, all that a render puts out is text of
a template or has no character that could begin or end a tag or a quoted attribute. -/
theorem chunksInert (s : Session) (page : Page) (values : Layer) (o : RenderOptions) (sink : Sink)
    (debug : s.engine.debug = false) (helpers : s.engine.helpers = Engine.helperTable [])
    (filters : s.engine.filters = Engine.filterTable [])
    (escaped : ∀ ns, s.Uses page ns → ∀ n : Node Value, n.Among ns → n.Escaped)
    (nodes : ∀ n ∈ page.body, n.Every Node.Normal) (data : Layer.Plain page.data)
    (registered : ∀ kind, ∀ e ∈ s.engine.registered.ofKind kind, e.2.Every Node.Normal)
    (remembered : ∀ e ∈ s.cache.entries, e.2.Every Node.Normal)
    (globals : Layer.Plain s.engine.globals) (given : Layer.Plain values) :
    ∀ c ∈ (s.render page values o sink).1.chunks,
      c.text ≠ "" ∧ (s.Writes page c.text ∨ Html.Inert c.text) := by
  -- what is loaded is read in normal mode; what is given has to be as if it were
  have obeys : Stage.Obeys (Policy.safe (s.Writes page)) (s.stage sink) := by
    refine ⟨debug ▸ Policy.safeFits, fun kind e member => ?_, fun kind name t found => ?_, globals,
      fun name f found h same => ?_⟩
    · have template := registered kind e member
      exact ⟨usedObey escaped (.registered member) template.nodes, template.data⟩
    · have template := Engine.fetchEvery (debug ▸ Node.commonNormal) found
      exact ⟨usedObey escaped (.loaded found) template.nodes, template.data⟩
    · cases same
      have never := Engine.newNoHost helpers filters name h
      exact found.elim (fun helper => absurd helper never.1) fun filter => absurd filter never.2
  have world : World.Obeys (Policy.safe (s.Writes page))
      { cache := s.cache, objects := s.objects } := by
    refine ⟨fun e member => ?_, List.forall_mem_nil _⟩
    have template := remembered e member
    exact ⟨usedObey escaped (.remembered member) template.nodes, template.data⟩
  have body := usedObey escaped .page nodes
  have before := Stage.beginObeys (o := o) obeys body data given world
  have after := (Stage.pageEnds (o := o) obeys body data given world).obeys obeys before
  intro c member
  exact after.chunks c (List.mem_reverse.mp member)

def cardNodes : List (Node Value) :=
  [.text .start "<b>", .lookup .start "title" true [⟨"escape", []⟩, ⟨"truncate", ["4"]⟩],
    .text .start "</b>", .lookup .start "children" true []]

def cardPage : List (Node Value) :=
  [.component .start "Card" [("title", .text "a<b")] [.call .start "upper" ["user"] true []]]

def cardSession : Session where
  engine :=
    { helpers := Engine.helperTable []
      filters := Engine.filterTable []
      globals := [("site", .text "<Home>")]
      registered := { components := [("Card", ⟨cardNodes, .of cardNodes [] none, "Card", none⟩)] } }
  host := Stage.echoHost

theorem cardEvery : (∀ n ∈ cardNodes, n.Every fun n => n.Normal ∧ n.Escaped) ∧
    ∀ n ∈ cardPage, n.Every fun n => n.Normal ∧ n.Escaped := by
  have nothing : Layer.Plain [] := List.forall_mem_nil _
  refine ⟨fun n member => ?_, fun n member => ?_⟩
  · simp only [cardNodes, List.mem_cons, List.not_mem_nil, or_false] at member
    rcases member with rfl | rfl | rfl | rfl
    all_goals exact .intro ⟨⟨nothing, by simp⟩, by trivial⟩ (List.forall_mem_nil _)
  · rw [List.mem_singleton.mp member]
    refine .intro ⟨⟨fun e inside => ?_, by simp⟩, trivial⟩ fun m inside => ?_
    · rw [List.mem_singleton.mp inside]
      exact .scalar rfl
    · rw [List.mem_singleton.mp inside]
      exact .intro ⟨⟨nothing, by simp⟩, rfl⟩ (List.forall_mem_nil _)

theorem cardInert : cardSession.engine.debug = false ∧
    ∀ c ∈ (cardSession.render (.nodes cardPage) [("user", .text "<i>")] {} .plain).1.chunks,
      c.text ≠ "" ∧ (cardSession.Writes (.nodes cardPage) c.text ∨ Html.Inert c.text) := by
  obtain ⟨card, page⟩ := cardEvery
  have nothing : Layer.Plain [] := List.forall_mem_nil _
  refine ⟨rfl, chunksInert cardSession (.nodes cardPage) [("user", .text "<i>")] {} .plain rfl rfl
    rfl (fun ns used n among => ?_) (fun n member => (page n member).imp fun m h => h.1) nothing
    (fun kind e member => ?_) (List.forall_mem_nil _) (fun e member => ?_)
    fun e member => ?_⟩
  · cases used with
    | page => exact (Node.everyAmong page among).2
    | @registered kind e member =>
      cases kind with
      | component =>
        rw [List.mem_singleton.mp member] at among
        exact (Node.everyAmong card among).2
      | _ => exact absurd member List.not_mem_nil
    | remembered member => exact absurd member List.not_mem_nil
    | @loaded kind name t found => cases kind <;> cases found
  · cases kind with
    | component =>
      rw [List.mem_singleton.mp member]
      exact ⟨fun n member => (card n member).imp fun m h => h.1, nothing⟩
    | _ => exact absurd member List.not_mem_nil
  · rw [List.mem_singleton.mp member]
    exact .scalar rfl
  · rw [List.mem_singleton.mp member]
    exact .scalar rfl

end Session
end Medley

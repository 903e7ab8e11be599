import Medley.Proofs.Render.Safety
import Medley.Proofs.Render.Wrapping
import Medley.Proofs.Text.Pieces

/-! Escaped text read back. Unescaping goes over the whole text once for each entity. An entity
begins with an ampersand and has no other, so a pass finds the characters written as its entity
and no others, and the ampersands that it leaves are still those of entities. -/
namespace Medley

namespace Text
variable {mark : Char} {piece : List Char} (new : List Char)

theorem replacePassed {s : List Char} (absent : mark ∉ s) (t : List Char) :
    replaceFrom (mark :: piece) new 0 (s ++ t) = s ++ replaceFrom (mark :: piece) new 0 t := by
  induction s with
  | nil => rfl
  | cons c s ih =>
    simp only [List.mem_cons, not_or] at absent
    rw [List.cons_append, replaceFrom, if_neg (by simp [absent.1]), ih absent.2, List.cons_append]

theorem replaceSkipped (s t : List Char) :
    replaceFrom piece new s.length (s ++ t) = replaceFrom piece new 0 t := by
  induction s with
  | nil => rfl
  | cons c s ih => rw [List.length_cons, List.cons_append, replaceFrom, ih]

theorem replaceFound (t : List Char) :
    replaceFrom (mark :: piece) new 0 (mark :: piece ++ t) =
      new ++ replaceFrom (mark :: piece) new 0 t := by
  rw [List.cons_append, replaceFrom, if_pos (by simp), List.length_cons, Nat.add_sub_cancel,
    replaceSkipped]

/- In a text of words, of which none has the mark but in front, words are replaced as a whole. -/
theorem replaceWords {α : Type} {word : α → List Char} {s : List α}
    (each : ∀ a ∈ s, word a ≠ mark :: piece →
      mark ∉ (word a).tail ∧ ∀ rest, ¬ mark :: piece <+: word a ++ rest) :
    replace (mark :: piece) new (s.flatMap word) =
      s.flatMap fun a => if word a = mark :: piece then new else word a := by
  change replaceFrom (mark :: piece) new 0 _ = _
  induction s with
  | nil => rfl
  | cons a s ih =>
    obtain ⟨first, later⟩ := List.forall_mem_cons.mp each
    rw [List.flatMap_cons, List.flatMap_cons, ← ih later]
    split
    · rename_i same
      rw [same, replaceFound]
    · rename_i other
      obtain ⟨plain, apart⟩ := first other
      have here := apart (s.flatMap word)
      cases shape : word a with
      | nil => rfl
      | cons c w =>
        rw [shape] at plain here
        rw [List.tail_cons] at plain
        rw [List.cons_append, replaceFrom, if_neg (by simpa using here), replacePassed new plain,
          List.cons_append]

end Text

namespace Html
open Text

def marked : List Char := ['&', '<', '>', '"', '\'']

theorem escapeCharOther {c : Char} (other : c ∉ marked) : escapeChar c = [c] := by
  simp only [marked, List.mem_cons, List.not_mem_nil, or_false, not_or] at other
  simp [escapeChar, other]

theorem escapeCharMarked : ∀ c ∈ marked, escapeChar c = '&' :: (escapeChar c).tail :=
  eachOf (by decide)

theorem escapeCharTail (c : Char) : '&' ∉ (escapeChar c).tail := by
  by_cases among : c ∈ marked
  · have each : ∀ c ∈ marked, '&' ∉ (escapeChar c).tail := eachOf (by decide)
    exact each c among
  · rw [escapeCharOther among]
    exact List.not_mem_nil

theorem escapeCharLong : ∀ c ∈ marked, 3 ≤ (escapeChar c).length := eachOf (by decide)

theorem entityLong : ∀ e ∈ entities, 3 ≤ e.1.length := eachOf (by decide)

theorem entityMarked : ∀ e ∈ entities, e.1 = '&' :: e.1.tail := eachOf (by decide)

theorem entityApart {e : List Char × Char} (known : e ∈ entities) {c : Char} (among : c ∈ marked)
    (other : escapeChar c ≠ e.1) : (escapeChar c).take 3 ≠ e.1.take 3 := by
  have each : ∀ x ∈ entities.product marked, escapeChar x.2 ≠ x.1.1 →
      (escapeChar x.2).take 3 ≠ x.1.1.take 3 := eachOf (by decide)
  exact each (e, c) (List.pair_mem_product.mpr ⟨known, among⟩) other

theorem entityStands {e : List Char × Char} (known : e ∈ entities) {c : Char} (among : c ∈ marked)
    (written : escapeChar c = e.1) : c = e.2 := by
  have each : ∀ x ∈ entities.product marked, escapeChar x.2 = x.1.1 → x.2 = x.1.2 :=
    eachOf (by decide)
  exact each (e, c) (List.pair_mem_product.mpr ⟨known, among⟩) written

theorem singleNoEntity {e : List Char × Char} (known : e ∈ entities) (c : Char) : [c] ≠ e.1 := by
  intro same
  have long := entityLong e known
  rw [← same] at long
  simp at long

/- Text that is escaped but for some characters. -/
def partly (bare : List Char) (c : Char) : List Char := if c ∈ bare then [c] else escapeChar c

theorem partlyShape {bare : List Char} (kept : '&' ∉ bare) (c : Char) :
    (c ≠ '&' ∧ ∀ more, partly (more ++ bare) c = [c]) ∨
      (c ∈ marked ∧ c ∉ bare ∧ partly bare c = escapeChar c) := by
  by_cases inside : c ∈ bare
  · refine .inl ⟨fun same => kept (same ▸ inside), fun more => ?_⟩
    exact if_pos (List.mem_append_right more inside)
  · by_cases among : c ∈ marked
    · exact .inr ⟨among, inside, if_neg inside⟩
    · refine .inl ⟨fun same => among (same ▸ List.mem_cons_self), fun more => ?_⟩
      unfold partly
      rw [escapeCharOther among, ite_self]

/- A pass reads one character back, as long as ampersands are still entities. -/
theorem replaceEntity {bare : List Char} (kept : '&' ∉ bare) {e : List Char × Char}
    (known : e ∈ entities) (due : escapeChar e.2 = e.1 ∨ e.2 ∈ bare) (s : List Char) :
    replace e.1 [e.2] (s.flatMap (partly bare)) = s.flatMap (partly (e.2 :: bare)) := by
  have single := singleNoEntity known
  have front := entityMarked e known
  have words : ∀ c ∈ s, partly bare c ≠ '&' :: e.1.tail →
      '&' ∉ (partly bare c).tail ∧ ∀ rest, ¬ '&' :: e.1.tail <+: partly bare c ++ rest := by
    intro c _ other
    rw [← front] at other ⊢
    rcases partlyShape kept c with ⟨plain, alone⟩ | ⟨among, _, same⟩
    · have alone := alone []
      rw [List.nil_append] at alone
      rw [alone, front]
      exact ⟨List.not_mem_nil, fun rest found => plain (List.cons_prefix_cons.mp found).1.symm⟩
    · rw [same] at other ⊢
      refine ⟨escapeCharTail c, fun rest found => entityApart known among other ?_⟩
      have long := entityLong e known
      have wide := escapeCharLong c among
      have first : (escapeChar c ++ rest).take 3 = (escapeChar c).take 3 :=
        List.take_append_of_le_length wide
      obtain ⟨after, whole⟩ := found
      rw [← first, ← whole, List.take_append_of_le_length long]
  have step := replaceWords [e.2] words
  rw [← front] at step
  rw [step]
  refine congrArg (s.flatMap ·) (funext fun c => ?_)
  rcases partlyShape kept c with ⟨_, alone⟩ | ⟨among, inside, same⟩
  · have before := alone []
    have after := alone [e.2]
    simp only [List.nil_append, List.singleton_append] at before after
    rw [before, after, if_neg (single c)]
  · rw [same]
    by_cases here : c = e.2
    · have written := due.resolve_right (here ▸ inside)
      rw [here, if_pos written, partly, if_pos List.mem_cons_self]
    · have other : escapeChar c ≠ e.1 := fun equal => here (entityStands known among equal)
      rw [if_neg other, partly, if_neg]
      simp [here, inside]

theorem unescapeEscape (s : List Char) : unescape (escape s) = s := by
  have all : escape s = s.flatMap (partly []) := by
    unfold escape
    exact congrArg (s.flatMap ·) (funext fun c => (if_neg List.not_mem_nil).symm)
  have absent : s.flatMap (partly ['&', '\'', '\'', '"', '>', '<']) = s := by
    refine (congrArg (s.flatMap ·) (funext fun c => ?_)).trans (List.flatMap_singleton' s)
    unfold partly
    split
    · rfl
    · rename_i other
      have bare : ∀ c ∈ marked, c ∈ ['&', '\'', '\'', '"', '>', '<'] := eachOf (by decide)
      exact escapeCharOther fun among => other (bare c among)
  unfold unescape entities
  simp only [List.foldl_cons, List.foldl_nil]
  rw [all, replaceEntity (e := ("&lt;".toList, '<')) (by decide) (by decide) (.inl rfl),
    replaceEntity (e := ("&gt;".toList, '>')) (by decide) (by decide) (.inl rfl),
    replaceEntity (e := ("&quot;".toList, '"')) (by decide) (by decide) (.inl rfl),
    replaceEntity (e := ("&#39;".toList, '\'')) (by decide) (by decide) (.inl rfl),
    replaceEntity (e := ("&#x27;".toList, '\'')) (by decide) (by decide) (.inr (by decide)),
    replaceEntity (e := ("&amp;".toList, '&')) (by decide) (by decide) (.inl rfl), absent]

theorem ampersandBegins {s after : List Char} (h : '&' :: after <:+ escape s) :
    ∃ c ∈ marked, escapeChar c <+: '&' :: after := by
  induction s with
  | nil => cases List.suffix_nil.mp h
  | cons c s ih =>
    have whole : escape (c :: s) = escapeChar c ++ escape s := List.flatMap_cons
    have later : ∀ tail, '&' ∉ tail → '&' :: after <:+ tail ++ escape s →
        '&' :: after <:+ escape s := by
      intro tail absent found
      induction tail with
      | nil => exact found
      | cons d tail more =>
        rw [List.mem_cons, not_or] at absent
        rcases List.suffix_cons_iff.mp found with here | rest
        · exact absurd (List.cons.inj here).1 absent.1
        · exact more absent.2 rest
    rw [whole] at h
    by_cases among : c ∈ marked
    · have shape := escapeCharMarked c among
      rw [shape, List.cons_append] at h
      rcases List.suffix_cons_iff.mp h with here | rest
      · refine ⟨c, among, ?_⟩
        rw [here, shape]
        exact ⟨escape s, rfl⟩
      · exact ih (later _ (escapeCharTail c) rest)
    · rw [escapeCharOther among] at h
      refine ih (later [c] (fun member => among ?_) h)
      rw [← List.mem_singleton.mp member]
      exact List.mem_cons_self

end Html

namespace Stage
variable {s : Stage}

theorem lookupWrites (plain : s.sink = .plain) (c : RenderContext) (level : Nat) {scope : Scope}
    {path text : String} (found : s.resolve scope path = .text text) (pos : Position) :
    Run.Writes (s.nodes c level scope [.lookup pos path true []])
      ([Chunk.value (Html.escapeText text)].filter fun chunk => !chunk.text.isEmpty) := by
  have value : s.applyFilters c scope [] (s.resolve scope path) = pure (.text text) := by
    rw [found]
    rfl
  have output : s.output? c (pure (.text text)) = pure (some (.text text)) := rfl
  have shown : outputText true (.text text) = .ok (Html.escapeText text) := rfl
  rw [nodesSingle, node, value, Stage.written, output, pure_bind]
  dsimp only
  rw [shown, plain, List.filter_singleton]
  change Run.Writes (if (Html.escapeText text).isEmpty then pure () else _) _
  cases empty : (Html.escapeText text).isEmpty with
  | true => simpa [Chunk.text, empty] using Run.Writes.pure
  | false => simpa [Chunk.text, empty] using Run.Writes.emit _

end Stage

namespace Session

def shownValue : String := "\x7b\x7b value \x7d\x7d"

def shownTemplate (name filename : Option String) : Template :=
  ⟨[.lookup .start "value" true []], Metadata.of [.lookup .start "value" true []] [] none, name,
    filename⟩

theorem readShown (e : Engine) (name filename : Option String) :
    e.read shownValue name filename = .ok (shownTemplate name filename) := by
  have whole : shownValue.toList =
      Written.outputTag .braces true (Written.expression "value" [] []) ++ [] := by
    decide
  have unfenced : Frontmatter.split shownValue.toList = none :=
    Frontmatter.splitNone fun c first => by cases first; decide
  have reading : Reading.ofSource e.debug .start shownValue.toList =
      ⟨[.lookup .start "value" true []], []⟩ := by
    have name : Token.isName "value".toList = true := by decide
    rw [whole, Reading.ofSource,
      Builder.readLookup e.debug .start _ .braces true name (List.forall_mem_nil _) [],
      Builder.readNil]
    rfl
  unfold Engine.read Template.read
  dsimp only
  rw [unfenced, ite_self]
  change Except.ok (Template.assemble _ [] 0 shownValue.toList).template = _
  unfold Template.assemble
  dsimp only
  exact congrArg (fun r : Reading => Except.ok (Template.mk r.nodes (Metadata.of r.nodes [] none)
    name filename)) reading

theorem renderShown (s : Session) (name filename : Option String) {values : Layer} {text : String}
    (given : values.lookup "value" = some (.text text)) (o : RenderOptions) :
    (s.render (.template (shownTemplate name filename)) values { o with layout := none }
      .plain).1.output = .ok (Html.escapeText text) := by
  have alone : (Page.template (shownTemplate name filename)).layout? none = none := rfl
  have seen : (s.stage .plain).resolve [[], values, s.engine.globals] "value" = .text text := by
    refine Stage.resolveName (by decide) ?_
    rw [Scope.lookup?, List.findSome?_cons, List.lookup_nil]
    simp [given]
  rw [renderOutput, Stage.pageOutput rfl rfl alone]
  refine ((Stage.lookupWrites rfl _ 0 seen _).output rfl).trans (congrArg Except.ok ?_)
  rw [List.filter_singleton]
  cases empty : (Html.escapeText text).isEmpty with
  | true => simpa [Chunk.text, empty] using (String.isEmpty_iff.mp empty).symm
  | false => simp [Chunk.text, empty]

/-- Escaping leaves no special character and no ampersand that begins no entity, and unescaping
takes it back, also from the output of a template. -/
theorem escapingReversible (text : String) :
    (∀ c ∈ (Html.escapeText text).toList, c ≠ '<' ∧ c ≠ '>' ∧ c ≠ '"' ∧ c ≠ '\'') ∧
      (∀ before after, (Html.escapeText text).toList = before ++ '&' :: after →
        ∃ entity ∈ ["&amp;", "&lt;", "&gt;", "&quot;", "&#39;"],
          entity.toList <+: '&' :: after) ∧
      Html.unescapeText (Html.escapeText text) = text ∧
      ∀ (s : Session) (name filename : Option String) (values : Layer) (o : RenderOptions),
        values.lookup "value" = some (.text text) →
          ∃ t html, s.engine.read shownValue name filename = .ok t ∧
            (s.render (.template t) values { o with layout := none } .plain).1.output = .ok html ∧
              Html.unescapeText html = text := by
  have back : Html.unescapeText (Html.escapeText text) = text := by
    unfold Html.unescapeText Html.escapeText
    rw [String.toList_ofList, Html.unescapeEscape, String.ofList_toList]
  refine ⟨fun c member => ?_, fun before after same => ?_, back, ?_⟩
  · simpa [Html.isSpecial, and_assoc] using Html.escapeInert text c member
  · have ends : '&' :: after <:+ Html.escape text.toList := by
      rw [Html.escapeText, String.toList_ofList] at same
      exact ⟨before, same.symm⟩
    obtain ⟨c, among, begins⟩ := Html.ampersandBegins ends
    have listed : ∀ c ∈ Html.marked, ∃ entity ∈ ["&amp;", "&lt;", "&gt;", "&quot;", "&#39;"],
        entity.toList = Html.escapeChar c := Text.eachOf (by decide)
    obtain ⟨entity, known, here⟩ := listed c among
    exact ⟨entity, known, here ▸ begins⟩
  · intro s name filename values o given
    refine ⟨_, _, readShown s.engine name filename, ?_, back⟩
    exact renderShown s name filename given o

def entangled : String := "&amp;lt; <b title='&#x27;'> & &quo"

theorem entangledReversible :
    ([("value", .text entangled)] : Layer).lookup "value" = some (.text entangled) ∧
      Html.escapeText entangled =
        "&amp;amp;lt; &lt;b title=&#39;&amp;#x27;&#39;&gt; &amp; &amp;quo" ∧
      ∃ t html, Engine.read {} shownValue none none = .ok t ∧
        (render { engine := {}, host := Stage.echoHost } (.template t)
          [("value", .text entangled)] {} .plain).1.output = .ok html ∧
            Html.unescapeText html = entangled := by
  have given : ([("value", .text entangled)] : Layer).lookup "value" = some (.text entangled) := rfl
  refine ⟨given, by decide +kernel, ?_⟩
  exact (escapingReversible entangled).2.2.2 { engine := {}, host := Stage.echoHost } none none _ {}
    given

end Session
end Medley

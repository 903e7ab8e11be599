import Mathlib
import Medley.Proofs.Render.Halting
import Medley.Proofs.Render.Output
import Medley.Proofs.Render.Paired

/-! The locale asked for. A render that is asked for a locale translates as one whose translator
speaks it by itself: what is different is the metadata, and that only translations can tell. -/
namespace Medley

def Meta.aside (entries : Meta) : Meta := entries.filter fun e => e.1 != "locale"

/- Functions of the host program give the same whatever the locale is. They leave it alone or set
one. -/
structure Host.Unspoken (h : Host) : Prop where
  answers : ∀ name args active m m' n, m'.aside = m.aside →
    (h.call name args active m' n).1 = (h.call name args active m n).1 ∧
      (h.call name args active m' n).2.aside = (h.call name args active m n).2.aside
  locale : ∀ name args active m m' n, m'.aside = m.aside →
    ((h.call name args active m n).2.locale = m.locale ∧
        (h.call name args active m' n).2.locale = m'.locale) ∨
      ((h.call name args active m' n).2.locale = (h.call name args active m n).2.locale ∧
        (h.call name args active m n).2.locale.isGiven = true)

/- The first metadata have the locale and the second none, until both are given one. -/
structure Meta.Speaks (locale : String) (m m' : Meta) : Prop where
  aside : m'.aside = m.aside
  locale : (m.locale = .text locale ∧ m'.locale.isGiven = false) ∨
    (m'.locale = m.locale ∧ m.locale.isGiven = true)

theorem Host.Unspoken.pairs {h : Host} (unspoken : h.Unspoken) (locale : String) :
    h.Pairs (Meta.Speaks locale) Eq where
  counts _ _ same := same ▸ rfl
  answers name args active m m' n n' speaks same := by
    subst same
    obtain ⟨answer, aside⟩ := unspoken.answers name args active m m' n speaks.aside
    refine ⟨answer, aside, ?_⟩
    rcases unspoken.locale name args active m m' n speaks.aside with ⟨left, right⟩ | spoken
    · rw [left, right]
      exact speaks.locale
    · exact .inr spoken

namespace Translator

def speaking (t : Translator) (locale : String) : Translator := { t with locale }

theorem activeSpeaking (t : Translator) (own : String) {locale : String} (named : locale ≠ "")
    {m m' : Meta} (speaks : m.Speaks locale m') (asked : Value) :
    (t.speaking locale).active asked m'.locale = (t.speaking own).active asked m.locale := by
  have given : (Value.text locale).isGiven = true := by simpa [Value.isGiven] using named
  unfold active
  rcases speaks.locale with ⟨left, right⟩ | ⟨same, spoken⟩
  · rw [left, right, given]
    rfl
  · rw [same, spoken]
    rfl

/- What a translation gives is settled by the texts and the locale that is active. -/
section
variable {t t' : Translator} (tables : t'.tables = t.tables) (fallback : t'.fallback = t.fallback)
  {args args' : List Value} {current current' : Value}
include tables fallback

theorem foundSame (key locale : String) : t'.found? key locale = t.found? key locale := by
  simp only [found?, text?, table, tables, fallback]

theorem translateActive
    (arity : Function.translateSignature.refusal? args'.length =
      Function.translateSignature.refusal? args.length)
    (key : Builtin.arg args' 0 .null = Builtin.arg args 0 .null)
    (active : t'.active (Builtin.arg args' 1 .null) current' =
      t.active (Builtin.arg args 1 .null) current) :
    Function.translateArgs t' current' args' = Function.translateArgs t current args := by
  unfold Function.translateArgs
  simp only [arity, key, active, foundSame tables fallback]

theorem pluralActive
    (arity : Function.pluralSignature.refusal? args'.length =
      Function.pluralSignature.refusal? args.length)
    (key : Builtin.arg args' 0 .null = Builtin.arg args 0 .null)
    (count : Builtin.arg args' 1 .null = Builtin.arg args 1 .null)
    (active : t'.active (Builtin.arg args' 2 .null) current' =
      t.active (Builtin.arg args 2 .null) current) :
    Function.pluralArgs t' current' args' = Function.pluralArgs t current args := by
  unfold Function.pluralArgs translatePlural translate
  simp only [arity, key, count, active, foundSame tables fallback]

end

theorem speakingPairs (t : Translator) (own : String) {locale : String} (named : locale ≠ "") :
    (t.speaking own).Pairs (t.speaking locale) (Meta.Speaks locale) where
  translate m m' args speaks := by
    have active := activeSpeaking t own named speaks (Builtin.arg args 1 .null)
    refine translateActive ?_ ?_ ?_ ?_ active <;> rfl
  plural m m' args speaks := by
    have active := activeSpeaking t own named speaks (Builtin.arg args 2 .null)
    refine pluralActive ?_ ?_ ?_ ?_ ?_ active <;> rfl

/- What is given comes before what the render and the translator speak. -/
theorem activeGiven (t : Translator) (current : Value) {given : Value}
    (present : given.isGiven = true) : t.active given current = given.writing := if_pos present

theorem givenWins (t : Translator) (current other : Value) (own : String) (key count : Value)
    {given : Value} (present : given.isGiven = true) :
    Function.translateArgs (t.speaking own) other [key, given] =
        Function.translateArgs t current [key, given] ∧
      Function.pluralArgs (t.speaking own) other [key, count, given] =
        Function.pluralArgs t current [key, count, given] := by
  have active : (t.speaking own).active given other = t.active given current :=
    (activeGiven _ other present).trans (activeGiven t current present).symm
  constructor
  · refine translateActive ?_ ?_ ?_ ?_ active <;> rfl
  · refine pluralActive ?_ ?_ ?_ ?_ ?_ active <;> rfl

theorem givenSpoken (t : Translator) (current key count : Value) {given : Value} {name : String}
    (present : given.isGiven = true) (named : given.writing = .ok name) :
    Function.translateArgs t current [key, given] =
        Function.translateArgs (t.speaking name) .null [key] ∧
      Function.pluralArgs t current [key, count, given] =
        Function.pluralArgs (t.speaking name) .null [key, count] := by
  have active : t.active given current = (t.speaking name).active .null .null :=
    (activeGiven t current present).trans named
  constructor
  · refine translateActive ?_ ?_ ?_ ?_ active <;> rfl
  · refine pluralActive ?_ ?_ ?_ ?_ ?_ active <;> rfl

end Translator

namespace Session

def speaking (s : Session) (locale : String) : Session :=
  { s with engine := { s.engine with translator := s.engine.translator.speaking locale } }

/-- Asking for a locale is the same as having a translator that speaks it, at every depth and in
every slot. A locale that a translation itself is given wins over that of the render and that of the
translator. -/
theorem askedAsSpoken (s : Session) (unspoken : s.host.Unspoken) (p : Page) (values : Layer)
    (layout : Option String) (sink : Sink) (own : String) {locale : String} (named : locale ≠ "") :
    let asked :=
      ((s.speaking own).render p values { layout, locale := .text locale } sink).1
    let spoken := ((s.speaking locale).render p values { layout } sink).1
    (asked.result = spoken.result ∧ asked.chunks = spoken.chunks) ∧
      ∀ (t : Translator) (current key count given : Value), given.isGiven = true →
        (∀ (other : Value) (native : String),
          Function.translateArgs (t.speaking native) other [key, given] =
              Function.translateArgs t current [key, given] ∧
            Function.pluralArgs (t.speaking native) other [key, count, given] =
              Function.pluralArgs t current [key, count, given]) ∧
        ∀ name, given.writing = .ok name →
          Function.translateArgs t current [key, given] =
              Function.translateArgs (t.speaking name) .null [key] ∧
            Function.pluralArgs t current [key, count, given] =
              Function.pluralArgs (t.speaking name) .null [key, count] := by
  refine ⟨?_, fun t current key count _ present =>
    ⟨fun other native => t.givenWins current other native key count present,
      fun _ named => t.givenSpoken current key count present named⟩⟩
  have alike : (s.speaking own).engine.Alike .all Eq (s.speaking locale).engine :=
    Engine.alikeSame (fun _ _ _ => rfl) fun _ _ _ => rfl
  have given : (Value.text locale).isGiven = true := by simpa [Value.isGiven] using named
  have metadata : RenderOptions.metadata { layout, locale := .text locale } =
      [("locale", .text locale)] := by
    unfold RenderOptions.metadata
    rw [if_pos given]
    rfl
  have speaks : Meta.Speaks locale [("locale", .text locale)] [] := ⟨rfl, .inl ⟨rfl, rfl⟩⟩
  obtain ⟨result, after⟩ := Stage.pagePaired sink (unspoken.pairs locale)
    (s.engine.translator.speakingPairs own named) alike rfl rfl rfl rfl rfl p values
    { layout, locale := .text locale } { layout } rfl { cache := s.cache, objects := s.objects }
    { cache := s.cache, objects := s.objects } ⟨rfl, metadata ▸ speaks, rfl, rfl⟩
  exact ⟨result.symm, (congrArg List.reverse after.chunks).symm⟩

/- The one function among the values makes the rest of a render French. -/
def frenchman : Session where
  engine :=
    { helpers := Engine.helperTable []
      filters := Engine.filterTable []
      translator :=
        { tables :=
            [(.text "de", [("hi", "Hallo")]), (.text "en", [("hi", "Hello")]),
              (.text "fr", [("hi", "Salut")])] } }
  host :=
    { Stage.echoHost with
      call := fun _ _ _ entries _ => (.ok (.text "!"), setProp entries "locale" (.text "fr")) }

theorem asideLocale (entries : Meta) (v : Value) :
    Meta.aside (setProp entries "locale" v) = entries.aside := by
  unfold Meta.aside
  induction entries with
  | nil => rfl
  | cons e entries ih =>
    rw [setProp]
    split
    · rename_i same
      simp [same]
    · rw [List.filter_cons, List.filter_cons, ih]

theorem frenchmanUnspoken : frenchman.host.Unspoken := by
  have after : ∀ name args active m n, (frenchman.host.call name args active m n).2 =
      setProp m "locale" (.text "fr") := fun _ _ _ _ _ => rfl
  have spoken : ∀ m : Meta, Meta.locale (setProp m "locale" (.text "fr")) = .text "fr" := by
    intro m
    rw [Meta.locale, lookupSetProp]
    rfl
  refine ⟨fun _ _ _ _ _ _ same => ⟨rfl, ?_⟩, fun _ _ _ _ _ _ _ => .inr ⟨?_, ?_⟩⟩
  · rw [after, after, asideLocale, asideLocale, same]
  · rw [after, after, spoken, spoken]
  · rw [after, spoken]
    rfl

def greetings : Page :=
  .nodes [.call .start "t" ["'hi'"] true [], .call .start "map" ["xs", "f"] true [],
    .call .start "t" ["'hi'"] true []]

theorem frenchmanAsked : frenchman.host.Unspoken ∧ "de" ≠ "" ∧
    let values : Layer := [("f", .function "f" ""), ("xs", .list [.int 1])]
    let asked :=
      ((frenchman.speaking "en").render greetings values { locale := .text "de" } .plain).1
    let spoken := ((frenchman.speaking "de").render greetings values {} .plain).1
    asked.chunks = [.value "Hallo", .value "!", .value "Salut"] ∧
      asked.result = spoken.result ∧ asked.chunks = spoken.chunks := by
  have german : "de" ≠ "" := by decide
  obtain ⟨same, _⟩ := askedAsSpoken frenchman frenchmanUnspoken greetings
    [("f", .function "f" ""), ("xs", .list [.int 1])] none .plain "en" german
  refine ⟨frenchmanUnspoken, german, ?_, same⟩
  cbv

def eavesdropper : Session where
  engine := { helpers := Engine.helperTable [], filters := Engine.filterTable [] }
  host :=
    { Stage.echoHost with
      call := fun _ _ _ entries _ =>
        (.ok ((entries.lookup "locale").getD (.text "unset")), entries) }

def eavesdropping : Page := .nodes [.call .start "map" ["xs", "f"] true []]

def overheard : Layer := [("f", .function "locale" ""), ("xs", .list [.int 1])]

theorem localeTold : ¬ ∀ (s : Session) (p : Page) (values : Layer) (own locale : String),
    s.engine.helpers = Engine.helperTable [] → s.engine.filters = Engine.filterTable [] →
      locale ≠ "" →
        ((s.speaking own).render p values { locale := .text locale } .plain).1.output =
          ((s.speaking locale).render p values {} .plain).1.output := by
  intro same
  have both := same eavesdropper eavesdropping overheard "en" "fr" rfl rfl (by decide)
  rw [renderOutput, renderOutput, Stage.pageOutput rfl rfl rfl, Stage.pageOutput rfl rfl rfl]
    at both
  simp only [eavesdropping, Page.body, Stage.nodes, Stage.node, Stage.written, Stage.applyHelper]
    at both
  cases both

end Session
end Medley

import Medley.Proofs.Engine.Refusals
import Medley.Proofs.Render.Halting
import Medley.Proofs.Session.Staleness
import Medley.Proofs.Session.Uncached

/-! Loads that fail. While sources stay as they are, what is remembered under a key is what its names
would read, so an environment that remembers templates loads them, or fails to, as one that does
not. Both fail by a template that is missing or cannot be loaded; but a name may have no key, and an
integer of the page data may be too long. -/
namespace Medley

namespace Engine
variable {e : Engine} {c : Cache}

/- What is remembered under a key is what its names would read. -/
def Recalls (e : Engine) (c : Cache) : Prop :=
  ∀ kind name key t, e.loader.cacheKey kind name = .ok key → c.find? ⟨kind, key⟩ = some t →
    (e.fetch kind name).map Template.content = .ok t.content

theorem recallsNothing (empty : c.entries = []) : e.Recalls c := by
  intro kind name key t _ found
  simp [Cache.find?, empty] at found

theorem Recalls.afterLoad (recalls : e.Recalls c) (sound : e.loader.Sound) (kind : Kind)
    (name : String) : e.Recalls (e.afterLoad c kind name) := by
  intro kind' name' key t keyed found
  rcases e.afterLoadFind c kind name ⟨kind', key⟩ with same | ⟨own, _, t', read, put⟩
  · exact recalls kind' name' key t keyed (same ▸ found)
  · -- the key was put there just now, for a name with the same source
    obtain ⟨rfl, first⟩ := cacheKeySome own
    rw [put] at found
    cases found
    exact fetchOfKey sound first keyed read

theorem Recalls.loaded (recalls : e.Recalls c) {kind : Kind} {name : String}
    (keyed : e.cached = true → ∃ key, e.loader.cacheKey kind name = .ok key) :
    (e.loaded c kind name).map Template.content = (e.fetch kind name).map Template.content := by
  unfold Engine.loaded cacheKey?
  split
  · rename_i cached
    obtain ⟨key, known⟩ := keyed cached
    rw [known]
    dsimp only [bind, Except.bind, pure, Except.pure]
    cases found : c.find? ⟨kind, key⟩ with
    | none => rfl
    | some t => exact (recalls kind name key t known found).symm
  · rfl

theorem loadedUnkeyed {kind : Kind} {name : String} {f : Fault} (cached : e.cached = true)
    (refused : e.loader.cacheKey kind name = .error f) : e.loaded c kind name = .error f := by
  unfold loaded cacheKey?
  rw [if_pos cached, refused]
  rfl

end Engine

namespace Upkeep

def Still : Upkeep → Prop
  | change _ _ => False
  | _ => True

end Upkeep

namespace Session
variable {s : Session}

theorem settleRecalls (recalls : s.engine.Recalls s.cache) (d : Debouncer)
    (report : Option Debouncer.Report) :
    (s.settle d report).2.engine = s.engine ∧
      s.engine.Recalls (s.settle d report).2.cache := by
  cases report with
  | none => exact ⟨rfl, recalls⟩
  | some r => exact ⟨rfl, Engine.recallsNothing rfl⟩

theorem nextRecalls (sound : s.engine.loader.Sound) (recalls : s.engine.Recalls s.cache)
    {step : Upkeep} (still : step.Still) :
    (s.next step).engine = s.engine ∧ s.engine.Recalls (s.next step).cache := by
  cases step with
  | change loader tree => exact absurd still id
  | load kind name =>
    rw [next, (s.loadGives kind name).2]
    exact ⟨rfl, recalls.afterLoad sound kind name⟩
  | find kind name =>
    rw [next, (s.findGives kind name).2]
    exact ⟨rfl, recalls.afterLoad sound kind name⟩
  | clearCache => exact ⟨rfl, Engine.recallsNothing rfl⟩
  | notify path => exact settleRecalls recalls _ _
  | flush => exact settleRecalls recalls _ _
  | cancel => exact ⟨rfl, recalls⟩

theorem afterRecalls (sound : s.engine.loader.Sound) (fresh : s.cache.entries = [])
    {past : History} (still : ∀ step ∈ past, step.Still) :
    (s.after past).engine = s.engine ∧ s.engine.Recalls (s.after past).cache := by
  induction past with
  | nil => exact ⟨rfl, Engine.recallsNothing fresh⟩
  | cons step past ih =>
    obtain ⟨same, recalls⟩ := ih fun step member => still step (List.mem_cons_of_mem _ member)
    have next := nextRecalls (same ▸ sound) (same ▸ recalls) (still step List.mem_cons_self)
    rw [same] at next
    exact next

def withCache (s : Session) (cached : Bool) : Session :=
  { s with engine := s.engine.withCache cached }

/-- Where a name has a key, or none is asked for, a load gives what it gives without a cache, and it
fails by a template that is missing or cannot be loaded, which is none to who asks for it if there
is one; an integer that is too long in the page data is all that goes beyond that. -/
theorem failuresDocumented (fresh : s.cache.entries = []) (sound : s.engine.loader.Sound)
    (documented : s.engine.loader.Documented) {past : History} (still : ∀ step ∈ past, step.Still)
    (kind : Kind) (name : String) :
    let t := s.after past
    let anew := s.withCache false
    (∀ f, s.engine.cached = true → s.engine.loader.cacheKey kind name = .error f →
      (t.load kind name).1.result = .error f ∧ (t.load? kind name).1.result = .error f) ∧
    ((s.engine.cached = true → ∃ key, s.engine.loader.cacheKey kind name = .ok key) →
      ((t.load kind name).1.result.map Template.content =
          (anew.load kind name).1.result.map Template.content ∧
        (t.load? kind name).1.result.map (Option.map Template.content) =
          (anew.load? kind name).1.result.map (Option.map Template.content)) ∧
      (∀ a, (t.load kind name).1.result = .ok a → (t.load? kind name).1.result = .ok (some a)) ∧
      ∀ f, (t.load kind name).1.result = .error f →
        ((f.kind = "TemplateNotFoundError" ∨ f.kind = "TemplateLoadError") ∧
            (t.load? kind name).1.result = .ok none) ∨
          (f.IsOverlong ∧ (t.load? kind name).1.result = .error f)) := by
  dsimp only
  obtain ⟨same, recalls⟩ := afterRecalls sound fresh still
  rw [(loadGives _ kind name).1, (findGives _ kind name).1, (loadGives _ kind name).1,
    (findGives _ kind name).1, same]
  have anew : (s.withCache false).engine.loaded (s.withCache false).cache kind name =
      s.engine.fetch kind name := rfl
  rw [anew]
  refine ⟨fun f cached refused => ?_, fun keyed => ⟨?_, fun a found => ?_, fun f failed => ?_⟩⟩
  · have other := Loader.keyFault documented refused
    rw [Engine.loadedUnkeyed cached refused]
    exact ⟨rfl, by simp [Engine.ifFound, other]⟩
  · have content := recalls.loaded keyed
    rw [Engine.ifFoundMap, Engine.ifFoundMap, content]
    exact ⟨rfl, rfl⟩
  · rw [found]
    rfl
  · have read : s.engine.fetch kind name = .error f := by
      refine (Engine.loadedFault failed).resolve_left fun refused => ?_
      obtain ⟨cached, refused⟩ := Engine.cacheKeyFault refused
      obtain ⟨key, known⟩ := keyed cached
      rw [refused] at known
      cases known
    rw [failed]
    rcases Engine.fetchFault documented read with loading | long
    · exact .inl ⟨loading.kind, by simp [Engine.ifFound, loading.ofTemplate]⟩
    · exact .inr ⟨long, by simp [Engine.ifFound, long.ofTemplate]⟩

def viewsSession (cached : Bool) : Session where
  engine :=
    { loader := .files (.ofOptions "views" none none none ".html" "utf-8")
      tree := .ofTexts ["srv"] [("views/home.html", "Hi".toUTF8.toList)]
      cached := cached }
  host := Stage.echoHost

theorem homeLoads :
    ((viewsSession true).cache.entries = [] ∧ (viewsSession true).engine.loader.Sound ∧
        (viewsSession true).engine.loader.Documented) ∧
      ((viewsSession true).after [.find .page "missing", .load .page "home.html"]
          |>.load .page "home").1.result.map Template.content =
        (((viewsSession true).withCache false).load .page "home").1.result.map
          Template.content := by
  have sound : (viewsSession true).engine.loader.Sound :=
    Directories.ofOptionsSound "views" none none none ".html" "utf-8"
  have still : ∀ step ∈ [Upkeep.find .page "missing", .load .page "home.html"], step.Still := by
    intro step member
    simp only [List.mem_cons, List.not_mem_nil, or_false] at member
    rcases member with rfl | rfl <;> trivial
  have keyed : (viewsSession true).engine.loader.cacheKey .page "home" = .ok "views/home.html" := by
    decide +kernel
  obtain ⟨_, known⟩ :=
    failuresDocumented (s := viewsSession true) rfl sound trivial still .page "home"
  exact ⟨⟨rfl, sound, trivial⟩, (known fun _ => ⟨_, keyed⟩).1.1⟩

/- The top of all paths has no last part for a suffix, which only the key of a template is in need
of before anything is looked for. -/
theorem rootUnkeyed : ¬ ∀ (name : String) (cached : Bool),
    ∃ o, ((viewsSession cached).load? .page name).1.result = .ok o := by
  intro loads
  obtain ⟨o, found⟩ := loads "/" true
  have refused : (viewsSession true).engine.loader.cacheKey .page "/" =
      .error (.emptyPathName "'/'") := by decide +kernel
  rw [(findGives _ .page "/").1, Engine.loadedUnkeyed rfl refused] at found
  cases found

end Session
end Medley

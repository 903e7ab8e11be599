import Medley.Proofs.Files.Pathname
import Medley.Proofs.Render.Steps
import Medley.Proofs.Template.Made

/-! Loading a template with a cache. What a load gives, and what is remembered after it, depends on
the world only through the templates remembered before. Loads do not change what later loads give,
but for the name a template goes by: names with one key have one source. -/
namespace Medley

namespace Cache

theorem findPut (c : Cache) (k k' : CacheKey) (t : Template) :
    (c.put k t).find? k' = if k' = k then some t else c.find? k' := by
  unfold put find?
  dsimp only
  generalize c.entries = entries
  induction entries with
  | nil =>
    by_cases same : k' = k
    · simp [putEntry, same]
    · have apart : (k' == k) = false := by simpa using same
      simp [putEntry, same, List.lookup_cons, apart]
  | cons e entries ih =>
    rw [putEntry]
    by_cases front : e.1 = k
    · rw [if_pos front]
      by_cases same : k' = k
      · simp [same]
      · have apart : (k' == e.1) = false := by simpa [front] using same
        have other : (k' == k) = false := by simpa using same
        obtain ⟨key, value⟩ := e
        dsimp only at apart
        simp [List.lookup_cons, apart, other, same]
    · rw [if_neg front]
      obtain ⟨key, value⟩ := e
      dsimp only at front
      by_cases here : k' = key
      · have apart : ¬ k' = k := fun same => front (here.symm.trans same)
        simp [here, front]
      · have apart : (k' == key) = false := by simpa using here
        simp only [List.lookup_cons, apart, ih]

end Cache

namespace Template

def content (t : Template) : List (Node Value) × Metadata := (t.nodes, t.metadata)

theorem readContent (o : ReadOptions) (name filename : Option String) (source : String) :
    (read { o with name, filename } source).map (fun out => (out.template.content, out.issues)) =
      (read o source).map fun out => (out.template.content, out.issues) := by
  unfold read
  dsimp only
  cases (if o.frontmatter then Frontmatter.split source.toList else none) with
  | none => rfl
  | some split =>
    dsimp only
    cases Frontmatter.data split.block <;> rfl

end Template

namespace Engine
variable {e : Engine}

theorem fetchRead {kind : Kind} {name : String} {t : Template}
    (found : e.fetch kind name = .ok t) :
    ∃ issues, t.ReadWith e.debug issues := by
  unfold fetch at found
  split at found
  · contradiction
  · rename_i source filename _
    obtain ⟨out, read, rfl⟩ := okMap found
    exact ⟨out.issues, _, source, rfl, read⟩

/- What a load gives, what is remembered after it, and what a reference stands for, as functions of
what is remembered before. -/
def loaded (e : Engine) (c : Cache) (kind : Kind) (name : String) : Except Fault Template := do
  match ← e.cacheKey? kind name with
  | none => e.fetch kind name
  | some key => match c.find? key with
    | some t => .ok t
    | none => e.fetch kind name

def afterLoad (e : Engine) (c : Cache) (kind : Kind) (name : String) : Cache :=
  match e.cacheKey? kind name with
  | .ok (some key) => match c.find? key with
    | some _ => { c with hits := c.hits + 1 }
    | none => match e.fetch kind name with
      | .ok t => { c with misses := c.misses + 1 }.put key t
      | .error _ => { c with misses := c.misses + 1 }
  | _ => c

def ifFound {α : Type} (load : Except Fault α) : Except Fault (Option α) :=
  match load with
  | .ok t => .ok (some t)
  | .error f => if f.ofTemplate then .ok none else .error f

theorem ifFoundMap {α β : Type} (f : α → β) (load : Except Fault α) :
    (ifFound load).map (Option.map f) = ifFound (load.map f) := by
  cases load with
  | ok a => rfl
  | error fault =>
    simp only [ifFound, Except.map]
    cases fault.ofTemplate <;> rfl

theorem ifFoundSome {α : Type} {x : Except Fault α} {a : α} (h : ifFound x = .ok (some a)) :
    x = .ok a := by
  cases x with
  | ok b => cases h; rfl
  | error fault =>
    simp only [ifFound] at h
    split at h <;> cases h

def resolved (e : Engine) (c : Cache) (kind : Kind) (name : String) :
    Except Fault (Option Template) :=
  match (e.registered.ofKind kind).lookup name with
  | some t => .ok (some t)
  | none => ifFound (e.loaded c kind name)

def afterResolve (e : Engine) (c : Cache) (kind : Kind) (name : String) : Cache :=
  match (e.registered.ofKind kind).lookup name with
  | some _ => c
  | none => e.afterLoad c kind name

theorem resolvedFrom {c : Cache} {kind : Kind} {name : String} {t : Template}
    (found : e.resolved c kind name = .ok (some t)) :
    (name, t) ∈ e.registered.ofKind kind ∨ (∃ key, (key, t) ∈ c.entries) ∨
      e.fetch kind name = .ok t := by
  unfold resolved at found
  split at found
  · rename_i known
    cases found
    exact .inl (Value.lookupMember known)
  · have loaded := ifFoundSome found
    unfold Engine.loaded at loaded
    obtain ⟨key?, _, loaded⟩ := okBind loaded
    split at loaded
    · exact .inr (.inr loaded)
    · split at loaded
      · rename_i remembered
        cases loaded
        exact .inr (.inl ⟨_, Value.lookupMember remembered⟩)
      · exact .inr (.inr loaded)

theorem onRemembered (key : CacheKey) (w : World) :
    (remembered? key).on w =
      (.ok (w.cache.find? key), { w with cache := (w.cache.get key).2 }) := by
  unfold remembered? Cache.get
  rw [Run.onBindOk (Run.onGet w)]
  cases w.cache.find? key <;> rfl

theorem onOfExcept {α : Type} (x : Except Fault α) (w : World) :
    (Run.ofExcept x).on w = (x, w) := by
  cases x <;> rfl

theorem onLoad (e : Engine) (kind : Kind) (name : String) (w : World) : ∃ logs,
    (e.load kind name).on w = (e.loaded w.cache kind name,
      { w with cache := e.afterLoad w.cache kind name, logs := logs }) := by
  unfold load loaded afterLoad
  have keyed := onOfExcept (e.cacheKey? kind name) w
  cases known : e.cacheKey? kind name with
  | error fault =>
    rw [known] at keyed
    exact ⟨w.logs, Run.onBindError keyed⟩
  | ok key? =>
    rw [known] at keyed
    rw [Run.onBindOk keyed]
    cases key? with
    | none => exact ⟨w.logs, onOfExcept _ w⟩
    | some key =>
      dsimp only
      rw [Run.onBindOk (onRemembered key w)]
      simp only [bind, Except.bind]
      unfold Cache.get
      cases found : w.cache.find? key with
      | some t => exact ⟨_, rfl⟩
      | none =>
        cases read : e.fetch kind name with
        | error fault => exact ⟨_, rfl⟩
        | ok t => exact ⟨_, rfl⟩

theorem onLoad? (e : Engine) (kind : Kind) (name : String) (w : World) : ∃ logs,
    (e.load? kind name).on w = (ifFound (e.loaded w.cache kind name),
      { w with cache := e.afterLoad w.cache kind name, logs := logs }) := by
  obtain ⟨logs, load⟩ := e.onLoad kind name w
  have tried : (Run.attempt (e.load kind name)).on w =
      (.ok (e.loaded w.cache kind name),
        { w with cache := e.afterLoad w.cache kind name, logs := logs }) := by
    have same : (Run.attempt (e.load kind name)).on w =
      (.ok ((e.load kind name).on w).1, ((e.load kind name).on w).2) := rfl
    rw [same, load]
  unfold load? ifFound
  rw [Run.onBindOk tried]
  cases e.loaded w.cache kind name with
  | ok t => exact ⟨_, rfl⟩
  | error fault =>
    dsimp only
    split
    · split <;> exact ⟨_, rfl⟩
    · exact ⟨_, rfl⟩

theorem onResolve (e : Engine) (kind : Kind) (name : String) (w : World) : ∃ logs,
    (e.resolve? kind name).on w = (e.resolved w.cache kind name,
      { w with cache := e.afterResolve w.cache kind name, logs := logs }) := by
  unfold resolve? resolved afterResolve
  cases (e.registered.ofKind kind).lookup name with
  | some t => exact ⟨w.logs, rfl⟩
  | none => exact e.onLoad? kind name w

theorem afterLoadFind (e : Engine) (c : Cache) (kind : Kind) (name : String) (key : CacheKey) :
    (e.afterLoad c kind name).find? key = c.find? key ∨
      (e.cacheKey? kind name = .ok (some key) ∧ c.find? key = none ∧
        ∃ t, e.fetch kind name = .ok t ∧ (e.afterLoad c kind name).find? key = some t) := by
  unfold afterLoad
  split
  · rename_i own known
    split
    · exact .inl rfl
    · rename_i missed
      split
      · rename_i t read
        rw [Cache.findPut]
        split
        · rename_i same
          subst same
          exact .inr ⟨known, missed, t, read, rfl⟩
        · exact .inl rfl
      · exact .inl rfl
  · exact .inl rfl

theorem cacheKeySome {kind : Kind} {name : String} {key : CacheKey}
    (h : e.cacheKey? kind name = .ok (some key)) :
    key.kind = kind ∧ e.loader.cacheKey kind name = .ok key.key := by
  unfold cacheKey? at h
  split at h
  · obtain ⟨text, made, same⟩ := okBind h
    cases same
    exact ⟨rfl, made⟩
  · cases h

theorem fetchOfKey (sound : e.loader.Sound) {kind : Kind} {a b key : String}
    (first : e.loader.cacheKey kind a = .ok key) (second : e.loader.cacheKey kind b = .ok key)
    {t : Template} (found : e.fetch kind a = .ok t) :
    (e.fetch kind b).map Template.content = .ok t.content := by
  unfold fetch at found ⊢
  cases source : e.loader.source e.tree kind a with
  | error fault => simp [source] at found
  | ok reads =>
    obtain ⟨text, file⟩ := reads
    rw [source] at found
    rw [Loader.sourceOfKey sound first second source]
    dsimp only [read] at found ⊢
    have same := fun n => Template.readContent { debug := e.debug } (some n) file text
    have content : ∀ n, ((Template.read { name := some n, filename := file, debug := e.debug }
        text).map Template.Outcome.template).map Template.content =
        ((Template.read { debug := e.debug } text).map
          fun out => (out.template.content, out.issues)).map Prod.fst := by
      intro n
      rw [← same n]
      cases Template.read { name := some n, filename := file, debug := e.debug } text <;> rfl
    rw [content b, ← content a, found]
    rfl

/-- A load changes no later load, as far as renders are concerned. -/
theorem loadedAfter (sound : e.loader.Sound) (c : Cache) (kind kind' : Kind)
    (name name' : String) :
    (e.loaded (e.afterLoad c kind name) kind' name').map Template.content =
      (e.loaded c kind' name').map Template.content := by
  unfold loaded
  cases known : e.cacheKey? kind' name' with
  | error fault => rfl
  | ok key? =>
    cases key? with
    | none => rfl
    | some key =>
      simp only [bind, Except.bind]
      rcases e.afterLoadFind c kind name key with same | ⟨own, missed, t, read, put⟩
      · rw [same]
      · -- the key was put there just now, for a name that stands for the same source
        obtain ⟨rfl, first⟩ := cacheKeySome own
        obtain ⟨equal, second⟩ := cacheKeySome known
        subst equal
        rw [missed, put]
        exact (fetchOfKey sound first second read).symm

theorem resolvedAfter (sound : e.loader.Sound) (c : Cache) (kind kind' : Kind)
    (name name' : String) :
    (e.resolved (e.afterResolve c kind name) kind' name').map (Option.map Template.content) =
      (e.resolved c kind' name').map (Option.map Template.content) := by
  unfold afterResolve
  split
  · rfl
  · unfold resolved
    cases (e.registered.ofKind kind').lookup name' with
    | some t => rfl
    | none =>
      dsimp only
      rw [ifFoundMap, ifFoundMap, loadedAfter sound]

end Engine
end Medley

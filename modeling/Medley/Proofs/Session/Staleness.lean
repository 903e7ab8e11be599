import Mathlib.Data.List.Dedup
import Medley.Proofs.Engine.Loading
import Medley.Session

/-! How old a remembered template is. Between two loads the sources may change in any way, and so may
where they come from; the cache is not told. What a load gives is said by what happened before it
alone: the template that was read first under its key since the cache was last emptied, or the one
that is read now. -/
namespace Medley

/-- What happens to an environment between renders. -/
inductive Upkeep where
  | change (loader : Loader) (tree : FileTree)
  | load (kind : Kind) (name : String)
  | find (kind : Kind) (name : String)
  | clearCache
  | notify (path : Option String)
  | flush
  | cancel

namespace Upkeep

def asked? : Upkeep → Option (Kind × String)
  | load kind name | find kind name => some (kind, name)
  | _ => none

end Upkeep

abbrev History := List Upkeep

namespace History
variable (e : Engine) (delayed : Bool)

def engine : History → Engine
  | [] => { e with cached := true }
  | .change loader tree :: past => { engine past with loader, tree }
  | _ :: past => engine past

def due : History → Bool
  | [] => false
  | .notify _ :: _ => delayed
  | .flush :: _ | .cancel :: _ => false
  | _ :: past => due past

def empties (past : History) : Upkeep → Bool
  | .clearCache => true
  | .notify _ => !delayed
  | .flush => due delayed past
  | _ => false

def key? (past : History) (step : Upkeep) : Option CacheKey := do
  let ask ← step.asked?
  return ⟨ask.1, ← ((engine e past).loader.cacheKey ask.1 ask.2).toOption⟩

/- What a step that asks for a template would read, under its key. -/
def reading? (past : History) (step : Upkeep) : Option (CacheKey × Template) := do
  let ask ← step.asked?
  return (← key? e past step, ← ((engine e past).fetch ask.1 ask.2).toOption)

def readings : History → List (CacheKey × Template)
  | [] => []
  | step :: past =>
      if empties delayed past step then []
      else (reading? e past step).toList ++ readings past

/- What was read first under a key since the cache was last emptied. -/
def first? (past : History) (key : CacheKey) : Option Template :=
  (readings e delayed past).reverse.lookup key

def stored? (past : History) (step : Upkeep) : Option (CacheKey × Template) :=
  (reading? e past step).filter fun entry => (first? e delayed past entry.1).isNone

def answer (past : History) (kind : Kind) (name : String) : Except Fault Template := do
  let key ← (engine e past).loader.cacheKey kind name
  match first? e delayed past ⟨kind, key⟩ with
  | some t => .ok t
  | none => (engine e past).fetch kind name

def loads : History → Nat
  | [] => 0
  | step :: past => loads past + if (key? e past step).isSome then 1 else 0

def hits : History → Nat
  | [] => 0
  | step :: past => hits past +
      if (key? e past step).any fun key => (first? e delayed past key).isSome then 1 else 0

end History

namespace Session

def next (s : Session) : Upkeep → Session
  | .change loader tree => { s with engine := { s.engine with loader, tree } }
  | .load kind name => (s.load kind name).2
  | .find kind name => (s.load? kind name).2
  | .clearCache => s.clearCache.2
  | .notify path => (s.notify path).2
  | .flush => s.flush.2
  | .cancel => s.cancel

def after (s : Session) (past : History) : Session := past.foldr (fun step s => s.next step) s

def new (e : Engine) (h : Host) (delayed : Bool) : Session :=
  { engine := { e with cached := true }, host := h, debouncer := { delayed } }

theorem loadGives (s : Session) (kind : Kind) (name : String) :
    (s.load kind name).1.result = s.engine.loaded s.cache kind name ∧
      (s.load kind name).2 = { s with cache := s.engine.afterLoad s.cache kind name } := by
  obtain ⟨logs, step⟩ := s.engine.onLoad kind name { cache := s.cache, objects := s.objects }
  have run : (s.engine.load kind name).run.run { cache := s.cache, objects := s.objects } = _ := step
  unfold load perform performIn
  rw [run]
  exact ⟨rfl, rfl⟩

theorem findGives (s : Session) (kind : Kind) (name : String) :
    (s.load? kind name).1.result = Engine.ifFound (s.engine.loaded s.cache kind name) ∧
      (s.load? kind name).2 = { s with cache := s.engine.afterLoad s.cache kind name } := by
  obtain ⟨logs, step⟩ := s.engine.onLoad? kind name { cache := s.cache, objects := s.objects }
  have run : (s.engine.load? kind name).run.run { cache := s.cache, objects := s.objects } = _ := step
  unfold load? perform performIn
  rw [run]
  exact ⟨rfl, rfl⟩

end Session

namespace Cache

theorem putMissed {c : Cache} {k : CacheKey} (t : Template) (missed : c.find? k = none) :
    putEntry c.entries k t = c.entries ++ [(k, t)] := by
  unfold find? at missed
  generalize c.entries = entries at missed
  induction entries with
  | nil => rfl
  | cons e entries ih =>
    obtain ⟨key, value⟩ := e
    rw [List.lookup_cons] at missed
    split at missed
    · contradiction
    · rename_i apart
      have front : ¬ key = k := fun same => by simp [same] at apart
      rw [putEntry, if_neg front, ih missed, List.cons_append]

end Cache

namespace History
variable (e : Engine) (delayed : Bool) (past : History) {step : Upkeep}

theorem engineCached : (engine e past).cached = true := by
  induction past with
  | nil => rfl
  | cons step past ih => cases step <;> first | rfl | exact ih

/- Asking for a template changes nothing but the cache. -/
theorem askedLeaves {ask : Kind × String} (asked : step.asked? = some ask) :
    engine e (step :: past) = engine e past ∧ due delayed (step :: past) = due delayed past ∧
      empties delayed past step = false := by
  cases step <;> first | exact ⟨rfl, rfl, rfl⟩ | contradiction

theorem unaskedReads (unasked : step.asked? = none) :
    key? e past step = none ∧ reading? e past step = none := by
  simp [key?, reading?, unasked]

theorem keyOf {kind : Kind} {name : String} (asked : step.asked? = some (kind, name)) :
    key? e past step = ((engine e past).loader.cacheKey kind name).toOption.map (⟨kind, ·⟩) := by
  simp only [key?, asked, Option.bind_eq_bind, Option.bind_some]
  cases (engine e past).loader.cacheKey kind name <;> rfl

theorem readingOf {kind : Kind} {name : String} (asked : step.asked? = some (kind, name)) :
    reading? e past step = (key? e past step).bind fun key =>
      ((engine e past).fetch kind name).toOption.map (key, ·) := by
  simp only [reading?, asked, Option.bind_eq_bind, Option.bind_some]
  cases key? e past step <;> cases (engine e past).fetch kind name <;> rfl

theorem firstNext (step : Upkeep) (key : CacheKey) :
    first? e delayed (step :: past) key = if empties delayed past step then none
      else (first? e delayed past key).or ((stored? e delayed past step).toList.lookup key) := by
  rw [first?, readings]
  split
  · rfl
  rw [List.reverse_append, List.lookup_append, stored?]
  cases reading? e past step with
  | none => rfl
  | some entry =>
    obtain ⟨own, t⟩ := entry
    simp only [Option.toList_some, List.reverse_singleton, Option.filter_some]
    split
    · rfl
    · -- a key that was known already keeps its template
      rename_i known
      by_cases here : key = own
      · have read : first? e delayed past own ≠ none := by simpa using known
        obtain ⟨t', found⟩ := Option.ne_none_iff_exists'.mp read
        rw [first?] at found
        rw [here, first?, found]
        rfl
      · have apart : (key == own) = false := by simpa using here
        simp [List.lookup_cons, apart, first?]

theorem firstNone {key : CacheKey} :
    first? e delayed past key = none ↔ key ∉ (readings e delayed past).map Prod.fst := by
  rw [first?, List.lookup_eq_none_iff]
  simp only [List.mem_reverse, List.mem_map, not_exists, not_and, bne_iff_ne, Prod.forall]
  grind

theorem keysNext (step : Upkeep) :
    ((readings e delayed (step :: past)).map Prod.fst).dedup.reverse =
      if empties delayed past step then []
      else ((readings e delayed past).map Prod.fst).dedup.reverse ++
        (stored? e delayed past step).toList.map Prod.fst := by
  rw [readings]
  split
  · rfl
  rw [stored?]
  cases reading? e past step with
  | none => simp
  | some entry =>
    simp only [Option.toList_some, List.singleton_append, List.map_cons, Option.filter_some]
    split
    · rename_i missed
      have unknown := (firstNone e delayed past).mp (by simpa using missed)
      rw [List.dedup_cons_of_notMem unknown, List.reverse_cons]
      rfl
    · rename_i known
      have read : ¬ entry.1 ∉ (readings e delayed past).map Prod.fst := fun unknown =>
        known (by simp [(firstNone e delayed past).mpr unknown])
      rw [List.dedup_cons_of_mem (not_not.mp read)]
      simp

end History

theorem Engine.afterLoadCases {e : Engine} (cached : e.cached = true) (c : Cache) (kind : Kind)
    (name : String) :
    (∃ fault, e.loader.cacheKey kind name = .error fault ∧ e.afterLoad c kind name = c) ∨
    ∃ key, e.loader.cacheKey kind name = .ok key ∧
      ((∃ t, c.find? ⟨kind, key⟩ = some t ∧
          e.afterLoad c kind name = { c with hits := c.hits + 1 }) ∨
        c.find? ⟨kind, key⟩ = none ∧
          ((∃ fault, e.fetch kind name = .error fault ∧
              e.afterLoad c kind name = { c with misses := c.misses + 1 }) ∨
            ∃ t, e.fetch kind name = .ok t ∧
              e.afterLoad c kind name = { c with misses := c.misses + 1 }.put ⟨kind, key⟩ t)) := by
  unfold afterLoad cacheKey?
  rw [if_pos cached]
  cases e.loader.cacheKey kind name with
  | error fault => exact .inl ⟨fault, rfl, rfl⟩
  | ok key =>
    refine .inr ⟨key, rfl, ?_⟩
    dsimp only [bind, Except.bind, pure, Except.pure]
    cases c.find? ⟨kind, key⟩ with
    | some t => exact .inl ⟨t, rfl, rfl⟩
    | none =>
      refine .inr ⟨rfl, ?_⟩
      cases e.fetch kind name with
      | error fault => exact .inl ⟨fault, rfl, rfl⟩
      | ok t => exact .inr ⟨t, rfl, rfl⟩

namespace Session
variable {s : Session} {e : Engine} {delayed : Bool} {past : History}

/- A session is as its history says. -/
structure Follows (s : Session) (e : Engine) (delayed : Bool) (past : History) : Prop where
  engine : s.engine = History.engine e past
  delay : s.debouncer.delayed = delayed
  pending : s.debouncer.pending = History.due delayed past
  keys : s.cache.entries.map Prod.fst =
    ((History.readings e delayed past).map Prod.fst).dedup.reverse
  first : ∀ key, s.cache.find? key = History.first? e delayed past key
  hits : s.cache.hits = History.hits e delayed past
  loads : s.cache.hits + s.cache.misses = History.loads e past

theorem nextAsked {step : Upkeep} {kind : Kind} {name : String}
    (asked : step.asked? = some (kind, name)) :
    s.next step = { s with cache := s.engine.afterLoad s.cache kind name } := by
  cases step with
  | load kind' name' => cases asked; exact (s.loadGives kind name).2
  | find kind' name' => cases asked; exact (s.findGives kind name).2
  | _ => contradiction

theorem Follows.askedCache (f : s.Follows e delayed past) {step : Upkeep} {kind : Kind}
    {name : String} (asked : step.asked? = some (kind, name)) :
    let c := (s.next step).cache
    c.entries = s.cache.entries ++ (History.stored? e delayed past step).toList ∧
      c.hits = s.cache.hits + (if (History.key? e past step).any fun key =>
        (History.first? e delayed past key).isSome then 1 else 0) ∧
      c.hits + c.misses = s.cache.hits + s.cache.misses +
        if (History.key? e past step).isSome then 1 else 0 := by
  have cached : s.engine.cached = true := by rw [f.engine, History.engineCached]
  have reading := History.readingOf e past asked
  have keyed := History.keyOf e past asked
  rw [← f.engine] at reading keyed
  rw [keyed] at reading
  rw [nextAsked asked, History.stored?, reading, keyed]
  simp only [← f.first]
  -- there is no key, it is known, its source cannot be read, or it is read and stored
  rcases s.engine.afterLoadCases cached s.cache kind name with
    ⟨fault, refused, same⟩ |
      ⟨key, known, ⟨t, found, same⟩ | ⟨missed, ⟨fault, failed, same⟩ | ⟨t, read, same⟩⟩⟩
  · simp [refused, same, Except.toOption]
  · cases s.engine.fetch kind name <;>
      simp [known, found, same, Except.toOption, Option.filter, Nat.add_right_comm]
  · simp [known, missed, failed, same, Except.toOption, Nat.add_assoc]
  · have put := Cache.putMissed t missed
    simp [known, missed, read, same, Except.toOption, Option.filter, put, Cache.put, Nat.add_assoc]

theorem Follows.nextUnasked (f : s.Follows e delayed past) {step : Upkeep}
    (unasked : step.asked? = none) :
    (s.next step).engine = History.engine e (step :: past) ∧
      (s.next step).debouncer.delayed = delayed ∧
      (s.next step).debouncer.pending = History.due delayed (step :: past) ∧
      (s.next step).cache =
        if History.empties delayed past step then s.cache.clear else s.cache := by
  have engine := f.engine
  have delay := f.delay
  have pending := f.pending
  cases step with
  | load kind name => contradiction
  | find kind name => contradiction
  | change loader tree =>
    exact ⟨congrArg (fun e => { e with loader, tree }) engine, delay, pending, rfl⟩
  | clearCache => exact ⟨engine, delay, pending, rfl⟩
  | notify path =>
    simp only [next, notify, Debouncer.trigger]
    rw [delay]
    cases delayed <;> exact ⟨engine, rfl, rfl, rfl⟩
  | flush =>
    have due : History.empties delayed past .flush = s.debouncer.pending := pending.symm
    rw [due, next, flush, Debouncer.flush]
    by_cases waiting : s.debouncer.pending = true
    · rw [if_pos waiting, if_pos waiting]
      exact ⟨engine, delay, rfl, rfl⟩
    · rw [if_neg waiting, if_neg waiting]
      exact ⟨engine, delay, eq_false_of_ne_true waiting, rfl⟩
  | cancel => exact ⟨engine, delay, rfl, rfl⟩

theorem Follows.nextCache (f : s.Follows e delayed past) (step : Upkeep) :
    let c := (s.next step).cache
    c.entries = (if History.empties delayed past step then []
      else s.cache.entries ++ (History.stored? e delayed past step).toList) ∧
      c.hits = s.cache.hits + (if (History.key? e past step).any fun key =>
        (History.first? e delayed past key).isSome then 1 else 0) ∧
      c.hits + c.misses = s.cache.hits + s.cache.misses +
        if (History.key? e past step).isSome then 1 else 0 := by
  cases asked : step.asked? with
  | some ask =>
    rw [(History.askedLeaves e delayed past asked).2.2]
    exact f.askedCache asked
  | none =>
    obtain ⟨key?, reading?⟩ := History.unaskedReads e past asked
    rw [(f.nextUnasked asked).2.2.2, key?, History.stored?, reading?]
    split
    · exact ⟨rfl, rfl, rfl⟩
    · exact ⟨(List.append_nil _).symm, rfl, rfl⟩

theorem Follows.onNext (f : s.Follows e delayed past) (step : Upkeep) :
    (s.next step).Follows e delayed (step :: past) := by
  obtain ⟨entries, hits, loads⟩ := f.nextCache step
  have outside : (s.next step).engine = History.engine e (step :: past) ∧
      (s.next step).debouncer.delayed = delayed ∧
      (s.next step).debouncer.pending = History.due delayed (step :: past) := by
    cases asked : step.asked? with
    | some ask =>
      obtain ⟨engine, due, _⟩ := History.askedLeaves e delayed past asked
      rw [nextAsked asked, engine, due]
      exact ⟨f.engine, f.delay, f.pending⟩
    | none =>
      obtain ⟨engine, delay, pending, _⟩ := f.nextUnasked asked
      exact ⟨engine, delay, pending⟩
  -- what the history says grows by the same parts as the cache does
  refine {
    engine := outside.1, delay := outside.2.1, pending := outside.2.2
    keys := ?_, first := ?_
    hits := by rw [hits, f.hits, History.hits]
    loads := by rw [loads, f.loads, History.loads] }
  · rw [entries, History.keysNext, ← f.keys]
    split <;> simp
  · intro key
    rw [Cache.find?, entries, History.firstNext, ← f.first]
    split
    · rfl
    · exact List.lookup_append

theorem newFollows (e : Engine) (h : Host) (delayed : Bool) :
    (new e h delayed).Follows e delayed [] where
  engine := rfl
  delay := rfl
  pending := rfl
  keys := rfl
  first _ := rfl
  hits := rfl
  loads := rfl

theorem afterFollows (e : Engine) (h : Host) (delayed : Bool) (past : History) :
    ((new e h delayed).after past).Follows e delayed past := by
  induction past with
  | nil => exact newFollows e h delayed
  | cons step past ih => exact ih.onNext step

theorem Follows.answers (f : s.Follows e delayed past) (kind : Kind) (name : String) :
    s.engine.loaded s.cache kind name = History.answer e delayed past kind name := by
  unfold Engine.loaded Engine.cacheKey? History.answer
  rw [f.engine, if_pos (History.engineCached e past)]
  cases (History.engine e past).loader.cacheKey kind name with
  | error fault => rfl
  | ok key =>
    dsimp only [bind, Except.bind, pure, Except.pure]
    have same := f.first ⟨kind, key⟩
    generalize s.cache.find? ⟨kind, key⟩ = found at same ⊢
    subst same
    cases History.first? e delayed past ⟨kind, key⟩ <;> rfl

/- A load that fails stores nothing. -/
theorem Follows.unstored (f : s.Follows e delayed past) {step : Upkeep} {kind : Kind}
    {name : String}
    (asked : step.asked? = some (kind, name))
    (failed : (History.answer e delayed past kind name).toOption = none) :
    (s.next step).cache.entries = s.cache.entries := by
  have stored := History.readingOf e past asked
  rw [History.keyOf e past asked] at stored
  rw [(f.askedCache asked).1, History.stored?, stored]
  unfold History.answer at failed
  cases keyed : (History.engine e past).loader.cacheKey kind name with
  | error fault => simp [Except.toOption]
  | ok key =>
    rw [keyed] at failed
    dsimp only [bind, Except.bind] at failed
    split at failed
    · contradiction
    · rw [failed]
      simp [Except.toOption]

theorem exactStaleness (e : Engine) (h : Host) (delayed : Bool) (past : History) :
    let s := (new e h delayed).after past
    (∀ kind name,
      (s.load kind name).1.result = History.answer e delayed past kind name ∧
      (s.load? kind name).1.result = Engine.ifFound (History.answer e delayed past kind name)) ∧
    (∀ key, s.cache.find? key = History.first? e delayed past key) ∧
    (∀ step, (s.next step).cache.entries =
      if History.empties delayed past step then []
      else s.cache.entries ++ (History.stored? e delayed past step).toList) ∧
    (∀ step kind name, step.asked? = some (kind, name) →
      (History.answer e delayed past kind name).toOption = none →
        (s.next step).cache.entries = s.cache.entries) ∧
    s.cache.hits = History.hits e delayed past ∧
    s.cache.hits + s.cache.misses = History.loads e past ∧
    s.cache.size = ((History.readings e delayed past).map Prod.fst).dedup.length := by
  have f := afterFollows e h delayed past
  refine ⟨?_, f.first, ?_, ?_, f.hits, f.loads, ?_⟩
  · intro kind name
    rw [(loadGives _ kind name).1, (findGives _ kind name).1, f.answers]
    exact ⟨rfl, rfl⟩
  · exact fun step => (f.nextCache step).1
  · intro step kind name asked failed
    exact f.unstored asked failed
  · rw [← List.length_reverse, ← f.keys, List.length_map]
    rfl

example : History.empties true [.load .page "home", .notify none] .flush = true := rfl

example : History.empties true [.cancel, .notify none] .flush = false := rfl

end Session
end Medley

import Medley.Proofs.Template.Data
import Medley.Render.Context

/-! Families of contexts. Entering a context begins a family with a copy of the metadata then
active; children join the family of the context they are made from. So what a context reads was
set in its family, or was there when the family began, and an exit gives back what was active
before. -/
namespace Medley.Contexts

/-- One use of contexts. Those that were made go by number, the first one by 0. -/
inductive Use where
  | enter (context : RenderContext) (given : Meta)
  | child (of : Nat) (name : String) (line : Int)
  | set (of : Nat) (key : String) (value : Value)
  | get (of : Nat) (key : String) (fallback : Value)
  | exit

structure Held where
  contexts : Contexts
  made : List Member

namespace Held

def use (h : Held) : Use → Option Held
  | .enter context given =>
      let (contexts, m) := h.contexts.enter context given
      some ⟨contexts, h.made ++ [m]⟩
  | .child i name line =>
      h.made[i]?.map fun m => ⟨h.contexts, h.made ++ [Contexts.child m name line]⟩
  | .set i key value => h.made[i]?.map fun m => ⟨h.contexts.set m key value, h.made⟩
  | .get i _ _ => h.made[i]?.map fun _ => h
  | .exit => some ⟨h.contexts.exit, h.made⟩

def run (h : Held) (uses : List Use) : Option Held := uses.foldlM use h

def read? (h : Held) (i : Nat) (key : String) (fallback : Value) : Option Value :=
  h.made[i]?.map fun m => h.contexts.get m key fallback

end Held

def readActive (s : Contexts) (key : String) (fallback : Value) : Value :=
  match s.current? with
  | some m => s.get m key fallback
  | none => fallback

/- How many contexts were entered, and for each context made, which of them it comes from by way of
children. -/
structure Lineage where
  entered : Nat := 0
  origins : List Nat := []

namespace Lineage

def after (l : Lineage) : Use → Lineage
  | .enter .. => ⟨l.entered + 1, l.origins ++ [l.entered]⟩
  | .child i .. => ⟨l.entered, l.origins ++ l.origins[i]?.toList⟩
  | .set .. | .get .. | .exit => l

def of (uses : List Use) : Lineage := uses.foldl after {}

theorem afterGrows (l : Lineage) (uses : List Use) :
    l.origins <+: (uses.foldl after l).origins := by
  induction uses generalizing l with
  | nil => exact List.prefix_rfl
  | cons u uses ih =>
    refine List.IsPrefix.trans ?_ (ih (l.after u))
    cases u <;> simp [after]

end Lineage

def Related (uses : List Use) (i j : Nat) : Prop :=
  (Lineage.of uses).origins[i]? = (Lineage.of uses).origins[j]? ∧
    i < (Lineage.of uses).origins.length

instance (uses : List Use) (i j : Nat) : Decidable (Related uses i j) :=
  inferInstanceAs (Decidable (_ ∧ _))

def lastSet? (uses : List Use) (i : Nat) (key : String) (since : List Use) : Option Value :=
  since.reverse.findSome? fun
    | .set j other value => if Related uses j i ∧ other = key then some value else none
    | _ => none

def Use.nests : Use → Bool
  | .enter .. | .exit => true
  | .child .. | .set .. | .get .. => false

/- Uses in which every context that is entered is left again. -/
inductive Balanced : List Use → Prop where
  | nil : Balanced []
  | block {inner rest} (context : RenderContext) (given : Meta) (inside : Balanced inner)
      (later : Balanced rest) : Balanced (.enter context given :: inner ++ .exit :: rest)
  | other {u rest} (level : u.nests = false) (later : Balanced rest) : Balanced (u :: rest)

namespace Held

theorem runAppend {h h' : Held} {uses more : List Use} (run : h.run (uses ++ more) = some h') :
    ∃ h₁, h.run uses = some h₁ ∧ h₁.run more = some h' := by
  rw [Held.run, List.foldlM_append] at run
  exact Option.bind_eq_some_iff.mp run

theorem runCons {h h' : Held} {u : Use} {more : List Use} (run : h.run (u :: more) = some h') :
    ∃ h₁, h.use u = some h₁ ∧ h₁.run more = some h' := by
  rw [Held.run, List.foldlM_cons] at run
  exact Option.bind_eq_some_iff.mp run

theorem useLevel {h h' : Held} {u : Use} (level : u.nests = false) (step : h.use u = some h') :
    h'.contexts.active = h.contexts.active := by
  cases u with
  | enter => cases level
  | exit => cases level
  | _ =>
    obtain ⟨m, _, rfl⟩ := Option.map_eq_some_iff.mp step
    rfl

theorem runBalanced {uses : List Use} (balanced : Balanced uses) {h h' : Held}
    (run : h.run uses = some h') : h'.contexts.active = h.contexts.active := by
  induction balanced generalizing h h' with
  | nil =>
    cases run
    rfl
  | block context given inside later ihInside ihLater =>
    obtain ⟨entered, first, run⟩ := runAppend run
    obtain ⟨left, exits, run⟩ := runCons run
    obtain ⟨opened, enters, first⟩ := runCons first
    cases enters
    cases exits
    rw [ihLater run]
    exact congrArg (List.drop 1) (ihInside first)
  | other level later ih =>
    obtain ⟨next, step, run⟩ := runCons run
    exact (ih run).trans (useLevel level step)

def entries (h : Held) (family : Nat) : Meta := (h.contexts.families[family]?).getD []

/- Families are numbered on from `base`, one for each context that was entered, and each context
made points at the family of the one it comes from. -/
structure Tracks (base : Nat) (l : Lineage) (h : Held) : Prop where
  families : h.contexts.families.length = base + l.entered
  made : h.made.map Member.family = l.origins.map (base + ·)
  below : ∀ n ∈ l.origins, n < l.entered

theorem Tracks.family {base : Nat} {l : Lineage} {h : Held} (tracks : Tracks base l h) (i : Nat) :
    h.made[i]?.map Member.family = l.origins[i]?.map (base + ·) := by
  rw [← List.getElem?_map, ← List.getElem?_map, tracks.made]

theorem Tracks.use {base : Nat} {l : Lineage} {h h' : Held} (tracks : Tracks base l h) {u : Use}
    (step : h.use u = some h') : Tracks base (l.after u) h' := by
  have ⟨families, made, below⟩ := tracks
  cases u with
  | enter context given =>
    cases step
    refine ⟨?_, ?_, fun n member => ?_⟩
    · change (h.contexts.families ++ [_]).length = base + (l.entered + 1)
      rw [List.length_append, families]
      rfl
    · change (h.made ++ [_]).map Member.family = (l.origins ++ [l.entered]).map (base + ·)
      rw [List.map_append, List.map_append, made]
      exact congrArg (_ ++ [·]) families
    · rcases List.mem_append.mp member with old | new
      · exact Nat.lt_succ_of_lt (below n old)
      · rw [List.mem_singleton.mp new]
        exact Nat.lt_succ_self _
  | child i name line =>
    obtain ⟨m, found, rfl⟩ := Option.map_eq_some_iff.mp step
    have family := tracks.family i
    rw [found, Option.map_some] at family
    obtain ⟨n, origin, same⟩ := Option.map_eq_some_iff.mp family.symm
    have origins : (l.after (.child i name line)).origins = l.origins ++ [n] := by
      simp [Lineage.after, origin]
    refine ⟨families, ?_, fun k member => ?_⟩
    · rw [origins, List.map_append, List.map_append, made]
      exact congrArg (_ ++ [·]) same.symm
    · rw [origins] at member
      rcases List.mem_append.mp member with old | new
      · exact below k old
      · rw [List.mem_singleton.mp new]
        exact below n (List.mem_of_getElem? origin)
  | set i key value =>
    obtain ⟨m, _, rfl⟩ := Option.map_eq_some_iff.mp step
    exact ⟨(List.length_modify ..).trans families, made, below⟩
  | get i key fallback =>
    obtain ⟨m, _, rfl⟩ := Option.map_eq_some_iff.mp step
    exact ⟨families, made, below⟩
  | exit =>
    cases step
    exact ⟨families, made, below⟩

def sets? (h : Held) (family : Nat) (key : String) : Use → Option Value
  | .set i other value =>
      if h.made[i]?.map Member.family = some family ∧ other = key then some value else none
  | _ => none

theorem useEntries {h h' : Held} {u : Use} (step : h.use u = some h') {family : Nat}
    (old : family < h.contexts.families.length) (key : String) :
    (h'.entries family).lookup key =
      (h.sets? family key u).or ((h.entries family).lookup key) := by
  cases u with
  | enter context given =>
    cases step
    change (((h.contexts.families ++ [_])[family]?).getD []).lookup key = _
    rw [List.getElem?_append_left old]
    rfl
  | set i other value =>
    obtain ⟨m, found, rfl⟩ := Option.map_eq_some_iff.mp step
    change (((h.contexts.families.modify m.family _)[family]?).getD []).lookup key = _
    have here : h.entries family = h.contexts.families[family] := by
      rw [entries, List.getElem?_eq_getElem old]
      rfl
    rw [List.getElem?_modify, List.getElem?_eq_getElem old, here, sets?, found]
    by_cases same : m.family = family
    · by_cases named : other = key
      · simp [same, named, lookupSetProp]
      · simp [same, named, lookupSetPropOther _ (Ne.symm named)]
    · simp [same]
  | exit =>
    cases step
    rfl
  | _ =>
    obtain ⟨m, _, rfl⟩ := Option.map_eq_some_iff.mp step
    rfl

/- What a use sets for a key in the family of an entered context. -/
def setIn? (origins : List Nat) (n : Nat) (key : String) : Use → Option Value
  | .set i other value => if origins[i]? = some n ∧ other = key then some value else none
  | _ => none

theorem Tracks.run {base : Nat} {l : Lineage} {uses : List Use} {h h' : Held}
    (tracks : Tracks base l h) (run : h.run uses = some h') :
    Tracks base (uses.foldl Lineage.after l) h' := by
  induction uses generalizing l h with
  | nil =>
    cases run
    exact tracks
  | cons u uses ih =>
    obtain ⟨next, step, run⟩ := runCons run
    exact ih (tracks.use step) run

theorem Tracks.outer {base : Nat} {l : Lineage} {uses : List Use} {h h' : Held}
    (tracks : Tracks base l h) (run : h.run uses = some h') {family : Nat} (under : family < base)
    (key : String) : (h'.entries family).lookup key = (h.entries family).lookup key := by
  induction uses generalizing l h with
  | nil =>
    cases run
    rfl
  | cons u uses ih =>
    obtain ⟨next, step, run⟩ := runCons run
    have old : family < h.contexts.families.length := by
      rw [tracks.families]
      omega
    have nothing : h.sets? family key u = none := by
      cases u with
      | set i other value =>
        refine if_neg fun both => ?_
        rw [tracks.family, Option.map_eq_some_iff] at both
        obtain ⟨⟨n, _, same⟩, _⟩ := both
        omega
      | _ => rfl
    rw [ih (tracks.use step) run, useEntries step old, nothing, Option.none_or]

theorem originKept {l : Lineage} {origins : List Nat} (grown : l.origins <+: origins) {i n : Nat}
    (origin : l.origins[i]? = some n) : origins[i]? = some n := by
  obtain ⟨more, rfl⟩ := grown
  exact List.getElem?_append_left (List.getElem?_eq_some_iff.mp origin).1 ▸ origin

theorem Tracks.runEntries {base : Nat} {l : Lineage} {uses : List Use} {h h' : Held}
    (tracks : Tracks base l h) (run : h.run uses = some h') {origins : List Nat}
    (grown : (uses.foldl Lineage.after l).origins <+: origins) {n : Nat} (old : n < l.entered)
    (key : String) :
    (h'.entries (base + n)).lookup key =
      (uses.reverse.findSome? (setIn? origins n key)).or ((h.entries (base + n)).lookup key) := by
  induction uses generalizing l h with
  | nil =>
    cases run
    rfl
  | cons u uses ih =>
    obtain ⟨next, step, run⟩ := runCons run
    have later : n < (l.after u).entered := by
      cases u with
      | enter => exact Nat.lt_succ_of_lt old
      | _ => exact old
    have known : l.origins <+: origins := (Lineage.afterGrows l (u :: uses)).trans grown
    have here : h.sets? (base + n) key u = setIn? origins n key u := by
      cases u with
      | set i other value =>
        obtain ⟨m, found, _⟩ := Option.map_eq_some_iff.mp step
        have family := tracks.family i
        rw [found, Option.map_some] at family
        obtain ⟨k, origin, same⟩ := Option.map_eq_some_iff.mp family.symm
        rw [sets?, setIn?, found, originKept known origin]
        simp [← same]
      | _ => rfl
    have room : base + n < h.contexts.families.length := by
      rw [tracks.families]
      omega
    rw [ih (tracks.use step) run grown later, useEntries step room, here, List.reverse_cons,
      List.findSome?_append, List.findSome?_singleton, Option.or_assoc]

end Held

theorem enteredSplit {uses : List Use} {l : Lineage} {n : Nat} (since : l.entered ≤ n)
    (bound : n < (uses.foldl Lineage.after l).entered) :
    ∃ before context given later, uses = before ++ .enter context given :: later ∧
      (before.foldl Lineage.after l).entered = n := by
  induction uses generalizing l with
  | nil => exact absurd bound (Nat.not_lt.mpr since)
  | cons u uses ih =>
    by_cases later : (l.after u).entered ≤ n
    · obtain ⟨before, context, given, rest, rfl, same⟩ := ih later bound
      exact ⟨u :: before, context, given, rest, rfl, same⟩
    · cases u with
      | enter context given =>
        exact ⟨[], context, given, uses, rfl, Nat.le_antisymm since (Nat.not_lt.mp later)⟩
      | _ => exact absurd since later

theorem lookupInherited (s : Contexts) (given : Meta) (key : String) (fallback : Value) :
    ((s.inherited given).lookup key).getD fallback =
      (given.reverse.lookup key).getD (s.readActive key fallback) := by
  rw [inherited, Meta.merge, lookupSetAll, readActive]
  cases s.current? with
  | none => simp
  | some m => simp [Option.getD_or, get]

/- What contexts read, and which of them is active, after uses that began inside of others. -/
structure Shares (around : Contexts) (uses : List Use) (h : Held) : Prop where
  -- a context reads what was set last in its family since that was entered, or else what was given
  -- then, or else what the context then active read
  reads : ∀ i < h.made.length, ∃ before context given since h₁,
    uses = before ++ .enter context given :: since ∧ Held.run ⟨around, []⟩ before = some h₁ ∧
      Related uses h₁.made.length i ∧
        ∀ key fallback, h.read? i key fallback =
          some ((lastSet? uses i key since).getD
            ((given.reverse.lookup key).getD (h₁.contexts.readActive key fallback)))
  -- what is set on one context is not read from an unrelated one
  apart : ∀ {i j key value h'}, h.use (.set i key value) = some h' → ¬ Related uses i j →
    ∀ other fallback, h'.read? j other fallback = h.read? j other fallback
  -- nothing is set on the contexts around
  outside : ∀ m : Member, m.family < around.families.length → ∀ key fallback,
    h.contexts.get m key fallback = around.get m key fallback
  -- the context entered last is active
  enters : ∀ {context given h'}, h.use (.enter context given) = some h' →
    h'.contexts.current? = h'.made[h.made.length]?
  -- once what was entered later is left again, the same contexts are active
  restores : ∀ {more h'}, Balanced more → h.run more = some h' →
    h'.contexts.active = h.contexts.active

theorem lastSetIn {uses : List Use} {i n : Nat} (origin : (Lineage.of uses).origins[i]? = some n)
    (key : String) (since : List Use) :
    lastSet? uses i key since =
      since.reverse.findSome? (Held.setIn? (Lineage.of uses).origins n key) := by
  refine congrArg (since.reverse.findSome? ·) (funext fun u => ?_)
  cases u with
  | set j other value =>
    have related : Related uses j i ↔ (Lineage.of uses).origins[j]? = some n := by
      rw [Related, origin]
      exact ⟨And.left, fun same => ⟨same, (List.getElem?_eq_some_iff.mp same).1⟩⟩
    simp only [Held.setIn?, related]
  | _ => rfl

namespace Held

variable {around : Contexts} {uses : List Use} {h : Held}

theorem tracksRun (run : Held.run ⟨around, []⟩ uses = some h) :
    Tracks around.families.length (Lineage.of uses) h :=
  Tracks.run ⟨rfl, rfl, List.forall_mem_nil _⟩ run

theorem readsFamily (run : Held.run ⟨around, []⟩ uses = some h) {i : Nat}
    (made : i < h.made.length) : ∃ before context given since h₁,
      uses = before ++ .enter context given :: since ∧ Held.run ⟨around, []⟩ before = some h₁ ∧
        Related uses h₁.made.length i ∧
          ∀ key fallback, h.read? i key fallback =
            some ((lastSet? uses i key since).getD
              ((given.reverse.lookup key).getD (h₁.contexts.readActive key fallback))) := by
  have tracks := tracksRun run
  have family := tracks.family i
  rw [List.getElem?_eq_getElem made, Option.map_some] at family
  obtain ⟨n, origin, same⟩ := Option.map_eq_some_iff.mp family.symm
  have entered := tracks.below n (List.mem_of_getElem? origin)
  obtain ⟨before, context, given, since, rfl, number⟩ := enteredSplit (Nat.zero_le n) entered
  have number : (Lineage.of before).entered = n := number
  obtain ⟨h₁, first, rest⟩ := runAppend run
  obtain ⟨h₂, enters, rest⟩ := runCons rest
  have tracks₁ := tracksRun first
  generalize whole : (Lineage.of (before ++ .enter context given :: since)).origins = origins at *
  have grown : (since.foldl Lineage.after
      ((Lineage.of before).after (.enter context given))).origins <+: origins := by
    have all : Lineage.of (before ++ .enter context given :: since) =
        since.foldl Lineage.after ((Lineage.of before).after (.enter context given)) := by
      rw [Lineage.of, Lineage.of, List.foldl_append, List.foldl_cons]
    exact ⟨[], by rw [List.append_nil, ← all, whole]⟩
  -- the entered context is the first one of its family
  have root : origins[h₁.made.length]? = some n := by
    have length : h₁.made.length = (Lineage.of before).origins.length := by
      simpa only [List.length_map] using congrArg List.length tracks₁.made
    refine originKept ((Lineage.afterGrows _ since).trans grown) ?_
    rw [Lineage.after, number, length, List.getElem?_concat_length]
  refine ⟨before, context, given, since, h₁, rfl, first, ⟨?_, ?_⟩, fun key fallback => ?_⟩
  · rw [whole, root, origin]
  · rw [whole]
    exact (List.getElem?_eq_some_iff.mp root).1
  · have began : h₂.entries (around.families.length + n) = h₁.contexts.inherited given := by
      rw [← number, ← tracks₁.families]
      cases enters
      change ((h₁.contexts.families ++ [_])[_]?).getD [] = _
      rw [List.getElem?_concat_length]
      rfl
    have older : n < ((Lineage.of before).after (.enter context given)).entered :=
      number ▸ Nat.lt_succ_self _
    have reads := (tracks₁.use enters).runEntries rest grown older key
    rw [read?, List.getElem?_eq_getElem made, Option.map_some, lastSetIn (whole ▸ origin), whole]
    change some (((h.entries h.made[i].family).lookup key).getD fallback) = _
    rw [← same, reads, began, Option.getD_or, lookupInherited]

theorem readsApart (run : Held.run ⟨around, []⟩ uses = some h) {i j : Nat} {key : String}
    {value : Value} {h' : Held} (step : h.use (.set i key value) = some h')
    (unrelated : ¬ Related uses i j) (other : String) (fallback : Value) :
    h'.read? j other fallback = h.read? j other fallback := by
  have tracks := tracksRun run
  have same : h'.made = h.made := by
    obtain ⟨m, _, rfl⟩ := Option.map_eq_some_iff.mp step
    rfl
  rw [read?, read?, same]
  refine Option.map_congr fun m here => ?_
  have family := tracks.family j
  rw [Option.mem_def.mp here, Option.map_some] at family
  have old : m.family < h.contexts.families.length := by
    obtain ⟨n, origin, place⟩ := Option.map_eq_some_iff.mp family.symm
    have below := tracks.below n (List.mem_of_getElem? origin)
    rw [tracks.families]
    omega
  have nothing : h.sets? m.family other (.set i key value) = none := by
    refine if_neg fun both => unrelated ?_
    rw [tracks.family, family] at both
    have origins := Option.map_injective (fun _ _ => Nat.add_left_cancel) both.1
    obtain ⟨n, origin, _⟩ := Option.map_eq_some_iff.mp family.symm
    rw [origin] at origins
    exact ⟨origins.trans origin.symm, (List.getElem?_eq_some_iff.mp origins).1⟩
  refine congrArg (·.getD fallback) ((useEntries step old other).trans ?_)
  rw [nothing, Option.none_or]
  rfl

end Held

/- Contexts that come from one entered context share their metadata, whatever is done with them and
with others, and nothing else is read from another family after it began. -/
theorem metadataShared {around : Contexts} {uses : List Use} {h : Held}
    (run : Held.run ⟨around, []⟩ uses = some h) : Shares around uses h where
  reads i made := Held.readsFamily run made
  apart := Held.readsApart run
  outside m outer key fallback := by
    have begins : Held.run ⟨around, []⟩ [] = some ⟨around, []⟩ := rfl
    exact congrArg (·.getD fallback) ((Held.tracksRun begins).outer run outer key)
  enters step := by
    cases step
    exact (List.getElem?_concat_length ..).symm
  restores balanced more := Held.runBalanced balanced more

def french : Contexts := ⟨[[("locale", .text "fr")]], [⟨{}, 0⟩]⟩

/- Two contexts are entered, and each is set to something through a child of the first. -/
def crossed : List Use :=
  [.enter {} [("user", .text "a")], .child 0 "card" 3, .set 1 "user" (.text "b"),
    .enter {} [("depth", .int 1)], .set 0 "user" (.text "c"), .child 1 "row" 4,
    .set 3 "locale" (.text "de"), .get 2 "user" .null, .exit]

theorem crossedShared : ∃ h, Held.run ⟨french, []⟩ crossed = some h ∧ Shares french crossed h ∧
    h.read? 1 "user" .null = some (.text "c") ∧ h.read? 0 "locale" .null = some (.text "de") ∧
      h.read? 2 "user" .null = some (.text "b") ∧ h.read? 2 "locale" .null = some (.text "fr") :=
  ⟨_, rfl, metadataShared rfl, rfl, rfl, rfl, rfl⟩

end Medley.Contexts

import Medley.Proofs.Value.Policy
import Medley.Proofs.Value.Sorted
import Medley.Template.Read

/-! Data in a template are plain. Page data are read from JSON, lists in brackets, words, numbers
and text, and attributes of a tag are texts or true, so neither holds safe text or content. -/
namespace Medley
open Value (Plain)

theorem setPropMember {α : Type} {props : List (String × α)} {key : String} {value : α}
    {e : String × α} (member : e ∈ setProp props key value) : e ∈ props ∨ e = (key, value) := by
  induction props with
  | nil => exact .inr (List.mem_singleton.mp member)
  | cons d props ih =>
    rw [setProp] at member
    split at member
    · rename_i same
      rcases List.mem_cons.mp member with here | later
      · exact .inr (same ▸ here)
      · exact .inl (List.mem_cons_of_mem d later)
    · rcases List.mem_cons.mp member with here | later
      · exact .inl (here ▸ List.mem_cons_self)
      · exact (ih later).imp_left (List.mem_cons_of_mem d)

theorem lookupSetProp {α : Type} (props : List (String × α)) (key : String) (v : α) :
    (setProp props key v).lookup key = some v := by
  induction props with
  | nil => simp [setProp]
  | cons e props ih =>
    rw [setProp]
    split
    · rename_i same
      simp [same]
    · rename_i other
      have apart : (key == e.1) = false := by simpa using Ne.symm other
      simp only [List.lookup_cons, apart, ih]

theorem lookupSetPropOther {α : Type} (props : List (String × α)) {key other : String}
    (apart : other ≠ key) (v : α) : (setProp props key v).lookup other = props.lookup other := by
  have unlike : (other == key) = false := by simpa using apart
  induction props with
  | nil => simp [setProp, apart]
  | cons e props ih =>
    obtain ⟨k, u⟩ := e
    rw [setProp]
    split
    · rename_i same
      rw [same]
      simp only [List.lookup_cons, unlike]
    · simp only [List.lookup_cons, ih]

/- Of entries that are set one after the other the last one for a key counts. -/
theorem lookupSetAll {α : Type} (under top : List (String × α)) (key : String) :
    (top.foldl (fun props (k, v) => setProp props k v) under).lookup key =
      (top.reverse.lookup key).or (under.lookup key) := by
  induction top generalizing under with
  | nil => rfl
  | cons e top ih =>
    obtain ⟨k, v⟩ := e
    rw [List.foldl_cons, ih, List.reverse_cons, List.lookup_append, Option.or_assoc]
    refine congrArg (Option.or _) ?_
    by_cases same : key = k
    · subst same
      simp [lookupSetProp]
    · have apart : (key == k) = false := by simpa using same
      simp [lookupSetPropOther under same, List.lookup_cons, apart]

theorem setPropPlain {layer : Layer} (h : Layer.Plain layer) (key : String) {value : Value}
    (new : value.Plain) : Layer.Plain (setProp layer key value) := by
  intro e member
  rcases setPropMember member with old | rfl
  · exact h e old
  · exact new

namespace Value

theorem setEntryPlain {es : List (Value × Value)} (h : ∀ e ∈ es, e.1.Plain ∧ e.2.Plain)
    {key value : Value} (key' : key.Plain) (value' : value.Plain) :
    ∀ e ∈ setEntry es key value, e.1.Plain ∧ e.2.Plain := by
  induction es with
  | nil =>
    intro e member
    rw [List.mem_singleton.mp member]
    exact ⟨key', value'⟩
  | cons d es ih =>
    have first := h d List.mem_cons_self
    have rest := ih fun e member => h e (List.mem_cons_of_mem d member)
    rw [setEntry]
    split
    · intro e member
      rcases List.mem_cons.mp member with rfl | later
      · exact ⟨first.1, value'⟩
      · exact h e (List.mem_cons_of_mem d later)
    · intro e member
      rcases List.mem_cons.mp member with rfl | later
      · exact first
      · exact rest e later

theorem ofEntriesPlain {es : List (Value × Value)} (h : ∀ e ∈ es, e.1.Plain ∧ e.2.Plain) :
    (ofEntries es).Plain := by
  suffices ∀ (es acc : List (Value × Value)), (∀ e ∈ es, e.1.Plain ∧ e.2.Plain) →
      (∀ e ∈ acc, e.1.Plain ∧ e.2.Plain) →
      ∀ e ∈ es.foldl (fun acc d => setEntry acc d.1 d.2) acc, e.1.Plain ∧ e.2.Plain by
    have all := this es [] h (List.forall_mem_nil _)
    exact .map (fun e member => (all e member).1) fun e member => (all e member).2
  intro es
  induction es with
  | nil => exact fun acc _ before => before
  | cons d es ih =>
    intro acc each before
    have first := each d List.mem_cons_self
    exact ih _ (fun e member => each e (List.mem_cons_of_mem d member))
      (setEntryPlain before first.1 first.2)

end Value

namespace Json

theorem scalarPlain {s : List Char} {v : Value} {n : Nat} (h : scalar s = .ok (v, n)) :
    v.Plain := by
  unfold scalar at h
  split at h
  · rename_i word v' found
    cases h
    have known := List.mem_of_find?_eq_some found
    simp only [words, List.mem_cons, List.not_mem_nil, or_false, Prod.mk.injEq] at known
    rcases known with ⟨_, rfl⟩ | ⟨_, rfl⟩ | ⟨_, rfl⟩ | ⟨_, rfl⟩ | ⟨_, rfl⟩ | ⟨_, rfl⟩ <;>
      exact .scalar rfl
  · split at h
    · contradiction
    · split at h
      · cases h
        exact .scalar rfl
      · contradiction
      · contradiction
    · cases h
      exact .scalar rfl

theorem foundValue {α : Type} {value : α} {rest : List Char} {bound : Nat} {f : Found α bound}
    (h : found value rest bound = .ok f) : f.value = value := by
  unfold found at h
  split at h
  · cases h
    rfl
  · contradiction

structure ReadsPlain (n : Nat) : Prop where
  value : ∀ s : List Char, s.length ≤ n → ∀ f, readValue s = .ok f → f.value.Plain
  items : ∀ s : List Char, s.length ≤ n → ∀ f, readItems s = .ok f → ∀ v ∈ f.value, v.Plain
  entries : ∀ s : List Char, s.length ≤ n → ∀ f, readEntries s = .ok f →
    ∀ e ∈ f.value, e.1.Plain ∧ e.2.Plain

theorem valuePlain {n : Nat} (before : ∀ m < n, ReadsPlain m) {s : List Char} (short : s.length ≤ n)
    {f : Found Value s.length} (h : readValue s = .ok f) : f.value.Plain := by
  unfold readValue at h
  split at h
  · contradiction
  · obtain ⟨⟨cs, after⟩, _, h⟩ := okBind h
    rw [foundValue h]
    exact .scalar rfl
  · rename_i rest
    have less := skip_length_le rest
    rw [List.length_cons] at short
    split at h
    · rw [foundValue h]
      exact .list (List.forall_mem_nil _)
    · rename_i first more _ same
      obtain ⟨items, read, h⟩ := okBind h
      cases h
      rw [same] at less
      exact .list ((before rest.length (by omega)).items _ less items read)
    · contradiction
  · rename_i rest
    have less := skip_length_le rest
    rw [List.length_cons] at short
    split at h
    · rw [foundValue h]
      exact .map (List.forall_mem_nil _) (List.forall_mem_nil _)
    · obtain ⟨entries, read, h⟩ := okBind h
      cases h
      exact Value.ofEntriesPlain ((before rest.length (by omega)).entries _ less entries read)
  · obtain ⟨⟨v, m⟩, read, h⟩ := okBind h
    rw [foundValue h]
    exact scalarPlain read

theorem itemsPlain {n : Nat} (before : ∀ m < n, ReadsPlain m) {s : List Char} (short : s.length ≤ n)
    {f : Found (List Value) s.length} (h : readItems s = .ok f) : ∀ v ∈ f.value, v.Plain := by
  rw [readItems] at h
  obtain ⟨item, read, h⟩ := okBind h
  have first := valuePlain before short read
  have left := item.shorter
  have less := skip_length_le item.rest
  split at h
  · cases h
    intro v member
    rw [List.mem_singleton.mp member]
    exact first
  · rename_i after same
    have less' := skip_length_le after
    rw [same, List.length_cons] at less
    obtain ⟨items, more, h⟩ := okBind h
    cases h
    intro v member
    rcases List.mem_cons.mp member with rfl | later
    · exact first
    · exact (before (skip after).length (by omega)).items _ (Nat.le_refl _) items more v later
  · contradiction

theorem entriesPlain {n : Nat} (before : ∀ m < n, ReadsPlain m) {s : List Char}
    (short : s.length ≤ n) {f : Found (List (Value × Value)) s.length}
    (h : readEntries s = .ok f) : ∀ e ∈ f.value, e.1.Plain ∧ e.2.Plain := by
  rw [readEntries] at h
  obtain ⟨name, _, h⟩ := okBind h
  have left := name.shorter
  have less := skip_length_le name.rest
  split at h
  · rename_i after same
    have less' := skip_length_le after
    rw [same, List.length_cons] at less
    obtain ⟨v, read, h⟩ := okBind h
    have entry := (before (skip after).length (by omega)).value _ (Nat.le_refl _) v read
    have left' := v.shorter
    have rest := skip_length_le v.rest
    split at h
    · cases h
      intro e member
      rw [List.mem_singleton.mp member]
      exact ⟨.scalar rfl, entry⟩
    · rename_i after' same'
      have rest' := skip_length_le after'
      rw [same', List.length_cons] at rest
      obtain ⟨entries, more, h⟩ := okBind h
      cases h
      have others := before (skip after').length (by omega)
      intro e member
      rcases List.mem_cons.mp member with rfl | later
      · exact ⟨.scalar rfl, entry⟩
      · exact others.entries _ (Nat.le_refl _) entries more e later
    · contradiction
  · contradiction

theorem readsPlain (n : Nat) : ReadsPlain n := by
  induction n using Nat.strongRecOn with
  | ind n before =>
    exact ⟨fun s short f => valuePlain before short, fun s short f => itemsPlain before short,
      fun s short f => entriesPlain before short⟩

theorem readPlain {s : List Char} {v : Value} (h : read s = .ok v) : v.Plain := by
  unfold read at h
  dsimp only at h
  split at h
  · contradiction
  · obtain ⟨f, found, h⟩ := okBind h
    split at h
    · cases h
      exact (readsPlain (skip s).length).value _ (Nat.le_refl _) f found
    · contradiction

end Json

namespace Frontmatter

theorem scalarPlain {s : List Char} {v : Value} (h : scalar s = .ok v) : v.Plain := by
  unfold scalar at h
  repeat' split at h
  all_goals first
    | contradiction
    | cases h
      exact .scalar rfl

theorem mapMMember {α β ε : Type} {f : α → Except ε β} {xs : List α} {ys : List β}
    (h : xs.mapM f = .ok ys) : ∀ y ∈ ys, ∃ x ∈ xs, f x = .ok y := by
  induction xs generalizing ys with
  | nil =>
    cases h
    exact List.forall_mem_nil _
  | cons x xs ih =>
    rw [List.mapM_cons] at h
    obtain ⟨y, first, h⟩ := okBind h
    obtain ⟨rest, more, h⟩ := okBind h
    cases h
    intro z member
    rcases List.mem_cons.mp member with rfl | later
    · exact ⟨x, List.mem_cons_self, first⟩
    · obtain ⟨w, inside, found⟩ := ih more z later
      exact ⟨w, List.mem_cons_of_mem x inside, found⟩

theorem jsonPlain {s : List Char} {v : Value} (h : json? s = some v) : v.Plain := by
  have result : Json.read s = .ok v := by
    unfold json? at h
    cases same : Json.read s with
    | error e => split at h <;> simp_all [Except.toOption]
    | ok w => split at h <;> simp_all [Except.toOption]
  exact Json.readPlain result

theorem valuePlain (s : List Char) {v : Value} (h : value s = .ok v) : v.Plain := by
  generalize size : s.length = n
  induction n using Nat.strongRecOn generalizing s v with
  | ind n ih =>
    rw [value] at h
    split at h
    · rename_i found
      cases h
      exact jsonPlain found
    · split at h
      · rename_i inside bracketed
        split at h
        · cases h
          exact .list (List.forall_mem_nil _)
        · obtain ⟨items, read, h⟩ := okBind h
          cases h
          refine .list fun x member => ?_
          obtain ⟨⟨part, here⟩, _, found⟩ := mapMMember read x member
          have short := length_le_of_mem_splitOnChar here
          have trimmed := trim_length_le inside
          have less := bracketed?_length_lt bracketed
          have whole := trim_length_le s
          exact ih part.length (by omega) part found rfl
      · exact scalarPlain h

theorem dataFromPlain {lines : List (List Char)} {before data : Layer}
    (plain : Layer.Plain before) (h : dataFrom before lines = .ok data) : Layer.Plain data := by
  induction lines generalizing before with
  | nil =>
    cases h
    exact plain
  | cons line rest ih =>
    rw [dataFrom] at h
    split at h
    · exact ih plain h
    · obtain ⟨v, read, h⟩ := okBind h
      exact ih (setPropPlain plain _ (valuePlain _ read)) h

theorem dataPlain {block : List Char} {layer : Layer} (h : data block = .ok layer) :
    Layer.Plain layer :=
  dataFromPlain (List.forall_mem_nil _) h

end Frontmatter
end Medley

import Medley.Proofs.Template.Grammar

/-! Opening tags one attribute at a time. After the name and after each attribute either the tag
ends, or an attribute stands there, or what stands there belongs in no tag; an attribute takes some
of the text, so a tag is read to its end. -/
namespace Medley

structure Later (s t : List Char) : Prop where
  suffix : t <:+ s
  shorter : t.length < s.length

theorem Later.front {s t u : List Char} (later : Later t u) (suffix : t <:+ s) : Later s u :=
  ⟨later.suffix.trans suffix, Nat.lt_of_lt_of_le later.shorter suffix.length_le⟩

theorem Later.back {s t u : List Char} (later : Later s t) (suffix : u <:+ t) : Later s u :=
  ⟨suffix.trans later.suffix, Nat.lt_of_le_of_lt suffix.length_le later.shorter⟩

theorem laterCons (c : Char) (s : List Char) : Later (c :: s) s :=
  ⟨List.suffix_cons c s, Nat.lt_succ_self _⟩

theorem laterDrop {s : List Char} (nonempty : s ≠ []) {n : Nat} (positive : 0 < n) :
    Later s (s.drop n) := by
  have length := List.length_pos_iff.mpr nonempty
  exact ⟨List.drop_suffix n s, by rw [List.length_drop]; omega⟩

namespace Tag
open Text
open Written (ending)

theorem cutSuffix {piece s before after : List Char} (h : cut piece s = some (before, after)) :
    after <:+ s := by
  rw [cutParts h, ← List.append_assoc]
  exact List.suffix_append _ _

theorem bareSuffix {s value after : List Char} (h : bareValue? s = some (value, after)) :
    after <:+ s := by
  unfold bareValue? at h
  split at h
  · contradiction
  all_goals
    cases h
    exact List.dropWhile_suffix inBare

theorem valueSuffix {s value after : List Char} (h : attributeValue? s = some (value, after)) :
    after <:+ s := by
  unfold attributeValue? at h
  split at h
  · exact (cutSuffix h).trans (List.suffix_cons _ _)
  · exact (cutSuffix h).trans (List.suffix_cons _ _)
  · split at h
    · rename_i found
      cases h
      exact (cutSuffix found).trans (List.suffix_cons _ _)
    · exact bareSuffix h
  · exact bareSuffix h

theorem trimSuffix (s : List Char) : trimStart s <:+ s := List.dropWhile_suffix isBlank

theorem attributeEndSuffix (s : List Char) : (attributeEnd s).2 <:+ s := by
  unfold attributeEnd
  dsimp only
  split
  · rename_i rest equals
    split
    · rename_i value after found
      have behind := ((valueSuffix found).trans (trimSuffix rest)).trans (List.suffix_cons '=' rest)
      rw [← equals] at behind
      exact behind.trans (trimSuffix s)
    · exact List.suffix_rfl
  · exact List.suffix_rfl

/-- What stands next in an opening tag. -/
inductive Item where
  | ends (closed : Bool) (rest : List Char)
  | sets (key : String) (value : Value) (rest : List Char)
  | stray

def item (first : Bool) (s : List Char) : Item :=
  match trimStart s with
  | '/' :: '>' :: rest => .ends true rest
  | '>' :: rest => .ends false rest
  | c :: rest =>
      if first && !(s.head?.any isBlank) then .stray
      else if startsAttribute c then
        let after := attributeEnd (rest.dropWhile inAttribute)
        .sets (String.ofList (c :: rest.takeWhile inAttribute)) after.1 after.2
      else .stray
  | [] => .stray

theorem attributesItem (name : String) (props : List (String × Value)) (first : Bool)
    (s : List Char) : attributesFrom name props first s = match item first s with
      | .ends closed rest => some ⟨name, props, closed, rest⟩
      | .sets key value rest => attributesFrom name (setProp props key value) false rest
      | .stray => none := by
  rw [attributesFrom]
  split
  · rename_i start
    simp only [item, start]
  · rename_i start
    simp only [item, start]
  · rename_i c rest _ _ start
    simp only [item, start]
    split
    · rfl
    · split <;> rfl
  · rename_i start
    simp only [item, start]

theorem itemEnds {first closed : Bool} {s rest : List Char} (h : item first s = .ends closed rest) :
    ending closed ++ rest <:+ s := by
  have trimmed := trimSuffix s
  unfold item at h
  split at h
  · rename_i start
    cases h
    rw [start] at trimmed
    exact trimmed
  · rename_i start
    cases h
    rw [start] at trimmed
    exact trimmed
  · split at h
    · contradiction
    · split at h <;> contradiction
  · contradiction

theorem endingLater (closed : Bool) (rest : List Char) : Later (ending closed ++ rest) rest := by
  cases closed with
  | true => exact (laterCons '/' _).back (List.suffix_cons '>' rest)
  | false => exact laterCons '>' rest

theorem itemSets {first : Bool} {s rest : List Char} {key : String} {value : Value}
    (h : item first s = .sets key value rest) : Later s rest := by
  have trimmed := trimSuffix s
  unfold item at h
  split at h
  · contradiction
  · contradiction
  · rename_i c more _ _ start
    rw [start] at trimmed
    split at h
    · contradiction
    · split at h
      · cases h
        have name := List.dropWhile_suffix (l := more) inAttribute
        exact ((laterCons c more).back ((attributeEndSuffix _).trans name)).front trimmed
      · contradiction
  · contradiction

def Item.Takes (s : List Char) : Item → Prop
  | .ends _ rest | .sets _ _ rest => Later s rest
  | .stray => True

theorem itemTakes (first : Bool) (s : List Char) : (item first s).Takes s := by
  cases next : item first s with
  | ends closed rest => exact (endingLater closed rest).front (itemEnds next)
  | sets key value rest => exact itemSets next
  | stray => trivial

/- What holds where the tag goes on behind its name, and still holds after every attribute, holds
where it ends. -/
theorem tagEnds {name : String} {motive : List (String × Value) → List Char → Prop}
    (step : ∀ props first s key value rest, item first s = .sets key value rest →
      motive props s → motive (setProp props key value) rest)
    {props : List (String × Value)} {first : Bool} {s : List Char} {tag : Opening}
    (start : motive props s) (h : attributesFrom name props first s = some tag) :
    tag.name = name ∧ ∃ last t, motive tag.props t ∧ item last t = .ends tag.closed tag.rest := by
  generalize size : s.length = n
  induction n using Nat.strongRecOn generalizing s props first with
  | ind n ih =>
    rw [attributesItem] at h
    cases next : item first s with
    | ends closed rest =>
      rw [next] at h
      cases h
      exact ⟨rfl, first, s, start, next⟩
    | sets key value rest =>
      rw [next] at h
      have shorter : rest.length < n := size ▸ (itemSets next).shorter
      exact ih rest.length shorter (step _ _ _ _ _ _ next start) h rfl
    | stray =>
      rw [next] at h
      contradiction

theorem openingRest {s : List Char} {tag : Opening} (h : opening? s = some tag) :
    tag.rest <:+ s ∧ tag.rest.length + (ending tag.closed).length + 2 ≤ s.length := by
  unfold opening? at h
  split at h
  · rename_i c rest
    split at h
    · have name := List.dropWhile_suffix (l := rest) inTagName
      obtain ⟨_, last, t, within, ends⟩ := tagEnds (motive := fun _ t => t <:+ rest)
        (fun _ _ _ _ _ _ next within => (itemSets next).suffix.trans within) name h
      have back := (itemEnds ends).trans within
      have length := back.length_le
      refine ⟨?_, ?_⟩
      · have suffix := (List.suffix_append (ending tag.closed) tag.rest).trans back
        exact (suffix.trans (List.suffix_cons c rest)).trans (List.suffix_cons '<' _)
      · rw [List.length_append] at length
        simp only [List.length_cons]
        omega
    · contradiction
  · contradiction

end Tag
end Medley

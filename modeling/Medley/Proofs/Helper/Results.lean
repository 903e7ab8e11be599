import Medley.Helper.Apply
import Medley.Proofs.Value.Policy
import Medley.Proofs.Value.Sorted

/-! What built-in functions give. A built-in function makes scalars and escaped text, or hands on
what it was given and parts of that. So a property that passes from values to their parts and back,
and that holds of escaped text, holds of the result if it holds of the arguments. -/
namespace Medley

/-- Escaped text is allowed, also in front of other safe text. -/
structure Policy.AllowsEscaped (p : Policy) : Prop where
  alone : ∀ s, p.markup (Html.escapeText s)
  before : ∀ s e, p.markup e → p.markup (Html.escapeText s ++ e)

structure Value.TakesEscaped (P : Value → Prop) : Prop where
  alone : ∀ s, P (.markup (Html.escapeText s))
  before : ∀ s e, P (.markup e) → P (.markup (Html.escapeText s ++ e))

theorem Policy.AllowsEscaped.taken {p : Policy} (law : p.AllowsEscaped) (l : Nat) :
    Value.TakesEscaped (Value.Obeys p l) :=
  ⟨fun s => .markup (law.alone s), fun s e h => .markup (law.before s e h.safe)⟩

namespace Helper
open Value
variable {P : Value → Prop} (closed : Closed P) {v : Value}
include closed

theorem displayedHolds (h : P v) : P (displayed v) := by
  cases v with
  | markup s => exact h
  | _ => exact closed.text _

theorem stringifyHolds (h : P v) {result : Value} (found : stringify v = .ok result) :
    P result := by
  obtain ⟨_, _, rfl⟩ := okMap found
  exact displayedHolds closed h

theorem mapTextHolds {f : List Char → List Char} {result : Value}
    (found : mapText f v = .ok result) : P result := by
  obtain ⟨_, _, rfl⟩ := okMap found
  exact closed.text _

theorem firstHolds (h : P v) : P (first v) := by
  refine Closed.get (fun x found => ?_) closed.null
  obtain ⟨xs, items, head⟩ := Option.bind_eq_some_iff.mp found
  exact closed.items v xs h items x (List.mem_of_head? head)

theorem lastHolds (h : P v) : P (last v) := by
  refine Closed.get (fun x found => ?_) closed.null
  obtain ⟨xs, items, final⟩ := Option.bind_eq_some_iff.mp found
  exact closed.items v xs h items x (List.mem_of_getLast? final)

theorem onItemsHolds (h : P v) {f : List Value → Value}
    (each : ∀ xs, (∀ x ∈ xs, P x) → P (f xs)) : P (onItems v f) := by
  unfold onItems
  split
  · rename_i xs items
    exact each xs (closed.items v xs h items)
  · exact h

omit closed in
theorem sliceListMember {α : Type} {start : Int} {stop : Option Int} {xs : List α} {x : α}
    (member : x ∈ sliceList start stop xs) : x ∈ xs :=
  List.mem_of_mem_take (List.mem_of_mem_drop member)

theorem sliceHolds (h : P v) {start stop result : Value}
    (found : slice v start stop = .ok result) : P result := by
  unfold slice at found
  dsimp only at found
  split at found
  · obtain ⟨bounds, _, found⟩ := okBind found
    cases found
    exact closed.list _ fun x member => closed.items _ _ h rfl x (sliceListMember member)
  · obtain ⟨bounds, _, found⟩ := okBind found
    cases found
    exact closed.list _ fun x member => closed.items _ _ h rfl x (sliceListMember member)
  · obtain ⟨bounds, _, found⟩ := okBind found
    cases found
    exact closed.text _
  · obtain ⟨bounds, _, found⟩ := okBind found
    cases found
    exact closed.text _
  · cases found
    exact h

theorem sortHolds {members : Members} (h : P v) {key result : Value}
    (found : sort members v key = .ok result) : P result := by
  unfold sort at found
  split at found
  · cases found
    exact h
  · rename_i xs items
    obtain ⟨sorted, done, found⟩ := okBind found
    cases found
    exact closed.list _ fun x member =>
      closed.items v xs h items x (Sorting.sortMember done x member)
  · rename_i xs items _
    obtain ⟨name, _, found⟩ := okBind found
    obtain ⟨sorted, done, found⟩ := okBind found
    cases found
    refine closed.list _ fun x member => ?_
    obtain ⟨pair, inside, rfl⟩ := List.mem_map.mp member
    obtain ⟨y, here, rfl⟩ := List.mem_map.mp (Sorting.sortMember done pair inside)
    exact closed.items v xs h items y here

theorem reverseHolds (h : P v) : P (reverse v) := by
  have items := onItemsHolds closed h (f := fun xs => .list xs.reverse) fun xs each =>
    closed.list _ fun x member => each x (List.mem_reverse.mp member)
  cases v with
  | text s => exact closed.text _
  | markup s => exact closed.text _
  | _ => exact items

theorem joinHolds (h : P v) {separator result : Value} (found : join v separator = .ok result) :
    P result := by
  unfold join at found
  split at found
  · cases found
    exact h
  · split at found
    · obtain ⟨between, _, found⟩ := okBind found
      obtain ⟨texts, _, found⟩ := okBind found
      cases found
      exact closed.text _
    · obtain ⟨_, _, rfl⟩ := okMap found
      exact closed.text _

theorem uniqueHolds (h : P v) : P (unique v) := by
  refine onItemsHolds closed h fun xs each => closed.list _ ?_
  suffices ∀ (xs seen : List Value), (∀ x ∈ xs, P x) → (∀ x ∈ seen, P x) →
      ∀ x ∈ xs.foldl (fun seen x => if seen.any (Value.same · x) then seen else seen ++ [x]) seen,
        P x from this xs [] each (List.forall_mem_nil _)
  intro xs
  induction xs with
  | nil => exact fun seen _ before => before
  | cons y ys ih =>
    intro seen each before
    refine ih _ (fun x member => each x (List.mem_cons_of_mem y member)) fun x member => ?_
    dsimp only at member
    split at member
    · exact before x member
    · rcases List.mem_append.mp member with old | new
      · exact before x old
      · rw [List.mem_singleton.mp new]
        exact each y List.mem_cons_self

theorem filterByHolds {members : Members} (h : P v) {key : Value} {wanted : Option Value}
    {result : Value} (found : filterBy members v key wanted = .ok result) : P result := by
  unfold filterBy at found
  split at found
  · cases found
    exact h
  · rename_i xs items
    obtain ⟨name, _, found⟩ := okBind found
    cases found
    exact closed.list _ fun x member =>
      closed.items v xs h items x (List.mem_of_mem_filter member)

theorem mapByHolds {members : Members} (h : P v) {key result : Value}
    (found : mapBy members v key = .ok result) : P result := by
  unfold mapBy at found
  split at found
  · cases found
    exact h
  · rename_i xs items
    obtain ⟨name, _, found⟩ := okBind found
    cases found
    refine closed.list _ fun x member => ?_
    obtain ⟨y, inside, rfl⟩ := List.mem_map.mp member
    exact closed.field members (closed.items v xs h items y inside) _

theorem entriesHold (h : P v) : ∀ e ∈ v.entries?.getD [], P e.1 ∧ P e.2 := by
  cases found : v.entries? with
  | none => exact List.forall_mem_nil _
  | some es => exact closed.entriesOf h found

theorem keysHolds (h : P v) : P (keys v) := by
  refine closed.list _ fun x member => ?_
  obtain ⟨e, inside, rfl⟩ := List.mem_map.mp member
  exact (entriesHold closed h e inside).1

theorem valuesHolds (h : P v) : P (values v) := by
  refine closed.list _ fun x member => ?_
  obtain ⟨e, inside, rfl⟩ := List.mem_map.mp member
  exact (entriesHold closed h e inside).2

theorem truncateHolds (law : TakesEscaped P) (h : P v) {length ending result : Value}
    (last : P ending) (found : truncate v length ending = .ok result) : P result := by
  obtain ⟨s, _, found⟩ := okBind found
  obtain ⟨limit, _, found⟩ := okBind found
  dsimp only at found
  split at found
  · split at found
    · cases found
      exact law.before _ _ last
    · obtain ⟨_, _, found⟩ := okBind found
      cases found
      exact closed.text _
  · cases found
    exact displayedHolds closed h

theorem replaceHolds {search new result : Value} (found : replace v search new = .ok result) :
    P result := by
  obtain ⟨s, _, found⟩ := okBind found
  obtain ⟨old, _, found⟩ := okBind found
  obtain ⟨other, _, found⟩ := okBind found
  cases found
  exact closed.text _

theorem urlEncodeHolds (h : P v) {result : Value} (found : urlEncode v = .ok result) :
    P result := by
  unfold urlEncode at found
  split at found
  · cases found
    exact h
  · exact mapTextHolds closed found

theorem urlDecodeHolds (h : P v) {result : Value} (found : urlDecode v = .ok result) :
    P result := by
  unfold urlDecode at found
  split at found
  · exact mapTextHolds closed found
  · exact stringifyHolds closed h found

omit closed in
theorem escapeHolds (law : TakesEscaped P) (h : P v) {result : Value}
    (found : escape v = .ok result) : P result := by
  unfold escape at found
  split at found
  · cases found
    exact h
  · obtain ⟨_, _, rfl⟩ := okMap found
    exact law.alone _

end Helper

namespace Builtin
open Value
variable {P : Value → Prop}

theorem argHolds {args : List Value} (h : ∀ a ∈ args, P a) (i : Nat) {fallback : Value}
    (other : P fallback) : P (arg args i fallback) :=
  Closed.get (fun _ found => h _ (List.mem_of_getElem? found)) other

theorem evaluateHolds (closed : Closed P) (law : TakesEscaped P) (host : Host) (b : Builtin)
    {args : List Value} (h : ∀ a ∈ args, P a) {result : Value}
    (found : b.evaluate host args = .ok result) : P result := by
  have one := argHolds h 0 closed.null
  have two := argHolds h 1 closed.null
  have blank := closed.text ""
  cases b with
  | timeAgo | shortTimeAgo | length | size | equal | unequal | all | any | negate | typeOf =>
    cases found
    exact closed.scalar _ rfl
  | upper | lower | capitalize | title | trim | slugify =>
    exact Helper.mapTextHolds closed found
  | replace => exact Helper.replaceHolds closed found
  | has | greater | less | atLeast | atMost =>
    obtain ⟨_, _, rfl⟩ := okMap found
    exact closed.scalar _ rfl
  | round =>
    obtain ⟨n, _, rfl⟩ := okMap found
    cases n <;> exact closed.scalar _ rfl
  | formatDate | formatNumber | formatPrice | percent | unescape | base64 | digest =>
    obtain ⟨_, _, rfl⟩ := okMap found
    exact closed.text _
  | truncate => exact Helper.truncateHolds closed law one (argHolds h 2 (closed.text _)) found
  | first =>
    cases found
    exact Helper.firstHolds closed one
  | last =>
    cases found
    exact Helper.lastHolds closed one
  | slice => exact Helper.sliceHolds closed one found
  | sort => exact Helper.sortHolds closed one found
  | reverse =>
    cases found
    exact Helper.reverseHolds closed one
  | join => exact Helper.joinHolds closed one found
  | unique =>
    cases found
    exact Helper.uniqueHolds closed one
  | filter => exact Helper.filterByHolds closed one found
  | map => exact Helper.mapByHolds closed one found
  | keys =>
    cases found
    exact Helper.keysHolds closed one
  | values =>
    cases found
    exact Helper.valuesHolds closed one
  | choose =>
    cases found
    split
    · exact two
    · split
      · exact argHolds h 2 blank
      · exact blank
  | except =>
    cases found
    split
    · exact blank
    · exact two
  | json =>
    obtain ⟨indent, _, found⟩ := okBind found
    obtain ⟨s, _, found⟩ := okBind found
    cases found
    exact closed.text s
  | fallback =>
    cases found
    split
    · exact argHolds h 1 blank
    · exact one
  | stringify => exact Helper.stringifyHolds closed one found
  | log =>
    cases found
    exact one
  | urlEncode => exact Helper.urlEncodeHolds closed one found
  | urlDecode => exact Helper.urlDecodeHolds closed one found
  | escape => exact Helper.escapeHolds law one found

end Builtin

namespace Function
open Value
variable {P : Value → Prop} (closed : Closed P)
include closed

theorem translateHolds {t : Translator} {current result : Value} {args : List Value}
    (h : ∀ a ∈ args, P a) (found : translateArgs t current args = .ok result) : P result := by
  unfold translateArgs at found
  split at found
  · contradiction
  · obtain ⟨key, _, found⟩ := okBind found
    obtain ⟨locale, _, found⟩ := okBind found
    cases found
    split
    · exact closed.text _
    · exact Helper.displayedHolds closed (Builtin.argHolds h 0 closed.null)

theorem pluralHolds {t : Translator} {current result : Value} {args : List Value}
    (found : pluralArgs t current args = .ok result) : P result := by
  unfold pluralArgs at found
  split at found
  · contradiction
  · obtain ⟨key, _, found⟩ := okBind found
    obtain ⟨count, _, found⟩ := okBind found
    obtain ⟨s, _, found⟩ := okBind found
    cases found
    exact closed.text s

end Function
end Medley

import Mathlib.Data.List.TakeWhile
import Medley.Proofs.Template.Made
import Medley.Proofs.Template.Openings

/-! What markers ask for. A condition and what a loop goes over are trimmed and not empty, the item
of a loop has a name, and an element has the name of a tag; a marker without these means something
else. -/
namespace Medley

namespace Text

/-- Something without blanks at either end. -/
structure Trimmed (s : List Char) : Prop where
  begins : Begins s
  ends : Ends s

theorem trimTrimmed {s : List Char} (nonempty : trim s ≠ []) : Trimmed (trim s) := by
  unfold trim at nonempty ⊢
  cases start : trimStart s with
  | nil =>
    rw [start] at nonempty
    exact absurd rfl nonempty
  | cons c rest =>
    have unblank : isBlank c = false := by
      have head := List.head?_dropWhile_not isBlank s
      rw [show s.dropWhile isBlank = c :: rest from start] at head
      simpa using head
    refine ⟨⟨c, _, trimEndHead unblank rest, unblank⟩, ?_⟩
    rw [start] at nonempty
    generalize c :: rest = t at nonempty
    unfold trimEnd at nonempty ⊢
    have head := List.head?_dropWhile_not isBlank t.reverse
    obtain ⟨d, more, kept⟩ := List.exists_cons_of_ne_nil
      (fun gone => nonempty (List.reverse_eq_nil_iff.mpr gone) : t.reverse.dropWhile isBlank ≠ [])
    rw [kept] at head
    exact ⟨more.reverse, d, by rw [kept, List.reverse_cons], by simpa using head⟩

theorem unblankTrimmed {w : List Char} (nonempty : w ≠ []) (unblank : ∀ c ∈ w, isBlank c = false) :
    Trimmed w := by
  refine ⟨?_, endsAll nonempty unblank⟩
  obtain ⟨c, rest, rfl⟩ := List.exists_cons_of_ne_nil nonempty
  exact ⟨c, rest, rfl, unblank c List.mem_cons_self⟩

theorem wordsFromUnblank {run : List Char} (read : ∀ c ∈ run, isBlank c = false) (s : List Char) :
    ∀ w ∈ wordsFrom run s, w ≠ [] ∧ ∀ c ∈ w, isBlank c = false := by
  have word : run ≠ [] → run.reverse ≠ [] ∧ ∀ c ∈ run.reverse, isBlank c = false := fun nonempty =>
    ⟨fun gone => nonempty (List.reverse_eq_nil_iff.mp gone),
      fun c member => read c (List.mem_reverse.mp member)⟩
  induction s generalizing run with
  | nil =>
    intro w member
    rw [wordsFrom] at member
    split at member
    · contradiction
    · rename_i nonempty
      rw [List.mem_singleton.mp member]
      exact word fun gone => nonempty (List.isEmpty_iff.mpr gone)
  | cons c s ih =>
    have rest : ∀ w ∈ wordsFrom [] s, w ≠ [] ∧ ∀ c ∈ w, isBlank c = false :=
      ih (List.forall_mem_nil _) fun nonempty => absurd rfl nonempty
    rw [wordsFrom]
    split
    · split
      · exact rest
      · rename_i nonempty
        exact List.forall_mem_cons.mpr ⟨word fun gone => nonempty (List.isEmpty_iff.mpr gone), rest⟩
    · rename_i unblank
      have unbroken : ∀ d ∈ c :: run, isBlank d = false :=
        List.forall_mem_cons.mpr ⟨Bool.eq_false_iff.mpr unblank, read⟩
      exact ih unbroken fun _ => ⟨by simp, fun d member => unbroken d (List.mem_reverse.mp member)⟩

end Text

namespace Token

theorem flushSome (word : List Char) : ∀ w ∈ flush word, w ≠ [] := by
  unfold flush
  split
  · exact List.forall_mem_nil _
  · rename_i nonempty
    refine List.forall_mem_singleton.mpr fun gone => nonempty ?_
    rw [List.reverse_eq_nil_iff.mp gone]
    rfl

theorem wordsFromSome (quote : Option Char) (word s : List Char) :
    ∀ w ∈ wordsFrom quote word s, w ≠ [] := by
  induction s generalizing quote word with
  | nil => exact flushSome word
  | cons c s ih =>
    rw [wordsFrom.eq_def]
    cases quote with
    | some q => exact ih _ _
    | none =>
      dsimp only
      split
      · exact List.forall_mem_append.mpr ⟨flushSome word, ih _ _⟩
      · split
        · split
          · exact ih _ _
          · exact List.forall_mem_append.mpr
              ⟨flushSome word, List.forall_mem_singleton.mpr (List.cons_ne_nil c s)⟩
        · exact ih _ _

end Token

def Header.Proper : Header → Prop
  | .cond condition => Text.Trimmed condition.toList
  | .each target binder => Text.Trimmed target.toList ∧ binder ≠ ""

namespace Mark

theorem ofListTrimmed {s : List Char} (trimmed : Text.Trimmed s) :
    Text.Trimmed (String.ofList s).toList := by
  rw [String.toList_ofList]
  exact trimmed

theorem blockHeaderProper {body : List Char} {header : Header}
    (h : blockHeader? body = some header) : header.Proper := by
  unfold blockHeader? at h
  split at h
  · contradiction
  · rename_i command argument _
    dsimp only at h
    split at h
    · contradiction
    · rename_i nonempty
      have nonempty : Text.trim argument ≠ [] := fun gone => nonempty (List.isEmpty_iff.mpr gone)
      split at h
      · cases h
        exact ofListTrimmed (Text.trimTrimmed nonempty)
      · split at h
        · split at h
          · contradiction
          · rename_i target more words
            obtain ⟨filled, unblank⟩ := Text.wordsFromUnblank (List.forall_mem_nil _)
              (Text.trim argument) target (by rw [← Text.words, words]; exact List.mem_cons_self)
            have trimmed := ofListTrimmed (Text.unblankTrimmed filled unblank)
            cases h
            refine ⟨trimmed, ?_⟩
            have named : ∀ binder : List Char,
                (if binder.isEmpty then "item" else String.ofList binder) ≠ "" := by
              intro binder
              cases binder with
              | nil => decide
              | cons c rest => simp
            exact named _
        · contradiction

theorem loopHeaderProper {content : List Char} {header : Header}
    (h : loopHeader? content = some header) : header.Proper := by
  unfold loopHeader? at h
  obtain ⟨_, _, h⟩ := Option.bind_eq_some_iff.mp h
  simp only [Option.bind_eq_bind, Option.bind_some, Option.bind_none] at h
  split at h
  · contradiction
  · split at h
    · contradiction
    · rename_i binder
      obtain ⟨rest, _, h⟩ := Option.bind_eq_some_iff.mp h
      split at h
      · contradiction
      · split at h
        · contradiction
        · rename_i nonempty
          cases h
          rw [Bool.or_eq_true, not_or] at binder
          refine ⟨ofListTrimmed (Text.trimTrimmed fun gone => nonempty (List.isEmpty_iff.mpr gone)),
            fun gone => binder.1 (by simpa using gone)⟩

def Proper : Meaning → Prop
  | .opens _ header => header.Proper
  | .element name .. => SoundTag name
  | .text | .comment | .output .. | .embed .. | .closes _ | .broken .. => True

theorem bracesMeaningProper (triple : Bool) (content raw : List Char) :
    Proper (bracesMeaning triple content raw) := by
  unfold bracesMeaning
  split
  · trivial
  · trivial
  · split
    · rename_i found
      exact blockHeaderProper found
    · trivial
  · unfold embedMeaning
    split <;> trivial
  · split <;> trivial
  · trivial

theorem statementMeaningProper (content raw : List Char) :
    Proper (statementMeaning content raw) := by
  unfold statementMeaning
  split
  · dsimp only
    split
    · trivial
    · rename_i nonempty
      exact ofListTrimmed (Text.trimTrimmed fun gone => nonempty (List.isEmpty_iff.mpr gone))
  · split
    · rename_i found
      exact loopHeaderProper found
    · split <;> trivial

theorem percentMeaningProper (inside raw : List Char) : Proper (percentMeaning inside raw) := by
  unfold percentMeaning
  dsimp only
  split
  · trivial
  · split <;> trivial
  · split <;> trivial
  · split
    · trivial
    · exact statementMeaningProper _ raw

end Mark

theorem Tag.openingSound {s : List Char} {tag : Opening} (h : opening? s = some tag) :
    SoundTag tag.name := by
  unfold opening? at h
  split at h
  · rename_i c rest
    split at h
    · rename_i upper
      rw [attributesName _ h]
      exact ⟨c, rest.takeWhile inTagName, String.toList_ofList, upper,
        fun d member => List.mem_takeWhile_imp member⟩
    · contradiction
  · contradiction

namespace Mark

theorem bracesOfProper (count : Nat) (h : 0 < count) (s : List Char) :
    Proper (bracesOf count h s).meaning := by
  unfold bracesOf
  dsimp only
  split
  · exact bracesMeaningProper _ _ _
  · trivial

theorem tagOfProper (s : List Char) : Proper (tagOf s).meaning :=
  ofTag (motive := fun m => Proper m.meaning) trivial (fun _ _ opened _ => Tag.openingSound opened)
    (fun _ _ _ _ _ opened _ _ => Tag.openingSound opened) fun _ _ _ _ _ => trivial

theorem percentOfProper (s : List Char) : Proper (percentOf s).meaning := by
  unfold percentOf
  split
  · exact percentMeaningProper _ _
  · trivial

theorem nextProper (s : List Char) : Proper (next s).meaning := by
  refine ofNext (motive := fun m => Proper m.meaning) (fun _ => trivial) ?closing ?note
    (fun _ _ _ _ _ => bracesOfProper _ _ _) (fun _ _ => percentOfProper _) (tagOfProper s)
  case closing =>
    intro m closer _ meaning
    rw [meaning]
    trivial
  case note =>
    intro t _
    unfold bracesComment
    split <;> trivial

end Mark
end Medley

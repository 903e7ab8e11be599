import Medley.Proofs.Template.Data
import Medley.Render.Render

/-! Integers that are too long. A source fails to read only by an integer of its page data that is
too long, and an argument only if it is such an integer itself. -/
namespace Medley

theorem errorBind {ε β γ : Type} {x : Except ε β} {f : β → Except ε γ} {fault : ε}
    (h : x >>= f = .error fault) : x = .error fault ∨ ∃ b, x = .ok b ∧ f b = .error fault := by
  cases x with
  | error e =>
    cases h
    exact .inl rfl
  | ok b => exact .inr ⟨b, rfl, h⟩

theorem errorMap {ε β γ : Type} {x : Except ε β} {f : β → γ} {fault : ε}
    (h : x.map f = .error fault) : x = .error fault := by
  cases x with
  | error e =>
    cases h
    rfl
  | ok b => contradiction

theorem errorMapM {α β ε : Type} {f : α → Except ε β} {xs : List α} {fault : ε}
    (h : xs.mapM f = .error fault) : ∃ x ∈ xs, f x = .error fault := by
  induction xs with
  | nil => contradiction
  | cons x xs ih =>
    rw [List.mapM_cons] at h
    rcases errorBind h with first | ⟨y, _, h⟩
    · exact ⟨x, List.mem_cons_self, first⟩
    · rcases errorBind h with rest | ⟨ys, _, h⟩
      · obtain ⟨z, member, found⟩ := ih rest
        exact ⟨z, List.mem_cons_of_mem x member, found⟩
      · contradiction

def Fault.IsOverlong (f : Fault) : Prop :=
  ∃ digits, Decimal.digitLimit < digits ∧ f = .longInteger digits

theorem Decimal.readIntLong {s : List Char} {digits : Nat}
    (h : readInt s = .error (.tooLong digits)) :
    digitLimit < digits := by
  unfold readInt at h
  dsimp only at h
  split at h
  · cases h
  · split at h
    · cases h
      assumption
    · cases h
  · cases h

namespace Frontmatter

theorem scalarFault {s : List Char} {f : Fault} (h : scalar s = .error f) : f.IsOverlong := by
  unfold scalar at h
  split at h
  · contradiction
  · split at h
    · contradiction
    · split at h
      · split at h
        · contradiction
        · rename_i long
          cases h
          exact ⟨_, Decimal.readIntLong long, rfl⟩
        · contradiction
      · split at h
        · split at h <;> contradiction
        · contradiction

theorem valueFault (s : List Char) {f : Fault} (h : value s = .error f) : f.IsOverlong := by
  generalize size : s.length = n
  induction n using Nat.strongRecOn generalizing s with
  | ind n ih =>
    rw [value] at h
    split at h
    · contradiction
    · split at h
      · rename_i inside bracketed
        split at h
        · contradiction
        · rcases errorBind h with read | ⟨items, _, h⟩
          · obtain ⟨⟨part, here⟩, _, found⟩ := errorMapM read
            have short := length_le_of_mem_splitOnChar here
            have trimmed := trim_length_le inside
            have less := bracketed?_length_lt bracketed
            have whole := trim_length_le s
            exact ih part.length (by omega) part found rfl
          · contradiction
      · exact scalarFault h

theorem dataFault {lines : List (List Char)} {before : Layer} {f : Fault}
    (h : dataFrom before lines = .error f) : f.IsOverlong := by
  induction lines generalizing before with
  | nil => contradiction
  | cons line rest ih =>
    rw [dataFrom] at h
    split at h
    · exact ih h
    · rcases errorBind h with read | ⟨v, _, h⟩
      · exact valueFault _ read
      · exact ih h

end Frontmatter

theorem Template.readFault {o : ReadOptions} {source : String} {f : Fault}
    (h : read o source = .error f) : f.IsOverlong := by
  unfold read at h
  dsimp only at h
  split at h
  · contradiction
  · rcases errorBind h with data | ⟨layer, _, h⟩
    · exact Frontmatter.dataFault data
    · contradiction

namespace Stage

/-- An argument that is no integer, or one that can be read. -/
def Short (token : String) : Prop :=
  ∀ digits, Decimal.readInt token.toList ≠ .error (.tooLong digits)

theorem argumentFault {s : Stage} {scope : Scope} {token : String} {f : Fault}
    (h : s.argument scope token = .error f) : f.IsOverlong ∧ ¬ Short token := by
  unfold argument at h
  dsimp only at h
  split at h
  · contradiction
  · split at h
    · split at h
      · contradiction
      · rename_i digits long
        cases h
        exact ⟨⟨digits, Decimal.readIntLong long, rfl⟩, fun short => short digits long⟩
      · contradiction
    · split at h
      · contradiction
      · split at h
        · split at h <;> contradiction
        · contradiction

end Stage
end Medley

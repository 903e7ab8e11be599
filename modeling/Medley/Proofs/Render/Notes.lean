import Mathlib.Data.List.Infix
import Medley.Proofs.Render.Output

/-! Comments on problems. A message may hold whatever a template or a value holds, so dashes in a row
are spaced from the left before it becomes a comment. Two dashes are told apart that way; of three
the last one joins the two that were spaced, and a comment can be ended there. -/
namespace Medley

namespace Text

def dashes : List Char := ['-', '-']

theorem dashesSome : dashes ≠ [] := nofun

theorem dashesCons {c : Char} {s : List Char} :
    dashes <:+: c :: s ↔ (c = '-' ∧ ['-'] <+: s) ∨ dashes <:+: s := by
  rw [List.infix_cons_iff, dashes, List.cons_prefix_cons]
  exact or_congr (and_congr_left' eq_comm) Iff.rfl

theorem tripleCons {c : Char} {s : List Char} :
    '-' :: dashes <:+: c :: s ↔ (c = '-' ∧ dashes <+: s) ∨ '-' :: dashes <:+: s := by
  rw [List.infix_cons_iff, List.cons_prefix_cons]
  exact or_congr (and_congr_left' eq_comm) Iff.rfl

theorem dashesApart {c : Char} (other : c ≠ '-') (s t : List Char) :
    dashes <:+: s ++ c :: t ↔ dashes <:+: s ∨ dashes <:+: t := by
  induction s with
  | nil => simp [dashesCons, other, dashesSome]
  | cons d s ih =>
    have next : ['-'] <+: s ++ c :: t ↔ ['-'] <+: s := by
      cases s with
      | nil => simp [Ne.symm other]
      | cons => simp
    rw [List.cons_append, dashesCons, dashesCons, ih, next, or_assoc]

def loosen : List Char → List Char := replaceFrom dashes ['-', ' ', '-'] 0

theorem loosenNil : loosen [] = [] := rfl

theorem loosenPair (s : List Char) : loosen ('-' :: '-' :: s) = '-' :: ' ' :: '-' :: loosen s := rfl

theorem loosenOther {c : Char} {s : List Char} (single : ¬ dashes <+: c :: s) :
    loosen (c :: s) = c :: loosen s := by
  unfold loosen
  rw [replaceFrom, if_neg (by simpa using single)]

/- By what spacing does: two dashes go together, and any other character by itself. -/
@[elab_as_elim]
theorem loosenInduction {motive : List Char → Prop} (nil : motive [])
    (pair : ∀ s, motive s → motive ('-' :: '-' :: s))
    (other : ∀ c s, ¬ dashes <+: c :: s → motive s → motive (c :: s)) : ∀ s, motive s
  | [] => nil
  | [c] => other c [] (by simp [dashes]) nil
  | c :: d :: s => by
    by_cases both : dashes <+: c :: d :: s
    · obtain ⟨rfl, rest⟩ := List.cons_prefix_cons.mp both
      obtain ⟨rfl, _⟩ := List.cons_prefix_cons.mp rest
      exact pair s (loosenInduction nil pair other s)
    · exact other c (d :: s) both (loosenInduction nil pair other (d :: s))

theorem loosenStart (c : Char) (s : List Char) : [c] <+: loosen s ↔ [c] <+: s := by
  cases s using loosenInduction with
  | nil => rfl
  | pair s => simp [loosenPair]
  | other d s single =>
    rw [loosenOther single]
    simp

theorem loosenDashes (s : List Char) : dashes <:+: loosen s ↔ '-' :: dashes <:+: s := by
  induction s using loosenInduction with
  | nil => simp [loosenNil, dashesSome]
  | pair s ih =>
    have front : dashes <+: '-' :: s ↔ ['-'] <+: s := by simp [dashes]
    have more : dashes <+: s → ['-'] <+: s := (List.prefix_append ['-'] ['-']).trans
    have apart : ¬ ['-'] <+: ' ' :: '-' :: loosen s := by simp
    rw [loosenPair, dashesCons, dashesCons, dashesCons, loosenStart, ih, tripleCons, tripleCons,
      front]
    simp only [apart, Char.reduceEq, true_and, false_and, and_false, false_or]
    -- a third dash is the first one of what is left
    exact ⟨fun h => h.imp_right .inr, fun h => h.elim .inl fun rest => rest.imp_left more⟩
  | other c s single ih =>
    have alone : ¬ (c = '-' ∧ ['-'] <+: s) := fun both =>
      single (List.cons_prefix_cons.mpr ⟨both.1.symm, both.2⟩)
    have three : ¬ (c = '-' ∧ dashes <+: s) := fun both =>
      alone ⟨both.1, (List.prefix_append ['-'] ['-']).trans both.2⟩
    rw [loosenOther single, dashesCons, loosenStart, tripleCons, ih, or_iff_right alone,
      or_iff_right three]

theorem loosenFront (s : List Char) : ¬ dashes <+: loosen s := by
  cases s using loosenInduction with
  | nil => simp [loosenNil, dashes]
  | pair s => simp [loosenPair, dashes]
  | other c s single =>
    rw [loosenOther single]
    intro front
    obtain ⟨rfl, later⟩ := List.cons_prefix_cons.mp front
    exact single (List.cons_prefix_cons.mpr ⟨rfl, (loosenStart '-' s).mp later⟩)

theorem loosenArrow (s : List Char) : ['-', '>'] <+: loosen s ↔ ['-', '>'] <+: s := by
  cases s using loosenInduction with
  | nil => rfl
  | pair s => simp [loosenPair]
  | other c s single =>
    rw [loosenOther single, List.cons_prefix_cons, List.cons_prefix_cons, loosenStart]

/- A run of three, five, seven or more dashes stands before a `>`. -/
def OddArrow (s : List Char) : Prop :=
  ∃ before n after, s = before ++ (List.replicate (2 * n + 3) '-' ++ '>' :: after) ∧
    before.getLast? ≠ some '-'

theorem oddArrowThree {s : List Char} (h : OddArrow s) : ['-', '-', '-', '>'] <:+: s := by
  obtain ⟨before, n, after, rfl, _⟩ := h
  refine ⟨before ++ List.replicate (2 * n) '-', after, ?_⟩
  simp [List.replicate_add]

theorem oddArrowPair (s : List Char) :
    OddArrow ('-' :: '-' :: s) ↔ ['-', '>'] <+: s ∨ OddArrow s := by
  constructor
  · rintro ⟨before, n, after, same, ends⟩
    match before with
    | [] =>
      cases n with
      | zero =>
        left
        exact ⟨after, by simpa using same.symm⟩
      | succ n =>
        right
        refine ⟨[], n, after, ?_, nofun⟩
        simpa [Nat.mul_add, List.replicate_succ] using same
    | [c] =>
      cases same
      exact absurd rfl ends
    | c :: d :: before =>
      right
      cases same
      refine ⟨before, n, after, rfl, fun last => ends ?_⟩
      simp [List.getLast?_cons, last]
  · rintro (⟨after, rfl⟩ | ⟨before, n, after, rfl, ends⟩)
    · exact ⟨[], 0, after, rfl, nofun⟩
    · cases before with
      | nil => exact ⟨[], n + 1, after, by simp [Nat.mul_add, List.replicate_succ], nofun⟩
      | cons c before =>
        exact ⟨'-' :: '-' :: c :: before, n, after, rfl, by simpa [List.getLast?_cons] using ends⟩

theorem oddArrowOther {c : Char} {s : List Char} (single : ¬ dashes <+: c :: s) :
    OddArrow (c :: s) ↔ OddArrow s := by
  constructor
  · rintro ⟨before, n, after, same, ends⟩
    cases before with
    | nil =>
      refine absurd ?_ single
      rw [same]
      simp [dashes, List.replicate_succ]
    | cons d before =>
      cases same
      refine ⟨before, n, after, rfl, fun last => ends ?_⟩
      simp [List.getLast?_cons, last]
  · rintro ⟨before, n, after, rfl, ends⟩
    cases before with
    | nil =>
      refine ⟨[c], n, after, rfl, fun last => single ?_⟩
      obtain rfl : c = '-' := by simpa using last
      simp [dashes, List.replicate_succ]
    | cons d before =>
      exact ⟨c :: d :: before, n, after, rfl, by simpa [List.getLast?_cons] using ends⟩

/- Of such a run one dash is left over, and joins the second of the last pair that was spaced. -/
theorem loosenEnd (s : List Char) : [' ', '-', '-', '>'] <:+: loosen s ↔ OddArrow s := by
  induction s using loosenInduction with
  | nil => simp [loosenNil, OddArrow]
  | pair s ih =>
    rw [oddArrowPair, ← ih, ← loosenArrow]
    simp [loosenPair, List.infix_cons_iff]
  | other c s single ih =>
    have front : ¬ [' ', '-', '-', '>'] <+: c :: loosen s := fun here =>
      loosenFront s ((List.prefix_append dashes ['>']).trans (List.cons_prefix_cons.mp here).2)
    rw [loosenOther single, List.infix_cons_iff, or_iff_right front, ih, oddArrowOther single]

end Text

namespace Html
open Text

/- A comment that only its last three characters end. -/
def IsComment (s : String) : Prop :=
  ∃ inside, s.toList = "<!--".toList ++ inside ++ "-->".toList ∧ ¬ "--".toList <:+: inside ∧
    ∀ before after, s.toList = before ++ "-->".toList ++ after → after = []

theorem endsOnce {s after : List Char} (single : ¬ dashes <:+: s)
    (found : '-' :: '-' :: '>' :: after <:+ s ++ [' ', '-', '-', '>']) : after = [] := by
  induction s with
  | nil =>
    simp only [List.nil_append, List.suffix_cons_iff] at found
    simpa using found
  | cons c s ih =>
    rw [List.cons_append, List.suffix_cons_iff] at found
    rcases found with here | later
    · obtain ⟨rfl, rest⟩ := List.cons.inj here
      cases s with
      | nil => simp at rest
      | cons d s =>
        obtain ⟨rfl, _⟩ := List.cons.inj rest
        exact absurd (dashesCons.mpr (.inl ⟨rfl, by simp⟩)) single
    · exact ih (fun inside => single (dashesCons.mpr (.inr inside))) later

theorem isCommentIff (s : List Char) :
    IsComment (String.ofList ("<!-- ".toList ++ (s ++ " -->".toList))) ↔ ¬ dashes <:+: s := by
  have blank : ∀ t, dashes <:+: ' ' :: (t ++ [' ']) ↔ dashes <:+: t := fun t => by
    rw [dashesCons, dashesApart (by decide)]
    simp [dashes]
  unfold IsComment
  rw [String.toList_ofList]
  constructor
  · rintro ⟨inside, same, single, _⟩
    have ends : ' ' :: (s ++ [' ']) ++ "-->".toList = inside ++ "-->".toList := by
      simpa using same
    rw [← blank s, List.append_cancel_right ends]
    exact single
  · intro single
    refine ⟨' ' :: (s ++ [' ']), by simp, mt (blank s).mp single, fun before after same => ?_⟩
    have found : '-' :: '-' :: '>' :: after <:+ '<' :: '!' :: '-' :: '-' :: ' ' ::
        (s ++ [' ', '-', '-', '>']) := ⟨before, by simpa using same.symm⟩
    -- neither the opening nor the blank behind it begins an end
    simp only [List.suffix_cons_iff, List.cons.injEq, Char.reduceEq, false_and,
      and_false, false_or] at found
    exact endsOnce single found

end Html

namespace Chunk
open Text

theorem codeSingle (code : Code) : ¬ dashes <:+: "motif ".toList ++ code.text.toList ++ [':'] := by
  cases code <;> decide

theorem commentDashes (code : Code) (message : String) :
    Html.IsComment (comment code.text message).text ↔ ¬ "---".toList <:+: message.toList := by
  have whole : (comment code.text message).text = String.ofList ("<!-- ".toList ++
      (("motif ".toList ++ code.text.toList ++ [':'] ++ ' ' :: loosen message.toList) ++
        " -->".toList)) := by
    refine String.toList_inj.mp ?_
    simp [text, spaceDashes, replace, loosen, dashes]
  rw [whole, Html.isCommentIff, dashesApart (by decide), loosenDashes]
  exact not_congr (or_iff_right (codeSingle code))

end Chunk

namespace Stage

/-- A problem is commented on where diagnostics are wanted, a diagnostic node always and in the same
words; the comment is ended early by none but a message with three dashes in a row. -/
theorem commentsClosed (e : Engine) (h : Host) (c : RenderContext) (level : Nat) (scope : Scope)
    (pos : Position) (code : Code) (message source : String) :
    Run.Writes (comment (.of e h .plain) c code message)
        (if c.debug then [.comment code.text message] else []) ∧
      Run.Writes (node (.of e h .plain) c level scope (.diagnostic pos code.text message source))
        [.diagnostic code.text message] ∧
      (Chunk.diagnostic code.text message).text = (Chunk.comment code.text message).text ∧
      (Html.IsComment (Chunk.comment code.text message).text ↔
        ¬ "---".toList <:+: message.toList) := by
  refine ⟨?_, ?_, rfl, Chunk.commentDashes code message⟩
  · unfold comment
    split
    · exact .emit _
    · exact .pure
  · rw [node]
    exact .emit _

/- What follows the third dash is outside the comment. -/
theorem threeDashesEscape : ¬ ∀ (code : Code) (message : String),
    Html.IsComment (Chunk.comment code.text message).text := by
  intro closed
  obtain ⟨_, _, _, last⟩ := closed .helperError "---><script>"
  have early := last "<!-- motif M-RUN-002: - ".toList "<script> -->".toList (by decide)
  exact absurd early (by decide)

end Stage
end Medley

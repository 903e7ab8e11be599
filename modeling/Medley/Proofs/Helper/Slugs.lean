import Mathlib.Data.List.Basic
import Medley.Helper.Apply
import Medley.Proofs.Decimal.Rounding

/-! Slugs. The runs of small letters and digits in a text are what stands between all its other
characters; a slug is the runs of the text in lower case with a dash between every two. A slug is
its own lower case, and its runs are divided by its dashes, so it is the slug of itself. -/
namespace Medley.Helper
open Text

def slugParts (s : List Char) : List (List Char) := s.splitOnP fun c => !inSlug c

/-- The longest runs of characters of slugs, from the first to the last. -/
def slugRuns (s : List Char) : List (List Char) := (slugParts s).filter fun part => !part.isEmpty

def dashed (runs : List (List Char)) : List Char := runs.flatMap ('-' :: ·)

/- Runs of small letters and digits with a dash between every two, or nothing. -/
def IsSlug (s : List Char) : Prop :=
  ∃ runs : List (List Char), (∀ run ∈ runs, run ≠ [] ∧ ∀ c ∈ run, inSlug c = true) ∧
    s = ['-'].intercalate runs

theorem intercalateDashed (run : List Char) (runs : List (List Char)) :
    ['-'].intercalate (run :: runs) = run ++ dashed runs := by
  induction runs generalizing run with
  | nil => simp [dashed]
  | cons next runs ih =>
    rw [List.intercalate_cons_cons, ih, List.append_assoc]
    rfl

theorem partsInside {c : Char} (inside : inSlug c = true) (s : List Char) :
    ∃ part parts, slugParts s = part :: parts ∧ slugParts (c :: s) = (c :: part) :: parts := by
  obtain ⟨part, parts, same⟩ := List.exists_cons_of_ne_nil
    (List.splitOnP_ne_nil (fun c => !inSlug c) s)
  refine ⟨part, parts, same, ?_⟩
  rw [slugParts, List.splitOnP_cons_eq_if_modifyHead, same]
  simp [inside]

theorem partsOutside {c : Char} (outside : inSlug c = false) (s : List Char) :
    slugParts (c :: s) = [] :: slugParts s := by
  rw [slugParts, List.splitOnP_cons_eq_if_modifyHead]
  simp [outside, slugParts]

theorem runsOutside {c : Char} (outside : inSlug c = false) (s : List Char) :
    slugRuns (c :: s) = slugRuns s := by
  simp [slugRuns, partsOutside outside]

/- Behind a character of the slug: the run it stands in goes on or, after a gap, has ended. -/
theorem slugBehind (s : List Char) :
    (∀ part parts, slugParts s = part :: parts → slugFrom true false s =
      part ++ dashed (parts.filter fun part => !part.isEmpty)) ∧
    slugFrom true true s = dashed (slugRuns s) := by
  induction s with
  | nil => exact ⟨fun part parts same => by cases same; rfl, rfl⟩
  | cons c s ih =>
    cases inside : inSlug c with
    | true =>
      obtain ⟨part, parts, before, behind⟩ := partsInside inside s
      have rest := ih.1 part parts before
      constructor
      · intro first more same
        cases behind.symm.trans same
        simp [slugFrom, inside, rest]
      · simp [slugFrom, inside, rest, slugRuns, behind, dashed]
    | false =>
      constructor
      · intro first more same
        cases (partsOutside inside s).symm.trans same
        simp [slugFrom, inside, ih.2, slugRuns]
      · rw [runsOutside inside]
        simpa [slugFrom, inside] using ih.2

theorem slugStart (gap : Bool) (s : List Char) :
    slugFrom false gap s = ['-'].intercalate (slugRuns s) := by
  induction s generalizing gap with
  | nil => rfl
  | cons c s ih =>
    cases inside : inSlug c with
    | true =>
      obtain ⟨part, parts, before, behind⟩ := partsInside inside s
      have rest := (slugBehind s).1 part parts before
      have runs : slugRuns (c :: s) = (c :: part) :: parts.filter fun part => !part.isEmpty := by
        simp [slugRuns, behind]
      rw [runs, intercalateDashed]
      simp [slugFrom, inside, rest]
    | false =>
      rw [runsOutside inside]
      simpa [slugFrom, inside] using ih true

theorem partsSound (s : List Char) : ∀ part ∈ slugParts s, ∀ c ∈ part, inSlug c = true := by
  induction s with
  | nil => simp [slugParts]
  | cons c s ih =>
    cases inside : inSlug c with
    | true =>
      obtain ⟨part, parts, before, behind⟩ := partsInside inside s
      rw [before, List.forall_mem_cons] at ih
      rw [behind, List.forall_mem_cons]
      exact ⟨List.forall_mem_cons.mpr ⟨inside, ih.1⟩, ih.2⟩
    | false =>
      rw [partsOutside inside, List.forall_mem_cons]
      exact ⟨List.forall_mem_nil _, ih⟩

theorem runsSound (s : List Char) :
    ∀ run ∈ slugRuns s, run ≠ [] ∧ ∀ c ∈ run, inSlug c = true := by
  intro run member
  obtain ⟨part, nonempty⟩ := List.mem_filter.mp member
  exact ⟨by simpa using nonempty, partsSound s run part⟩

theorem slugIsSlug (s : List Char) : IsSlug (slug s) :=
  ⟨slugRuns (lower s), runsSound _, slugStart false (lower s)⟩

theorem runsJoined {runs : List (List Char)}
    (sound : ∀ run ∈ runs, run ≠ [] ∧ ∀ c ∈ run, inSlug c = true) :
    slugRuns (['-'].intercalate runs) = runs := by
  induction runs with
  | nil => simp [slugRuns, slugParts]
  | cons run runs ih =>
    rw [List.forall_mem_cons] at sound
    have single : slugParts run = [run] :=
      List.splitOnP_eq_singleton fun c member => by simp [sound.1.2 c member]
    cases runs with
    | nil => simp [slugRuns, single, sound.1.1]
    | cons next runs =>
      have parts : slugParts (run ++ '-' :: ['-'].intercalate (next :: runs)) =
          slugParts run ++ slugParts (['-'].intercalate (next :: runs)) :=
        List.splitOnP_append_cons run _ (by decide)
      rw [single] at parts
      rw [List.intercalate_cons_cons, List.append_assoc, List.singleton_append, slugRuns, parts,
        List.filter_append, ← slugRuns, ih sound.2]
      simp [sound.1.1]

theorem slugChars (any gap : Bool) (s : List Char) :
    ∀ c ∈ slugFrom any gap s, inSlug c = true ∨ c = '-' := by
  induction s generalizing any gap with
  | nil => exact List.forall_mem_nil _
  | cons c s ih =>
    rw [slugFrom]
    split
    · rename_i inside
      have here : ∀ d ∈ c :: slugFrom true false s, inSlug d = true ∨ d = '-' :=
        List.forall_mem_cons.mpr ⟨.inl inside, ih true false⟩
      split
      · exact List.forall_mem_cons.mpr ⟨.inr rfl, here⟩
      · exact here
    · exact ih any true

theorem slugCharLower {c : Char} (h : inSlug c = true ∨ c = '-') :
    c ≠ 'Σ' ∧ lowerChar c = [c] := by
  have code : c.toNat < 0x80 ∧ ¬ ('A' ≤ c ∧ c ≤ 'Z') := by
    rcases h with inside | rfl
    · simp only [inSlug, isAsciiDigit, Bool.or_eq_true, Bool.and_eq_true, decide_eq_true_eq,
        Char.le_def, UInt32.le_iff_toNat_le] at inside
      simp only [Char.le_def, UInt32.le_iff_toNat_le, Char.toNat]
      simp at inside ⊢
      omega
    · decide
  refine ⟨?_, ?_⟩
  · rintro rfl
    exact absurd code.1 (by decide)
  · rw [lowerChar, if_pos code.1]
    simp [code.2]

theorem lowerSame {s : List Char} (h : ∀ c ∈ s, inSlug c = true ∨ c = '-') (before : List Char) :
    lowerFrom before s = s := by
  induction s generalizing before with
  | nil => rfl
  | cons c s ih =>
    rw [List.forall_mem_cons] at h
    obtain ⟨other, same⟩ := slugCharLower h.1
    rw [lowerFrom, if_neg other, same, ih h.2, List.singleton_append]

theorem runsSlug (s : List Char) : slugRuns (slug s) = slugRuns (lower s) := by
  rw [slug, slugStart, runsJoined (runsSound _)]

theorem slugAgain (s : List Char) : slug (slug s) = slug s := by
  have same : lower (slug s) = slug s := lowerSame (slugChars _ _ _) []
  rw [slug, same, slugStart, runsSlug, ← slugStart, ← slug]

theorem evaluateSlugify (host : Host) (v : Value) : Builtin.evaluate host .slugify [v] =
    if v.isWritable then .ok (.text (String.ofList (slug v.display.toList)))
    else .error .unwritableInteger := by
  have unfolded : Builtin.evaluate host .slugify [v] = mapText slug v := rfl
  rw [unfolded, mapText, Value.output]
  split <;> rfl

theorem slugsCanonical (host : Host) (v : Value) : ∃ s : List Char,
    Builtin.evaluate host .slugify [v] =
      (if v.isWritable then .ok (.text (String.ofList s)) else .error .unwritableInteger) ∧
    IsSlug s ∧ slugRuns s = slugRuns (lower v.display.toList) ∧
    Builtin.evaluate host .slugify [.text (String.ofList s)] =
      .ok (.text (String.ofList s)) := by
  refine ⟨slug v.display.toList, evaluateSlugify host v, slugIsSlug _, runsSlug _, ?_⟩
  rw [evaluateSlugify, Value.display, String.toList_ofList, slugAgain]
  rfl

/- An integer with more digits than can be written has no slug. -/
theorem longUnslugged : ¬ ∀ (host : Host) (v : Value), ∃ s : String,
    Builtin.evaluate host .slugify [v] = .ok (.text s) := by
  intro every
  have long : ¬ Decimal.digitCount (10 ^ Decimal.digitLimit) ≤ Decimal.digitLimit := by
    rw [Decimal.digitCountLe (by decide)]
    exact Nat.lt_irrefl _
  have unwritable : (Value.int (10 ^ Decimal.digitLimit : Nat)).isWritable = false := by
    rw [Value.isWritable, Int.natAbs_natCast]
    exact decide_eq_false long
  let host : Host :=
    { call := fun _ _ _ entries _ => (.ok .null, entries), isDeferred := fun _ => false,
      utc := .midnight ⟨2024, 1, 1⟩, plain := .midnight ⟨2024, 1, 1⟩ }
  obtain ⟨s, given⟩ := every host (.int (10 ^ Decimal.digitLimit : Nat))
  rw [evaluateSlugify, unwritable, if_neg Bool.false_ne_true] at given
  cases given

end Medley.Helper

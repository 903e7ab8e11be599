import Medley.Proofs.Template.Elements
import Medley.Proofs.Template.Headers

/-! How much of a source marks take. The search for the closing tag of an element goes on from one
tag of its name to the next and never past the end, so an element and every other mark is as long
as what stands there at most; what stands inside an element is shorter than the element by its two
tags. -/
namespace Medley

namespace Text
open Mark (blankWidth)

theorem blankTrimmed (s : List Char) : blankWidth s + (trimStart s).length = s.length := by
  rw [blankWidth, trimStart, ← List.length_append, List.takeWhile_append_dropWhile]

theorem dropStartLength {start s rest : List Char} (h : dropStart? start s = some rest) :
    s.length = start.length + rest.length := by
  rw [dropStartSome h, List.length_append]

theorem cutLength {piece s before after : List Char} (h : cut piece s = some (before, after)) :
    s.length = before.length + piece.length + after.length := by
  rw [cutParts h, List.length_append, List.length_append, Nat.add_assoc]

end Text

namespace Tag
open Text

/- How much stands before the next tag of this name, be it an opening or a closing one. -/
def sameWidth (name : List Char) : List Char → Nat
  | [] => 0
  | c :: rest =>
      if (closingWidth? name (c :: rest)).isSome || opensSame name (c :: rest) then 0
      else sameWidth name rest + 1

/-- What one look for the end of an element comes to: there is no further tag of its name, its end
is found so far behind, or the search goes on, so deep in elements of the same name. -/
inductive Look where
  | missing
  | found (inner width : Nat)
  | on (depth : Nat) (rest : List Char)

def lookAt (name : List Char) (depth before : Nat) (s : List Char) : Look :=
  if s = [] then .missing
  else match closingWidth? name s with
    | some width => if depth = 0 then .found before width else .on (depth - 1) (s.drop width)
    | none => match opening? s with
      | some tag => .on (if tag.closed then depth else depth + 1) tag.rest
      | none => .on depth (s.drop (name.length + 1))

def look (name : List Char) (depth : Nat) (s : List Char) : Look :=
  lookAt name depth (sameWidth name s) (s.drop (sameWidth name s))

theorem closingWidthFits {name s : List Char} {width : Nat}
    (h : closingWidth? name s = some width) : name.length + 3 ≤ width ∧ width ≤ s.length := by
  unfold closingWidth? at h
  obtain ⟨rest, start, h⟩ := Option.bind_eq_some_iff.mp h
  split at h
  · rename_i more closes
    cases h
    have front := dropStartLength start
    have blanks := blankTrimmed rest
    rw [closes] at blanks
    simp only [Mark.blankWidth, List.length_cons] at front blanks
    omega
  · contradiction

theorem lookOn {name s rest : List Char} {depth deeper : Nat}
    (h : look name depth s = .on deeper rest) : Later s rest := by
  have there := List.drop_suffix (sameWidth name s) s
  unfold look lookAt at h
  split at h
  · contradiction
  · rename_i nonempty
    split at h
    · rename_i width closing
      split at h
      · contradiction
      · cases h
        have fits := closingWidthFits closing
        exact (laterDrop nonempty (by omega)).front there
    · split at h
      · rename_i tag opens
        cases h
        have inside := openingRest opens
        exact Later.front ⟨inside.1, by omega⟩ there
      · cases h
        exact (laterDrop nonempty (Nat.succ_pos _)).front there

theorem lookFound {name s : List Char} {depth inner width : Nat}
    (h : look name depth s = .found inner width) :
    name.length + 3 ≤ width ∧ inner + width ≤ s.length := by
  unfold look lookAt at h
  split at h
  · contradiction
  · split at h
    · rename_i closing
      split at h
      · cases h
        have fits := closingWidthFits closing
        rw [List.length_drop] at fits
        omega
      · contradiction
    · split at h <;> contradiction

theorem sameStops (name s : List Char) (c : Char) (rest : List Char)
    (there : s.drop (sameWidth name s) = c :: rest) :
    ((closingWidth? name (c :: rest)).isSome || opensSame name (c :: rest)) = true := by
  induction s with
  | nil => contradiction
  | cons d s ih =>
    rw [sameWidth] at there
    split at there
    · rename_i here
      rwa [← there]
    · exact ih there

theorem opensShape {name s : List Char} (h : opensSame name s = true) :
    ∃ more, s = '<' :: (name ++ more) := by
  unfold opensSame at h
  split at h
  · rename_i front
    exact ⟨_, dropStartSome front⟩
  · contradiction

theorem closeSkipTo {name s t : List Char} (suffix : t <:+ s) (depth passed : Nat) :
    closeFrom name depth passed (s.length - t.length) s =
      closeFrom name depth (passed + (s.length - t.length)) 0 t := by
  obtain ⟨w, rfl⟩ := suffix
  rw [List.length_append, Nat.add_sub_cancel, closeSkip]

def Look.Takes (s : List Char) : Look → Prop
  | .missing => True
  | .found inner width => 0 < width ∧ inner + width ≤ s.length
  | .on _ rest => Later s rest

theorem lookTakes (name : List Char) (depth : Nat) (s : List Char) :
    (look name depth s).Takes s := by
  cases next : look name depth s with
  | missing => trivial
  | found inner width =>
    have fits := lookFound next
    exact ⟨by omega, fits.2⟩
  | on deeper rest => exact lookOn next

theorem closeSame (name : List Char) (depth passed : Nat) (s : List Char) :
    closeFrom name depth passed 0 s =
      closeFrom name depth (passed + sameWidth name s) 0 (s.drop (sameWidth name s)) := by
  induction s generalizing passed with
  | nil => rfl
  | cons c s ih =>
    rw [sameWidth]
    split
    · rfl
    · rename_i other
      rw [Bool.not_eq_true, Bool.or_eq_false_iff, Option.isSome_eq_false_iff,
        Option.isNone_iff_eq_none] at other
      rw [closeOther other.1 other.2, ih, List.drop_succ_cons]
      congr 1
      omega

/- The search is one look after the other, for a name that no tag begins inside of. -/
theorem closeLook {name : List Char} (plain : ∀ c ∈ name, c ≠ '<') (depth passed : Nat)
    (s : List Char) :
    closeFrom name depth passed 0 s = match look name depth s with
      | .missing => none
      | .found inner width => some (passed + inner, width)
      | .on deeper rest => closeFrom name deeper (passed + (s.length - rest.length)) 0 rest := by
  have stops := sameStops name s
  have size := List.length_drop (i := sameWidth name s) (l := s)
  rw [closeSame, look, lookAt]
  generalize sameWidth name s = before at stops size
  generalize s.drop before = there at stops size
  cases there with
  | nil => rfl
  | cons c rest =>
    rw [List.length_cons] at size
    rw [closeFrom, if_neg (List.cons_ne_nil c rest)]
    cases closing : closingWidth? name (c :: rest) with
    | some width =>
      have fits := closingWidthFits closing
      obtain ⟨more, rfl⟩ : ∃ more, width = more + 1 := ⟨width - 1, by omega⟩
      by_cases outermost : depth = 0
      · simp only [outermost, if_true]
      · simp only [outermost, if_false, List.drop_succ_cons]
        have skipped : more = rest.length - (rest.drop more).length := by
          rw [List.length_cons] at fits
          rw [List.length_drop]
          omega
        rw [Nat.add_sub_cancel]
        nth_rewrite 1 [skipped]
        rw [closeSkipTo (List.drop_suffix more rest)]
        congr 1
        omega
    | none =>
      dsimp only
      have starts : opensSame name (c :: rest) = true := by
        simpa [closing] using stops c rest rfl
      rw [if_pos starts]
      cases opens : opening? (c :: rest) with
      | some tag =>
        have inside := openingRest opens
        rw [List.length_cons] at inside
        rcases List.suffix_cons_iff.mp inside.1 with same | suffix
        · have := congrArg List.length same
          rw [List.length_cons] at this
          omega
        · dsimp only
          rw [closeSkipTo suffix]
          congr 1
          omega
      | none =>
        -- no tag after all; none can begin inside the name, so the search goes on behind it
        obtain ⟨more, same⟩ := opensShape starts
        cases same
        dsimp only
        rw [passedPlain name plain, List.drop_succ_cons, List.drop_left]
        congr 1
        rw [List.length_append] at size
        omega

theorem closeFromFits {name : List Char} (plain : ∀ c ∈ name, c ≠ '<') {depth passed inner : Nat}
    {width : Nat} {s : List Char} (h : closeFrom name depth passed 0 s = some (inner, width)) :
    name.length + 3 ≤ width ∧ inner + width ≤ passed + s.length := by
  generalize size : s.length = n
  induction n using Nat.strongRecOn generalizing s depth passed with
  | ind n ih =>
    rw [closeLook plain] at h
    cases next : look name depth s with
    | missing =>
      rw [next] at h
      contradiction
    | found before wide =>
      rw [next] at h
      cases h
      have fits := lookFound next
      omega
    | on deeper rest =>
      rw [next] at h
      have shorter := (lookOn next).shorter
      have fits := ih rest.length (by omega) h rfl
      omega

theorem closeFits {name : List Char} (plain : ∀ c ∈ name, c ≠ '<') {s : List Char}
    {inner width : Nat} (h : close? name s = some (inner, width)) :
    name.length + 3 ≤ width ∧ inner + width ≤ s.length := by
  have fits := closeFromFits plain h
  omega

theorem openingNamed {s : List Char} {tag : Opening} (h : opening? s = some tag) :
    ∀ c ∈ tag.name.toList, c ≠ '<' :=
  fun c member => (nameApart (tagChars (openingSound h) c member)).2.2.2

end Tag

namespace Mark
open Text

theorem closingBracesWidth {s : List Char} {m : Mark} (h : closingBraces? s = some m) :
    m.width ≤ s.length := by
  unfold closingBraces? at h
  simp only [bind, Option.bind_eq_some_iff] at h
  obtain ⟨r, opener, t, slash, u, closer, same⟩ := h
  cases same
  have front := dropStartLength opener
  have before := blankTrimmed r
  have named := dropStartLength slash
  have inside := blankTrimmed t
  have name := congrArg List.length
    (List.takeWhile_append_dropWhile (p := inCloserName) (l := trimStart t))
  have after := blankTrimmed ((trimStart t).dropWhile inCloserName)
  have back := dropStartLength closer
  simp only [List.length_append, List.length_cons, List.length_nil] at front named name back
  dsimp only
  omega

theorem closingPercentWidth {s : List Char} {m : Mark} (h : closingPercent? s = some m) :
    m.width ≤ s.length := by
  unfold closingPercent? at h
  simp only [bind, Option.bind_eq_some_iff] at h
  obtain ⟨r, opener, t, named, u, closer, same⟩ := h
  cases same
  have front := dropStartLength opener
  have before := blankTrimmed r
  have name := dropStartLength named
  have after := blankTrimmed t
  have back := dropStartLength closer
  simp only [List.length_cons, List.length_nil] at front back
  dsimp only
  omega

theorem bracesCommentWidth (s : List Char) : (bracesComment s).width ≤ s.length + 5 := by
  unfold bracesComment
  split
  · rename_i found
    have parts := cutLength found
    simp only [List.length_cons, List.length_nil] at parts
    dsimp only
    omega
  · exact Nat.le_add_left 5 s.length

theorem bracesOfWidth (count : Nat) (h : 0 < count) (s : List Char) :
    (bracesOf count h s).width ≤ s.length + count := by
  unfold bracesOf
  dsimp only
  split
  · rename_i found
    have parts := cutLength found
    rw [List.length_replicate] at parts
    dsimp only
    omega
  · exact Nat.le_add_left count s.length

theorem percentOfWidth (s : List Char) : (percentOf s).width ≤ s.length + 2 := by
  unfold percentOf
  split
  · rename_i found
    have parts := cutLength found
    simp only [List.length_cons, List.length_nil] at parts
    dsimp only
    omega
  · exact Nat.le_add_left 2 s.length

theorem tagOfWidth {s : List Char} (nonempty : s ≠ []) : (tagOf s).width ≤ s.length := by
  refine ofTag (motive := fun m => m.width ≤ s.length) (List.length_pos_iff.mpr nonempty)
    (fun _ _ _ _ => Nat.sub_le _ _) ?_ fun _ _ _ _ _ => Nat.sub_le _ _
  intro tag inner closing _ _ opened _ found
  have behind := (Tag.openingRest opened).1.length_le
  have fits := Tag.closeFits (Tag.openingNamed opened) found
  dsimp only
  omega

theorem textWidthLength (s : List Char) : textWidth s ≤ s.length := by
  induction s with
  | nil => exact Nat.le_refl 0
  | cons c s ih =>
    rw [textWidth]
    split
    · exact Nat.zero_le _
    · exact Nat.succ_le_succ ih

theorem nextWidth {s : List Char} (nonempty : s ≠ []) : (next s).width ≤ s.length := by
  refine ofNext (motive := fun m => m.width ≤ s.length) (fun _ => textWidthLength s) ?closing ?note
    ?braces ?percent (tagOfWidth nonempty)
  case closing =>
    intro m _ found _
    have either := Option.or_eq_some_iff.mp (Option.orElse_eq_or.symm.trans found)
    rcases either with braces | ⟨_, percent⟩
    · exact closingBracesWidth braces
    · exact closingPercentWidth percent
  case note =>
    rintro t rfl
    exact bracesCommentWidth t
  case braces =>
    rintro count count_pos t - rfl
    rw [List.length_append, List.length_replicate, Nat.add_comm]
    exact bracesOfWidth count count_pos t
  case percent =>
    rintro t rfl
    exact percentOfWidth t

/- How wide a mark is by what it means. What a block's opening marker takes, and what the tags of
an element take, is as long as the shortest of their kind. -/
def Spans (width : Nat) : Meaning → Prop
  | .opens .. => 4 ≤ width
  | .element _ _ tag inner _ => 3 ≤ tag ∧ tag + inner ≤ width ∧ inner + 4 ≤ width
  | .text | .comment | .output .. | .embed .. | .closes _ | .broken .. => True

theorem fitsSpans {width : Nat} (wide : 4 ≤ width) {m : Meaning}
    (fits : Fits ['\x7b', '\x7b'] m) : Spans width m := by
  cases m with
  | opens => exact wide
  | element =>
    obtain ⟨⟨_, same⟩, _⟩ := fits
    cases same
  | _ => trivial

theorem bracesOfSpans (count : Nat) (h : 0 < count) (two : 2 ≤ count) (s : List Char) :
    Spans (bracesOf count h s).width (bracesOf count h s).meaning := by
  unfold bracesOf
  dsimp only
  split
  · have wide : 4 ≤ 2 * count := by omega
    exact fitsSpans (Nat.le_add_left_of_le wide) (bracesMeaningFits (.inl List.prefix_rfl) _ _ _)
  · trivial

theorem percentOfSpans (s : List Char) : Spans (percentOf s).width (percentOf s).meaning := by
  unfold percentOf
  split
  · exact fitsSpans (Nat.le_add_left 4 _) (percentMeaningFits (.inl List.prefix_rfl) _ _)
  · trivial

theorem tagOfSpans (s : List Char) : Spans (tagOf s).width (tagOf s).meaning := by
  refine ofTag (motive := fun m => Spans m.width m.meaning) trivial ?closed ?paired
    fun _ _ _ _ _ => trivial
  case closed =>
    intro tag _ opened closed
    have behind := (Tag.openingRest opened).2
    rw [closed, Written.ending, if_pos rfl, List.length_cons, List.length_singleton] at behind
    dsimp only [Spans]
    omega
  case paired =>
    intro tag inner closing _ _ opened closed found
    have behind := (Tag.openingRest opened).2
    rw [closed, Written.ending, if_neg Bool.false_ne_true, List.length_singleton] at behind
    obtain ⟨c, rest, name, _⟩ := Tag.openingSound opened
    have fits := Tag.closeFits (Tag.openingNamed opened) found
    rw [name, List.length_cons] at fits
    dsimp only [Spans]
    omega

theorem nextSpans (s : List Char) : Spans (next s).width (next s).meaning := by
  refine ofNext (motive := fun m => Spans m.width m.meaning) (fun _ => trivial) ?closing ?note
    (fun _ _ _ two _ => bracesOfSpans _ _ two _) (fun _ _ => percentOfSpans _) (tagOfSpans s)
  case closing =>
    intro m closer _ meaning
    rw [meaning]
    trivial
  case note =>
    intro t _
    unfold bracesComment
    split <;> trivial

end Mark
end Medley

import Mathlib.Data.List.TakeWhile
import Mathlib.Data.Nat.Find
import Medley.Proofs.Files.Pathname
import Medley.Proofs.Template.Unread

/-! Page data by lines. Between line feeds, the first line is a fence or there is no page data;
the first fence behind it closes the data, and what follows that line is the body. -/
namespace Medley

namespace Text

def unlines (parts : List (List Char)) : List Char := ['\n'].intercalate parts

theorem unlinesCons (line : List Char) {more : List (List Char)} (nonempty : more ≠ []) :
    unlines (line :: more) = line ++ '\n' :: unlines more := by
  obtain ⟨next, rest, rfl⟩ := List.exists_cons_of_ne_nil nonempty
  simp [unlines, List.intercalate_cons_cons]

theorem unlinesSplit (s : List Char) : unlines (splitOnChar '\n' s) = s := by
  induction s with
  | nil => rfl
  | cons c s ih =>
    have later := splitOnCharSome '\n' s
    rw [splitOnChar]
    split
    · rename_i feed
      rw [unlinesCons [] later, ih, feed]
      rfl
    · obtain ⟨part, parts, same⟩ := List.exists_cons_of_ne_nil later
      rw [same] at ih ⊢
      cases parts with
      | nil => simpa [unlines] using ih
      | cons next more =>
        rw [unlinesCons _ (List.cons_ne_nil _ _)] at ih ⊢
        rw [List.cons_append, ih]

/- A carriage return at the end begins no line with something in it. -/
theorem linesReturn (s line : List Char) :
    linesFrom line (s ++ ['\r']) = linesFrom line s ∨
      linesFrom line (s ++ ['\r']) = linesFrom line s ++ [[]] := by
  induction line, s using linesFrom.induct with
  | case1 line empty =>
    obtain rfl := List.isEmpty_iff.mp empty
    exact .inr rfl
  | case2 line full =>
    refine .inl ?_
    simp [linesFrom, endsLine, lineBreaks, Ranges.contains, full]
  | case3 line rest ih =>
    simpa [linesFrom] using ih
  | case4 line c rest other ends ih =>
    have other' : ∀ t, c = '\r' → rest ++ ['\r'] ≠ '\n' :: t := by
      rintro t rfl same
      cases rest with
      | nil => exact absurd (List.head_eq_of_cons_eq same) (by decide)
      | cons d rest =>
        obtain ⟨rfl, _⟩ := List.cons.inj same
        exact other rest rfl rfl
    rw [List.cons_append, linesFrom, linesFrom, if_pos ends, if_pos ends]
    · simpa using ih
    · exact fun t first second => other t first second
    · exact fun t first second => other' t first second
  | case5 line c rest other unfenced ih =>
    have feed : c ≠ '\r' := by
      rintro rfl
      exact unfenced (by decide)
    rw [List.cons_append, linesFrom, linesFrom, if_neg unfenced, if_neg unfenced]
    · exact ih
    · exact fun t first _ => absurd first feed
    · exact fun t first _ => absurd first feed

end Text

namespace Frontmatter
open Text

/-- Three dashes with spaces and tabs behind them fill the line. Before a line feed there may be
a carriage return. -/
def Fence (fed : Bool) (line : List Char) : Prop :=
  ∃ pads, (∀ c ∈ pads, c = ' ' ∨ c = '\t') ∧
    (line = '-' :: '-' :: '-' :: pads ∨
      fed = true ∧ line = '-' :: '-' :: '-' :: (pads ++ ['\r']))

def FenceAt (parts : List (List Char)) (j : Nat) : Prop :=
  ∃ line, parts[j]? = some line ∧ Fence (decide (j + 1 < parts.length)) line

/- The first line is a fence that a line feed ends, and the next fence is line `j`. -/
structure Fenced (parts : List (List Char)) (j : Nat) : Prop where
  opens : ∃ first, parts[0]? = some first ∧ 1 < parts.length ∧ Fence true first
  later : 0 < j
  closes : FenceAt parts j
  first : ∀ i, 0 < i → i < j → ¬FenceAt parts i

theorem fenceDashes (s : List Char) : fence? ('-' :: '-' :: '-' :: s) =
    match s.dropWhile isPad with
    | [] => some []
    | '\n' :: rest | '\r' :: '\n' :: rest => some rest
    | _ => none := rfl

theorem dashesFirst {s out : List Char} (h : fence? s = some out) :
    ∃ after, s = '-' :: '-' :: '-' :: after := by
  obtain ⟨after, start, _⟩ := Option.bind_eq_some_iff.mp h
  exact ⟨after, dropStartSome start⟩

theorem fenceReads {line : List Char} {more : List (List Char)}
    (h : Fence (!more.isEmpty) line) : fence? (unlines (line :: more)) = some (unlines more) := by
  obtain ⟨pads, blank, same⟩ := h
  have pad : ∀ c ∈ pads, isPad c = true := fun c member => by simpa [isPad] using blank c member
  cases more with
  | nil =>
    rcases same with rfl | ⟨fed, _⟩
    · have ends := runEnds (s := []) pad nofun
      rw [List.append_nil] at ends
      simp [unlines, fenceDashes, ends]
    · contradiction
  | cons next more =>
    rw [unlinesCons line (List.cons_ne_nil _ _)]
    generalize unlines (next :: more) = rest
    rcases same with rfl | ⟨_, rfl⟩
    · have ends := runEnds (s := '\n' :: rest) pad (by simp; decide)
      simp [fenceDashes, ends]
    · have ends := runEnds (s := '\r' :: '\n' :: rest) pad (by simp; decide)
      simp [fenceDashes, ends]

theorem dashesInside {line rest after : List Char}
    (h : line ++ '\n' :: rest = '-' :: '-' :: '-' :: after) :
    ∃ more, line = '-' :: '-' :: '-' :: more := by
  match line with
  | [] | [_] | [_, _] => simp at h
  | _ :: _ :: _ :: more =>
    simp only [List.cons_append, List.cons.injEq] at h
    obtain ⟨rfl, rfl, rfl, _⟩ := h
    exact ⟨more, rfl⟩

theorem fenceMade {line out : List Char} {more : List (List Char)} (whole : '\n' ∉ line)
    (h : fence? (unlines (line :: more)) = some out) : Fence (!more.isEmpty) line := by
  have inside : ∃ after, line = '-' :: '-' :: '-' :: after := by
    obtain ⟨after, same⟩ := dashesFirst h
    cases more with
    | nil => exact ⟨after, by simpa [unlines] using same⟩
    | cons next more =>
      rw [unlinesCons line (List.cons_ne_nil _ _)] at same
      exact dashesInside same
  obtain ⟨after, rfl⟩ := inside
  obtain ⟨pads, rest, rfl, pad, stops⟩ : ∃ pads rest, after = pads ++ rest ∧
      (∀ c ∈ pads, isPad c = true) ∧ ∀ c ∈ rest.head?, isPad c = false := by
    refine ⟨after.takeWhile isPad, after.dropWhile isPad, List.takeWhile_append_dropWhile.symm,
      fun _ => List.mem_takeWhile_imp, fun c first => ?_⟩
    have other := List.head?_dropWhile_not isPad after
    rwa [Option.mem_def.mp first] at other
  have blank : ∀ c ∈ pads, c = ' ' ∨ c = '\t' := fun c member => by
    simpa [isPad] using pad c member
  have unbroken : '\n' ∉ rest := by simp_all
  cases more with
  | nil =>
    have only : unlines ['-' :: '-' :: '-' :: (pads ++ rest)] =
      '-' :: '-' :: '-' :: (pads ++ rest) := by simp [unlines]
    rw [only, fenceDashes, (runEnds pad stops).2] at h
    split at h
    · exact ⟨pads, blank, .inl (by simp)⟩
    · simp at unbroken
    · simp at unbroken
    · contradiction
  | cons next more =>
    have dashes : '-' :: '-' :: '-' :: (pads ++ rest) ++ '\n' :: unlines (next :: more) =
      '-' :: '-' :: '-' :: (pads ++ (rest ++ '\n' :: unlines (next :: more))) := by simp
    rw [unlinesCons _ (List.cons_ne_nil _ _), dashes, fenceDashes] at h
    match rest with
    | [] => exact ⟨pads, blank, .inl (by simp)⟩
    | [c] =>
      rw [(runEnds pad (by simpa using stops)).2] at h
      have feed : c ≠ '\n' := fun same => unbroken (same ▸ List.mem_cons_self)
      by_cases back : c = '\r'
      · exact ⟨pads, blank, .inr ⟨rfl, by rw [back]⟩⟩
      · simp [feed, back] at h
    | c :: d :: rest =>
      rw [(runEnds pad (by simpa using stops)).2] at h
      simp only [List.mem_cons, not_or] at unbroken
      simp [Ne.symm unbroken.1, Ne.symm unbroken.2.1] at h

theorem fenceAtHere {line : List Char} {more : List (List Char)} :
    FenceAt (line :: more) 0 ↔ Fence (!more.isEmpty) line := by
  cases more <;> simp [FenceAt]

theorem fenceAtLater {line : List Char} {more : List (List Char)} {j : Nat} :
    FenceAt (line :: more) (j + 1) ↔ FenceAt more j := by
  simp [FenceAt]

theorem blockPassed {line rest : List Char} (whole : '\n' ∉ line)
    (absent : fence? (line ++ '\n' :: rest) = none) (before : List Char) :
    blockFrom before true (line ++ '\n' :: rest) =
      blockFrom ('\n' :: (line.reverse ++ before)) true rest := by
  cases line with
  | nil =>
    rw [List.nil_append] at absent ⊢
    rw [blockFrom, if_pos rfl, absent]
    rfl
  | cons c line =>
    have other : c ≠ '\n' := fun same => whole (same ▸ List.mem_cons_self)
    have later := blockLine (fun member => whole (List.mem_cons_of_mem c member)) (c :: before) rest
    rw [List.cons_append] at absent ⊢
    rw [blockFrom, if_pos rfl, absent]
    simpa [other] using later

theorem blockEnds {line : List Char} (whole : '\n' ∉ line) {lineStart : Bool}
    (absent : lineStart = true → fence? line = none) (before : List Char) :
    blockFrom before lineStart line = none := by
  have nothing : (if lineStart then fence? line else none) = none := by
    split
    · exact absent ‹_›
    · rfl
  induction line generalizing before lineStart with
  | nil => rw [blockFrom, nothing]
  | cons c line ih =>
    have other : c ≠ '\n' := fun same => whole (same ▸ List.mem_cons_self)
    rw [blockFrom, nothing]
    exact ih (fun member => whole (List.mem_cons_of_mem c member)) (by simp [other]) _
      (by simp [other])

def passed (parts : List (List Char)) : List Char := parts.flatMap (· ++ ['\n'])

theorem passedUnlines {parts : List (List Char)} (nonempty : parts ≠ []) :
    passed parts = unlines parts ++ ['\n'] := by
  induction parts with
  | nil => contradiction
  | cons line more ih =>
    by_cases last : more = []
    · simp [last, passed, unlines]
    · have later := ih last
      rw [unlinesCons line last]
      simp only [passed, List.flatMap_cons] at later ⊢
      simp [later]

/- A block is scanned line by line, up to the first line that is a fence. -/
theorem blockScans {parts : List (List Char)} (nonempty : parts ≠ [])
    (each : ∀ part ∈ parts, '\n' ∉ part) (before : List Char) :
    (∀ j, FenceAt parts j → (∀ i < j, ¬FenceAt parts i) →
      blockFrom before true (unlines parts) =
        some ((dropBreak ((passed (parts.take j)).reverse ++ before)).reverse,
          unlines (parts.drop (j + 1)))) ∧
    ((∀ i, ¬FenceAt parts i) → blockFrom before true (unlines parts) = none) := by
  induction parts generalizing before with
  | nil => contradiction
  | cons line more ih =>
    have whole := each line List.mem_cons_self
    cases found : fence? (unlines (line :: more)) with
    | some out =>
      have here : FenceAt (line :: more) 0 := fenceAtHere.mpr (fenceMade whole found)
      have closed : blockFrom before true (unlines (line :: more)) =
          some ((dropBreak before).reverse, unlines more) := by
        rw [fenceReads (fenceMade whole found)] at found
        unfold blockFrom
        rw [if_pos rfl, fenceReads (fenceAtHere.mp here)]
      refine ⟨fun j _ first => ?_, fun absent => absurd here (absent 0)⟩
      cases j with
      | zero => exact closed
      | succ j => exact absurd here (first 0 (Nat.succ_pos j))
    | none =>
      have later : ¬FenceAt (line :: more) 0 := fun here => by
        rw [fenceReads (fenceAtHere.mp here)] at found
        contradiction
      by_cases last : more = []
      · subst last
        have only : unlines [line] = line := by simp [unlines]
        rw [only] at found ⊢
        refine ⟨fun j fenced _ => ?_, fun _ => blockEnds whole (fun _ => found) before⟩
        cases j with
        | zero => exact absurd fenced later
        | succ j => simp [FenceAt] at fenced
      · rw [unlinesCons line last] at found ⊢
        rw [blockPassed whole found before]
        obtain ⟨ends, unfenced⟩ := ih last
          (fun part member => each part (List.mem_cons_of_mem line member))
          ('\n' :: (line.reverse ++ before))
        refine ⟨fun j fenced first => ?_,
          fun absent => unfenced fun i fenced => absent (i + 1) (fenceAtLater.mpr fenced)⟩
        cases j with
        | zero => exact absurd fenced later
        | succ j =>
          rw [ends j (fenceAtLater.mp fenced) fun i less fenced =>
            first (i + 1) (Nat.succ_lt_succ less) (fenceAtLater.mpr fenced)]
          simp [passed]

theorem dropBreakReturn (s : List Char) : (dropBreak (s ++ ['\n']).reverse).reverse = s ∨
    (dropBreak (s ++ ['\n']).reverse).reverse ++ ['\r'] = s := by
  rw [List.reverse_append, List.reverse_singleton, List.singleton_append]
  obtain ⟨back, rfl⟩ : ∃ back, s = back.reverse := ⟨s.reverse, by simp⟩
  rw [List.reverse_reverse]
  match back with
  | [] => exact .inl rfl
  | c :: back =>
    by_cases feed : c = '\r'
    · exact .inr (by simp [dropBreak, feed])
    · exact .inl (by simp [dropBreak, feed])

theorem dataFromBlank (known : Layer) (parts : List (List Char)) :
    dataFrom known (parts ++ [[]]) = dataFrom known parts := by
  induction parts generalizing known with
  | nil => rfl
  | cons line more ih =>
    rw [List.cons_append, dataFrom, dataFrom]
    cases pair? line with
    | none => exact ih known
    | some entry => simp only [ih]

theorem dataReturn (block : List Char) : data (block ++ ['\r']) = data block := by
  unfold data lines
  rcases linesReturn block [] with same | more
  · rw [same]
  · rw [more, dataFromBlank]

theorem dataPassed (parts : List (List Char)) :
    data (dropBreak (passed parts).reverse).reverse = data (unlines parts) := by
  by_cases nonempty : parts = []
  · subst nonempty
    rfl
  · rw [passedUnlines nonempty]
    rcases dropBreakReturn (unlines parts) with same | less
    · rw [same]
    · rw [← dataReturn, less]

theorem unlinesDrop (n : Nat) (parts : List (List Char)) :
    ∃ front, front ++ unlines (parts.drop n) = unlines parts := by
  induction n generalizing parts with
  | zero => exact ⟨[], rfl⟩
  | succ n ih =>
    cases parts with
    | nil => exact ⟨[], rfl⟩
    | cons line more =>
      by_cases last : more = []
      · exact ⟨line, by simp [last, unlines]⟩
      · obtain ⟨front, same⟩ := ih more
        refine ⟨line ++ '\n' :: front, ?_⟩
        rw [unlinesCons line last, ← same]
        simp

theorem splitOpened {first : List Char} {more : List (List Char)} (nonempty : more ≠ [])
    (opens : Fence true first) :
    split (unlines (first :: more)) =
      (blockFrom [] true (unlines more)).map fun found => ⟨found.1, found.2,
        (unlines (first :: more)).count '\n' - found.2.count '\n'⟩ := by
  have fed : (!more.isEmpty) = true := by simp [nonempty]
  have reads : fence? (unlines (first :: more)) = some (unlines more) := fenceReads (fed ▸ opens)
  simp only [split, reads]
  cases unlines more with
  | nil => rfl
  | cons c rest => cases found : blockFrom [] true (c :: rest) <;> simp [found]

/- What a fence opens is cut where the first later fence closes it. -/
theorem splitClosed {s : List Char} {j : Nat} (h : Fenced (splitOnChar '\n' s) j) :
    ∃ parts front, split s = some parts ∧ front ++ parts.body = s ∧
      parts.body = unlines ((splitOnChar '\n' s).drop (j + 1)) ∧
      data parts.block = data (unlines (((splitOnChar '\n' s).take j).drop 1)) ∧
      parts.lines = front.count '\n' := by
  have each : ∀ part ∈ splitOnChar '\n' s, '\n' ∉ part := splitOnCharApart s
  have whole := unlinesSplit s
  generalize splitOnChar '\n' s = all at h each whole
  obtain ⟨⟨first, start, long, opens⟩, later, closes, before⟩ := h
  obtain ⟨i, rfl⟩ := Nat.exists_eq_succ_of_ne_zero (Nat.ne_of_gt later)
  match all with
  | [] => contradiction
  | [_] => exact absurd long (by simp)
  | line :: next :: more =>
    cases start
    obtain ⟨closed, _⟩ := blockScans (List.cons_ne_nil next more)
      (fun part member => each part (List.mem_cons_of_mem first member)) []
    have found := closed i (fenceAtLater.mp closes) fun k less fenced =>
      before (k + 1) (Nat.succ_pos k) (Nat.succ_lt_succ less) (fenceAtLater.mpr fenced)
    obtain ⟨front, body⟩ := unlinesDrop (i + 2) (first :: next :: more)
    rw [List.append_nil] at found
    have cut := splitOpened (List.cons_ne_nil next more) opens
    rw [found, whole, Option.map_some] at cut
    refine ⟨_, front, cut, body.trans whole, rfl, dataPassed _, ?_⟩
    have count := congrArg (List.count '\n') body
    rw [List.count_append, whole] at count
    exact Nat.sub_eq_of_eq_add count.symm

theorem splitUnfenced {s : List Char} (absent : ∀ j, ¬Fenced (splitOnChar '\n' s) j) :
    split s = none := by
  have each : ∀ part ∈ splitOnChar '\n' s, '\n' ∉ part := splitOnCharApart s
  have whole := unlinesSplit s
  generalize splitOnChar '\n' s = all at absent each whole
  subst whole
  match all with
  | [] => rfl
  | first :: more =>
    by_cases opens : Fence (!more.isEmpty) first
    · match more with
      | [] =>
        have reads : fence? (unlines [first]) = some [] := fenceReads opens
        simp [split, reads]
      | next :: more =>
        rw [splitOpened (List.cons_ne_nil next more) opens]
        obtain ⟨_, unfenced⟩ := blockScans (List.cons_ne_nil next more)
          (fun part member => each part (List.mem_cons_of_mem first member)) []
        rw [unfenced fun i fenced => ?_]
        · rfl
        -- a fence behind the opening one would close the block, or an earlier one would
        classical
        have least := Nat.find_spec ⟨i, fenced⟩
        refine absent (Nat.find ⟨i, fenced⟩ + 1)
          ⟨⟨first, rfl, by simp, opens⟩, Nat.succ_pos _, fenceAtLater.mpr least, ?_⟩
        intro k nonempty less fenced
        obtain ⟨k, rfl⟩ := Nat.exists_eq_succ_of_ne_zero (Nat.ne_of_gt nonempty)
        exact Nat.find_min _ (Nat.lt_of_succ_lt_succ less) (fenceAtLater.mp fenced)
    · have unread : fence? (unlines (first :: more)) = none := by
        cases found : fence? (unlines (first :: more)) with
        | none => rfl
        | some out => exact absurd (fenceMade (each first List.mem_cons_self) found) opens
      simp [split, unread]

end Frontmatter

namespace Template
open Frontmatter Text

/- Page data is what stands between two fences, by the lines of the source; a source without such
fences is all body. -/
theorem readsBetweenFences (o : ReadOptions) (source : String) :
    let all := splitOnChar '\n' source.toList
    ((split source.toList).isSome = true ↔ ∃ j, Fenced all j) ∧
    (∀ j, Fenced all j → ∃ parts front, split source.toList = some parts ∧
      front ++ parts.body = source.toList ∧ parts.body = unlines (all.drop (j + 1)) ∧
      data parts.block = data (unlines ((all.take j).drop 1)) ∧
      parts.lines = front.count '\n' ∧
      read { o with frontmatter := true } source =
        (data (unlines ((all.take j).drop 1))).map fun known =>
          assemble o known (front.count '\n') (unlines (all.drop (j + 1)))) ∧
    ((∀ j, ¬Fenced all j) → split source.toList = none ∧
      read { o with frontmatter := true } source = .ok (assemble o [] 0 source.toList)) := by
  intro all
  have missed : (∀ j, ¬Fenced all j) → split source.toList = none := splitUnfenced
  refine ⟨⟨fun found => ?_, fun ⟨j, h⟩ => ?_⟩, fun j h => ?_, fun absent => ⟨missed absent, ?_⟩⟩
  · by_contra absent
    rw [missed fun j h => absent ⟨j, h⟩] at found
    contradiction
  · obtain ⟨parts, _, found, _⟩ := splitClosed h
    rw [found]
    rfl
  · obtain ⟨parts, front, found, whole, body, block, lines⟩ := splitClosed h
    refine ⟨parts, front, found, whole, body, block, lines, ?_⟩
    rw [read, if_pos rfl, found, ← body, ← block, ← lines]
    dsimp only
    cases data parts.block <;> rfl
  · rw [read, if_pos rfl, missed absent]
    rfl

/- The third line begins like a fence, but has more in it. -/
def fencedPage : String := "--- \t\r\nlayout: base\r\n--- x\n---\t\nbody"

theorem fencedPageFenced : Fenced (splitOnChar '\n' fencedPage.toList) 3 where
  opens := ⟨_, rfl, by decide, [' ', '\t'], by simp, .inr ⟨rfl, rfl⟩⟩
  later := by decide
  closes := ⟨_, rfl, ['\t'], by simp, .inl rfl⟩
  first i nonempty less := by
    rintro ⟨line, fenced, fence⟩
    match i with
    | 1 | 2 =>
      cases fenced
      have reads : fence? (unlines [_, []]) = some [] := fenceReads fence
      exact absurd reads (by decide)

theorem readsBetweenFencesPage :
    Fenced (splitOnChar '\n' fencedPage.toList) 3 ∧ read {} fencedPage =
      .ok (assemble {} [("layout", .text "base")] 4 "body".toList) := by
  refine ⟨fencedPageFenced, ?_⟩
  obtain ⟨_, cut, _⟩ := readsBetweenFences {} fencedPage
  obtain ⟨parts, front, _, whole, body, _, _, page⟩ := cut 3 fencedPageFenced
  have known : data (unlines (((splitOnChar '\n' fencedPage.toList).take 3).drop 1)) =
      .ok [("layout", .text "base")] := by
    have within : Text.lines (unlines (((splitOnChar '\n' fencedPage.toList).take 3).drop 1)) =
        ["layout: base".toList, "--- x".toList] := by decide
    have entry : pair? "layout: base".toList = some ("layout", " base".toList) := by decide
    have other : pair? "--- x".toList = none := by decide
    have base : value " base".toList = .ok (.text "base") := by
      rw [value]
      rfl
    rw [data, within, dataFrom, entry]
    dsimp only
    rw [base]
    change dataFrom [("layout", .text "base")] ["--- x".toList] = _
    rw [dataFrom, other]
    rfl
  have rest : unlines ((splitOnChar '\n' fencedPage.toList).drop 4) = "body".toList := by decide
  have feeds := congrArg (List.count '\n') whole
  rw [body, rest, List.count_append] at feeds
  have four : front.count '\n' = 4 := feeds
  rw [known, rest, four] at page
  exact page

end Template
end Medley

import Mathlib.Algebra.Order.Group.Nat
import Medley.Diagnostic.Snippet
import Medley.Proofs.Template.Places
import Medley.Proofs.Text.Lines

/-! Snippets of source under an issue. A place counts line feeds, a snippet counts the lines of
the text. The counts agree as long as lines end in line feeds alone or behind carriage returns. -/
namespace Medley

namespace Text

theorem linesNumbered {n : Nat} {front : List Char} (h : fed front = true)
    (within : n ≤ front.count '\n') : ∃ left, fed left = true ∧ ∀ back,
      Position.lineFrom n (front ++ back) = some (left ++ back) ∧
        (lines (front ++ back))[n]? = (lines (left ++ back))[0]? := by
  induction n generalizing front with
  | zero => exact ⟨front, h, fun back => ⟨rfl, rfl⟩⟩
  | succ n ih =>
    have broken : '\n' ∈ front := List.count_pos_iff.mp (by omega)
    obtain ⟨line, rest, rfl, unbroken⟩ := List.eq_append_cons_of_mem broken
    obtain ⟨whole, run⟩ := linesFeed unbroken h
    rw [List.count_append, List.count_cons_self, List.count_eq_zero.mpr unbroken] at within
    obtain ⟨left, plain, later⟩ := ih whole (by omega)
    refine ⟨left, plain, fun back => ?_⟩
    obtain ⟨begun, numbered⟩ := later back
    obtain ⟨first, run⟩ := run [] back
    constructor
    · rw [List.append_assoc, List.cons_append, Position.lineFrom, cutCharAt unbroken]
      exact begun
    · rw [lines, run, ← numbered]
      rfl

end Text

namespace Position

theorem seekFirst {n : Int} (first : 1 ≤ n) (source : List Char) :
    seek ⟨n, 0⟩ source = lineFrom (n - 1).toNat source := by
  unfold seek
  dsimp only
  rw [if_pos ⟨first, le_rfl⟩]
  simp

theorem advanceFed {before : List Char} (fed : Text.fed before = true) :
    ∃ left, '\n' ∉ left ∧ Text.fed left = true ∧
      start.advance before = ⟨before.count '\n' + 1, left.length⟩ ∧
      ∀ rest, (Text.lines (before ++ rest))[before.count '\n']? =
        (Text.lines (left ++ rest))[0]? := by
  obtain ⟨n, left, place, unbroken, leads⟩ := reaches before
  have counted : n = before.count '\n' := by
    have line := advanceLine start before
    rw [place] at line
    simp only [start] at line
    omega
  subst counted
  -- the line that `before` ends in, once by its place and once by its number
  obtain ⟨left', whole, numbered⟩ := Text.linesNumbered fed le_rfl
  obtain rfl : left' = left := by
    have here := (numbered []).1
    rw [leads []] at here
    simpa using here.symm
  exact ⟨left', unbroken, whole, place, fun rest => (numbered rest).2⟩

end Position

namespace Snippet
variable {source text : String} {line context n : Int} {column : Option Int}

theorem numbered {lines : List (List Char)} {start stop k : Nat} {t : List Char} :
    (t, k) ∈ (lines.zipIdx.take stop).drop start ↔
      start ≤ k ∧ k < stop ∧ lines[k]? = some t := by
  simp only [List.mem_iff_getElem?, List.getElem?_drop, List.getElem?_take]
  constructor
  · rintro ⟨j, found⟩
    split at found
    · rename_i before
      rw [List.getElem?_zipIdx] at found
      obtain ⟨t', there, same⟩ := Option.map_eq_some_iff.mp found
      cases same
      rw [Nat.zero_add]
      exact ⟨Nat.le_add_right start j, before, there⟩
    · contradiction
  · rintro ⟨low, high, there⟩
    refine ⟨k - start, ?_⟩
    rw [Nat.add_sub_cancel' low, if_pos high, List.getElem?_zipIdx, there]
    simp

theorem shows : (n, text) ∈ (ofSource source line context column).lines ↔
    ∃ k : Nat, n = k + 1 ∧ line - context ≤ n ∧ n ≤ line + context ∧
      ∃ t, (Text.lines source.toList)[k]? = some t ∧ String.ofList t = text := by
  simp only [ofSource, List.mem_map, Prod.exists, numbered, Prod.mk.injEq]
  constructor
  · rintro ⟨t, k, ⟨low, high, there⟩, rfl, rfl⟩
    exact ⟨k, rfl, by omega, by omega, t, there, rfl⟩
  · rintro ⟨k, rfl, low, high, t, there, rfl⟩
    have short : k < (Text.lines source.toList).length := (List.getElem?_eq_some_iff.mp there).1
    exact ⟨t, k, ⟨by omega, by omega, there⟩, rfl, rfl⟩

theorem ascends : (ofSource source line context column).lines.Pairwise (·.1 < ·.1) := by
  have numbers : (Text.lines source.toList).zipIdx.Pairwise (·.2 < ·.2) := by
    rw [← List.pairwise_map (f := Prod.snd), List.zipIdx_map_snd]
    exact List.pairwise_lt_range'
  refine List.pairwise_map.mpr ((numbers.sublist ?_).imp ?_)
  · exact (List.drop_sublist _ _).trans (List.take_sublist _ _)
  · rintro ⟨_, k⟩ ⟨_, l⟩ less
    exact Int.add_lt_add_right (Int.ofNat_lt.mpr less) 1

theorem onlyOne {lines : List (Int × String)} (up : lines.Pairwise (·.1 < ·.1))
    (member : (n, text) ∈ lines) : lines.filter (·.1 = n) = [(n, text)] := by
  obtain ⟨before, after, rfl⟩ := List.append_of_mem member
  obtain ⟨_, later, lower⟩ := List.pairwise_append.mp up
  have above := (List.pairwise_cons.mp later).1
  have absentBefore : before.filter (·.1 = n) = [] := by
    refine List.filter_eq_nil_iff.mpr fun x there => ?_
    have less := lower x there _ List.mem_cons_self
    simpa using less.ne
  have absentAfter : after.filter (·.1 = n) = [] := by
    refine List.filter_eq_nil_iff.mpr fun x there => ?_
    simpa using (above x there).ne'
  rw [List.filter_append, absentBefore, List.filter_cons_of_pos (by simp), absentAfter]
  rfl

theorem showsCounted {front : List Char} (starts : front <+: source.toList)
    (fed : Text.fed front = true) (within : n ≤ 1 + front.count '\n') (near : Nat) :
    (n, text) ∈ (ofSource source line near column).lines ↔
      (n - line).natAbs ≤ near ∧ ∃ rest, Position.seek ⟨n, 0⟩ source.toList = some rest ∧
        rest ≠ [] ∧ String.ofList (Text.firstLine rest) = text := by
  obtain ⟨back, whole⟩ := starts
  have counted : ∀ k : Nat, k ≤ front.count '\n' → ∀ t,
      (Text.lines source.toList)[k]? = some t ↔ ∃ rest,
        Position.seek ⟨k + 1, 0⟩ source.toList = some rest ∧ rest ≠ [] ∧
          Text.firstLine rest = t := by
    intro k short t
    obtain ⟨left, -, numbered⟩ := Text.linesNumbered fed short
    obtain ⟨leads, same⟩ := numbered back
    rw [whole] at leads same
    have place : ((k : Int) + 1 - 1).toNat = k := by omega
    rw [Position.seekFirst (by omega), place, leads, same, Text.linesHead]
    simp [eq_comm]
  rw [shows]
  constructor
  · rintro ⟨k, rfl, low, high, t, there, rfl⟩
    obtain ⟨rest, found, more, rfl⟩ := (counted k (by omega) t).mp there
    exact ⟨by omega, rest, found, more, rfl⟩
  · rintro ⟨close, rest, found, more, rfl⟩
    have positive : 1 ≤ n := by
      by_contra below
      rw [Position.seek, if_neg fun both => below both.1] at found
      contradiction
    obtain ⟨k, rfl⟩ : ∃ k : Nat, n = k + 1 := ⟨(n - 1).toNat, by omega⟩
    exact ⟨k, rfl, by omega, by omega, _,
      (counted k (by omega) _).mpr ⟨rest, found, more, rfl⟩, rfl⟩

end Snippet

theorem Frontmatter.bodyLeads {s : List Char} {parts : Split} (h : split s = some parts) :
    parts.body = [] ∨ Position.Leads s ⟨1 + 0 + parts.lines, 0⟩ parts.body := by
  rcases splitRests h with empty | ⟨front, same, lines⟩
  · exact .inl empty
  · refine .inr ⟨front ++ ['\n'], [], by simp [same], ?_⟩
    rw [Position.advanceLines, lines]
    simp

theorem Reading.issuesLead {source body : List Char} {p : Position}
    (start : body = [] ∨ Position.Leads source p body) (debug : Bool) :
    ∀ i ∈ (Reading.ofSource debug p body).issues, i.Sited (Position.Leads source) := by
  rcases start with rfl | leads
  · rw [Reading.ofSource, Builder.readNil]
    exact List.forall_mem_nil _
  · exact (Reading.every (Node.madeStanding debug source) leads).2

theorem Template.issuesLead {name filename : Option String} {debug frontmatter : Bool}
    {source : String} {out : Outcome}
    (h : read { name, filename, debug, frontmatter } source = .ok out) :
    ∀ i ∈ out.issues, i.Sited (Position.Leads source.toList) := by
  unfold read at h
  dsimp only at h
  split at h
  · cases h
    exact Reading.issuesLead (.inr ⟨[], [], by simp, rfl⟩) debug
  · rename_i parts found
    obtain ⟨data, _, h⟩ := okBind h
    cases h
    split at found
    · exact Reading.issuesLead (Frontmatter.bodyLeads found) debug
    · contradiction

/- A snippet shows an issue of a source with so many lines on either side. As far as line feeds
alone end the lines of the source, its lines are those that places count. -/
structure Issue.Highlighted (source : List Char) (context : Nat) (i : Issue) (shown : Snippet) :
    Prop where
  marked : ∃ text, shown.lines.filter (·.1 = shown.errorLine) = [(i.pos.line, text)] ∧
    ∃ before rest, source = before ++ rest ∧ i.pos = Position.start.advance before ∧
      (Text.fed before = true →
        Text.firstLine i.source.toList <+: text.toList.drop i.pos.column.toNat)
  lines : ∀ front, front <+: source → Text.fed front = true →
    ∀ (n : Int) text, n ≤ 1 + front.count '\n' → ((n, text) ∈ shown.lines ↔
      (n - i.pos.line).natAbs ≤ context ∧ ∃ rest, Position.seek ⟨n, 0⟩ source = some rest ∧
        rest ≠ [] ∧ String.ofList (Text.firstLine rest) = text)
  ascending : shown.lines.Pairwise (·.1 < ·.1)

theorem Issue.highlighted {source : String} {i : Issue}
    (h : i.Sited (Position.Leads source.toList)) (context : Nat) (column : Option Int) :
    i.Highlighted source.toList context
      (Snippet.ofSource source i.pos.line context column) := by
  obtain ⟨s, t, ⟨before, after, same, place⟩, front, nonempty, taken⟩ := h
  have first : i.pos.line = before.count '\n' + 1 := by
    rw [place, Position.advanceLine, Int.add_comm]
    rfl
  have more : s ++ after ≠ [] := fun nothing =>
    nonempty (List.prefix_nil.mp ((List.append_eq_nil_iff.mp nothing).1 ▸ front))
  have short := Text.linesEnough before [] more
  obtain ⟨line, there⟩ : ∃ line, (Text.lines source.toList)[before.count '\n']? = some line :=
    ⟨_, List.getElem?_eq_getElem (by rw [same]; exact short)⟩
  have shown : (i.pos.line, String.ofList line) ∈
      (Snippet.ofSource source i.pos.line context column).lines :=
    Snippet.shows.mpr ⟨_, first, by omega, by omega, line, there, rfl⟩
  refine ⟨⟨_, Snippet.onlyOne Snippet.ascends shown, before, s ++ after, same, place,
      fun fed => ?_⟩,
    fun starts whole fed n text within => Snippet.showsCounted whole fed within context,
    Snippet.ascends⟩
  obtain ⟨left, unbroken, plain, reach, numbered⟩ := Position.advanceFed fed
  rw [same, numbered, Text.linesHead] at there
  rw [there.2, Text.firstLineBehind unbroken plain, place, reach]
  simp only [String.toList_ofList, Int.toNat_natCast, List.drop_left, taken]
  exact Text.firstLinePrefix (front.trans (List.prefix_append s after))

theorem Issue.reportEnds {source : String} (nonempty : source ≠ "") (coloured : Bool)
    (name : Option String) (i : Issue) :
    i.report coloured (some source) name = i.report coloured none name ++ "\n" ++
      (Snippet.ofSource source i.pos.line 1 (some i.pos.column)).text coloured := by
  have full : source.isEmpty = false := by simpa using nonempty
  have last (a b c : String) :
      "\n".intercalate [a, b, c] = "\n".intercalate [a, b] ++ "\n" ++ c := by
    simp [← String.toList_inj]
  simp only [report, full, Bool.false_eq_true, if_false, List.cons_append, List.nil_append,
    List.append_nil]
  exact last _ _ _

namespace Template

/-- Whatever the source, an issue's snippet marks one line, and where only line feeds, alone or
behind carriage returns, end lines it is the line that the issue is on, among its neighbours. -/
theorem issuesHighlighted {name filename : Option String} {debug frontmatter : Bool}
    {source : String} {out : Outcome}
    (h : read { name, filename, debug, frontmatter } source = .ok out) {i : Issue}
    (member : i ∈ out.issues) :
    (∀ (context : Nat) column, i.Highlighted source.toList context
      (Snippet.ofSource source i.pos.line context column)) ∧
    ∀ coloured name, i.report coloured (some source) name = i.report coloured none name ++ "\n" ++
      (Snippet.ofSource source i.pos.line 1 (some i.pos.column)).text coloured := by
  have sited := issuesLead h i member
  refine ⟨Issue.highlighted sited, fun coloured name => Issue.reportEnds ?_ coloured name i⟩
  obtain ⟨s, t, ⟨before, after, same, _⟩, front, nonempty, _⟩ := sited
  rintro rfl
  have nothing := List.append_eq_nil_iff.mp (List.append_eq_nil_iff.mp same.symm).2
  exact nonempty (List.prefix_nil.mp (nothing.1 ▸ front))

def spread : String := "---\r\ntitle: x\r\n---\r\nHi\r\n  \x7b\x7b#if a\r\n\x7d\x7db\r\nend"

def spreadIssue : Issue :=
  ⟨.unclosedBlock, "Unclosed \x7b\x7b#if\x7d\x7d block", ⟨5, 2⟩, "\x7b\x7b#if a\r\n\x7d\x7d"⟩

def spreadOutcome : Outcome where
  template :=
    { nodes := [.text ⟨4, 0⟩ "Hi\r\n  \x7b\x7b#if a\r\n\x7d\x7db\r\nend"]
      metadata := Metadata.of [] [("title", .text "x")] none
      name := none
      filename := none }
  issues := [spreadIssue]

theorem readSpread : read {} spread = .ok spreadOutcome := by cbv

theorem issuesHighlightedSpread : read {} spread = .ok spreadOutcome ∧
    spreadIssue ∈ spreadOutcome.issues ∧ Text.fed spread.toList = true ∧
    (∀ (context : Nat) column, spreadIssue.Highlighted spread.toList context
      (Snippet.ofSource spread spreadIssue.pos.line context column)) ∧
    ∀ coloured name, spreadIssue.report coloured (some spread) name =
      spreadIssue.report coloured none name ++ "\n" ++
        (Snippet.ofSource spread spreadIssue.pos.line 1 (some spreadIssue.pos.column)).text
          coloured :=
  ⟨readSpread, List.mem_singleton_self _, by decide,
    issuesHighlighted readSpread (List.mem_singleton_self _)⟩

def paged : String := "a\x0c\x7b\x7bx"

def pagedIssue : Issue := ⟨.unclosedTag, "Unclosed \x7b\x7b tag", ⟨1, 2⟩, "\x7b\x7b"⟩

theorem readPaged : read {} paged = .ok
    ⟨⟨[.text ⟨1, 0⟩ paged], Metadata.of [] [] none, none, none⟩, [pagedIssue]⟩ := by cbv

/- The form feed begins a line of the snippet, though none that places count. -/
theorem formFeedMisleads : ¬∀ source out i, read {} source = .ok out → i ∈ out.issues →
    ∃ text, (Snippet.ofSource source i.pos.line 1 (some i.pos.column)).lines.filter
        (·.1 = i.pos.line) = [(i.pos.line, text)] ∧
      i.source.toList.takeWhile (· ≠ '\n') <+: text.toList.drop i.pos.column.toNat := by
  intro all
  obtain ⟨text, marked, begins⟩ := all _ _ _ readPaged (List.mem_singleton_self _)
  have first : (Snippet.ofSource paged 1 1 (some 2)).lines.filter (·.1 = 1) = [(1, "a")] := by
    decide
  cases first.symm.trans marked
  exact absurd begins (by decide)

end Template
end Medley

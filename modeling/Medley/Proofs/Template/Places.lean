import Mathlib
import Medley.Proofs.Template.Made
import Medley.Proofs.Text.Pieces

/-! Places of nodes and issues. A line and a column lead to a place in a source by the line feeds
in it; what is read stands where they lead, behind any page data and however deep in elements. -/
namespace Medley

namespace Position

def lineFrom : Nat → List Char → Option (List Char)
  | 0, s => some s
  | n + 1, s => (Text.cutChar '\n' s).2.bind (lineFrom n)

/- What a source goes on with at a place, if the source has that line and the line is that
long. -/
def seek (p : Position) (source : List Char) : Option (List Char) :=
  if 1 ≤ p.line ∧ 0 ≤ p.column then
    (lineFrom (p.line - 1).toNat source).bind fun line =>
      if p.column.toNat ≤ (Text.cutChar '\n' line).1.length then some (line.drop p.column.toNat)
      else none
  else none

theorem lineFromNext (n : Nat) (s : List Char) :
    lineFrom (n + 1) s = (lineFrom n s).bind fun line => (Text.cutChar '\n' line).2 := by
  induction n generalizing s with
  | zero => simp [lineFrom]
  | succ n ih =>
    rw [lineFrom]
    cases after : (Text.cutChar '\n' s).2 with
    | none => simp [lineFrom, after]
    | some rest =>
      rw [Option.bind_some, ih rest]
      simp [lineFrom, after]

/- The line that a text ends in, by its number, with what stands in it so far. -/
structure Reached (before : List Char) (n : Nat) (line : List Char) : Prop where
  place : start.advance before = ⟨n + 1, line.length⟩
  unbroken : '\n' ∉ line
  leads : ∀ rest, lineFrom n (before ++ rest) = some (line ++ rest)

theorem reaches (before : List Char) : ∃ n line, Reached before n line := by
  induction before using List.reverseRecOn with
  | nil => exact ⟨0, [], rfl, List.not_mem_nil, fun _ => rfl⟩
  | append_singleton before c ih =>
    obtain ⟨n, line, place, unbroken, leads⟩ := ih
    have step : start.advance (before ++ [c]) = (start.advance before).next c := by
      rw [advance_append]
      rfl
    rw [place] at step
    by_cases feed : c = '\n'
    · subst feed
      refine ⟨n + 1, [], ?_, List.not_mem_nil, fun rest => ?_⟩
      · simpa [next] using step
      · rw [List.append_assoc, lineFromNext, leads]
        exact congrArg Prod.snd (Text.cutCharAt unbroken rest)
    · refine ⟨n, line ++ [c], ?_, ?_, fun rest => ?_⟩
      · simpa [next, feed] using step
      · simp [unbroken, Ne.symm feed]
      · rw [List.append_assoc, leads, List.append_assoc]

theorem cutCharLong {sep : Char} {s : List Char} (absent : sep ∉ s) (t : List Char) :
    s.length ≤ (Text.cutChar sep (s ++ t)).1.length := by
  induction s with
  | nil => exact Nat.zero_le _
  | cons c s ih =>
    simp only [List.mem_cons, not_or] at absent
    rw [List.cons_append, Text.cutChar, if_neg (Ne.symm absent.1)]
    exact Nat.succ_le_succ (ih absent.2)

theorem seekAdvance (before rest : List Char) :
    (start.advance before).seek (before ++ rest) = some rest := by
  obtain ⟨n, line, place, unbroken, leads⟩ := reaches before
  have long := cutCharLong unbroken rest
  have first : ((n : Int) + 1 - 1).toNat = n := by omega
  unfold seek
  rw [place]
  dsimp only
  rw [if_pos (by omega), first, leads]
  simp [long]

theorem advanceLine (p : Position) (s : List Char) :
    (p.advance s).line = p.line + s.count '\n' := by
  induction s generalizing p with
  | nil => simp [advance]
  | cons c s ih =>
    have step : p.advance (c :: s) = (p.next c).advance s := rfl
    rw [step, ih]
    by_cases feed : c = '\n'
    · simp only [next, feed, if_true, List.count_cons_self]
      omega
    · simp [next, feed, List.count_cons_of_ne feed]

theorem advanceLines (front : List Char) :
    start.advance (front ++ ['\n']) = ⟨1 + (front.count '\n' + 1), 0⟩ := by
  have step : start.advance (front ++ ['\n']) = (start.advance front).next '\n' := by
    rw [advance_append]
    rfl
  rw [step, next, if_pos rfl, advanceLine]
  simp only [start, mk.injEq, and_true]
  omega

end Position

namespace Frontmatter

/- It is the end of a source, and nothing or whole lines stand before it. -/
def Rests (s rest : List Char) : Prop := rest = [] ∨ ∃ front, s = front ++ '\n' :: rest

theorem Rests.behind {s rest : List Char} (h : Rests s rest) (before : List Char) :
    Rests (before ++ s) rest := by
  rcases h with nothing | ⟨front, rfl⟩
  · exact .inl nothing
  · exact .inr ⟨before ++ front, by simp⟩

theorem fenceRests {s rest : List Char} (h : fence? s = some rest) : Rests s rest := by
  obtain ⟨after, start, ends⟩ := Option.bind_eq_some_iff.mp h
  obtain ⟨dashes, rfl⟩ : ∃ before, s = before ++ after := by
    unfold Text.dropStart? at start
    split at start
    · cases start
      exact ⟨_, (List.take_append_drop _ s).symm⟩
    · contradiction
  refine Rests.behind ?_ dashes
  rw [← List.takeWhile_append_dropWhile (p := isPad) (l := after)]
  refine Rests.behind ?_ _
  split at ends
  · cases ends
    exact .inl rfl
  · rename_i same
    cases ends
    exact .inr ⟨[], same⟩
  · rename_i same
    cases ends
    exact .inr ⟨['\r'], same⟩
  · contradiction

theorem blockRests {s block rest before : List Char} {lineStart : Bool}
    (h : blockFrom before lineStart s = some (block, rest)) : Rests s rest := by
  induction s generalizing before lineStart with
  | nil =>
    rw [blockFrom] at h
    split at h
    · rename_i found
      cases h
      split at found
      · exact fenceRests found
      · contradiction
    · contradiction
  | cons c s ih =>
    rw [blockFrom] at h
    split at h
    · rename_i found
      cases h
      split at found
      · exact fenceRests found
      · contradiction
    · exact (ih h).behind [c]

/- A body that is not empty begins a line, and the block takes the lines before it. -/
theorem splitRests {s : List Char} {parts : Split} (h : split s = some parts) :
    parts.body = [] ∨
      ∃ front, s = front ++ '\n' :: parts.body ∧ parts.lines = front.count '\n' + 1 := by
  obtain ⟨opened, fence, h⟩ := Option.bind_eq_some_iff.mp h
  split at h
  · contradiction
  · rename_i more
    obtain ⟨⟨block, body⟩, found, h⟩ := Option.bind_eq_some_iff.mp h
    cases h
    rcases fenceRests fence with nothing | ⟨front, rfl⟩
    · simp [nothing] at more
    · have whole := (blockRests found).behind (front ++ ['\n'])
      simp only [List.append_assoc, List.singleton_append] at whole
      rcases whole with nothing | ⟨lines, same⟩
      · exact .inl nothing
      · refine .inr ⟨lines, same, ?_⟩
        dsimp only
        rw [same]
        simp only [List.count_append, List.count_cons_self]
        omega

end Frontmatter

def Node.Begins (rest : List Char) : Node Value → Prop
  | .lookup .. | .call .. | .cond .. | .each .. | .embed .. =>
      "\x7b\x7b".toList <+: rest ∨ "<%".toList <+: rest
  | .component _ name .. => '<' :: name.toList <+: rest
  | .diagnostic _ _ _ source => source.toList <+: rest
  | .text _ content => ∃ c, content.toList.head? = some c ∧ rest.head? = some c
  | .layout .. => False

def Node.Stands (source : List Char) (n : Node Value) : Prop :=
  ∃ rest, n.pos.seek source = some rest ∧ n.Begins rest

def Issue.Stands (source : List Char) (i : Issue) : Prop :=
  ∃ rest, i.pos.seek source = some rest ∧ i.source.toList <+: rest

def Position.Leads (source : List Char) (p : Position) (s : List Char) : Prop :=
  ∃ before after, source = before ++ (s ++ after) ∧ p = start.advance before

namespace Position
variable {source s : List Char} {p : Position}

theorem Leads.seek (h : Leads source p s) : ∃ rest, p.seek source = some rest ∧ s <+: rest := by
  obtain ⟨before, after, rfl, rfl⟩ := h
  exact ⟨s ++ after, seekAdvance before _, after, rfl⟩

theorem Leads.along (h : Leads source p s) (n : Nat) :
    Leads source (p.advance (s.take n)) (s.drop n) := by
  obtain ⟨before, after, rfl, rfl⟩ := h
  refine ⟨before ++ s.take n, after, ?_, (advance_append _ _ _).symm⟩
  rw [List.append_assoc, ← List.append_assoc (s.take n), List.take_append_drop]

theorem Leads.short (h : Leads source p s) (n : Nat) : Leads source p (s.take n) := by
  obtain ⟨before, after, rfl, rfl⟩ := h
  refine ⟨before, s.drop n ++ after, ?_, rfl⟩
  rw [← List.append_assoc (s.take n), List.take_append_drop]

theorem Leads.opens (h : Leads source p s) (opens : Mark.Opens s) :
    ∃ rest, p.seek source = some rest ∧ ("\x7b\x7b".toList <+: rest ∨ "<%".toList <+: rest) := by
  obtain ⟨rest, found, front⟩ := h.seek
  exact ⟨rest, found, opens.imp (List.IsPrefix.trans · front) (List.IsPrefix.trans · front)⟩

end Position

theorem Node.madeStanding (debug : Bool) (source : List Char) :
    Made debug (Position.Leads source) (Node.Stands source) where
  along _ _ n here := here.along n
  short _ _ n here := here.short n
  text p s t here front nonempty := by
    obtain ⟨rest, found, more⟩ := here.seek
    obtain ⟨c, t, rfl⟩ := List.exists_cons_of_ne_nil nonempty
    obtain ⟨after, rfl⟩ := front.trans more
    exact ⟨_, found, c, by simp, rfl⟩
  joined p s t here := by
    obtain ⟨rest, found, c, first, same⟩ := here
    refine ⟨rest, found, c, ?_, same⟩
    rw [String.toList_append, List.head?_append, first]
    rfl
  lookup _ _ _ _ _ here opens := here.opens opens
  call _ _ _ _ _ _ here opens := here.opens opens
  block f s children here opens := by
    unfold Frame.node
    split <;> exact here.opens opens
  component _ _ _ _ _ here name _ := by
    obtain ⟨rest, found, front⟩ := here.seek
    exact ⟨rest, found, name.trans front⟩
  embed _ _ _ _ here opens := here.opens opens
  diagnostic _ p s t code message here front nonempty := by
    obtain ⟨rest, found, more⟩ := here.seek
    refine ⟨rest, found, ?_⟩
    simpa only [Begins, String.toList_ofList] using front.trans more

theorem Issue.stands {source : List Char} {i : Issue}
    (h : i.Sited (Position.Leads source)) : i.Stands source := by
  obtain ⟨s, t, here, front, _, same⟩ := h
  obtain ⟨rest, found, more⟩ := here.seek
  refine ⟨rest, found, ?_⟩
  simpa only [same, String.toList_ofList] using front.trans more

/-- Whatever the source, what is read of it stands where it is said to. -/
theorem Template.placesHold {name filename : Option String} {debug frontmatter : Bool}
    {source : String} {out : Outcome}
    (h : read { name, filename, debug, frontmatter } source = .ok out) :
    (∀ n ∈ out.template.nodes, n.Every (Node.Stands source.toList)) ∧
      ∀ i ∈ out.issues, i.Stands source.toList := by
  -- the body leads on from its first line; an empty one has nothing in it
  have body : ∀ (lines : Nat) (body : List Char), body = [] ∨
      Position.Leads source.toList ⟨1 + 0 + lines, 0⟩ body →
      (∀ n ∈ (Reading.ofSource debug ⟨1 + 0 + lines, 0⟩ body).nodes,
        n.Every (Node.Stands source.toList)) ∧
      ∀ i ∈ (Reading.ofSource debug ⟨1 + 0 + lines, 0⟩ body).issues, i.Stands source.toList := by
    intro lines body start
    rcases start with rfl | leads
    · have nothing : Reading.ofSource debug ⟨1 + 0 + lines, 0⟩ [] = ⟨[], []⟩ := by
        rw [Reading.ofSource, Builder.readNil]
        rfl
      rw [nothing]
      exact ⟨List.forall_mem_nil _, List.forall_mem_nil _⟩
    · have every := Reading.every (Node.madeStanding debug source.toList) leads
      exact ⟨every.1, fun i member => Issue.stands (every.2 i member)⟩
  unfold read at h
  dsimp only at h
  split at h
  · cases h
    exact body 0 _ (.inr ⟨[], [], by simp, rfl⟩)
  · rename_i parts found
    obtain ⟨data, _, h⟩ := okBind h
    cases h
    refine body _ _ ?_
    split at found
    · refine (Frontmatter.splitRests found).imp_right fun ⟨front, same, lines⟩ => ?_
      refine ⟨front ++ ['\n'], [], by simp [same], ?_⟩
      rw [Position.advanceLines, lines]
      simp
    · contradiction

namespace Template

def placed : String :=
  "---\r\ntitle: x\r\n---\r\nHi <Card>\n  \x7b\x7b name \x7d\x7d\x7b\x7b/if\x7d\x7d</Card>"

def placedOutcome : Outcome where
  template :=
    { nodes := [.text ⟨4, 0⟩ "Hi ", .component ⟨4, 3⟩ "Card" []
        [.text ⟨4, 9⟩ "\n  ", .lookup ⟨5, 2⟩ "name" true [],
          .diagnostic ⟨5, 12⟩ "M-PAR-003" "\x7b\x7b/if\x7d\x7d without an open block"
            "\x7b\x7b/if\x7d\x7d"]]
      metadata := Metadata.of [.component ⟨4, 3⟩ "Card" [] []] [("title", .text "x")] none
      name := none
      filename := none }
  issues := [⟨.strayClose, "\x7b\x7b/if\x7d\x7d without an open block", ⟨5, 12⟩,
    "\x7b\x7b/if\x7d\x7d"⟩]

theorem readPlaced : read { debug := true } placed = .ok placedOutcome := by cbv

theorem placesHoldPlaced : read { debug := true } placed = .ok placedOutcome ∧
    (∀ n ∈ placedOutcome.template.nodes, n.Every (Node.Stands placed.toList)) ∧
      ∀ i ∈ placedOutcome.issues, i.Stands placed.toList :=
  ⟨readPlaced, placesHold readPlaced⟩

end Template
end Medley

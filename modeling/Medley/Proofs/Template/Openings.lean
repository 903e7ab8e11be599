import Medley.Proofs.Template.Comments

/-! Opening markers in general. Whatever stands between the ends of a marker, if it means that a
block opens and if the marker does not end before, the marker is read whole, in front of any text.
The written forms of opening markers are of this kind. -/
namespace Medley

namespace Text

theorem trimEndHead {c : Char} (unblank : isBlank c = false) (s : List Char) :
    trimEnd (c :: s) = c :: trimEnd s := by
  have single : [c].dropWhile isBlank = [c] := by simp [unblank]
  rw [trimEnd, List.reverse_cons, List.dropWhile_append, single]
  split
  · rename_i blank
    simp [trimEnd, List.isEmpty_iff.mp blank]
  · simp [trimEnd]

/- What stands first in a trimmed text is what the text goes on with after its blanks. -/
theorem leadsTrimmed {s : List Char} {c : Char} {rest : List Char} (h : trim s = c :: rest) :
    Mark.Leads s c := by
  induction s with
  | nil => simp [trim, trimStart, trimEnd] at h
  | cons d s ih =>
    cases blank : isBlank d with
    | true =>
      have same : trim (d :: s) = trim s := by simp [trim, trimStart, blank]
      obtain ⟨lead, more, rfl, all, unblank⟩ := ih (same.symm.trans h)
      refine ⟨d :: lead, more, rfl, fun e member => ?_, unblank⟩
      rcases List.mem_cons.mp member with rfl | member
      · exact blank
      · exact all e member
    | false =>
      have whole : trimStart (d :: s) = d :: s := by simp [trimStart, blank]
      rw [trim, whole, trimEndHead blank] at h
      cases h
      exact Mark.leadsFirst blank s

theorem cutPair {p q : Char} {s : List Char} (first : ¬ [p, q] <:+: s ++ [p]) (t : List Char) :
    cut [p, q] (s ++ ([p, q] ++ t)) = some (s, t) := by
  refine Mark.cutFirst (by simp) fun back suffix nonempty front => first ?_
  obtain ⟨before, rfl⟩ := suffix
  have behind : back ++ [p] <:+: before ++ back ++ [p] := ⟨before, [], by simp⟩
  refine List.IsInfix.trans ?_ behind
  -- the next character is the last of the text, or stands in it
  cases back with
  | nil => exact absurd rfl nonempty
  | cons c back =>
    cases back with
    | nil =>
      obtain ⟨rfl, rfl⟩ : p = c ∧ q = p := by simpa using front
      exact List.infix_refl _
    | cons d back =>
      obtain ⟨rfl, rfl⟩ : p = c ∧ q = d := by simpa using front
      exact ⟨[], back ++ [p], by simp⟩

end Text

namespace Mark
open Text

/-- A marker that opens a block, by what stands between its ends; it does not end before. -/
inductive Opening : Spelling → Header → List Char → Prop where
  | braces {header inside} (first : ¬ ['\x7d', '\x7d'] <:+: inside ++ ['\x7d'])
      (means : ∀ raw, bracesMeaning false inside raw = .opens .braces header) :
      Opening .braces header ('\x7b' :: '\x7b' :: (inside ++ ['\x7d', '\x7d']))
  | percent {header inside} (first : ¬ ['%', '>'] <:+: inside ++ ['%'])
      (means : ∀ raw, percentMeaning inside raw = .opens .percent header) :
      Opening .percent header ('<' :: '%' :: (inside ++ ['%', '>']))

theorem bracesOpening {inside raw : List Char} {spelling : Spelling} {header : Header}
    (h : bracesMeaning false inside raw = .opens spelling header) : Leads inside '#' := by
  unfold bracesMeaning at h
  split at h
  · contradiction
  · contradiction
  · exact leadsTrimmed ‹_›
  · unfold embedMeaning at h
    split at h <;> contradiction
  · contradiction
  · contradiction

theorem dropStartFirst {c : Char} {start s t : List Char} (h : dropStart? (c :: start) s = some t) :
    ∃ rest, s = c :: rest := ⟨start ++ t, dropStartSome h⟩

theorem statementOpening {content raw : List Char} {spelling : Spelling} {header : Header}
    (h : statementMeaning content raw = .opens spelling header) :
    ∃ c rest, content = c :: rest ∧ c ≠ 'e' := by
  rw [statementMeaning, ifChars] at h
  cases word : keyword? ['i', 'f'] content with
  | some condition =>
    cases found : dropStart? ['i', 'f'] content with
    | none => simp [keyword?, found] at word
    | some after =>
      obtain ⟨rest, rfl⟩ := dropStartFirst found
      exact ⟨'i', rest, rfl, by decide⟩
  | none =>
    rw [word] at h
    dsimp only at h
    split at h
    · rename_i loop
      rw [loopHeader?, forChars] at loop
      obtain ⟨after, found, _⟩ := Option.bind_eq_some_iff.mp loop
      obtain ⟨rest, rfl⟩ := dropStartFirst found
      exact ⟨'f', rest, rfl, by decide⟩
    · split at h <;> contradiction

theorem percentOpening {inside raw : List Char} {spelling : Spelling} {header : Header}
    (h : percentMeaning inside raw = .opens spelling header) : ∃ c, Leads inside c ∧ c ≠ 'e' := by
  unfold percentMeaning at h
  dsimp only at h
  split at h
  · contradiction
  · split at h <;> contradiction
  · split at h <;> contradiction
  · split at h
    · contradiction
    · obtain ⟨c, rest, same, other⟩ := statementOpening h
      exact ⟨c, leadsTrimmed same, other⟩

theorem Opening.reads {spelling : Spelling} {header : Header} {w : List Char}
    (opening : Opening spelling header w) (t : List Char) :
    Reads w t (.opens spelling header) := by
  cases opening with
  | @braces _ inside first means =>
    have leads := bracesOpening (means [])
    have head : ∀ d, isBlank d = false → d ≠ '#' → inside.head? ≠ some d := by
      obtain ⟨lead, rest, rfl, blank, _⟩ := leads
      rintro d unblank other same
      cases lead with
      | nil => exact other (Option.some.inj same).symm
      | cons e lead =>
        cases same
        simp [blank d List.mem_cons_self] at unblank
    have mark := readsBracesUpTo (cutPair first t) leads (by decide)
      (head _ (by decide) (by decide)) (head _ (by decide) (by decide))
    rw [means] at mark
    exact mark
  | @percent _ inside first means =>
    obtain ⟨c, leads, other⟩ := percentOpening (means [])
    have mark := readsPercentUpTo (cutPair first t) leads other
    rw [means] at mark
    exact mark

theorem Opening.some' {spelling : Spelling} {header : Header} {w : List Char}
    (opening : Opening spelling header w) : w ≠ [] := by
  cases opening <;> simp

theorem pairApart {p q : Char} {s : List Char} (h : p ∉ s) : ¬ [p, q] <:+: s ++ [p] := by
  intro held
  rcases List.infix_concat_iff.mp held with last | within
  · obtain ⟨before, same⟩ := last
    have front : before ++ [p] = s := by
      have shape : before ++ [p] ++ [q] = s ++ [p] := by simpa using same
      exact (List.append_inj' shape rfl).1
    exact h (front ▸ List.mem_append_right before (List.mem_singleton_self p))
  · exact h (within.subset List.mem_cons_self)

theorem Opening.written (spelling : Spelling) {header : Header} (sound : header.Sound) :
    Opening spelling header (header.opener spelling) := by
  have tame := (phraseEndsTame spelling sound).2
  cases spelling with
  | braces =>
    have inside := Token.tameAppend (tameOne (c := '#') (by decide)) tame
    exact .braces (pairApart (tameWithout inside (c := '\x7d') (by decide)))
      fun raw => (phraseOpens sound raw).1
  | percent =>
    have inside := tameSpaces tame
    have whole := Opening.percent (pairApart (tameWithout inside (c := '%') (by decide)))
      fun raw => (phraseOpens sound raw).2
    simpa [Header.opener] using whole

end Mark
end Medley

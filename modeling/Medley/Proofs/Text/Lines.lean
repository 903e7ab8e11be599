import Medley.Text.Lines

/-! Lines of a text, read from its front. Where they end in line feeds, alone or behind carriage
returns, there are as many as line feeds begin. -/
namespace Medley.Text

def firstLine (s : List Char) : List Char := s.takeWhile fun c => !endsLine c

/- Its lines end in line feeds, alone or behind carriage returns, and in nothing else. -/
def fed : List Char → Bool
  | '\r' :: '\n' :: rest => fed rest
  | c :: rest => (!endsLine c || c = '\n') && fed rest
  | [] => true

theorem fedOther {c : Char} (other : c ≠ '\r') (s : List Char) :
    fed (c :: s) = ((!endsLine c || c = '\n') && fed s) := by
  rw [fed]
  rintro _ rfl
  contradiction

theorem fedPlain {c : Char} {s : List Char} (feed : c ≠ '\n') (other : c ≠ '\r')
    (h : fed (c :: s) = true) : endsLine c = false ∧ fed s = true := by
  rw [fedOther other, Bool.and_eq_true_iff] at h
  exact ⟨by simpa [feed] using h.1, h.2⟩

theorem fedReturn {s : List Char} (h : fed ('\r' :: s) = true) :
    ∃ rest, s = '\n' :: rest ∧ fed rest = true := by
  cases s with
  | nil => exact absurd h (by decide)
  | cons c s =>
    by_cases feed : c = '\n'
    · subst feed
      exact ⟨s, rfl, h⟩
    · rw [fed] at h
      · exact absurd (Bool.and_eq_true_iff.mp h).1 (by decide)
      · rintro _ _ same
        cases same
        exact feed rfl

theorem linesOpen {c : Char} (within : endsLine c = false) (line s : List Char) :
    linesFrom line (c :: s) = linesFrom (c :: line) s := by
  rw [linesFrom, if_neg (by simp [within])]
  rintro _ rfl
  exact absurd within (by decide)

theorem linesEnd {c : Char} (ends : endsLine c = true) (line s : List Char) :
    ∃ rest, linesFrom line (c :: s) = line.reverse :: linesFrom [] rest ∧
      (rest = s ∨ c = '\r' ∧ s = '\n' :: rest) := by
  rw [linesFrom.eq_def]
  split
  · contradiction
  · rename_i rest same
    obtain ⟨feed, after⟩ := List.cons.inj same
    exact ⟨rest, rfl, .inr ⟨feed, after⟩⟩
  · rename_i same
    cases same
    rw [if_pos ends]
    exact ⟨s, rfl, .inl rfl⟩

theorem linesFirst (line : List Char) {s : List Char} (nonempty : s ≠ []) :
    (linesFrom line s)[0]? = some (line.reverse ++ firstLine s) := by
  induction s generalizing line with
  | nil => contradiction
  | cons c s ih =>
    by_cases ends : endsLine c = true
    · obtain ⟨rest, run, _⟩ := linesEnd ends line s
      simp [run, firstLine, ends]
    · rw [linesOpen (by simpa using ends)]
      cases s with
      | nil => simp [linesFrom, firstLine, ends]
      | cons d s =>
        rw [ih (c :: line) (List.cons_ne_nil _ _)]
        simp [firstLine, ends]

theorem linesHead {s line : List Char} :
    (lines s)[0]? = some line ↔ s ≠ [] ∧ line = firstLine s := by
  cases s with
  | nil => simp [lines, linesFrom]
  | cons c s =>
    rw [lines, linesFirst [] (List.cons_ne_nil c s)]
    simp [eq_comm]

theorem linesEnough (before line : List Char) {rest : List Char} (nonempty : rest ≠ []) :
    before.count '\n' < (linesFrom line (before ++ rest)).length := by
  induction before generalizing line with
  | nil => exact (List.getElem?_eq_some_iff.mp (linesFirst line nonempty)).1
  | cons c before ih =>
    rw [List.cons_append]
    by_cases ends : endsLine c = true
    · obtain ⟨after, run, same⟩ := linesEnd ends line (before ++ rest)
      have later := ih []
      rw [run, List.length_cons]
      rcases same with rfl | ⟨rfl, feed⟩
      · rw [List.count_cons]
        split <;> omega
      · -- the line feed would have ended a line by itself, and that line is counted in `later`
        rw [feed] at later
        rw [List.count_cons_of_ne (by decide)]
        exact later
    · have other : c ≠ '\n' := by
        rintro rfl
        exact ends (by decide)
      rw [linesOpen (by simpa using ends), List.count_cons_of_ne other]
      exact ih _

theorem linesFeed {line front : List Char} (unbroken : '\n' ∉ line)
    (h : fed (line ++ '\n' :: front) = true) : fed front = true ∧
      ∀ before back, ∃ first,
        linesFrom before (line ++ '\n' :: front ++ back) = first :: lines (front ++ back) := by
  induction line with
  | nil =>
    rw [List.nil_append, fedOther (by decide)] at h
    exact ⟨(Bool.and_eq_true_iff.mp h).2, fun before back => ⟨before.reverse, rfl⟩⟩
  | cons c line ih =>
    simp only [List.mem_cons, not_or] at unbroken
    by_cases feed : c = '\r'
    · subst feed
      -- it can only stand right before the line feed, and ends the line with it
      obtain ⟨rest, same, whole⟩ := fedReturn h
      cases line with
      | nil =>
        cases same
        exact ⟨whole, fun before back => ⟨before.reverse, rfl⟩⟩
      | cons d line =>
        cases same
        exact absurd List.mem_cons_self unbroken.2
    · obtain ⟨within, later⟩ := fedPlain (Ne.symm unbroken.1) feed h
      obtain ⟨whole, run⟩ := ih unbroken.2 later
      refine ⟨whole, fun before back => ?_⟩
      obtain ⟨first, run⟩ := run (c :: before) back
      exact ⟨first, (linesOpen within before _).trans run⟩

theorem firstLinePrefix {s t : List Char} (h : s <+: t) : firstLine s <+: firstLine t := by
  obtain ⟨rest, rfl⟩ := h
  rw [firstLine, firstLine, List.takeWhile_append]
  split
  · exact (List.takeWhile_prefix _).trans (List.prefix_append _ _)
  · exact List.prefix_rfl

theorem firstLineBehind {line s : List Char} (unbroken : '\n' ∉ line) (h : fed line = true) :
    firstLine (line ++ s) = line ++ firstLine s := by
  induction line with
  | nil => rfl
  | cons c line ih =>
    simp only [List.mem_cons, not_or] at unbroken
    have feed : c ≠ '\r' := by
      rintro rfl
      obtain ⟨rest, rfl, _⟩ := fedReturn h
      exact unbroken.2 List.mem_cons_self
    obtain ⟨within, plain⟩ := fedPlain (Ne.symm unbroken.1) feed h
    have later := ih unbroken.2 plain
    simp only [firstLine] at later
    simp [firstLine, within, later]

end Medley.Text

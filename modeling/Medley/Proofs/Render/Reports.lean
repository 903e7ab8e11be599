import Medley.Proofs.Render.Notes
import Medley.Proofs.Text.Pieces
import Medley.Trial

/-! Comments read back. A comment is found by its mark and read up to the first end; so what is read
of a page are the messages as they were written, where nothing between the comments has the mark and
no message has an end in it. -/
namespace Medley

namespace Trial
open Text

theorem upToCons (stop : List Char) (c : Char) (s : List Char) :
    upTo? stop (c :: s) = match dropStart? stop (c :: s) with
      | some rest => some ([], rest)
      | none => (upTo? stop s).map fun (before, after) => (c :: before, after) := by
  rw [upTo?.eq_def]
  cases dropStart? stop (c :: s) <;> rfl

theorem upToFirst {p : Char} {ps s : List Char} (once : p ∉ ps) (clear : ¬ p :: ps <:+: s)
    (t : List Char) : upTo? (p :: ps) (s ++ (p :: ps ++ t)) = some (s, t) := by
  induction s with
  | nil =>
    unfold upTo?
    rw [List.nil_append, dropStartAppend]
  | cons c s ih =>
    have here : ¬ p :: ps <+: (c :: s) ++ (p :: ps ++ t) := fun front => by
      refine clear (prefixBefore once (List.cons_ne_nil c s) (fun d first => ?_) front).isInfix
      cases first
      rfl
    have later := ih fun inside => clear (inside.trans (List.suffix_cons c s).isInfix)
    rw [List.cons_append] at here ⊢
    rw [upToCons, dropStartNone here, later]
    rfl

theorem upToClear {p : Char} {ps s before after : List Char}
    (h : upTo? (p :: ps) s = some (before, after)) :
    s = before ++ (p :: ps ++ after) ∧ ¬ p :: ps <:+: before := by
  induction s generalizing before with
  | nil => simp [upTo?, dropStart?] at h
  | cons c s ih =>
    rw [upToCons] at h
    cases front : dropStart? (p :: ps) (c :: s) with
    | some rest =>
      rw [front] at h
      cases h
      exact ⟨by simpa using dropStartSome front, by simp⟩
    | none =>
      rw [front] at h
      obtain ⟨⟨left, right⟩, found, same⟩ := Option.map_eq_some_iff.mp h
      cases same
      obtain ⟨whole, clear⟩ := ih found
      refine ⟨by rw [whole]; rfl, fun inside => ?_⟩
      rcases List.infix_cons_iff.mp inside with here | later
      · have first : p :: ps <+: c :: s := by
          rw [whole]
          exact here.trans (List.prefix_append (c :: left) _)
        simp [dropStart?, first] at front
      · exact clear later

theorem upToFound {stop s : List Char} (h : stop <:+: s) : ∃ found, upTo? stop s = some found := by
  induction s with
  | nil =>
    rw [List.infix_nil.mp h]
    exact ⟨([], []), rfl⟩
  | cons c s ih =>
    rw [upToCons]
    cases front : dropStart? stop (c :: s) with
    | some rest => exact ⟨([], rest), rfl⟩
    | none =>
      rcases List.infix_cons_iff.mp h with here | later
      · simp [dropStart?, here] at front
      · obtain ⟨found, rest⟩ := ih later
        exact ⟨(c :: found.1, found.2), by rw [rest]; rfl⟩

def mark : List Char := "<!-- motif ".toList

def stop : List Char := " -->".toList

theorem codeShape (code : Code) : ∃ category number : List Char,
    code.text.toList = "M-".toList ++ (category ++ '-' :: number) ∧
      category.all isCapital = true ∧ number.all isDigit = true ∧ category ≠ [] ∧ number ≠ [] := by
  refine ⟨(code.text.toList.drop 2).take 3, code.text.toList.drop 6, ?_⟩
  cases code <;> decide

theorem commentAt (code : Code) (message : String) (t : List Char) :
    comment? ((Chunk.comment code.text message).text.toList ++ t) =
      (upTo? stop ((Chunk.spaceDashes message).toList ++ (stop ++ t))).map
        fun (read, rest) => (code.text.toList, read, rest) := by
  obtain ⟨category, number, same, capitals, digits, named, numbered⟩ := codeShape code
  have shape : (Chunk.comment code.text message).text.toList ++ t =
      "<!-- motif M-".toList ++ (category ++ ('-' :: (number ++ (": ".toList ++
        ((Chunk.spaceDashes message).toList ++ (stop ++ t)))))) := by
    simp [Chunk.text, same, stop]
  generalize (Chunk.spaceDashes message).toList ++ (stop ++ t) = tail at shape ⊢
  have first := runEnds (s := '-' :: (number ++ (": ".toList ++ tail)))
    (List.all_eq_true.mp capitals) fun c here => by cases here; rfl
  have second := runEnds (s := ": ".toList ++ tail) (List.all_eq_true.mp digits)
    fun c here => by cases here; rfl
  have dash : ∀ s, dropStart? ['-'] ('-' :: s) = some s := fun s => dropStartAppend ['-'] s
  have full : (category.isEmpty || number.isEmpty) = false := by simp [named, numbered]
  unfold comment?
  rw [shape, dropStartAppend]
  simp only [Option.bind_eq_bind, Option.bind_some, first.1, first.2, second.1, second.2, dash,
    dropStartAppend, full]
  rw [if_neg Bool.false_ne_true, List.append_assoc, ← same]
  exact (Option.map_eq_bind).symm

def reports (s : List Char) : List String :=
  (commentsFrom 0 s).map fun (code, message) => String.ofList code ++ ": " ++ String.ofList message

theorem commentsSkip (n : Nat) (s : List Char) : commentsFrom n s = commentsFrom 0 (s.drop n) := by
  induction s generalizing n with
  | nil => cases n <;> rfl
  | cons c s ih =>
    cases n with
    | zero => rfl
    | succ n =>
      rw [commentsFrom, ih]
      rfl

/- Text without the mark is passed, up to where something begins as the mark does. -/
theorem commentsPassed {s t : List Char} (clear : ¬ mark <:+: s) (next : ∀ c ∈ t.head?, c = '<') :
    commentsFrom 0 (s ++ t) = commentsFrom 0 t := by
  induction s with
  | nil => rfl
  | cons c s ih =>
    have apart : comment? (c :: (s ++ t)) = none := by
      have other : ¬ "<!-- motif M-".toList <+: c :: (s ++ t) := fun front => by
        have here := prefixBefore (v := t) (by decide) (List.cons_ne_nil c s) next
          ((List.prefix_append mark ['M', '-']).trans front)
        exact clear here.isInfix
      unfold comment?
      rw [dropStartNone other]
      rfl
    rw [List.cons_append, commentsFrom, apart]
    exact ih fun inside => clear (inside.trans (List.suffix_cons c s).isInfix)

theorem commentsNext {s code message after : List Char} (more : s ≠ [])
    (found : comment? s = some (code, message, after)) (behind : after <:+ s.tail) :
    commentsFrom 0 s = (code, message) :: commentsFrom 0 after := by
  cases s with
  | nil => exact absurd rfl more
  | cons c s =>
    have rest : s.drop (s.length - after.length) = after :=
      (List.suffix_iff_eq_drop.mp behind).symm
    rw [commentsFrom, found]
    dsimp only
    rw [commentsSkip, rest]

theorem commentsWritten (code : Code) (message : String) {t read rest : List Char}
    (found : upTo? stop ((Chunk.spaceDashes message).toList ++ (stop ++ t)) = some (read, rest)) :
    commentsFrom 0 ((Chunk.comment code.text message).text.toList ++ t) =
      (code.text.toList, read) :: commentsFrom 0 rest := by
  have shape : (Chunk.comment code.text message).text.toList ++ t =
      '<' :: ("!-- motif ".toList ++ code.text.toList ++ ": ".toList ++
        ((Chunk.spaceDashes message).toList ++ (stop ++ t))) := by
    simp [Chunk.text, stop]
  have here := commentAt code message t
  rw [found] at here
  refine commentsNext (by simp [shape]) here ?_
  rw [shape, (upToClear found).1, List.tail_cons, ← List.append_assoc, ← List.append_assoc]
  exact List.suffix_append _ rest

end Trial

namespace Chunk
open Trial Text

/- A comment of either kind has a code and a message; what is reported of it are both. -/

def note? : Chunk → Option (String × String)
  | comment code message | diagnostic code message => some (code, message)
  | literal _ | value _ => none

def report? (chunk : Chunk) : Option String :=
  chunk.note?.map fun (code, message) => code ++ ": " ++ spaceDashes message

def Coded (chunk : Chunk) : Prop :=
  ∀ code message, chunk.note? = some (code, message) → ∃ c : Code, code = c.text

def Whole (chunk : Chunk) : Prop :=
  ∀ code message, chunk.note? = some (code, message) → ¬ OddArrow message.toList

theorem codedComment (code : Code) (message : String) : (comment code.text message).Coded := by
  intro text message same
  cases same
  exact ⟨code, rfl⟩

theorem noted {chunk : Chunk} (kind : chunk.isComment = true) : ∃ code message,
    chunk.note? = some (code, message) ∧ chunk.text = (comment code message).text := by
  cases chunk with
  | comment code message | diagnostic code message => exact ⟨code, message, rfl, rfl⟩
  | literal | value => contradiction

theorem unnoted {chunk : Chunk} (kind : chunk.isComment = false) : chunk.note? = none := by
  cases chunk with
  | comment | diagnostic => contradiction
  | literal | value => rfl

theorem reportNoted {chunk : Chunk} {code message : String}
    (note : chunk.note? = some (code, message)) :
    chunk.report? = some (code ++ ": " ++ spaceDashes message) := by rw [report?, note]; rfl

theorem reportUnnoted {chunk : Chunk} (silent : chunk.note? = none) : chunk.report? = none := by
  rw [report?, silent]; rfl

theorem wholeWritten {chunk : Chunk} {code message : String}
    (note : chunk.note? = some (code, message)) :
    chunk.Whole ↔ ¬ stop <:+: (spaceDashes message).toList := by
  have shape : chunk.Whole ↔ ¬ OddArrow message.toList := by simp [Whole, note]
  rw [shape, spaceDashes, String.toList_ofList]
  exact (not_congr (loosenEnd message.toList)).symm

def texts (chunks : List Chunk) : List Char := (String.join (chunks.map text)).toList

/-- No stretch between the comments has the mark of a comment in it. -/
def Unmarked (chunks : List Chunk) : Prop :=
  ∀ part, part <:+: chunks → (∀ chunk ∈ part, chunk.isComment = false) → ¬ mark <:+: texts part

theorem textsAppend (cs ds : List Chunk) : texts (cs ++ ds) = texts cs ++ texts ds := by
  simp [texts, String.toList_join]

theorem textsCons (c : Chunk) (cs : List Chunk) : texts (c :: cs) = c.text.toList ++ texts cs := by
  simp [texts, String.toList_join]

theorem Unmarked.behind {before chunks : List Chunk} {c : Chunk}
    (unmarked : Unmarked (before ++ c :: chunks)) : Unmarked chunks := fun part inside =>
  unmarked part
    (inside.trans ((List.suffix_cons c chunks).trans (List.suffix_append before _)).isInfix)

/- A comment in front is reported by its whole message, unless it ends before. -/
theorem reportsComment (code : Code) (message : String) (t : List Char) (later : List String) :
    reports ((comment code.text message).text.toList ++ t) =
        (code.text ++ ": " ++ spaceDashes message) :: later ↔
      ¬ stop <:+: (spaceDashes message).toList ∧ reports t = later := by
  by_cases ended : stop <:+: (spaceDashes message).toList
  · obtain ⟨⟨read, rest⟩, found⟩ := upToFound (ended.trans
      (List.prefix_append _ (stop ++ t)).isInfix)
    have short : String.ofList read ≠ spaceDashes message := fun same =>
      (upToClear found).2 (by rwa [← same, String.toList_ofList] at ended)
    rw [reports, commentsWritten code message found]
    simp [ended, short]
  · have found := upToFirst (by decide) ended t
    rw [reports, commentsWritten code message found]
    simp [ended, reports]

theorem unmarkedWithout {chunks : List Chunk}
    (without : ∀ chunk ∈ chunks, chunk.isComment = false → '<' ∉ chunk.text.toList) :
    Unmarked chunks := by
  intro part inside plain marked
  have begins : '<' ∈ texts part := marked.subset (by decide)
  rw [texts, String.toList_join] at begins
  obtain ⟨s, member, here⟩ := List.mem_flatMap.mp begins
  obtain ⟨chunk, held, rfl⟩ := List.mem_map.mp member
  exact without chunk (inside.subset held) (plain chunk held) here

theorem reportsOf {chunks : List Chunk} (coded : ∀ chunk ∈ chunks, chunk.Coded)
    {before : List Chunk} (plain : ∀ chunk ∈ before, chunk.isComment = false)
    (unmarked : Unmarked (before ++ chunks)) :
    reports (texts (before ++ chunks)) = chunks.filterMap report? ↔
      ∀ chunk ∈ chunks, chunk.Whole := by
  induction chunks generalizing before with
  | nil =>
    have clear := unmarked before (List.prefix_append before []).isInfix plain
    have passed := commentsPassed (t := []) clear nofun
    rw [List.append_nil] at passed
    rw [List.append_nil, reports, passed]
    simp [commentsFrom]
  | cons c chunks ih =>
    obtain ⟨first, later⟩ := List.forall_mem_cons.mp coded
    rw [List.forall_mem_cons]
    cases kind : c.isComment with
    | false =>
      -- it joins the stretch before
      have silent := unnoted kind
      have harmless : c.Whole := fun code message note => by rw [silent] at note; cases note
      have joined : ∀ chunk ∈ before ++ [c], chunk.isComment = false := by
        simpa [or_imp, forall_and, kind] using plain
      have rest := ih later joined (by simpa using unmarked)
      rw [List.append_assoc] at rest
      rw [List.filterMap_cons_none (reportUnnoted silent), and_iff_right harmless]
      exact rest
    | true =>
      obtain ⟨_, message, note, written⟩ := noted kind
      obtain ⟨code, rfl⟩ := first _ _ note
      have clear := unmarked before (List.prefix_append before _).isInfix plain
      have begins : ∀ d ∈ ((comment code.text message).text.toList ++ texts chunks).head?,
          d = '<' := fun d here => by
        simp [text] at here
        exact here.symm
      have rest := ih later (List.forall_mem_nil _) unmarked.behind
      rw [textsAppend, textsCons, written, reports, commentsPassed clear begins,
        List.filterMap_cons_some (reportNoted note), wholeWritten note]
      exact (reportsComment code message (texts chunks) _).trans (and_congr_right' rest)

/- What is read of a page are the messages as they were written, unless one has an end in it. -/
theorem reportsRead {chunks : List Chunk} (coded : ∀ chunk ∈ chunks, chunk.Coded)
    (unmarked : Unmarked chunks) :
    errorsIn (String.join (chunks.map text)) = chunks.filterMap report? ↔
      ∀ chunk ∈ chunks, chunk.Whole :=
  reportsOf coded (List.forall_mem_nil _) unmarked

end Chunk
end Medley

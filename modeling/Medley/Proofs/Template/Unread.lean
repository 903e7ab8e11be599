import Medley.Proofs.Template.Overlong
import Medley.Proofs.Text.Pieces

/-! Sources that cannot be read. Reading gives a template unless an entry of the page data is an
integer of too many digits, or a list in brackets, which is no JSON, with such an item; there is no
other source that it fails on. -/
namespace Medley

namespace Decimal
open Text

theorem readDigitsAll {s : List Char} (digits : ∀ c ∈ s, isDigit c = true) (after : Bool) :
    ∃ ds, readDigits after s = (ds, []) ∧ ds.length = s.length := by
  induction s generalizing after with
  | nil => exact ⟨[], rfl, rfl⟩
  | cons c s ih =>
    obtain ⟨d, value⟩ := Option.isSome_iff_exists.mp (digits c List.mem_cons_self)
    obtain ⟨ds, rest, length⟩ := ih (fun e member => digits e (List.mem_cons_of_mem c member)) true
    refine ⟨d :: ds, ?_, congrArg Nat.succ length⟩
    rw [readDigits, value, rest]
    -- a low line is no digit
    rintro e t rfl
    exact absurd (digits '_' List.mem_cons_self) (by decide)

theorem unsignedDigits {s : List Char} (whole : Token.isInteger s = true) :
    Token.dropSign s ≠ [] ∧ ∀ c ∈ Token.dropSign s, isDigit c = true := by
  simpa [Token.isInteger, Token.isDigits] using whole

theorem readSignInteger {s : List Char} (whole : Token.isInteger s = true) :
    ∃ negative, readSign s = (negative, Token.dropSign s) := by
  obtain ⟨_, digits⟩ := unsignedDigits whole
  cases s with
  | nil => exact ⟨false, rfl⟩
  | cons c s =>
    by_cases minus : c = '-'
    · subst minus
      exact ⟨true, rfl⟩
    · have same : Token.dropSign (c :: s) = c :: s := by simp [Token.dropSign, minus]
      rw [same] at digits ⊢
      have plus : c ≠ '+' := unlike (digits c List.mem_cons_self) (by decide)
      exact ⟨false, by simp [readSign, minus, plus]⟩

/- An integer is read unless it has too many digits. -/
theorem readInteger {s : List Char} (whole : Token.isInteger s = true) :
    (∃ n, readInt s = .ok n ∧ (Token.dropSign s).length ≤ digitLimit) ∨
      readInt s = .error (.tooLong (Token.dropSign s).length) ∧
        digitLimit < (Token.dropSign s).length := by
  obtain ⟨nonempty, digits⟩ := unsignedDigits whole
  obtain ⟨negative, signed⟩ := readSignInteger whole
  obtain ⟨ds, read, length⟩ := readDigitsAll digits false
  have unblank : ∀ c ∈ s, isNumberBlank c = false := by
    intro c member
    have bare : c = '-' ∨ c ∈ Token.dropSign s := by
      unfold Token.dropSign
      split
      · exact List.mem_cons.mp member
      · exact .inr member
    rcases bare with rfl | digit
    · decide
    · simp [isNumberBlank, digitNoBlank (digits c digit)]
  unfold readInt
  rw [trimCharsNone unblank, signed]
  dsimp only
  rw [read]
  cases ds with
  | nil => exact absurd (List.length_eq_zero_iff.mp length.symm) nonempty
  | cons d ds =>
    dsimp only
    rw [length]
    split
    · exact .inr ⟨rfl, ‹_›⟩
    · exact .inl ⟨_, rfl, Nat.le_of_not_lt ‹_›⟩

end Decimal

namespace Frontmatter
open Text

/-- It stands for no value. -/
inductive Unread : List Char → Prop where
  | integer {s} (whole : Token.isInteger (trim s) = true)
      (long : Decimal.digitLimit < (Token.dropSign (trim s)).length) : Unread s
  | item {s inside part} (noJson : json? (trim s) = none)
      (list : bracketed? (trim s) = some inside) (member : part ∈ splitOnChar ',' (trim inside))
      (unread : Unread part) : Unread s

theorem scalarFails {s : List Char} {f : Fault} (h : scalar s = .error f) :
    Token.isInteger s = true ∧ Decimal.digitLimit < (Token.dropSign s).length := by
  unfold scalar at h
  split at h
  · contradiction
  · split at h
    · contradiction
    · split at h
      · rename_i whole
        rcases Decimal.readInteger whole with ⟨n, read, _⟩ | ⟨_, long⟩
        · rw [read] at h
          contradiction
        · exact ⟨whole, long⟩
      · split at h
        · split at h <;> contradiction
        · contradiction

theorem integerStart {s : List Char} (whole : Token.isInteger s = true) :
    json? s = none ∧ bracketed? s = none ∧ s ≠ "true".toList ∧ s ≠ "false".toList := by
  obtain ⟨nonempty, digits⟩ := Decimal.unsignedDigits whole
  cases s with
  | nil => exact absurd rfl nonempty
  | cons c s =>
    have first : c = '-' ∨ isDigit c = true := by
      by_cases minus : c = '-'
      · exact .inl minus
      · have same : Token.dropSign (c :: s) = c :: s := by simp [Token.dropSign, minus]
        rw [same] at digits
        exact .inr (digits c List.mem_cons_self)
    have other : ∀ d, d ≠ '-' → isDigit d = false → c ≠ d := by
      rintro d apart noDigit rfl
      exact first.elim apart fun digit => by simp [noDigit] at digit
    have list := other '[' (by decide) (by decide)
    have map := other '\x7b' (by decide) (by decide)
    have yes := other 't' (by decide) (by decide)
    have no := other 'f' (by decide) (by decide)
    refine ⟨?_, ?_, ?_, ?_⟩
    · simp [json?, list, map]
    · simp [bracketed?, list]
    · simp [yes]
    · simp [no]

theorem scalarUnread {s : List Char} (whole : Token.isInteger s = true)
    (long : Decimal.digitLimit < (Token.dropSign s).length) : ∃ f, scalar s = .error f := by
  obtain ⟨_, _, noTrue, noFalse⟩ := integerStart whole
  rcases Decimal.readInteger whole with ⟨_, _, short⟩ | ⟨read, _⟩
  · exact absurd long (Nat.not_lt.mpr short)
  · refine ⟨.longInteger (Token.dropSign s).length, ?_⟩
    rw [scalar, if_neg noTrue, if_neg noFalse, if_pos whole, read]

theorem Unread.some {s : List Char} (h : Unread s) : s ≠ [] := by
  rintro rfl
  cases h with
  | integer whole _ => exact absurd whole (by decide)
  | item _ list _ _ => exact absurd list nofun

theorem mapMFails {α β ε : Type} {f : α → Except ε β} {xs : List α} {x : α} (member : x ∈ xs)
    {fault : ε} (fails : f x = .error fault) : ∃ fault, xs.mapM f = .error fault := by
  induction xs with
  | nil => cases member
  | cons y ys ih =>
    rw [List.mapM_cons]
    cases first : f y with
    | error fault => exact ⟨fault, rfl⟩
    | ok b =>
      rcases List.mem_cons.mp member with rfl | later
      · rw [first] at fails
        cases fails
      · obtain ⟨fault, rest⟩ := ih later
        exact ⟨fault, by rw [rest]; rfl⟩

theorem unreadFails {s : List Char} (h : Unread s) : ∃ f, value s = .error f := by
  induction h with
  | integer whole long =>
    obtain ⟨noJson, noList, _⟩ := integerStart whole
    obtain ⟨f, fails⟩ := scalarUnread whole long
    refine ⟨f, ?_⟩
    rw [value, noJson]
    dsimp only
    split
    · rename_i list
      rw [noList] at list
      contradiction
    · exact fails
  | @item s inside part noJson list member unread ih =>
    obtain ⟨f, fails⟩ := ih
    have full : (trim inside).isEmpty = false := by
      cases held : trim inside with
      | nil =>
        rw [held] at member
        exact absurd (List.mem_singleton.mp member) unread.some
      | cons => rfl
    rw [value, noJson]
    dsimp only
    split
    · rename_i inside' list'
      cases list.symm.trans list'
      obtain ⟨fault, items⟩ := mapMFails (f := fun x : { p // p ∈ splitOnChar ',' (trim inside) } =>
        value x.1) (List.mem_attach _ ⟨part, member⟩) fails
      rw [full]
      exact ⟨fault, by simp [items, bind, Except.bind]⟩
    · rename_i absent
      rw [list] at absent
      contradiction

theorem failsUnread (s : List Char) {f : Fault} (h : value s = .error f) : Unread s := by
  generalize size : s.length = n
  induction n using Nat.strongRecOn generalizing s f with
  | ind n ih =>
    rw [value] at h
    split at h
    · contradiction
    · rename_i noJson
      split at h
      · rename_i inside list
        split at h
        · contradiction
        · rcases errorBind h with read | ⟨items, _, h⟩
          · obtain ⟨⟨part, member⟩, _, found⟩ := errorMapM read
            have short := length_le_of_mem_splitOnChar member
            have trimmed := trim_length_le inside
            have less := bracketed?_length_lt list
            have whole := trim_length_le s
            exact .item noJson list member (ih part.length (by omega) part found rfl)
          · contradiction
      · obtain ⟨whole, long⟩ := scalarFails h
        exact .integer whole long

def HasUnread (lines : List (List Char)) : Prop :=
  ∃ line ∈ lines, ∃ key raw, pair? line = some (key, raw) ∧ Unread raw

theorem hasUnreadCons {line : List Char} {rest : List (List Char)} :
    HasUnread (line :: rest) ↔
      (∃ key raw, pair? line = some (key, raw) ∧ Unread raw) ∨ HasUnread rest := by
  simp [HasUnread]

theorem dataFails (before : Layer) (lines : List (List Char)) :
    (∃ f, dataFrom before lines = .error f) ↔ HasUnread lines := by
  induction lines generalizing before with
  | nil => simp [dataFrom, HasUnread]
  | cons line rest ih =>
    rw [dataFrom, hasUnreadCons]
    cases entry : pair? line with
    | none => simpa using ih before
    | some e =>
      obtain ⟨key, raw⟩ := e
      constructor
      · rintro ⟨f, fails⟩
        rcases errorBind fails with first | ⟨v, _, later⟩
        · exact .inl ⟨key, raw, rfl, failsUnread raw first⟩
        · exact .inr ((ih _).mp ⟨f, later⟩)
      · rintro (⟨_, _, same, unread⟩ | later)
        · cases same
          obtain ⟨f, fails⟩ := unreadFails unread
          refine ⟨f, ?_⟩
          dsimp only
          rw [fails]
          rfl
        · cases first : value raw with
          | error f => exact ⟨f, by dsimp only; rw [first]; rfl⟩
          | ok v =>
            obtain ⟨f, fails⟩ := (ih (setProp before key v)).mpr later
            exact ⟨f, by dsimp only; rw [first]; exact fails⟩

theorem blockLine {line : List Char} (h : '\n' ∉ line) (before rest : List Char) :
    blockFrom before false (line ++ '\n' :: rest) =
      blockFrom ('\n' :: (line.reverse ++ before)) true rest := by
  induction line generalizing before with
  | nil => simp [blockFrom]
  | cons c line ih =>
    have other : c ≠ '\n' := fun same => h (same ▸ List.mem_cons_self)
    have later := ih (fun member => h (List.mem_cons_of_mem c member)) (c :: before)
    simpa [blockFrom, other] using later

theorem linesOne {line : List Char} (nonempty : line ≠ []) (h : ∀ c ∈ line, endsLine c = false) :
    lines line = [line] := by
  suffices run : ∀ s before, (∀ c ∈ s, endsLine c = false) → before ++ s ≠ [] →
      linesFrom before.reverse s = [before ++ s] from run line [] h nonempty
  intro s
  induction s with
  | nil =>
    intro before _ full
    simpa [linesFrom] using full
  | cons c s ih =>
    intro before plain _
    have within := plain c List.mem_cons_self
    have later := ih (before ++ [c]) (fun d member => plain d (List.mem_cons_of_mem c member))
      (by simp)
    have feed : c ≠ '\r' := unlike (f := fun d => !endsLine d) (by simp [within]) (by decide)
    simpa [linesFrom, within, feed] using later

theorem dropBreakFeed {s : List Char} (h : '\r' ∉ s) : dropBreak ('\n' :: s) = s := by
  cases s with
  | nil => rfl
  | cons c s =>
    have other : c ≠ '\r' := fun same => h (same ▸ List.mem_cons_self)
    simp [dropBreak, other]

def fenced (line : List Char) : List Char :=
  '-' :: '-' :: '-' :: '\n' :: (line ++ ['\n', '-', '-', '-', '\n'])

theorem splitFenced {c : Char} {line : List Char} (noFence : c ≠ '-')
    (plain : ∀ d ∈ c :: line, endsLine d = false) :
    ∃ taken, split (fenced (c :: line)) = some ⟨c :: line, [], taken⟩ := by
  have noFeed : '\n' ∉ c :: line := fun member => absurd (plain _ member) (by decide)
  have noReturn : '\r' ∉ (c :: line).reverse := fun member =>
    absurd (plain _ (List.mem_reverse.mp member)) (by decide)
  have opened : fence? (fenced (c :: line)) = some (c :: (line ++ ['\n', '-', '-', '-', '\n'])) :=
    rfl
  have inside : fence? (c :: (line ++ ['\n', '-', '-', '-', '\n'])) = none := by
    simp [fence?, dropStart?, List.isPrefixOf, noFence.symm]
  have other : c ≠ '\n' := fun same => noFeed (same ▸ List.mem_cons_self)
  have passed := blockLine (fun member => noFeed (List.mem_cons_of_mem c member)) [c]
    ['-', '-', '-', '\n']
  have closed : blockFrom ('\n' :: (c :: line).reverse) true ['-', '-', '-', '\n'] =
      some ((dropBreak ('\n' :: (c :: line).reverse)).reverse, []) := rfl
  rw [dropBreakFeed noReturn, List.reverse_reverse, List.reverse_cons, ← passed] at closed
  have block : blockFrom [] true (c :: (line ++ ['\n', '-', '-', '-', '\n'])) =
      some (c :: line, []) := by
    rw [blockFrom, if_pos rfl, inside]
    simpa [other] using closed
  refine ⟨(fenced (c :: line)).count '\n', ?_⟩
  simp [split, opened, block]

end Frontmatter

namespace Template

/- Its page data, if page data is read, has an entry that stands for no value. -/
def UnreadData (o : ReadOptions) (source : String) : Prop :=
  o.frontmatter = true ∧ ∃ split, Frontmatter.split source.toList = some split ∧
    Frontmatter.HasUnread (Text.lines split.block)

theorem failsExactly (o : ReadOptions) (source : String) :
    (∃ f, read o source = .error f) ↔ UnreadData o source := by
  unfold read UnreadData
  dsimp only
  cases o.frontmatter with
  | false => simp [pure, Except.pure]
  | true =>
    cases found : Frontmatter.split source.toList with
    | none => simp [pure, Except.pure]
    | some split =>
      have data := Frontmatter.dataFails [] (Text.lines split.block)
      simp only [if_true, true_and, Option.some.injEq, exists_eq_left', ← data]
      constructor
      · rintro ⟨f, fails⟩
        rcases errorBind fails with first | ⟨_, _, later⟩
        · exact ⟨f, first⟩
        · contradiction
      · rintro ⟨f, fails⟩
        exact ⟨f, by rw [Frontmatter.data, fails]; rfl⟩

theorem readsUnlessUnread (o : ReadOptions) (source : String) :
    (∃ out, read o source = .ok out ∧ ¬ UnreadData o source) ∨
      ∃ digits, Decimal.digitLimit < digits ∧ read o source = .error (.longInteger digits) ∧
        UnreadData o source := by
  cases result : read o source with
  | ok out =>
    refine .inl ⟨out, rfl, fun unread => ?_⟩
    obtain ⟨f, fails⟩ := (failsExactly o source).mpr unread
    rw [result] at fails
    contradiction
  | error f =>
    obtain ⟨digits, long, rfl⟩ := readFault result
    exact .inr ⟨digits, long, rfl, (failsExactly o source).mp ⟨_, result⟩⟩

open Frontmatter Text

theorem onesUnread {n : Nat} (long : Decimal.digitLimit < n) :
    UnreadData {} (String.ofList (fenced ('n' :: ':' :: ' ' :: List.replicate n '1'))) := by
  have nonempty : n ≠ 0 := by
    rintro rfl
    exact absurd long (by decide)
  obtain ⟨m, same⟩ := Nat.exists_eq_succ_of_ne_zero nonempty
  have each : ∀ c ∈ List.replicate n '1', c = '1' := fun c member => List.eq_of_mem_replicate member
  have unblank : ∀ c ∈ List.replicate n '1', isBlank c = false := fun c member =>
    each c member ▸ by decide
  have begins : Begins (List.replicate n '1') :=
    ⟨'1', List.replicate m '1', by rw [same, List.replicate_succ], by decide⟩
  have ends : Ends (List.replicate n '1') := endsAll (by simp [nonempty]) unblank
  have trimmed : trim (' ' :: List.replicate n '1') = List.replicate n '1' := trimLed begins ends
  have dropped : Token.dropSign (List.replicate n '1') = List.replicate n '1' := by
    rw [same, List.replicate_succ]
    rfl
  have line : ∀ c ∈ 'n' :: ':' :: ' ' :: List.replicate n '1', endsLine c = false := by
    intro c member
    rcases (List.mem_append (s := ['n', ':', ' '])).mp member with front | one
    · exact eachOf (p := (endsLine · = false)) (by decide) c front
    · exact each c one ▸ by decide
  have whole : trim ('n' :: ':' :: ' ' :: List.replicate n '1') =
      'n' :: ':' :: ' ' :: List.replicate n '1' :=
    trimWhole ⟨'n', _, rfl, by decide⟩ (endsAppend (s := ['n', ':', ' ']) ends)
  have entry : pair? ('n' :: ':' :: ' ' :: List.replicate n '1') =
      some ("n", ' ' :: List.replicate n '1') := by
    simp [pair?, whole, cutChar, show trim ['n'] = ['n'] by decide]
  have unread : Unread (' ' :: List.replicate n '1') := by
    refine .integer ?_ ?_
    · rw [trimmed, Token.isInteger, dropped]
      simp [Token.isDigits, nonempty, show isDigit '1' = true by decide]
    · rw [trimmed, dropped, List.length_replicate]
      exact long
  obtain ⟨taken, found⟩ := splitFenced (by decide) line
  rw [← String.toList_ofList (l := fenced _)] at found
  refine ⟨rfl, _, found, ?_⟩
  rw [linesOne (by simp) line]
  exact ⟨_, List.mem_singleton_self _, "n", _, entry, unread⟩

theorem someUnread : ∃ source, UnreadData {} source :=
  ⟨_, onesUnread (Nat.lt_succ_self Decimal.digitLimit)⟩

theorem notAlwaysRead :
    ¬ ∀ (o : ReadOptions) (source : String), ∃ out, read o source = .ok out := by
  intro every
  obtain ⟨source, unread⟩ := someUnread
  obtain ⟨f, fails⟩ := (failsExactly {} source).mpr unread
  obtain ⟨out, result⟩ := every {} source
  rw [fails] at result
  contradiction

end Template
end Medley

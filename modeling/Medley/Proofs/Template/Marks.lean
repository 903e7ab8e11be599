import Medley.Proofs.Template.Grammar
import Medley.Template.Tree

/-! The marks of written forms. In front of any text, what is written for an output, a block's
opening or closing marker, or a partial is read as one mark with that meaning; a text is read as
one mark where a marker or nothing follows. -/
namespace Medley.Mark
open Text Token

theorem blankWidthSpace {s : List Char} (begins : Begins s) : blankWidth (' ' :: s) = 1 := by
  obtain ⟨c, rest, rfl, unblank⟩ := begins
  simp [blankWidth, blankSpace, unblank]

/- The words that markers are known by, as characters. -/
theorem ifChars : "if".toList = ['i', 'f'] := by simp

theorem eachChars : "each".toList = ['e', 'a', 'c', 'h'] := by simp

theorem asChars : "as".toList = ['a', 's'] := by simp

theorem forChars : "for".toList = ['f', 'o', 'r'] := by simp

theorem inChars : "in".toList = ['i', 'n'] := by simp

theorem endifChars : "endif".toList = ['e', 'n', 'd', 'i', 'f'] := by simp

theorem endforChars : "endfor".toList = ['e', 'n', 'd', 'f', 'o', 'r'] := by simp

/-- In front of `t`, the text `s` is one mark, which means `m`. -/
structure Reads (s t : List Char) (m : Meaning) : Prop where
  width : (next (s ++ t)).width = s.length
  meaning : (next (s ++ t)).meaning = m

theorem Reads.raw {s t : List Char} {m : Meaning} (h : Reads s t m) :
    (next (s ++ t)).raw (s ++ t) = s := by
  rw [Mark.raw, h.width, List.take_left]

theorem Reads.rest {s t : List Char} {m : Meaning} (h : Reads s t m) :
    (next (s ++ t)).rest (s ++ t) = t := by
  rw [Mark.rest, h.width, List.drop_left]

theorem Reads.some {s t : List Char} {m : Meaning} (h : Reads s t m) : s ≠ [] := by
  rintro rfl
  exact absurd h.width (Nat.ne_of_gt (next t).width_pos)

def Stops (s : List Char) : Prop := textWidth s = 0

theorem Reads.stops {s t : List Char} {m : Meaning} (h : Reads s t m) (other : m ≠ .text) :
    Stops (s ++ t) := by
  by_contra more
  have text : next (s ++ t) = ⟨textWidth (s ++ t), Nat.pos_of_ne_zero more, .text⟩ := dif_neg more
  rw [← h.meaning, text] at other
  exact other rfl

theorem stopsMarker {s : List Char} (h : begins s = true) : Stops s := by
  cases s with
  | nil => rfl
  | cons c rest => simp [Stops, textWidth, h]

theorem nextMarker {s : List Char} (h : begins s = true) : next s = marker s :=
  dif_pos (stopsMarker h)

theorem textWidthPlain {s : List Char} (plain : ∀ c ∈ s, c ≠ '\x7b' ∧ c ≠ '<') (t : List Char) :
    textWidth (s ++ t) = s.length + textWidth t := by
  induction s with
  | nil => simp
  | cons c s ih =>
    obtain ⟨noBrace, noAngle⟩ := plain c List.mem_cons_self
    have absent : begins (c :: (s ++ t)) = false := by simp [begins, noBrace, noAngle]
    have rest := ih fun d member => plain d (List.mem_cons_of_mem c member)
    simp only [List.cons_append, textWidth, absent, rest, Bool.false_eq_true, if_false,
      List.length_cons]
    omega

theorem readsText {s t : List Char} (nonempty : s ≠ [])
    (plain : ∀ c ∈ s, c ≠ '\x7b' ∧ c ≠ '<') (stops : Stops t) : Reads s t .text := by
  have width : textWidth (s ++ t) = s.length := by
    rw [textWidthPlain plain, stops]
    rfl
  have positive : textWidth (s ++ t) ≠ 0 := by
    rw [width]
    exact fun zero => nonempty (List.length_eq_zero_iff.mp zero)
  constructor
  · rw [next, dif_neg positive]
    exact width
  · rw [next, dif_neg positive]

theorem closingBracesNone {r rest : List Char} {c : Char} (first : trimStart r = c :: rest)
    (other : c ≠ '/') : closingBraces? ('\x7b' :: '\x7b' :: r) = none := by
  have start : dropStart? ['\x7b', '\x7b'] ('\x7b' :: '\x7b' :: r) = some r := dropStartAppend _ _
  have absent : dropStart? ['/'] (trimStart r) = none := by
    rw [first]
    exact dropStartOther (Ne.symm other) _ _
  simp [closingBraces?, start, absent]

theorem closingPercentNone {r rest : List Char} {c : Char} (first : trimStart r = c :: rest)
    (other : c ≠ 'e') : closingPercent? ('<' :: '%' :: r) = none := by
  have start : dropStart? ['<', '%'] ('<' :: '%' :: r) = some r := dropStartAppend _ _
  have loop : dropStart? ['e', 'n', 'd', 'f', 'o', 'r'] (trimStart r) = none := by
    rw [first]
    exact dropStartOther (Ne.symm other) _ _
  have cond : dropStart? ['e', 'n', 'd', 'i', 'f'] (trimStart r) = none := by
    rw [first]
    exact dropStartOther (Ne.symm other) _ _
  simp only [closingPercent?, start, endforChars, endifChars, loop, cond, bind, Option.bind,
    Option.isSome_none, Bool.false_eq_true, if_false]

theorem closingOther {c d : Char} (r : List Char) (h : c = '\x7b' ∧ d = '\x7b' → False)
    (h' : c = '<' ∧ d = '%' → False) :
    (closingBraces? (c :: d :: r) <|> closingPercent? (c :: d :: r)) = none := by
  have braces : dropStart? ['\x7b', '\x7b'] (c :: d :: r) = none := by
    simp only [dropStart?, List.isPrefixOf, Bool.and_true, Bool.and_eq_true, beq_iff_eq]
    rw [if_neg fun both => h ⟨both.1.symm, both.2.symm⟩]
  have percent : dropStart? ['<', '%'] (c :: d :: r) = none := by
    simp only [dropStart?, List.isPrefixOf, Bool.and_true, Bool.and_eq_true, beq_iff_eq]
    rw [if_neg fun both => h' ⟨both.1.symm, both.2.symm⟩]
  simp only [closingBraces?, closingPercent?, braces, percent, bind, Option.bind, HOrElse.hOrElse,
    OrElse.orElse, Option.orElse]

def Leads (s : List Char) (c : Char) : Prop :=
  ∃ lead rest, s = lead ++ c :: rest ∧ (∀ d ∈ lead, isBlank d = true) ∧ isBlank c = false

theorem leadsSpace {c : Char} (unblank : isBlank c = false) (rest : List Char) :
    Leads (' ' :: c :: rest) c := ⟨[' '], rest, rfl, oneBlank, unblank⟩

theorem leadsFirst {c : Char} (unblank : isBlank c = false) (rest : List Char) :
    Leads (c :: rest) c := ⟨[], rest, rfl, by simp, unblank⟩

theorem leadsTrim {s : List Char} {c : Char} (h : Leads s c) (t : List Char) :
    ∃ rest, trimStart (s ++ t) = c :: rest := by
  obtain ⟨lead, rest, rfl, blank, unblank⟩ := h
  have led := trimStartLead blank ⟨c, rest, rfl, unblank⟩ t
  exact ⟨rest ++ t, led⟩

theorem tameWithout {s : List Char} (tame : Tame s) {c : Char}
    (h : c ∈ ['\x7b', '\x7d', '<', '%']) : c ∉ s := fun member => tame c member h

theorem readsBracesUpTo {c : Char} {inside t : List Char}
    (found : cut ['\x7d', '\x7d'] (inside ++ (['\x7d', '\x7d'] ++ t)) = some (inside, t))
    (leads : Leads inside c) (other : c ≠ '/') (double : inside.head? ≠ some '\x7b')
    (noComment : inside.head? ≠ some '!') :
    Reads ('\x7b' :: '\x7b' :: (inside ++ ['\x7d', '\x7d'])) t
      (bracesMeaning false inside (['\x7b', '\x7b'] ++ inside ++ ['\x7d', '\x7d'])) := by
  obtain ⟨_, first⟩ := leadsTrim leads (['\x7d', '\x7d'] ++ t)
  have mark : next ('\x7b' :: '\x7b' :: (inside ++ ['\x7d', '\x7d']) ++ t) =
      bracesOf 2 (by omega) (inside ++ (['\x7d', '\x7d'] ++ t)) := by
    have shape : '\x7b' :: '\x7b' :: (inside ++ ['\x7d', '\x7d']) ++ t =
        '\x7b' :: '\x7b' :: (inside ++ (['\x7d', '\x7d'] ++ t)) := by simp
    rw [shape, nextMarker rfl]
    unfold marker
    rw [closingBracesNone first other]
    cases inside with
    | nil =>
      obtain ⟨lead, rest, same, _⟩ := leads
      simp at same
    | cons d inside =>
      have single : d ≠ '\x7b' := fun same => double (by simp [same])
      have noBang : d ≠ '!' := fun same => noComment (by simp [same])
      have percent : ∀ r, closingPercent? ('\x7b' :: '\x7b' :: r) = none := fun r => rfl
      simp [percent, single, noBang]
  simp only [bracesOf, List.replicate, found] at mark
  constructor
  · rw [mark]
    simp
  · rw [mark]
    simp

theorem readsBraces {c : Char} {inside : List Char} (tame : Tame inside) (leads : Leads inside c)
    (other : c ≠ '/') (noComment : inside.head? ≠ some '!') (t : List Char) :
    Reads ('\x7b' :: '\x7b' :: (inside ++ ['\x7d', '\x7d'])) t
      (bracesMeaning false inside (['\x7b', '\x7b'] ++ inside ++ ['\x7d', '\x7d'])) := by
  have found := cutAt (tameWithout tame (c := '\x7d') (by decide)) ['\x7d'] t
  refine readsBracesUpTo found leads other (fun double => ?_) noComment
  exact tameWithout tame (c := '\x7b') (by decide) (List.mem_of_head? double)

theorem readsTriple {inside : List Char} (tame : Tame inside) (t : List Char) :
    Reads ('\x7b' :: '\x7b' :: '\x7b' :: (inside ++ ['\x7d', '\x7d', '\x7d'])) t
      (bracesMeaning true inside
        (['\x7b', '\x7b', '\x7b'] ++ inside ++ ['\x7d', '\x7d', '\x7d'])) := by
  have found := cutAt (tameWithout tame (c := '\x7d') (by decide)) ['\x7d', '\x7d'] t
  have mark : next ('\x7b' :: '\x7b' :: '\x7b' :: (inside ++ ['\x7d', '\x7d', '\x7d']) ++ t) =
      bracesOf 3 (by omega) (inside ++ (['\x7d', '\x7d', '\x7d'] ++ t)) := by
    have shape : '\x7b' :: '\x7b' :: '\x7b' :: (inside ++ ['\x7d', '\x7d', '\x7d']) ++ t =
        '\x7b' :: '\x7b' :: '\x7b' :: (inside ++ (['\x7d', '\x7d', '\x7d'] ++ t)) := by simp
    have first : ∀ r, trimStart ('\x7b' :: r) = '\x7b' :: r := fun r => rfl
    rw [shape, nextMarker rfl]
    unfold marker
    rw [closingBracesNone (first _) (by decide)]
    rfl
  simp only [bracesOf, List.replicate, found] at mark
  constructor
  · rw [mark]
    simp
  · rw [mark]
    simp

theorem readsPercentUpTo {c : Char} {inside t : List Char}
    (found : cut ['%', '>'] (inside ++ (['%', '>'] ++ t)) = some (inside, t))
    (leads : Leads inside c) (other : c ≠ 'e') :
    Reads ('<' :: '%' :: (inside ++ ['%', '>'])) t
      (percentMeaning inside (['<', '%'] ++ inside ++ ['%', '>'])) := by
  obtain ⟨_, first⟩ := leadsTrim leads (['%', '>'] ++ t)
  have mark : next ('<' :: '%' :: (inside ++ ['%', '>']) ++ t) =
      percentOf (inside ++ (['%', '>'] ++ t)) := by
    have shape : '<' :: '%' :: (inside ++ ['%', '>']) ++ t =
        '<' :: '%' :: (inside ++ (['%', '>'] ++ t)) := by simp
    rw [shape, nextMarker rfl]
    unfold marker
    rw [closingPercentNone first other]
    rfl
  simp only [percentOf, found] at mark
  constructor
  · rw [mark]
    simp
  · rw [mark]

theorem readsPercent {c : Char} {inside : List Char} (tame : Tame inside) (leads : Leads inside c)
    (other : c ≠ 'e') (t : List Char) :
    Reads ('<' :: '%' :: (inside ++ ['%', '>'])) t
      (percentMeaning inside (['<', '%'] ++ inside ++ ['%', '>'])) :=
  readsPercentUpTo (cutAt (tameWithout tame (c := '%') (by decide)) ['>'] t) leads other

theorem startsUnblank {c : Char} (h : startsName c = true) : isBlank c = false :=
  (nameLoose (startsLoose h)).unblank

theorem bracesMeaningOutput {c : Char} {rest inside : List Char}
    (trimmed : trim inside = c :: rest) (name : startsName c = true) (triple : Bool)
    (raw : List Char) : bracesMeaning triple inside raw = .output (!triple) (c :: rest) := by
  rw [bracesMeaning, trimmed]
  split
  · contradiction
  · exact absurd (List.cons.inj ‹_›).1 (unlike name rfl)
  · exact absurd (List.cons.inj ‹_›).1 (unlike name rfl)
  · exact absurd (List.cons.inj ‹_›).1 (unlike name rfl)
  · exact absurd (List.cons.inj ‹_›).1 (unlike name rfl)
  · rfl

theorem tameOne {c : Char} (h : c ∉ ['\x7b', '\x7d', '<', '%']) : Tame [c] := fun d member => by
  rw [List.mem_singleton.mp member]
  exact h

theorem tameSpaces {e : List Char} (h : Tame e) : Tame (' ' :: e ++ [' ']) :=
  tameAppend (tameAppend (tameOne (by decide)) h) (tameOne (by decide))

theorem readsOutput (spelling : Spelling) (escape : Bool) {e : List Char} (tame : Tame e)
    (begins : ∃ c rest, e = c :: rest ∧ startsName c = true) (ends : Ends e) (t : List Char) :
    Reads (Written.outputTag spelling escape e) t (.output escape e) := by
  obtain ⟨c, rest, rfl, name⟩ := begins
  have trimmed := trimBlanks ⟨c, rest, rfl, startsUnblank name⟩ ends
  have unslashed : c ≠ '/' := unlike name rfl
  have inside := tameSpaces tame
  cases spelling with
  | braces =>
    cases escape with
    | true =>
      have mark := readsBraces inside (leadsSpace (startsUnblank name) _) unslashed (by simp) t
      rw [bracesMeaningOutput trimmed name] at mark
      simpa [Written.outputTag, Written.outputStart, Written.outputEnd] using mark
    | false =>
      have mark := readsTriple inside t
      rw [bracesMeaningOutput trimmed name] at mark
      simpa [Written.outputTag, Written.outputStart, Written.outputEnd] using mark
  | percent =>
    cases escape with
    | true =>
      have mark := readsPercent (tameAppend (tameOne (c := '=') (by decide)) inside)
        (leadsFirst rfl _) (by decide) t
      simp only [List.cons_append, List.nil_append, percentMeaning] at mark trimmed
      rw [trimmed] at mark
      simpa [Written.outputTag, Written.outputStart, Written.outputEnd] using mark
    | false =>
      have mark := readsPercent (tameAppend (tameOne (c := '-') (by decide)) inside)
        (leadsFirst rfl _) (by decide) t
      simp only [List.cons_append, List.nil_append, percentMeaning] at mark trimmed
      rw [trimmed] at mark
      simpa [Written.outputTag, Written.outputStart, Written.outputEnd] using mark

theorem readsEnder (spelling : Spelling) (header : Header) (t : List Char) :
    Reads (header.ender spelling) t (.closes (some ⟨header.isLoop, spelling⟩)) := by
  cases spelling <;> cases header <;> constructor <;> rfl

theorem nameBegins {w : List Char} (h : isName w = true) : Begins w := by
  obtain ⟨nonempty, all⟩ := nameWord h
  cases w with
  | nil => exact absurd rfl nonempty
  | cons c rest => exact ⟨c, rest, rfl, (all c List.mem_cons_self).unblank⟩

theorem nameEnds {w : List Char} (h : isName w = true) : Ends w := (nameIsWord h).ends

theorem binderLoose {c : Char} (h : inBinder c = true) : Loose c := by
  refine nameLoose ?_
  simp only [inBinder, Bool.or_eq_true, decide_eq_true_eq] at h
  simp only [inName, Bool.or_eq_true, decide_eq_true_eq]
  rcases h with word | rfl
  · exact .inl (.inl (.inl (.inl word)))
  · decide

theorem phraseBegins (spelling : Spelling) (header : Header) :
    ∃ c rest, header.phrase spelling = c :: rest ∧ c ∈ ['i', 'e', 'f'] ∧
      (spelling = .percent → c ≠ 'e') := by
  cases spelling <;> cases header <;> exact ⟨_, _, rfl, by decide, by decide⟩

theorem phraseEndsTame (spelling : Spelling) {header : Header} (sound : header.Sound) :
    Ends (header.phrase spelling) ∧ Tame (header.phrase spelling) := by
  have literal : ∀ w ∈ [['i', 'f'], ['e', 'a', 'c', 'h'], ['a', 's'], ['f', 'o', 'r'], ['i', 'n']],
      w ≠ [] ∧ (w.all fun c => !isBlank c && decide (c ∉ ['\x7b', '\x7d', '<', '%'])) = true := by
    decide
  have word : ∀ w ∈ [['i', 'f'], ['e', 'a', 'c', 'h'], ['a', 's'], ['f', 'o', 'r'], ['i', 'n']],
      Ends w ∧ Tame w := by
    intro w member
    obtain ⟨nonempty, all⟩ := literal w member
    have each : ∀ c ∈ w, isBlank c = false ∧ c ∉ ['\x7b', '\x7d', '<', '%'] := by simpa using all
    exact ⟨endsAll nonempty fun c here => (each c here).1, fun c here => (each c here).2⟩
  have named : ∀ w : List Char, isName w = true → Ends w ∧ Tame w := fun w name =>
    ⟨nameEnds name, looseTame (nameWord name).2⟩
  have phrase : ∀ first more, (∀ w ∈ first :: more, Ends w ∧ Tame w) →
      Ends (spaced first more) ∧ Tame (spaced first more) := fun first more each =>
    ⟨spacedEnds (each first List.mem_cons_self).1 fun w member =>
        (each w (List.mem_cons_of_mem first member)).1,
      spacedTame (each first List.mem_cons_self).2 fun w member =>
        (each w (List.mem_cons_of_mem first member)).2⟩
  cases header with
  | cond c =>
    refine phrase _ _ fun w member => ?_
    simp only [List.mem_cons, List.not_mem_nil, or_false] at member
    rcases member with rfl | rfl
    · exact word _ (by decide)
    · exact named _ sound
  | each target binder =>
    obtain ⟨name, nonempty, inside⟩ := sound
    have bound : Ends binder.toList ∧ Tame binder.toList :=
      ⟨endsAll nonempty fun c member => (binderLoose (inside c member)).unblank,
        looseTame fun c member => binderLoose (inside c member)⟩
    cases spelling with
    | braces =>
      refine phrase _ _ fun w member => ?_
      simp only [List.mem_cons, List.not_mem_nil, or_false] at member
      rcases member with rfl | rfl | rfl | rfl
      · exact word _ (by decide)
      · exact named _ name
      · exact word _ (by decide)
      · exact bound
    | percent =>
      refine phrase _ _ fun w member => ?_
      simp only [List.mem_cons, List.not_mem_nil, or_false] at member
      rcases member with rfl | rfl | rfl | rfl
      · exact word _ (by decide)
      · exact bound
      · exact word _ (by decide)
      · exact named _ name

theorem phraseBlockHeader {header : Header} (sound : header.Sound) :
    blockHeader? (header.phrase .braces) = some header := by
  cases header with
  | cond c =>
    have name : isName c.toList = true := sound
    have shape : Header.phrase .braces (.cond c) = ['i', 'f'] ++ ' ' :: c.toList := by
      simp [Header.phrase, spaced]
    have whole : trim c.toList = c.toList := trimWhole (nameBegins name) (nameEnds name)
    have start : trimStart c.toList = c.toList := by
      obtain ⟨d, rest, same, unblank⟩ := nameBegins name
      simp [same, trimStart, unblank]
    have cut := cutAtBlanksWord (w := ['i', 'f']) (eachOf rfl) c.toList
    have full : c.toList.isEmpty = false := by simpa using (nameWord name).1
    rw [shape]
    simp only [blockHeader?, cut, start, whole, full, ifChars, Bool.false_eq_true, if_false,
      if_true, String.ofList_toList]
  | each target binder =>
    obtain ⟨name, nonempty, inside⟩ := sound
    generalize argument : spaced target.toList [['a', 's'], binder.toList] = loop
    have shape : Header.phrase .braces (.each target binder) =
        ['e', 'a', 'c', 'h'] ++ ' ' :: loop := by
      simp [Header.phrase, spaced, ← argument]
    have begins : Begins loop := by
      obtain ⟨c, rest, same, unblank⟩ := nameBegins name
      exact ⟨c, _, by rw [← argument, spaced, same]; rfl, unblank⟩
    have ends : Ends loop := by
      rw [← argument]
      refine spacedEnds (nameEnds name) fun w member => ?_
      rcases List.mem_cons.mp member with rfl | member
      · exact ⟨['a'], 's', rfl, rfl⟩
      · rw [List.mem_singleton.mp member]
        exact endsAll nonempty fun c here => (binderLoose (inside c here)).unblank
    have whole := trimWhole begins ends
    have start : trimStart loop = loop := by
      obtain ⟨c, rest, same, unblank⟩ := begins
      simp [same, trimStart, unblank]
    have cut := cutAtBlanksWord (w := ['e', 'a', 'c', 'h']) (eachOf rfl) loop
    have three : Text.words loop = [target.toList, ['a', 's'], binder.toList] := by
      rw [← argument]
      refine Text.wordsSpaced fun w member => ?_
      simp only [List.mem_cons, List.not_mem_nil, or_false] at member
      rcases member with rfl | rfl | rfl
      · exact ⟨(nameWord name).1, fun c here => ((nameWord name).2 c here).unblank⟩
      · exact ⟨by simp, eachOf rfl⟩
      · exact ⟨nonempty, fun c here => (binderLoose (inside c here)).unblank⟩
    have bars : trimChars (· = '|') binder.toList = binder.toList :=
      trimCharsNone fun c here => decide_eq_false (binderLoose (inside c here)).unbarred
    have notIf : ['e', 'a', 'c', 'h'] ≠ ['i', 'f'] := by decide
    have full : loop.isEmpty = false := by
      obtain ⟨c, rest, same, _⟩ := begins
      simp [same]
    have full' : binder.toList.isEmpty = false := by simpa using nonempty
    rw [shape]
    simp only [blockHeader?, cut, start, whole, three, bars, ifChars, eachChars, asChars, notIf,
      full, full', Bool.false_eq_true, if_false, if_true, String.ofList_toList]

theorem trimLedName {w : List Char} (name : isName w = true) : trim (' ' :: w) = w :=
  trimLed (nameBegins name) (nameEnds name)

theorem loopHeaderPhrase {binder target : String} (sound : (Header.each target binder).Sound) :
    loopHeader? ((Header.each target binder).phrase .percent) = some (.each target binder) := by
  obtain ⟨name, nonempty, inside⟩ := sound
  have shape : (Header.each target binder).phrase .percent =
      ['f', 'o', 'r'] ++ ' ' :: (binder.toList ++ ' ' :: (['i', 'n'] ++ ' ' :: target.toList)) := by
    simp [Header.phrase, spaced]
  have wordBegins : Begins (['i', 'n'] ++ ' ' :: target.toList) := ⟨'i', _, rfl, rfl⟩
  generalize after : ['i', 'n'] ++ ' ' :: target.toList = tail at shape wordBegins
  have begins : Begins (binder.toList ++ ' ' :: tail) := by
    cases same : binder.toList with
    | nil => exact absurd same nonempty
    | cons c rest =>
      have first := binderLoose (inside c (by rw [same]; exact List.mem_cons_self))
      exact ⟨c, _, rfl, first.unblank⟩
  have start := dropStartAppend ['f', 'o', 'r'] (' ' :: (binder.toList ++ ' ' :: tail))
  have space : inBinder ' ' = false := rfl
  have front : (binder.toList ++ ' ' :: tail).takeWhile inBinder = binder.toList := by
    rw [List.takeWhile_append_of_pos inside]
    simp [space]
  have back : (binder.toList ++ ' ' :: tail).dropWhile inBinder = ' ' :: tail := by
    rw [List.dropWhile_append_of_pos inside]
    simp [space]
  have word : dropStart? ['i', 'n'] tail = some (' ' :: target.toList) := by
    rw [← after]
    exact dropStartAppend _ _
  have full : binder.toList.isEmpty = false := by simpa using nonempty
  have full' : target.toList.isEmpty = false := by simpa using (nameWord name).1
  rw [shape]
  simp only [loopHeader?, forChars, inChars, start, blankWidthSpace begins, trimStartSpace begins,
    front, back, full, blankWidthSpace wordBegins, trimStartSpace wordBegins, word,
    blankWidthSpace (nameBegins name), trimLedName name, full', bind, Option.bind, Nat.one_ne_zero,
    decide_false, Bool.or_false, Bool.false_eq_true, if_false, String.ofList_toList]

theorem phraseStatement {header : Header} (sound : header.Sound) (raw : List Char) :
    statementMeaning (header.phrase .percent) raw = .opens .percent header := by
  cases header with
  | cond c =>
    have name : isName c.toList = true := sound
    have shape : Header.phrase .percent (.cond c) = ['i', 'f'] ++ ' ' :: c.toList := by
      simp [Header.phrase, spaced]
    have start := dropStartAppend ['i', 'f'] (' ' :: c.toList)
    have space : isWord ' ' = false := rfl
    have other : ' ' ≠ '.' ∧ ' ' ≠ '$' ∧ ' ' ≠ '@' := by decide
    have word : keyword? ['i', 'f'] (['i', 'f'] ++ ' ' :: c.toList) = some (' ' :: c.toList) := by
      simp only [keyword?, start, space, other, decide_false, Bool.or_false, Bool.false_eq_true,
        if_false]
    have noBracket : (' ' :: c.toList).filter (fun d => !isBracket d) = ' ' :: c.toList := by
      refine List.filter_eq_self.mpr fun d member => ?_
      rcases List.mem_cons.mp member with rfl | inside
      · rfl
      · have inside := (nameChars name).2 d inside
        have opening : d ≠ '(' := unlike inside rfl
        have closing : d ≠ ')' := unlike inside rfl
        simp [isBracket, opening, closing]
    have full : c.toList.isEmpty = false := by simpa using (nameWord name).1
    rw [shape]
    simp only [statementMeaning, ifChars, word, noBracket, trimLedName name, full,
      Bool.false_eq_true, if_false, String.ofList_toList]
  | each target binder =>
    have loop := loopHeaderPhrase sound
    have noCond : keyword? ['i', 'f'] ((Header.each target binder).phrase .percent) = none := by
      have other : dropStart? ['i', 'f'] ((Header.each target binder).phrase .percent) = none :=
        dropStartOther (by decide) _ _
      simp only [keyword?, other]
    simp only [statementMeaning, ifChars, noCond, loop]

theorem percentMeaningStatement {c d : Char} {rest inside more : List Char}
    (same : inside = c :: rest) (plain : c ∉ ['#', '=', '-']) (trimmed : trim inside = d :: more)
    (raw : List Char) : percentMeaning inside raw = statementMeaning (d :: more) raw := by
  simp only [List.mem_cons, List.not_mem_nil, or_false, not_or] at plain
  obtain ⟨noComment, noOutput, noRaw⟩ := plain
  unfold percentMeaning
  split
  · exact absurd (List.cons.inj same).1.symm noComment
  · exact absurd (List.cons.inj same).1.symm noOutput
  · exact absurd (List.cons.inj same).1.symm noRaw
  · rw [trimmed]

theorem phraseOpens {header : Header} (sound : header.Sound) (raw : List Char) :
    bracesMeaning false ('#' :: header.phrase .braces) raw = .opens .braces header ∧
      percentMeaning (' ' :: header.phrase .percent ++ [' ']) raw = .opens .percent header := by
  have unblank : ∀ d ∈ ['i', 'e', 'f'], isBlank d = false := eachOf rfl
  have begins : ∀ spelling, Begins (header.phrase spelling) := fun spelling => by
    obtain ⟨c, rest, same, letter, _⟩ := phraseBegins spelling header
    exact ⟨c, rest, same, unblank c letter⟩
  have ends := fun spelling => (phraseEndsTame spelling sound).1
  constructor
  · have trimmed : trim ('#' :: header.phrase .braces) = '#' :: header.phrase .braces :=
      trimWhole ⟨'#', _, rfl, rfl⟩ (endsAppend (s := ['#']) (ends .braces))
    rw [bracesMeaning, trimmed]
    simp only [trimWhole (begins .braces) (ends .braces), phraseBlockHeader sound]
  · obtain ⟨c, rest, same, _⟩ := phraseBegins .percent header
    have trimmed := trimBlanks (begins .percent) (ends .percent)
    rw [same] at trimmed
    have statement := percentMeaningStatement (List.cons_append ..) (by decide) trimmed raw
    rw [same, statement, ← same]
    exact phraseStatement sound raw

theorem readsOpener (spelling : Spelling) {header : Header} (sound : header.Sound)
    (t : List Char) : Reads (header.opener spelling) t (.opens spelling header) := by
  have tame := (phraseEndsTame spelling sound).2
  cases spelling with
  | braces =>
    have mark := readsBraces (tameAppend (tameOne (c := '#') (by decide)) tame)
      (leadsFirst rfl _) (by decide) (by simp) t
    rw [List.singleton_append, (phraseOpens sound _).1] at mark
    exact mark
  | percent =>
    obtain ⟨c, rest, same, letter, noE⟩ := phraseBegins .percent header
    have leads : Leads (' ' :: header.phrase .percent ++ [' ']) c := by
      rw [same]
      exact leadsSpace (eachOf (p := (isBlank · = false)) rfl c letter) _
    have mark := readsPercent (tameSpaces tame) leads (noE rfl) t
    rw [(phraseOpens sound _).2] at mark
    exact mark

theorem setPropNew {α : Type} {props : List (String × α)} {key : String}
    (new : key ∉ props.map Prod.fst) (value : α) :
    setProp props key value = props ++ [(key, value)] := by
  induction props with
  | nil => rfl
  | cons e props ih =>
    obtain ⟨other, new⟩ : key ≠ e.1 ∧ key ∉ props.map Prod.fst := by simpa using new
    simp [setProp, Ne.symm other, ih new]

def entryChars (e : String × String) : List Char := e.1.toList ++ '=' :: e.2.toList

theorem entryWord {props : List (String × String)} (sound : SoundEntries props) :
    ∀ w ∈ props.map entryChars, Word w := by
  intro w member
  obtain ⟨e, inside, rfl⟩ := List.mem_map.mp member
  have key := nameIsWord (sound.keys e inside)
  have value := argumentWord (sound.values e inside)
  have equals : Word ['='] := looseWord (by simp) fun c here => by
    rw [List.mem_singleton.mp here]
    exact ⟨by decide, rfl, by decide, by decide⟩
  have shape : entryChars e = e.1.toList ++ (['='] ++ e.2.toList) := rfl
  rw [shape]
  exact ⟨endsAppend (endsAppend value.ends),
    solidAppend key.solid (solidAppend equals.solid value.solid),
    barlessAppend key.barless (barlessAppend equals.barless value.barless),
    tameAppend key.tame (tameAppend equals.tame value.tame)⟩

theorem foldEntries {step : List (String × String) → List Char → List (String × String)}
    {props : List (String × String)}
    (each : ∀ e ∈ props, ∀ before, step before (entryChars e) = setProp before e.1 e.2)
    (before : List (String × String)) (distinct : ((before ++ props).map Prod.fst).Nodup) :
    (props.map entryChars).foldl step before = before ++ props := by
  induction props generalizing before with
  | nil => simp
  | cons e props ih =>
    have new : e.1 ∉ before.map Prod.fst := by
      rw [List.map_append, List.map_cons] at distinct
      exact fun member => (List.nodup_append.mp distinct).2.2 _ member _ List.mem_cons_self rfl
    have more := ih (fun d member => each d (List.mem_cons_of_mem e member)) (before ++ [e])
      (by simpa using distinct)
    rw [List.map_cons, List.foldl_cons, each e List.mem_cons_self, setPropNew new, more]
    simp

theorem embedPropsEntries {props : List (String × String)} (sound : SoundEntries props) :
    embedProps (props.map entryChars) = props := by
  refine foldEntries (fun e member before => ?_) [] sound.distinct
  have name := sound.keys e member
  have noEquals : '=' ∉ e.1.toList := fun inside =>
    absurd ((nameChars name).2 _ inside) (by decide)
  have found : cutChar '=' (entryChars e) = (e.1.toList, some e.2.toList) := cutCharAt noEquals _
  rw [found]
  cases same : e.1.toList with
  | nil => exact absurd same (nameChars name).1
  | cons c rest =>
    dsimp only
    rw [← same, String.ofList_toList, String.ofList_toList]

theorem unquoteName {w : List Char} (h : isName w = true) : unquote w = w := by
  obtain ⟨nonempty, loose⟩ := nameWord h
  match w with
  | [] => rfl
  | [c] => rfl
  | c :: d :: rest =>
    have unquoted := (loose c List.mem_cons_self).unquoted
    simp [unquote, inside?, unquoted]

theorem entriesTame {name : String} {props : List (String × String)}
    (sound : isName name.toList = true) (entries : SoundEntries props) :
    Tame (spaced name.toList (props.map entryChars)) :=
  spacedTame (nameIsWord sound).tame fun w member => (entryWord entries w member).tame

theorem readsEmbed {name : String} {props : List (String × String)}
    (sound : isName name.toList = true) (entries : SoundEntries props) (t : List Char) :
    Reads (Written.embedTag name props) t (.embed name props) := by
  have head := nameIsWord sound
  have each := entryWord entries
  generalize written : spaced name.toList (props.map entryChars) = content
  have begins : Begins content := by
    obtain ⟨c, rest, same, unblank⟩ := nameBegins sound
    exact ⟨c, _, by rw [← written, spaced, same]; rfl, unblank⟩
  have ends : Ends content := by
    rw [← written]
    exact spacedEnds head.ends fun w member => (each w member).ends
  have tame : Tame content := by
    rw [← written]
    exact entriesTame sound entries
  have inside : Tame ('>' :: (' ' :: content ++ [' '])) :=
    tameAppend (tameOne (c := '>') (by decide)) (tameSpaces tame)
  have trimmed : trim ('>' :: (' ' :: content ++ [' '])) = '>' :: ' ' :: content :=
    trimPadded noBlanks ⟨'>', ' ' :: content, rfl, rfl⟩ (endsAppend (s := ['>', ' ']) ends)
      oneBlank
  have content' := trimLed begins ends
  have three : Token.words content = name.toList :: props.map entryChars := by
    have found := Token.wordsSpaced head each noBlanks noBlanks
    simpa [written] using found
  have mark := readsBraces inside (leadsFirst rfl _) (by decide) (by simp) t
  have meaning : ∀ raw, bracesMeaning false ('>' :: (' ' :: content ++ [' '])) raw =
      .embed name props := by
    intro raw
    rw [bracesMeaning, trimmed]
    simp only [content', embedMeaning, three, unquoteName sound, embedPropsEntries entries,
      String.ofList_toList]
  rw [meaning] at mark
  have shape : Written.embedTag name props =
      '\x7b' :: '\x7b' :: ('>' :: (' ' :: content ++ [' ']) ++ ['\x7d', '\x7d']) := by
    rw [← written]
    rfl
  rw [shape]
  exact mark

theorem wordOfArguments {args : List String} (h : ∀ a ∈ args, Argument a.toList) :
    ∀ w ∈ args.map String.toList, Word w := by
  intro w member
  obtain ⟨a, inside, rfl⟩ := List.mem_map.mp member
  exact argumentWord (h a inside)

theorem noArguments : ∀ a ∈ ([] : List String), Argument a.toList := by simp

theorem expressionEndsTame {first : String} {args : List String} {filters : List FilterCall}
    (name : isName first.toList = true) (arguments : ∀ a ∈ args, Argument a.toList)
    (calls : ∀ f ∈ filters, f.Sound) :
    Ends (Written.expression first args filters) ∧
      Tame (Written.expression first args filters) := by
  have phrase : ∀ {head : String} {args : List String}, isName head.toList = true →
      (∀ a ∈ args, Argument a.toList) → Ends (spaced head.toList (args.map String.toList)) ∧
        Tame (spaced head.toList (args.map String.toList)) := fun name arguments =>
    ⟨spacedEnds (nameIsWord name).ends fun w member => (wordOfArguments arguments w member).ends,
      spacedTame (nameIsWord name).tame fun w member => (wordOfArguments arguments w member).tame⟩
  have stages : ∀ s ∈ filters.map FilterCall.written, Ends s ∧ Tame s := by
    intro s member
    obtain ⟨f, inside, rfl⟩ := List.mem_map.mp member
    exact phrase (calls f inside).1 (calls f inside).2
  have head := phrase name arguments
  exact ⟨pipedEnds head.1 fun s member => (stages s member).1,
    pipedTame head.2 fun s member => (stages s member).2⟩

theorem expressionBegins {first : String} (args : List String) (filters : List FilterCall)
    (name : isName first.toList = true) :
    ∃ c rest, Written.expression first args filters = c :: rest ∧ startsName c = true := by
  cases same : first.toList with
  | nil => exact absurd same (nameChars name).1
  | cons c rest =>
    rw [same] at name
    have starts : startsName c = true := (Bool.and_eq_true_iff.mp name).1
    exact ⟨c, _, by rw [Written.expression, piped, spaced, same]; rfl, starts⟩

theorem pipedStagesCons (first : List Char) (more : List (List Char)) :
    ∃ pad, (∀ c ∈ pad, isBlank c = true) ∧
      pipedStages first more = (first ++ pad) :: (pipedStages first more).tail := by
  cases more with
  | nil => exact ⟨[], by simp, by simp [pipedStages]⟩
  | cons next more => exact ⟨[' '], oneBlank, rfl⟩

theorem filterWords {f : FilterCall} (sound : f.Sound) {lead pad : List Char}
    (before : ∀ c ∈ lead, isBlank c = true) (after : ∀ c ∈ pad, isBlank c = true) :
    Token.words (lead ++ f.written ++ pad) = f.name.toList :: f.args.map String.toList := by
  exact Token.wordsSpaced (nameIsWord sound.1) (wordOfArguments sound.2) before after

/- The stages after the first are the filters, for any reader of stages that reads a filter from its
words. -/
theorem filtersPiped {read : List Char → Option FilterCall} {filters : List FilterCall}
    (reads : ∀ f ∈ filters, ∀ pad, (∀ c ∈ pad, isBlank c = true) →
      read ([' '] ++ f.written ++ pad) = some f) (first : List Char) :
    (pipedStages first (filters.map FilterCall.written)).tail.filterMap read = filters := by
  induction filters generalizing first with
  | nil => rfl
  | cons f filters ih =>
    have more := ih (fun g member => reads g (List.mem_cons_of_mem f member)) (' ' :: f.written)
    obtain ⟨pad, blank, shape⟩ :=
      pipedStagesCons (' ' :: f.written) (filters.map FilterCall.written)
    have head := reads f List.mem_cons_self pad blank
    rw [List.map_cons, pipedStages, List.tail_cons, shape, List.filterMap_cons]
    simp only [List.cons_append, List.nil_append] at head ⊢
    rw [head, more]

theorem ofExpressionWritten (pos : Position) (escape : Bool) {first : String}
    {args : List String} {filters : List FilterCall} (name : isName first.toList = true)
    (arguments : ∀ a ∈ args, Argument a.toList) (calls : ∀ f ∈ filters, f.Sound) :
    Node.ofExpression pos escape (Written.expression first args filters) =
      if args.isEmpty then .lookup pos first escape filters
      else .call pos first args escape filters := by
  have head := nameIsWord name
  have each := wordOfArguments arguments
  have barless : ∀ s ∈ filters.map FilterCall.written, Barless s := by
    intro s member
    obtain ⟨f, inside, rfl⟩ := List.mem_map.mp member
    exact spacedBarless (nameIsWord (calls f inside).1) (wordOfArguments (calls f inside).2)
  have parts := stagesPiped (spacedBarless head each) barless
  obtain ⟨pad, blank, shape⟩ :=
    pipedStagesCons (spaced first.toList (args.map String.toList)) (filters.map FilterCall.written)
  have tail := fun read reads => @filtersPiped read filters reads
    (spaced first.toList (args.map String.toList))
  have front := Token.wordsSpaced head each noBlanks blank
  unfold Node.ofExpression Written.expression
  simp only [parts]
  rw [shape]
  simp only [List.headD_cons, List.tail_cons]
  rw [tail]
  · simp only [List.nil_append] at front
    rw [front]
    cases args with
    | nil =>
      have trimmed : trim (spaced first.toList [] ++ pad) = first.toList := by
        have padded := trimPadded noBlanks (nameBegins name) head.ends blank
        simpa [spaced] using padded
      simp [trimmed]
    | cons a args => simp [name]
  · intro f member pad blank
    rw [filterWords (calls f member) oneBlank blank]
    simp
end Medley.Mark

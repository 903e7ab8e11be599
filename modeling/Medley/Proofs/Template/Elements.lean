import Medley.Proofs.Template.Marks

/-! The tags of written forms. An opening tag is read with its attributes, and the search for the
closing tag of an element passes over whatever is written inside it: tags of other names are not
taken for it, and tags of the same name open and close in pairs. -/
namespace Medley.Tag
open Text Mark Token Written

theorem keyStarts {c : Char} (h : startsAttribute c = true) : inAttribute c = true := by
  simp only [startsAttribute, Bool.or_eq_true, decide_eq_true_eq] at h
  simp only [inAttribute, Bool.or_eq_true, decide_eq_true_eq]
  rcases h with (((letter | rfl) | rfl) | rfl) | rfl
  · exact .inl (.inl (.inl (.inl (.inl (letterWord letter)))))
  all_goals decide

theorem keyChar {c : Char} (h : inAttribute c = true) :
    c ≠ '/' ∧ c ≠ '>' ∧ c ≠ '<' ∧ c ≠ '=' ∧ isBlank c = false := by
  refine ⟨unlike h rfl, unlike h rfl, unlike h rfl, unlike h rfl, ?_⟩
  simp only [inAttribute, Bool.or_eq_true, decide_eq_true_eq] at h
  rcases h with ((((word | rfl) | rfl) | rfl) | rfl) | rfl
  · exact wordNoBlank word
  all_goals rfl

/- What follows a key: it neither goes on with the key nor gives it a value. -/
structure After (s : List Char) : Prop where
  ends : ∀ c ∈ s.head?, inAttribute c = false
  plain : ∀ c ∈ (trimStart s).head?, c ≠ '='

theorem attributeEndPlain {s : List Char} (h : After s) : attributeEnd s = (.bool true, s) := by
  unfold attributeEnd
  split
  · rename_i same
    exact absurd rfl (h.plain '=' (by simp [same]))
  · rfl

theorem attributeEndQuotes {value : List Char} (h : ∀ c ∈ value, c ≠ '"') (s : List Char) :
    attributeEnd ('=' :: inQuotes value ++ s) = (.text (String.ofList value), s) := by
  have absent : '"' ∉ value := fun member => h _ member rfl
  have found : cut ['"'] (value ++ ['"'] ++ s) = some (value, s) := by
    simpa using cutAt absent [] s
  have first : trimStart ('=' :: inQuotes value ++ s) = '=' :: (inQuotes value ++ s) := rfl
  have second : trimStart (inQuotes value ++ s) = '"' :: (value ++ ['"'] ++ s) := rfl
  rw [attributeEnd, first]
  simp only [second, attributeValue?, found]

theorem afterEnding (closed : Bool) (s : List Char) : After (ending closed ++ s) := by
  cases closed <;> exact ⟨fun c member => by cases member; decide, fun c member => by
    cases member; decide⟩

theorem afterProperty {e : String × Value} (sound : SoundProp e) (s : List Char) :
    After (property e ++ s) := by
  obtain ⟨c, rest, same, starts, inside⟩ := sound.key
  obtain ⟨_, _, _, noEquals, unblank⟩ := keyChar (keyStarts starts)
  have shape : ∃ more, property e ++ s = ' ' :: c :: more := by
    obtain ⟨key, value⟩ := e
    cases value <;> simp_all [property]
  obtain ⟨more, shape⟩ := shape
  rw [shape]
  refine ⟨fun d member => ?_, fun d member => ?_⟩
  · cases member
    rfl
  · rw [trimStartSpace ⟨c, more, rfl, unblank⟩] at member
    cases member
    exact noEquals

theorem propertyShape {e : String × Value} (sound : SoundProp e) {c : Char} {rest : List Char}
    (same : e.1.toList = c :: rest) {s : List Char} (after : After s) :
    ∃ more, property e ++ s = ' ' :: c :: (rest ++ more) ∧
      (∀ d ∈ more.head?, inAttribute d = false) ∧ attributeEnd more = (e.2, s) := by
  obtain ⟨key, value⟩ := e
  rcases sound.value with plain | ⟨content, text, unquoted⟩
  · cases plain
    refine ⟨s, ?_, after.ends, attributeEndPlain after⟩
    simp_all [property]
  · cases text
    refine ⟨'=' :: inQuotes content.toList ++ s, ?_, ?_, ?_⟩
    · simp_all [property]
    · intro d member
      cases member
      rfl
    · rw [attributeEndQuotes fun d member => (unquoted d member).1, String.ofList_toList]

theorem attributesProperty (name : String) (acc : List (String × Value)) {e : String × Value}
    (sound : SoundProp e) (first : Bool) {s : List Char} (after : After s) :
    attributesFrom name acc first (property e ++ s) =
      attributesFrom name (setProp acc e.1 e.2) false s := by
  obtain ⟨c, rest, same, starts, inside⟩ := sound.key
  obtain ⟨noSlash, noAngle, _, _, unblank⟩ := keyChar (keyStarts starts)
  obtain ⟨more, shape, ends, read⟩ := propertyShape sound same after
  obtain ⟨taken, dropped⟩ := runEnds inside ends
  have start : trimStart (property e ++ s) = c :: (rest ++ more) := by
    rw [shape, trimStartSpace ⟨c, rest ++ more, rfl, unblank⟩]
  have lead : (property e ++ s).head?.any isBlank = true := by
    rw [shape]
    exact blankSpace
  have key : String.ofList (c :: rest) = e.1 := by rw [← same, String.ofList_toList]
  rw [attributesFrom]
  split
  · rename_i closes
    rw [start] at closes
    exact absurd (List.cons.inj closes).1 noSlash
  · rename_i closes
    rw [start] at closes
    exact absurd (List.cons.inj closes).1 noAngle
  · rename_i d tail _ _ found
    rw [start] at found
    obtain ⟨rfl, rfl⟩ := List.cons.inj found
    simp only [lead, starts, taken, dropped, read, key, Bool.not_true, Bool.and_false,
      Bool.false_eq_true, if_false, if_true]
  · rename_i absent
    rw [start] at absent
    exact absurd absent (by simp)

theorem attributesEnding (name : String) (props : List (String × Value)) (first closed : Bool)
    (s : List Char) :
    attributesFrom name props first (ending closed ++ s) = some ⟨name, props, closed, s⟩ := by
  cases closed with
  | true =>
    have start : trimStart ('/' :: '>' :: s) = '/' :: '>' :: s := rfl
    rw [ending, if_pos rfl, List.cons_append, List.cons_append, List.nil_append, attributesFrom]
    split <;> simp_all
  | false =>
    have start : trimStart ('>' :: s) = '>' :: s := rfl
    simp only [ending, Bool.false_eq_true, if_false, List.cons_append, List.nil_append]
    rw [attributesFrom]
    split <;> simp_all

theorem afterProps {props : List (String × Value)} (each : ∀ e ∈ props, SoundProp e)
    (closed : Bool) (s : List Char) : After (props.flatMap property ++ (ending closed ++ s)) := by
  cases props with
  | nil => exact afterEnding closed s
  | cons e props =>
    rw [List.flatMap_cons, List.append_assoc]
    exact afterProperty (each e List.mem_cons_self) _

theorem attributesWritten (name : String) {props : List (String × Value)}
    (each : ∀ e ∈ props, SoundProp e) (acc : List (String × Value))
    (distinct : ((acc ++ props).map Prod.fst).Nodup) (first closed : Bool) (s : List Char) :
    attributesFrom name acc first (props.flatMap property ++ (ending closed ++ s)) =
      some ⟨name, acc ++ props, closed, s⟩ := by
  induction props generalizing acc first with
  | nil => simpa using attributesEnding name acc first closed s
  | cons e props ih =>
    have more : ∀ d ∈ props, SoundProp d := fun d member => each d (List.mem_cons_of_mem e member)
    have new : e.1 ∉ acc.map Prod.fst := by
      rw [List.map_append, List.map_cons] at distinct
      exact fun member => (List.nodup_append.mp distinct).2.2 _ member _ List.mem_cons_self rfl
    have rest := ih more (acc ++ [e]) (by simpa using distinct) false
    rw [List.flatMap_cons, List.append_assoc,
      attributesProperty name acc (each e List.mem_cons_self) first (afterProps more closed s),
      setPropNew new, rest]
    simp

theorem tagChars {name : String} (sound : SoundTag name) :
    ∀ c ∈ name.toList, inTagName c = true := by
  obtain ⟨c, rest, same, upper, inside⟩ := sound
  rw [same]
  intro d member
  rcases List.mem_cons.mp member with rfl | here
  · have letter : isAsciiLetter d = true := by
      simp only [isAsciiLetter, Bool.or_eq_true]
      exact .inr upper
    simp [inTagName, letterWord letter]
  · exact inside d here

theorem tagKey {c : Char} (h : inTagName c = true) : inAttribute c = true := by
  simp only [inTagName, Bool.or_eq_true, decide_eq_true_eq] at h
  rcases h with word | rfl
  · simp [inAttribute, word]
  · rfl

theorem headEnds (props : List (String × Value)) (closed : Bool) (s : List Char) :
    ∃ c t, props.flatMap property ++ (ending closed ++ s) = c :: t ∧ c ∈ [' ', '/', '>'] := by
  cases props with
  | nil => cases closed <;> exact ⟨_, _, rfl, by decide⟩
  | cons e props =>
    obtain ⟨key, value⟩ := e
    cases value <;> exact ⟨' ', _, rfl, by decide⟩

theorem nameEnds (props : List (String × Value)) (closed : Bool) (s : List Char) :
    ∀ d ∈ (props.flatMap property ++ (ending closed ++ s)).head?, inTagName d = false := by
  obtain ⟨c, t, same, first⟩ := headEnds props closed s
  have each : ∀ d ∈ [' ', '/', '>'], inTagName d = false := eachOf rfl
  intro d member
  rw [same] at member
  cases member
  exact each c first

theorem openingWritten {name : String} (tag : SoundTag name) {props : List (String × Value)}
    (sound : SoundProps props) (closed : Bool) (s : List Char) :
    opening? (elementStart name props closed ++ s) = some ⟨name, props, closed, s⟩ := by
  obtain ⟨c, rest, same, upper, inside⟩ := tag
  obtain ⟨taken, dropped⟩ := runEnds inside (nameEnds props closed s)
  have shape : elementStart name props closed ++ s =
      '<' :: c :: (rest ++ (props.flatMap property ++ (ending closed ++ s))) := by
    simp [elementStart, same]
  have whole : String.ofList (c :: rest) = name := by rw [← same, String.ofList_toList]
  rw [shape]
  simp only [opening?, upper, if_true, taken, dropped, whole]
  exact attributesWritten name sound.each [] sound.distinct true closed s

theorem closeSkip (name : List Char) (depth passed : Nat) (w s : List Char) :
    closeFrom name depth passed w.length (w ++ s) =
      closeFrom name depth (passed + w.length) 0 s := by
  induction w generalizing passed with
  | nil => rfl
  | cons c w ih =>
    have more := ih (passed + 1)
    rw [List.length_cons, List.cons_append, closeFrom, more]
    congr 1
    omega

theorem closeOther {name : List Char} {c : Char} {s : List Char}
    (noEnd : closingWidth? name (c :: s) = none) (noStart : opensSame name (c :: s) = false)
    (depth passed : Nat) :
    closeFrom name depth passed 0 (c :: s) = closeFrom name depth (passed + 1) 0 s := by
  rw [closeFrom, noEnd, noStart]
  simp

theorem noEnd {name s : List Char} (h : dropStart? ('<' :: '/' :: name) s = none) :
    closingWidth? name s = none := by
  simp only [closingWidth?, h, bind, Option.bind]

theorem noStart {name s : List Char} (h : dropStart? ('<' :: name) s = none) :
    opensSame name s = false := by
  simp only [opensSame, h]

/-- The search passes over it and is as deep after it as before. -/
def Passed (name w : List Char) : Prop := ∀ depth passed s,
  closeFrom name depth passed 0 (w ++ s) = closeFrom name depth (passed + w.length) 0 s

theorem passedAppend {name v w : List Char} (first : Passed name v) (second : Passed name w) :
    Passed name (v ++ w) := by
  intro depth passed s
  rw [List.append_assoc, first, second, List.length_append, Nat.add_assoc]

theorem passedPlain (name : List Char) {w : List Char} (plain : ∀ c ∈ w, c ≠ '<') :
    Passed name w := by
  induction w with
  | nil => intro depth passed s; rfl
  | cons c w ih =>
    have other := plain c List.mem_cons_self
    have more := ih fun d member => plain d (List.mem_cons_of_mem c member)
    intro depth passed s
    have ends := noEnd (dropStartOther (Ne.symm other) ('/' :: name) (w ++ s))
    have starts := noStart (dropStartOther (Ne.symm other) name (w ++ s))
    rw [List.cons_append, closeOther ends starts, more, List.length_cons]
    congr 1
    omega

theorem dropStartCons (c : Char) (s t : List Char) :
    dropStart? (c :: s) (c :: t) = dropStart? s t := by
  simp [dropStart?]

theorem passedAngle {name : List Char} {c d : Char} {more w : List Char} (same : name = d :: more)
    (noSlash : c ≠ '/') (other : c ≠ d) (plain : ∀ e ∈ c :: w, e ≠ '<') :
    Passed name ('<' :: c :: w) := by
  intro depth passed s
  have ends : closingWidth? name ('<' :: (c :: w ++ s)) = none := noEnd (by
    rw [dropStartCons]
    exact dropStartOther (Ne.symm noSlash) _ _)
  have starts : opensSame name ('<' :: (c :: w ++ s)) = false := noStart (by
    rw [dropStartCons, same]
    exact dropStartOther (Ne.symm other) _ _)
  rw [List.cons_append, closeOther ends starts, passedPlain name plain, List.length_cons (a := '<')]
  congr 1
  omega

theorem dropStartName {name other : String} (tag : SoundTag name) (tag' : SoundTag other)
    (apart : name ≠ other) {s r : List Char} (ends : ∀ c ∈ s.head?, inTagName c = false)
    (found : dropStart? name.toList (other.toList ++ s) = some r) :
    ∃ c t, r = c :: t ∧ inTagName c = true := by
  have split : name.toList ++ r = other.toList ++ s := (dropStartSome found).symm
  by_contra absent
  have stops : ∀ c ∈ r.head?, inTagName c = false := by
    intro c member
    cases more : inTagName c with
    | false => rfl
    | true =>
      cases r with
      | nil => contradiction
      | cons d r =>
        cases member
        exact absurd ⟨c, r, rfl, more⟩ absent
  have first := (runEnds (tagChars tag) stops).1
  rw [split, (runEnds (tagChars tag') ends).1] at first
  exact apart (String.toList_injective first.symm)

theorem nameApart {c : Char} (h : inTagName c = true) :
    isBlank c = false ∧ c ≠ '/' ∧ c ≠ '>' ∧ c ≠ '<' := by
  obtain ⟨noSlash, noEnd, noAngle, _, unblank⟩ := keyChar (tagKey h)
  exact ⟨unblank, noSlash, noEnd, noAngle⟩

theorem propertyPlain {e : String × Value} (sound : SoundProp e) : ∀ c ∈ property e, c ≠ '<' := by
  obtain ⟨d, rest, same, starts, inside⟩ := sound.key
  have key : ∀ c ∈ e.1.toList, c ≠ '<' := by
    intro c member
    rw [same] at member
    rcases List.mem_cons.mp member with rfl | here
    · exact (keyChar (keyStarts starts)).2.2.1
    · exact (keyChar (inside c here)).2.2.1
  obtain ⟨k, value⟩ := e
  intro c member
  rcases sound.value with plain | ⟨content, text, unquoted⟩
  · cases plain
    rcases List.mem_cons.mp member with rfl | here
    · decide
    · exact key c here
  · cases text
    simp only [property, inQuotes, List.mem_append, List.mem_cons, List.not_mem_nil,
      or_false] at member
    rcases member with (rfl | here) | rfl | rfl | here | rfl
    · decide
    · exact key c here
    · decide
    · decide
    · exact (unquoted c here).2
    · decide

theorem startPlain {name : String} (tag : SoundTag name) {props : List (String × Value)}
    (sound : SoundProps props) (closed : Bool) :
    ∀ c ∈ name.toList ++ (props.flatMap property ++ ending closed), c ≠ '<' := by
  intro c member
  rcases List.mem_append.mp member with here | here
  · exact (nameApart (tagChars tag c here)).2.2.2
  · rcases List.mem_append.mp here with here | here
    · obtain ⟨e, inside, here⟩ := List.mem_flatMap.mp here
      exact propertyPlain (sound.each e inside) c here
    · have each : ∀ d ∈ ending closed, d ≠ '<' := by cases closed <;> exact eachOf rfl
      exact each c here

theorem startShape (name : String) (props : List (String × Value)) (closed : Bool)
    (s : List Char) : elementStart name props closed ++ s =
      '<' :: (name.toList ++ (props.flatMap property ++ (ending closed ++ s))) := by
  simp [elementStart]

theorem startNoEnd (name : List Char) {other : String} (tag : SoundTag other)
    (props : List (String × Value)) (closed : Bool) (s : List Char) :
    closingWidth? name (elementStart other props closed ++ s) = none := by
  obtain ⟨c, rest, same, upper, _⟩ := tag
  have noSlash : c ≠ '/' := unlike upper rfl
  refine noEnd ?_
  rw [startShape, dropStartCons, same]
  exact dropStartOther (Ne.symm noSlash) _ _

theorem passedOtherStart {name other : String} (tag : SoundTag name) (tag' : SoundTag other)
    (apart : name ≠ other) {props : List (String × Value)} (sound : SoundProps props)
    (closed : Bool) : Passed name.toList (elementStart other props closed) := by
  intro depth passed s
  have shape := startShape other props closed s
  have ends := startNoEnd name.toList tag' props closed s
  have starts : opensSame name.toList (elementStart other props closed ++ s) = false := by
    unfold opensSame
    rw [shape, dropStartCons]
    split
    · rename_i found
      obtain ⟨_, _, same, more⟩ := dropStartName tag tag' apart (nameEnds props closed s) found
      cases same
      obtain ⟨unblank, noSlash, noAngle, _⟩ := nameApart more
      simp [unblank, noSlash, noAngle]
    · rfl
  rw [shape] at ends starts ⊢
  rw [closeOther ends starts]
  have rest := passedPlain name.toList (startPlain tag' sound closed) depth (passed + 1) s
  simp only [List.append_assoc] at rest
  rw [rest]
  congr 1
  simp only [elementStart, List.length_append, List.length_cons]
  omega

theorem passedOtherEnd {name other : String} (tag : SoundTag name) (tag' : SoundTag other)
    (apart : name ≠ other) : Passed name.toList (elementEnd other) := by
  intro depth passed s
  have shape : elementEnd other ++ s = '<' :: '/' :: (other.toList ++ '>' :: s) := by
    simp [elementEnd]
  have ends : closingWidth? name.toList (elementEnd other ++ s) = none := by
    unfold closingWidth?
    rw [shape, dropStartCons, dropStartCons]
    cases found : dropStart? name.toList (other.toList ++ '>' :: s) with
    | none => rfl
    | some r =>
      have stops : ∀ c ∈ ('>' :: s).head?, inTagName c = false := by
        intro c member
        cases member
        rfl
      obtain ⟨c, t, rfl, more⟩ := dropStartName tag tag' apart stops found
      obtain ⟨unblank, _, noAngle, _⟩ := nameApart more
      have start : trimStart (c :: t) = c :: t := by simp [trimStart, unblank]
      simp [start, noAngle]
  have starts : opensSame name.toList (elementEnd other ++ s) = false := by
    obtain ⟨c, rest, same, upper, _⟩ := tag
    have noSlash : c ≠ '/' := unlike upper rfl
    refine noStart ?_
    rw [shape, dropStartCons, same]
    exact dropStartOther noSlash _ _
  have plain : ∀ c ∈ '/' :: (other.toList ++ ['>']), c ≠ '<' := by
    intro c member
    rcases List.mem_cons.mp member with rfl | here
    · decide
    · rcases List.mem_append.mp here with here | here
      · exact (nameApart (tagChars tag' c here)).2.2.2
      · rw [List.mem_singleton.mp here]
        decide
  rw [shape] at ends starts ⊢
  rw [closeOther ends starts]
  have rest := passedPlain name.toList plain depth (passed + 1) s
  simp only [List.cons_append, List.append_assoc, List.nil_append] at rest
  rw [rest]
  congr 1
  simp only [elementEnd, List.length_append, List.length_cons, List.length_nil]
  omega

theorem closeSameStart {name : String} (tag : SoundTag name) {props : List (String × Value)}
    (sound : SoundProps props) (closed : Bool) (depth passed : Nat) (s : List Char) :
    closeFrom name.toList depth passed 0 (elementStart name props closed ++ s) =
      closeFrom name.toList (if closed then depth else depth + 1)
        (passed + (elementStart name props closed).length) 0 s := by
  have opened := openingWritten tag sound closed s
  generalize inner : name.toList ++ (props.flatMap property ++ ending closed) = w
  have start : elementStart name props closed = '<' :: w := by rw [← inner]; rfl
  have shape := startShape name props closed s
  have ends := startNoEnd name.toList tag props closed s
  have starts : opensSame name.toList (elementStart name props closed ++ s) = true := by
    obtain ⟨c, t, same, first⟩ := headEnds props closed s
    have each : ∀ d ∈ [' ', '/', '>'], (isBlank d || d = '/' || d = '>') = true := eachOf rfl
    have found : dropStart? ('<' :: name.toList) (elementStart name props closed ++ s) =
        some (c :: t) := by
      rw [shape, dropStartCons, same, dropStartAppend]
    simp only [opensSame, found]
    exact each c first
  rw [start, List.cons_append] at opened ends starts ⊢
  have width : (w ++ s).length - s.length = w.length := by simp
  rw [closeFrom, ends]
  simp only [starts, if_true, opened, width]
  rw [closeSkip, List.length_cons]
  congr 1
  omega

theorem endWidth (name : String) (s : List Char) :
    closingWidth? name.toList (elementEnd name ++ s) = some (name.toList.length + 3) := by
  have found : dropStart? ('<' :: '/' :: name.toList) (elementEnd name ++ s) = some ('>' :: s) := by
    have shape : elementEnd name ++ s = ('<' :: '/' :: name.toList) ++ '>' :: s := by
      simp [elementEnd]
    rw [shape]
    exact dropStartAppend _ _
  have start : trimStart ('>' :: s) = '>' :: s := rfl
  have absent : ('>' :: s).takeWhile isBlank = [] := rfl
  simp only [closingWidth?, found, start, absent, bind, Option.bind, List.length_nil, Nat.add_zero]

theorem closeSameEnd (name : String) (depth passed : Nat) (s : List Char) :
    closeFrom name.toList (depth + 1) passed 0 (elementEnd name ++ s) =
      closeFrom name.toList depth (passed + (elementEnd name).length) 0 s := by
  have ends := endWidth name s
  generalize inner : '/' :: (name.toList ++ ['>']) = w
  have shape : elementEnd name = '<' :: w := by rw [← inner]; rfl
  have width : name.toList.length + 3 - 1 = w.length := by rw [← inner]; simp
  rw [shape, List.cons_append] at ends ⊢
  rw [closeFrom, ends]
  simp only [Nat.add_one_ne_zero, if_false, Nat.add_sub_cancel]
  rw [width, closeSkip, List.length_cons]
  congr 1
  omega

theorem closeEnd (name : String) (passed : Nat) (s : List Char) :
    closeFrom name.toList 0 passed 0 (elementEnd name ++ s) =
      some (passed, (elementEnd name).length) := by
  have ends := endWidth name s
  have width : name.toList.length + 3 = (elementEnd name).length := by simp [elementEnd]
  have shape : elementEnd name ++ s = '<' :: ('/' :: name.toList ++ ['>'] ++ s) := by
    simp [elementEnd]
  rw [shape] at ends ⊢
  rw [closeFrom, ends]
  simp [width]

theorem passedPercent {name : String} (tag : SoundTag name) {w : List Char}
    (plain : ∀ c ∈ w, c ≠ '<') : Passed name.toList ('<' :: '%' :: w) := by
  obtain ⟨c, rest, same, upper, _⟩ := tag
  have other : '%' ≠ c := (unlike upper rfl).symm
  refine passedAngle same (by decide) other fun d member => ?_
  rcases List.mem_cons.mp member with rfl | here
  · decide
  · exact plain d here

theorem tamePlain {w : List Char} (tame : Tame w) : ∀ c ∈ w, c ≠ '<' :=
  fun c member same => tame c member (by simp [same])

theorem plainAppend {v w : List Char} (first : ∀ c ∈ v, c ≠ '<') (second : ∀ c ∈ w, c ≠ '<') :
    ∀ c ∈ v ++ w, c ≠ '<' := fun c member =>
  (List.mem_append.mp member).elim (first c) (second c)

theorem passedOpener {name : String} (tag : SoundTag name) (spelling : Spelling) {header : Header}
    (sound : header.Sound) : Passed name.toList (header.opener spelling) := by
  have plain := tamePlain (phraseEndsTame spelling sound).2
  cases spelling with
  | braces =>
    exact passedPlain _ (plainAppend (v := ['\x7b', '\x7b']) (eachOf rfl)
      (plainAppend (plainAppend (v := ['#']) (eachOf rfl) plain) (eachOf rfl)))
  | percent =>
    exact passedPercent tag
      (plainAppend (plainAppend (plainAppend (v := [' ']) (eachOf rfl) plain) (eachOf rfl))
        (eachOf rfl))

theorem passedEnder {name : String} (tag : SoundTag name) (spelling : Spelling)
    (header : Header) : Passed name.toList (header.ender spelling) := by
  cases spelling with
  | braces =>
    cases header with
    | cond =>
      exact passedPlain _ (w := ['\x7b', '\x7b', '/', 'i', 'f', '\x7d', '\x7d']) (eachOf rfl)
    | each =>
      exact passedPlain _ (w := ['\x7b', '\x7b', '/', 'e', 'a', 'c', 'h', '\x7d', '\x7d'])
        (eachOf rfl)
  | percent =>
    cases header with
    | cond =>
      exact passedPercent tag (w := [' ', 'e', 'n', 'd', 'i', 'f', ' ', '%', '>']) (eachOf rfl)
    | each =>
      exact passedPercent tag (w := [' ', 'e', 'n', 'd', 'f', 'o', 'r', ' ', '%', '>']) (eachOf rfl)

theorem passedOutput {name : String} (tag : SoundTag name) (spelling : Spelling) (escape : Bool)
    {e : List Char} (tame : Tame e) : Passed name.toList (outputTag spelling escape e) := by
  have inside : ∀ c ∈ ' ' :: e ++ [' '], c ≠ '<' := tamePlain (tameSpaces tame)
  cases spelling with
  | braces =>
    have front : ∀ c ∈ outputStart .braces escape, c ≠ '<' := by
      cases escape <;> exact eachOf rfl
    have back : ∀ c ∈ outputEnd .braces escape, c ≠ '<' := by
      cases escape <;> exact eachOf rfl
    exact passedPlain _ (plainAppend front (plainAppend inside back))
  | percent =>
    have closed := plainAppend inside (w := ['%', '>']) (eachOf rfl)
    cases escape with
    | true => exact passedPercent tag (plainAppend (v := ['=']) (eachOf rfl) closed)
    | false => exact passedPercent tag (plainAppend (v := ['-']) (eachOf rfl) closed)

theorem passedEmbed (tag : List Char) {name : String} {props : List (String × String)}
    (sound : isName name.toList = true) (entries : SoundEntries props) :
    Passed tag (embedTag name props) := by
  have inside := tamePlain (tameSpaces (entriesTame sound entries))
  exact passedPlain _ (plainAppend (v := ['\x7b', '\x7b']) (eachOf rfl)
    (plainAppend (plainAppend (v := ['>']) (eachOf rfl) inside) (eachOf rfl)))

/- An element ends what it begins, be it of that name or of another. -/
theorem passedElement {name other : String} (tag : SoundTag name) (tag' : SoundTag other)
    {props : List (String × Value)} (sound : SoundProps props) {body : List Char}
    (inside : Passed name.toList body) :
    Passed name.toList (elementStart other props false ++ (body ++ elementEnd other)) := by
  by_cases same : name = other
  · subst same
    intro depth passed s
    rw [List.append_assoc, closeSameStart tag sound, List.append_assoc]
    simp only [Bool.false_eq_true, if_false]
    rw [inside, closeSameEnd, List.length_append, List.length_append, Nat.add_assoc,
      Nat.add_assoc]
  · exact passedAppend (passedOtherStart tag tag' same sound false)
      (passedAppend inside (passedOtherEnd tag tag' same))

theorem passedWritten {name : String} (tag : SoundTag name) {ns : List (Node Value)}
    {s : List Char} (h : Written ns s) : Passed name.toList s := by
  induction h with
  | nil => intro depth passed s; rfl
  | text _ plain _ _ ih =>
    exact passedAppend (passedPlain _ fun c member => (plain c member).2) ih
  | lookup spelling sound calls _ ih =>
    have tame := (expressionEndsTame sound noArguments calls).2
    exact passedAppend (passedOutput tag spelling _ tame) ih
  | call spelling sound _ arguments calls _ ih =>
    have tame := (expressionEndsTame sound arguments calls).2
    exact passedAppend (passedOutput tag spelling _ tame) ih
  | block spelling header sound _ _ inside ih =>
    exact passedAppend (passedAppend (passedOpener tag spelling sound)
      (passedAppend inside (passedEnder tag spelling header))) ih
  | element tag' sound _ _ inside ih =>
    exact passedAppend (passedElement tag tag' sound inside) ih
  | @closed _ other props _ _ tag' sound _ ih =>
    refine passedAppend ?_ ih
    by_cases same : name = other
    · subst same
      intro depth passed s
      exact closeSameStart tag sound true depth passed s
    · exact passedOtherStart tag tag' same sound true
  | embed sound entries _ ih => exact passedAppend (passedEmbed _ sound entries) ih

theorem closePassed {name : String} {body : List Char} (h : Passed name.toList body)
    (s : List Char) :
    close? name.toList (body ++ (elementEnd name ++ s)) =
      some (body.length, (elementEnd name).length) := by
  rw [close?, h, closeEnd]
  simp

end Medley.Tag
namespace Medley.Mark
open Written

theorem elementStartPos (name : String) (props : List (String × Value)) (closed : Bool) :
    0 < (elementStart name props closed).length := Nat.succ_pos _

theorem nextTag {name : String} (tag : SoundTag name) (props : List (String × Value))
    (closed : Bool) (s : List Char) :
    next (elementStart name props closed ++ s) = tagOf (elementStart name props closed ++ s) := by
  obtain ⟨c, rest, same, upper, _⟩ := tag
  have shape : ∃ more, elementStart name props closed ++ s = '<' :: c :: more := by
    simp [elementStart, same]
  obtain ⟨more, shape⟩ := shape
  have noPercent : c ≠ '%' := Text.unlike upper rfl
  have marked : begins ('<' :: c :: more) = true := by
    simp [begins, upper]
  rw [shape, nextMarker marked]
  unfold marker
  rw [closingOther more (fun both => absurd both.1 (by decide)) fun both => noPercent both.2]
  simp [noPercent]

theorem tagOfClosed {s : List Char} {tag : Tag.Opening} (opened : Tag.opening? s = some tag)
    (closed : tag.closed = true) {width : Nat} (same : s.length - tag.rest.length = width)
    (h : 0 < width) : tagOf s = ⟨width, h, .element tag.name tag.props width 0 h⟩ := by
  subst same
  unfold tagOf
  simp only [opened, closed, h, dif_pos, if_true]

theorem tagOfOpen {s : List Char} {tag : Tag.Opening} (opened : Tag.opening? s = some tag)
    (closed : tag.closed = false) {inner closing : Nat}
    (ends : Tag.close? tag.name.toList tag.rest = some (inner, closing)) {width : Nat}
    (same : s.length - tag.rest.length = width) (h : 0 < width) :
    tagOf s = ⟨width + inner + closing, Nat.add_pos_left (Nat.add_pos_left h _) _,
      .element tag.name tag.props width inner h⟩ := by
  subst same
  unfold tagOf
  simp only [opened, closed, ends, h, dif_pos, Bool.false_eq_true, if_false]

theorem readsClosed {name : String} (tag : SoundTag name) {props : List (String × Value)}
    (sound : SoundProps props) (t : List Char) :
    Reads (elementStart name props true) t
      (.element name props (elementStart name props true).length 0 (elementStartPos ..)) := by
  have mark := tagOfClosed (Tag.openingWritten tag sound true t) rfl
    (show _ = (elementStart name props true).length by simp) (elementStartPos ..)
  rw [← nextTag tag] at mark
  exact ⟨by rw [mark], by rw [mark]⟩

theorem readsElement {name : String} (tag : SoundTag name) {props : List (String × Value)}
    (sound : SoundProps props) {body : List Char} (h : Tag.Passed name.toList body)
    (t : List Char) :
    Reads (elementStart name props false ++ (body ++ elementEnd name)) t
      (.element name props (elementStart name props false).length body.length
        (elementStartPos ..)) := by
  have shape : elementStart name props false ++ (body ++ elementEnd name) ++ t =
      elementStart name props false ++ (body ++ (elementEnd name ++ t)) := by simp
  have mark := tagOfOpen (Tag.openingWritten tag sound false (body ++ (elementEnd name ++ t))) rfl
    (Tag.closePassed h t) (show _ = (elementStart name props false).length by simp)
    (elementStartPos ..)
  rw [← nextTag tag, ← shape] at mark
  refine ⟨?_, by rw [mark]⟩
  rw [mark]
  simp only [List.length_append]
  omega

end Medley.Mark

import Mathlib.Data.List.TakeWhile
import Medley.Proofs.Engine.Refusals
import Medley.Proofs.Files.Pathname

/-! Suffixes of names. A name resolves to the path that is written by it, unless a suffix is put
behind it, which gives another path; that is so where its last part has no suffix of its own, as
where its only dot comes first or a dot comes last. -/
namespace Medley

namespace Pathname

theorem lastDot {s : List Char} (dotted : '.' ∈ s) :
    ∃ front back, s = front ++ '.' :: back ∧ '.' ∉ back := by
  obtain ⟨back, front, turned, clear⟩ := List.eq_append_cons_of_mem (List.mem_reverse.mpr dotted)
  refine ⟨front.reverse, back.reverse, ?_, by simpa using clear⟩
  rw [← List.reverse_reverse s, turned]
  simp

/-- A suffix follows the last dot of a name, which is neither its first nor its last character. -/
theorem suffixOf {p : Pathname} {front back : List Char}
    (whole : p.name.toList = front ++ '.' :: back) (clear : '.' ∉ back) :
    p.suffix = if front ≠ [] ∧ back ≠ [] then String.ofList ('.' :: back) else "" := by
  have after : (front ++ '.' :: back).reverse.takeWhile (· ≠ '.') = back.reverse := by
    rw [List.reverse_append, List.reverse_cons, List.append_assoc,
      List.takeWhile_append_of_pos, List.singleton_append, List.takeWhile_cons_of_neg,
      List.append_nil]
    · simp
    · intro c member
      have other : c ≠ '.' := fun same => clear (same ▸ List.mem_reverse.mp member)
      simpa using other
  have place : suffixPlace? (front ++ '.' :: back) =
      if front ≠ [] ∧ back ≠ [] then some front.length else none := by
    have before : (front ++ '.' :: back).length - back.length - 1 = front.length := by
      simp
      omega
    have short : back.length < (front ++ '.' :: back).length := by
      simp
      omega
    unfold suffixPlace?
    rw [after, List.length_reverse]
    dsimp only
    rw [before]
    simp only [short, decide_true, Bool.true_and, Bool.and_eq_true, decide_eq_true_eq,
      List.length_pos_iff]
  unfold suffix
  rw [whole, place]
  split
  · rename_i n found
    split at found
    · rename_i both
      cases found
      rw [if_pos both, List.drop_left]
    · contradiction
  · rename_i found
    split at found
    · contradiction
    · rename_i either
      rw [if_neg either]

theorem suffixBehind {p : Pathname} {front word : List Char}
    (whole : p.name.toList = front ++ '.' :: word) (nonempty : word ≠ [])
    (ends : word.getLast? ≠ some '.') : p.suffix = "" ↔ front = [] ∧ '.' ∉ word := by
  by_cases dotted : '.' ∈ word
  · obtain ⟨before, after, rfl, clear⟩ := lastDot dotted
    have filled : after ≠ [] := by
      rintro rfl
      simp at ends
    have whole' : p.name.toList = (front ++ '.' :: before) ++ '.' :: after := by simp [whole]
    rw [suffixOf whole' clear]
    simp [filled]
  · rw [suffixOf whole dotted]
    by_cases first : front = [] <;> simp [first, nonempty, dotted]

theorem nameOfParts {p : Pathname} {front : List String} {last : String}
    (parts : p.parts = front ++ [last]) : p.name = last := by
  simp [name, parts]

theorem partsLonger {last : String} (filled : last ≠ "") (unslashed : '/' ∉ last.toList)
    (word : String) : ∃ part more, (ofText (last ++ ("." ++ word))).parts = part :: more ∧
      part ≠ last := by
  have unslashed' : '/' ∉ last.toList ++ ['.'] := by simpa using unslashed
  obtain ⟨piece, pieces, cut⟩ := Text.splitOnCharFront unslashed' word.toList
  have text : (last ++ ("." ++ word)).toList = last.toList ++ ['.'] ++ word.toList := by simp
  have filled' : last.toList ≠ [] := by simpa using filled
  have long : 2 ≤ (last.toList ++ ['.'] ++ piece).length := by
    have := List.length_pos_iff.mpr filled'
    simp
    omega
  refine ⟨String.ofList (last.toList ++ ['.'] ++ piece),
    (pieces.map String.ofList).filter fun part => part != "" && part != ".", ?_, fun same => ?_⟩
  · rw [ofText, text, cut, List.map_cons, List.filter_cons_of_pos]
    generalize last.toList ++ ['.'] ++ piece = chars at long
    rw [Bool.and_eq_true, bne_iff_ne, bne_iff_ne]
    constructor
    · rintro absent
      rw [String.ofList_eq_empty_iff] at absent
      simp [absent] at long
    · intro dot
      have dot' := congrArg String.toList dot
      rw [String.toList_ofList] at dot'
      rw [dot'] at long
      exact absurd long (by decide)
  · have size := congrArg (fun s => s.toList.length) same
    simp at size

theorem withNameOther {p : Pathname} (sound : p.Sound) (word : String) :
    p.withName (p.name ++ ("." ++ word)) ≠ .ok p := by
  intro same
  unfold withName at same
  split at same
  · contradiction
  · rename_i nonempty
    obtain ⟨front, last, parts⟩ : ∃ front last, p.parts = front ++ [last] := by
      rcases List.eq_nil_or_concat p.parts with absent | ⟨front, last, parts⟩
      · simp [name, absent] at nonempty
      · exact ⟨front, last, by simpa using parts⟩
    obtain ⟨filled, _, unslashed⟩ := sound.parts last (by simp [parts])
    obtain ⟨part, more, read, longer⟩ := partsLonger filled unslashed word
    rw [nameOfParts parts] at same
    dsimp only at same
    split at same
    · have parts' := congrArg Pathname.parts (Except.ok.inj same)
      rw [parts, List.dropLast_concat, read, List.append_cancel_left_eq, List.cons.injEq] at parts'
      exact longer parts'.1
    · contradiction

end Pathname

namespace Directories
variable {d : Directories} {tree : FileTree} {kind : Kind} {name : String}

def IsConfigured (d : Directories) : Prop :=
  ∃ views embeds components layouts suffix encoding,
    d = ofOptions views embeds components layouts suffix encoding

theorem IsConfigured.sound (configured : d.IsConfigured) : d.Sound := by
  obtain ⟨views, embeds, components, layouts, suffix, encoding, rfl⟩ := configured
  exact ofOptionsSound ..

theorem IsConfigured.suffix (configured : d.IsConfigured) :
    d.suffix = "" ∨ ∃ word, d.suffix = "." ++ word := by
  obtain ⟨views, embeds, components, layouts, suffix, encoding, rfl⟩ := configured
  simp only [ofOptions]
  split
  · rename_i leads
    rw [Bool.or_eq_true, String.isEmpty_iff, String.startsWith_string_iff] at leads
    refine leads.imp_right fun ⟨rest, whole⟩ => ⟨String.ofList rest, ?_⟩
    rw [← String.toList_inj, ← whole]
    simp
  · exact .inr ⟨suffix, rfl⟩

/- The file that a directory lists a name for. -/
def listed (d : Directories) (kind : Kind) (name : String) : Pathname :=
  (d.ofKind kind).join (.ofText name)

theorem resolveIff (configured : d.IsConfigured) :
    d.resolve kind name = .ok (d.listed kind name) ↔
      d.suffix = "" ∨ (d.listed kind name).suffix ≠ "" := by
  have sound : (d.listed kind name).Sound :=
    (configured.sound.each kind).join (Pathname.ofTextSound name)
  have unfolded : d.resolve kind name =
      if (d.listed kind name).suffix.isEmpty && !d.suffix.isEmpty then
        (d.listed kind name).withName ((d.listed kind name).name ++ d.suffix)
      else .ok (d.listed kind name) := rfl
  rw [unfolded]
  by_cases bare : (d.listed kind name).suffix = ""
  · rcases configured.suffix with absent | ⟨word, leads⟩
    · simp [absent]
    · have other := Pathname.withNameOther sound word
      have nonempty : d.suffix ≠ "" := by
        rw [leads]
        simp
      rw [if_pos (by simp [bare, nonempty])]
      rw [leads]
      simp [bare, other]
  · simp [bare]

theorem sourceThere {path : Pathname} {bytes : Encoding.Bytes}
    (resolved : d.resolve kind name = .ok path) (there : tree.file? path = .ok (some bytes))
    (message : String) : d.source tree kind name ≠ .error (.notFound message) := by
  intro missing
  rcases errorBind missing with lost | ⟨path', resolved', missing⟩
  · rw [resolved] at lost
    cases lost
  rw [resolved] at resolved'
  cases resolved'
  rcases errorBind missing with lost | ⟨bytes?, opened, missing⟩
  · rw [there] at lost
    cases lost
  · rw [there] at opened
    cases opened
    rcases errorBind missing with unread | ⟨text, _, missing⟩
    · have other : (Fault.notFound message).ofTemplate = false := FileTree.readTextFault unread
      cases other
    · cases missing

end Directories
end Medley

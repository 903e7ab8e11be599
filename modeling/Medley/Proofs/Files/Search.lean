import Mathlib.Data.List.Pairwise
import Medley.Files.Search
import Medley.Proofs.Files.Pathname
import Medley.Proofs.Template.Overlong

/-! Files of a tree and the way to them. In a tree as a file system holds it, names are no dots and
no file is a directory, so the way to a file passes directories and ends at it. What a pattern
selects is made of such names and of steps up. -/
namespace Medley

structure FileTree.Sound (t : FileTree) : Prop where
  names : ∀ path ∈ t.paths, ∀ part ∈ path, part ≠ "" ∧ part ≠ "." ∧ part ≠ ".." ∧
    '/' ∉ part.toList ∧ '\x00' ∉ part.toList ∧ part.utf8ByteSize ≤ FileTree.partLimit
  leaves : ∀ f ∈ t.files, t.isDirectoryAt f.1 = false
  once : (t.files.map Prod.fst).Nodup

namespace FileTree
variable {t : FileTree}

theorem isDirectoryAtIff {here : List String} :
    t.isDirectoryAt here = true ↔ ∃ path ∈ t.branches, here <+: path := by
  simp only [isDirectoryAt, List.any_eq_true, List.isPrefixOf_iff_prefix]

theorem filePath {f : List String × Encoding.Bytes} (member : f ∈ t.files) : f.1 ∈ t.paths :=
  List.mem_append_left _ (List.mem_map_of_mem member)

theorem aboveFile {f : List String × Encoding.Bytes} (member : f ∈ t.files) {here : List String}
    {part : String} {rest : List String} (whole : f.1 = here ++ part :: rest) :
    t.isDirectoryAt here = true := by
  refine isDirectoryAtIff.mpr ⟨f.1.dropLast, ?_, ?_⟩
  · exact List.mem_append_right _ (List.mem_map_of_mem member)
  · rw [whole, List.dropLast_append_of_ne_nil (List.cons_ne_nil part rest)]
    exact List.prefix_append ..

theorem abovePath {path here : List String} (member : path ∈ t.paths) {part : String}
    (below : here ++ [part] <+: path) : t.isDirectoryAt here = true := by
  obtain ⟨rest, whole⟩ := below
  rcases List.mem_append.mp member with file | branch
  · obtain ⟨f, inside, rfl⟩ := List.mem_map.mp file
    exact aboveFile inside (whole.symm.trans (List.append_assoc ..))
  · exact isDirectoryAtIff.mpr ⟨path, branch, ⟨part :: rest, by simp [← whole]⟩⟩

theorem getFile (sound : t.Sound) {f : List String × Encoding.Bytes} (member : f ∈ t.files) :
    t.get? f.1 = some f.2 := by
  have once := sound.once
  unfold get?
  generalize t.files = files at member once
  induction files with
  | nil => contradiction
  | cons g files ih =>
    obtain ⟨apart, once⟩ := List.nodup_cons.mp once
    rw [List.lookup_cons]
    rcases List.mem_cons.mp member with rfl | later
    · simp
    · have other : (f.1 == g.1) = false := by
        rw [beq_eq_false_iff_ne]
        exact fun same => apart (same ▸ List.mem_map_of_mem later)
      rw [other]
      exact ih later once

theorem walkFile (sound : t.Sound) {f : List String × Encoding.Bytes} (member : f ∈ t.files)
    {here path : List String} (filled : path ≠ []) (whole : f.1 = here ++ path) :
    t.walk here path = .ok (some (.file f.2)) := by
  induction path generalizing here with
  | nil => contradiction
  | cons part rest ih =>
    obtain ⟨_, _, noStep, _, _, short⟩ :=
      sound.names f.1 (filePath member) part (by simp [whole])
    have next : f.1 = (here ++ [part]) ++ rest := by simp [whole]
    rw [walk, if_neg (Nat.not_lt_of_le short)]
    · dsimp only
      cases rest with
      | nil =>
        rw [List.append_nil] at next
        rw [← next, sound.leaves f member, getFile sound member]
        rfl
      | cons second more =>
        rw [if_pos (aboveFile member next)]
        exact ih (List.cons_ne_nil _ _) next
    · exact noStep

theorem getMember {path : List String} {bytes : Encoding.Bytes} (found : t.get? path = some bytes) :
    (path, bytes) ∈ t.files := by
  obtain ⟨before, after, files, _⟩ := List.lookup_eq_some_iff.mp found
  rw [files]
  simp

/- Without steps up, a way that ends at a file is the file's own. -/
theorem walkToFile {here path : List String} {bytes : Encoding.Bytes} (level : ".." ∉ path)
    (arrives : t.walk here path = .ok (some (.file bytes))) : (here ++ path, bytes) ∈ t.files := by
  induction path generalizing here with
  | nil => simp [walk] at arrives
  | cons part rest ih =>
    simp only [List.mem_cons, not_or] at level
    rw [walk.eq_3 t here part rest (Ne.symm level.1)] at arrives
    split at arrives
    · contradiction
    · dsimp only at arrives
      split at arrives
      · simpa using ih level.2 arrives
      · split at arrives
        · rename_i bytes' found
          split at arrives
          · rename_i ends
            cases arrives
            rw [List.isEmpty_iff.mp ends]
            exact getMember found
          · simp at arrives
        · simp at arrives

theorem walkOn {start here path : List String} (rest : List String)
    (arrives : t.walk start path = .ok (some (.directory here))) :
    t.walk start (path ++ rest) = t.walk here rest := by
  induction path generalizing start with
  | nil =>
    rw [walk] at arrives
    cases arrives
    rfl
  | cons part path ih =>
    by_cases step : part = ".."
    · subst step
      rw [walk] at arrives
      rw [List.cons_append, walk]
      exact ih arrives
    · rw [List.cons_append, walk.eq_3 t start part (path ++ rest) step]
      rw [walk.eq_3 t start part path step] at arrives
      split at arrives
      · contradiction
      · rename_i short
        rw [if_neg short]
        dsimp only at arrives ⊢
        split at arrives
        · rename_i directory
          rw [if_pos directory]
          exact ih arrives
        · split at arrives
          · split at arrives <;> simp at arrives
          · simp at arrives

theorem entriesIff {here : List String} {name : String} : name ∈ t.entries here ↔
    ∃ path ∈ t.paths, here ++ [name] <+: path := by
  simp only [entries, List.mem_eraseDups, List.mem_filterMap]
  refine exists_congr fun path => and_congr_right fun _ => ⟨fun found => ?_, ?_⟩
  · split at found
    · rename_i front
      obtain ⟨rest, same⟩ := List.isPrefixOf_iff_prefix.mp front
      rw [← same, List.drop_left] at found
      obtain ⟨more, rfl⟩ := List.head?_eq_some_iff.mp found
      exact ⟨more, by simp [← same]⟩
    · contradiction
  · rintro ⟨rest, same⟩
    have front : here.isPrefixOf path = true :=
      List.isPrefixOf_iff_prefix.mpr ⟨name :: rest, by simp [← same]⟩
    rw [if_pos front, ← same, List.append_assoc, List.drop_left]
    rfl

theorem foldersIff {here path : List String} :
    path ∈ t.folders here ↔ t.isDirectoryAt (here ++ path) = true := by
  simp only [folders, List.mem_eraseDups, List.mem_flatMap, isDirectoryAtIff]
  refine exists_congr fun branch => and_congr_right fun _ => ⟨fun found => ?_, ?_⟩
  · split at found
    · rename_i front
      obtain ⟨below, same⟩ := List.isPrefixOf_iff_prefix.mp front
      obtain ⟨n, _, rfl⟩ := List.mem_map.mp found
      refine ⟨below.drop n, ?_⟩
      rw [← same, List.drop_left, List.append_assoc, List.take_append_drop]
    · contradiction
  · rintro ⟨rest, same⟩
    have front : here.isPrefixOf branch = true :=
      List.isPrefixOf_iff_prefix.mpr ⟨path ++ rest, by simp [← same]⟩
    rw [if_pos front, List.mem_map]
    refine ⟨path.length, ?_, ?_⟩
    · rw [List.mem_range, ← same]
      simp only [List.length_append]
      omega
    · simp [← same]

/- A part of what is selected is a step up or a name in the tree. -/
theorem selectParts {pattern : List PartPattern} {here path : List String}
    (selected : path ∈ t.select here pattern) :
    ∀ part ∈ path, part = ".." ∨ ∃ place ∈ t.paths, part ∈ place := by
  induction pattern generalizing here path with
  | nil =>
    rw [select, List.mem_singleton] at selected
    simp [selected]
  | cons first rest ih =>
    cases first with
    | ending =>
      rw [select, List.mem_singleton] at selected
      simp [selected]
    | below =>
      rw [select, List.mem_flatMap] at selected
      obtain ⟨sub, inside, selected⟩ := selected
      obtain ⟨tail, there, rfl⟩ := List.mem_map.mp selected
      obtain ⟨branch, member, below⟩ := isDirectoryAtIff.mp (foldersIff.mp inside)
      intro part used
      rcases List.mem_append.mp used with front | back
      · exact .inr ⟨branch, List.mem_append_right _ member,
          below.subset (List.mem_append_right here front)⟩
      · exact ih there part back
    | above =>
      rw [select] at selected
      obtain ⟨tail, there, rfl⟩ := List.mem_map.mp selected
      intro part used
      rcases List.mem_cons.mp used with rfl | back
      · exact .inl rfl
      · exact ih there part back
    | named pieces =>
      rw [select, List.mem_flatMap] at selected
      obtain ⟨name, fits, selected⟩ := selected
      obtain ⟨tail, there, rfl⟩ := List.mem_map.mp selected
      obtain ⟨place, member, below⟩ := entriesIff.mp (List.mem_filter.mp fits).1
      intro part used
      rcases List.mem_cons.mp used with rfl | back
      · exact .inr ⟨place, member, below.subset (by simp)⟩
      · exact ih there part back

theorem selectNamed {pieces : List Text.Glob.Piece} {here path : List String} :
    path ∈ t.select here [.below, .named pieces] ↔ ∃ sub name, path = sub ++ [name] ∧
      Text.Glob.accepts pieces name.toList = true ∧ ∃ place ∈ t.paths, here ++ path <+: place := by
  simp only [select, List.mem_flatMap, List.mem_map, List.mem_filter, List.mem_singleton,
    List.isEmpty_nil, Bool.true_or, Bool.and_true, entriesIff, foldersIff]
  constructor
  · rintro ⟨sub, _, tail, ⟨name, ⟨⟨place, member, below⟩, fits⟩, _, rfl, rfl⟩, rfl⟩
    exact ⟨sub, name, rfl, fits, place, member, by rwa [← List.append_assoc]⟩
  · rintro ⟨sub, name, rfl, fits, place, member, below⟩
    rw [← List.append_assoc] at below
    exact ⟨sub, abovePath member below, [name],
      ⟨name, ⟨⟨place, member, below⟩, fits⟩, [], rfl, rfl⟩, rfl⟩

theorem fileBelow {base : Pathname} {here path : List String}
    (placed : t.place? base = .ok (some (.directory here)))
    (clear : ∀ part ∈ path, '\x00' ∉ part.toList) {bytes? : Option Encoding.Bytes}
    (opened : t.file? (base.join ⟨"", path⟩) = .ok bytes?) :
    ∃ place, t.walk here path = .ok place ∧
      ∀ bytes, bytes? = some bytes ↔ place = some (.file bytes) := by
  have joined : base.join ⟨"", path⟩ = ⟨base.root, base.parts ++ path⟩ := rfl
  obtain ⟨place, there, made⟩ := okBind opened
  rw [joined] at there
  unfold place? at placed there
  split at placed
  · contradiction
  · split at placed
    · simp at placed
    · rename_i plain
      split at placed
      · rename_i arrived walked
        cases placed
        split at there
        · contradiction
        · have plain' : ¬ (Pathname.mk base.root
              (base.parts ++ path)).text.contains '\x00' = true := by
            simp only [String.contains_char_eq, decide_eq_true_eq, Pathname.nulOfText,
              not_or] at plain ⊢
            refine ⟨plain.1, ?_⟩
            rintro ⟨part, member, nul⟩
            rcases List.mem_append.mp member with front | back
            · exact plain.2 ⟨part, front, nul⟩
            · exact clear part back nul
          rw [if_neg plain'] at there
          have begins : t.start ⟨base.root, base.parts ++ path⟩ = t.start base := rfl
          rw [begins] at there
          dsimp only at there
          rw [walkOn path walked] at there
          split at there
          · rename_i way
            cases there
            refine ⟨place, way, fun bytes => ?_⟩
            split at made <;> cases made <;> simp_all
          · contradiction
      · contradiction

theorem placeFault {p : Pathname} {fault : Fault} (lost : t.place? p = .error fault) :
    fault = nameTooLong p := by
  unfold place? at lost
  split at lost
  · exact (Except.error.inj lost).symm
  · split at lost
    · cases lost
    · split at lost
      · cases lost
      · exact (Except.error.inj lost).symm

theorem fileTooLong {p : Pathname} {fault : Fault} (lost : t.file? p = .error fault) :
    fault = nameTooLong p := by
  rcases errorBind lost with lost | ⟨place, _, lost⟩
  · exact placeFault lost
  · split at lost <;> cases lost

end FileTree

theorem PartPattern.ofTextFault {pattern : String} {fault : Fault}
    (refused : ofText pattern = .error fault) : fault = .badPattern ∧
      ∃ part ∈ (Pathname.ofText pattern).parts, part ≠ "**" ∧
        Text.contains ['*', '*'] part.toList = true := by
  rcases errorBind refused with refused | ⟨parts, _, refused⟩
  · obtain ⟨part, member, bad⟩ := errorMapM refused
    unfold ofPart at bad
    split at bad
    · cases bad
    · rename_i other
      split at bad
      · rename_i stars
        exact ⟨(Except.error.inj bad).symm, part, member, other, stars⟩
      · split at bad <;> cases bad
  · cases refused

namespace Text.Glob

/-- No character of it has a meaning of its own in a pattern. -/
def Literal (s : List Char) : Prop := ∀ c ∈ s, c ≠ '*' ∧ c ≠ '?' ∧ c ≠ '['

theorem piecesLiteral {s : List Char} (literal : Literal s) : piecesFrom 0 s = s.map .char := by
  induction s with
  | nil => rfl
  | cons c s ih =>
    obtain ⟨noStar, noMark, noBracket⟩ := literal c List.mem_cons_self
    rw [piecesFrom, ih fun d member => literal d (List.mem_cons_of_mem c member), List.map_cons]
    · exact noStar
    · exact noMark
    · exact noBracket

theorem acceptsChars (cs s : List Char) : accepts (cs.map .char) s = true ↔ s = cs := by
  induction cs generalizing s with
  | nil => rw [List.map_nil, accepts, List.isEmpty_iff]
  | cons c cs ih => cases s with
    | nil =>
      rw [List.map_cons, accepts]
      · simp
      · simp
    | cons d s =>
      rw [List.map_cons, accepts, Bool.and_eq_true, ih, List.cons.injEq]
      · simp [Piece.admits]
      · simp

theorem acceptsAny (ps : List Piece) (s : List Char) :
    accepts (.any :: ps) s = true ↔ ∃ a b, s = a ++ b ∧ accepts ps b = true := by
  induction s with
  | nil =>
    rw [accepts]
    refine ⟨fun found => ⟨[], [], rfl, found⟩, ?_⟩
    rintro ⟨a, b, both, found⟩
    rw [(List.append_eq_nil_iff.mp both.symm).2] at found
    exact found
  | cons c s ih =>
    rw [accepts, Bool.or_eq_true, ih]
    constructor
    · rintro (found | ⟨a, b, rfl, found⟩)
      · exact ⟨[], c :: s, rfl, found⟩
      · exact ⟨c :: a, b, rfl, found⟩
    · rintro ⟨a, b, same, found⟩
      cases a with
      | nil =>
        rw [List.nil_append] at same
        exact .inl (same ▸ found)
      | cons d a =>
        obtain ⟨rfl, rfl⟩ := List.cons.inj same
        exact .inr ⟨a, b, rfl, found⟩

end Text.Glob
end Medley

import Mathlib.Data.List.Basic
import Medley.Loader
import Medley.Proofs.Value.Sorted

/-! Paths and their texts. A path that was read from text has a root that is written with slashes
and parts without any, so it can be read back from its own text: paths with one text are the same
path. What a name stands for in a directory is such a path. -/
namespace Medley

namespace Text

theorem splitOnCharAlone {sep : Char} {s : List Char} (absent : sep ∉ s) :
    splitOnChar sep s = [s] := by
  induction s with
  | nil => rfl
  | cons c s ih =>
    simp only [List.mem_cons, not_or] at absent
    rw [splitOnChar, if_neg (Ne.symm absent.1), ih absent.2]

theorem splitOnCharPart {sep : Char} {s : List Char} (absent : sep ∉ s) (rest : List Char) :
    splitOnChar sep (s ++ sep :: rest) = s :: splitOnChar sep rest := by
  induction s with
  | nil => simp [splitOnChar]
  | cons c s ih =>
    simp only [List.mem_cons, not_or] at absent
    rw [List.cons_append, splitOnChar, if_neg (Ne.symm absent.1), ih absent.2]

theorem splitOnCharParts {sep : Char} {parts : List (List Char)} (nonempty : parts ≠ [])
    (each : ∀ part ∈ parts, sep ∉ part) : splitOnChar sep ([sep].intercalate parts) = parts := by
  induction parts with
  | nil => contradiction
  | cons part parts ih =>
    have first := each part List.mem_cons_self
    cases parts with
    | nil => simpa using splitOnCharAlone first
    | cons next more =>
      have rest := ih (by simp) fun p member => each p (List.mem_cons_of_mem part member)
      rw [List.intercalate_cons_cons, List.append_assoc, List.singleton_append,
        splitOnCharPart first, rest]

theorem splitOnCharApart {sep : Char} (s : List Char) : ∀ part ∈ splitOnChar sep s, sep ∉ part := by
  induction s with
  | nil => simp [splitOnChar]
  | cons c s ih =>
    rw [splitOnChar]
    split
    · simpa using ih
    · rename_i other
      cases parts : splitOnChar sep s with
      | nil => simpa using Ne.symm other
      | cons part more =>
        rw [parts] at ih
        intro p member
        rcases List.mem_cons.mp member with rfl | later
        · have rest := ih part List.mem_cons_self
          simp [Ne.symm other, rest]
        · exact ih p (List.mem_cons_of_mem part later)

theorem splitOnCharSome (sep : Char) (s : List Char) : splitOnChar sep s ≠ [] := by
  cases s with
  | nil => exact List.cons_ne_nil _ _
  | cons c s =>
    rw [splitOnChar]
    split
    · exact List.cons_ne_nil _ _
    · split <;> exact List.cons_ne_nil _ _

theorem splitOnCharFront {sep : Char} {s : List Char} (absent : sep ∉ s) (rest : List Char) :
    ∃ part parts, splitOnChar sep (s ++ rest) = (s ++ part) :: parts := by
  induction s with
  | nil => exact List.exists_cons_of_ne_nil (splitOnCharSome sep rest)
  | cons c s ih =>
    simp only [List.mem_cons, not_or] at absent
    obtain ⟨part, parts, cut⟩ := ih absent.2
    exact ⟨part, parts, by rw [List.cons_append, splitOnChar, if_neg (Ne.symm absent.1), cut]; rfl⟩

end Text

namespace Pathname

structure Sound (p : Pathname) : Prop where
  root : p.root = "" ∨ p.root = "/" ∨ p.root = "//"
  parts : ∀ part ∈ p.parts, part ≠ "" ∧ part ≠ "." ∧ '/' ∉ part.toList

theorem ofTextSound (s : String) : (ofText s).Sound := by
  refine ⟨?_, fun part member => ?_⟩
  · unfold ofText rootOf
    dsimp only
    split <;> simp
  · obtain ⟨inside, kept⟩ := List.mem_filter.mp member
    obtain ⟨chars, here, rfl⟩ := List.mem_map.mp inside
    simp only [bne_iff_ne, ne_eq, Bool.and_eq_true] at kept
    refine ⟨kept.1, kept.2, ?_⟩
    rw [String.toList_ofList]
    exact Text.splitOnCharApart _ chars here

theorem Sound.join {p q : Pathname} (first : p.Sound) (second : q.Sound) : (p.join q).Sound := by
  unfold Pathname.join
  split
  · exact ⟨first.root, fun part member =>
      (List.mem_append.mp member).elim (first.parts part) (second.parts part)⟩
  · exact second

theorem Sound.withName {p q : Pathname} (h : p.Sound) {name : String}
    (made : p.withName name = .ok q) : q.Sound := by
  unfold Pathname.withName at made
  split at made
  · contradiction
  · dsimp only at made
    split at made
    · cases made
      refine ⟨h.root, fun part member => ?_⟩
      rcases List.mem_append.mp member with old | new
      · exact h.parts part (List.dropLast_subset _ old)
      · exact (ofTextSound name).parts part new
    · contradiction

theorem partsOfText {parts : List String}
    (each : ∀ part ∈ parts, part ≠ "" ∧ part ≠ "." ∧ '/' ∉ part.toList) :
    ((Text.splitOnChar '/' (String.intercalate "/" parts).toList).map String.ofList).filter
      (fun part => part != "" && part != ".") = parts := by
  have kept : parts.filter (fun part => part != "" && part != ".") = parts := by
    refine List.filter_eq_self.mpr fun part member => ?_
    simp [each part member]
  cases parts with
  | nil => rfl
  | cons part more =>
    have apart : ∀ p ∈ (part :: more).map String.toList, '/' ∉ p := by
      intro p member
      obtain ⟨q, inside, rfl⟩ := List.mem_map.mp member
      exact (each q inside).2.2
    have slash : "/".toList = ['/'] := rfl
    rw [String.toList_intercalate, slash, Text.splitOnCharParts (by simp) apart, List.map_map]
    have back : String.ofList ∘ String.toList = id := funext fun s => by simp
    rw [back, List.map_id]
    exact kept

theorem leadsUnslashed {parts : List String}
    (each : ∀ part ∈ parts, part ≠ "" ∧ part ≠ "." ∧ '/' ∉ part.toList) (rest : List Char) :
    (String.intercalate "/" parts).toList ≠ '/' :: rest := by
  cases parts with
  | nil => simp
  | cons part more =>
    obtain ⟨nonempty, _, apart⟩ := each part List.mem_cons_self
    obtain ⟨c, cs, chars⟩ := List.exists_cons_of_ne_nil (l := part.toList) (by simpa using nonempty)
    rw [chars] at apart
    have other : c ≠ '/' := fun same => apart (same ▸ List.mem_cons_self)
    have lead : ∃ tail, (String.intercalate "/" (part :: more)).toList = c :: tail := by
      rw [String.toList_intercalate]
      cases more with
      | nil => exact ⟨cs, by simp [chars]⟩
      | cons next more => exact ⟨_, by rw [List.map_cons, List.map_cons,
          List.intercalate_cons_cons, chars, List.cons_append, List.cons_append]⟩
    obtain ⟨tail, same⟩ := lead
    rw [same]
    simp [other]

theorem rootOfPlain {s : List Char} (plain : ∀ rest, s ≠ '/' :: rest) :
    rootOf s = "" ∧ rootOf ('/' :: s) = "/" ∧ rootOf ('/' :: '/' :: s) = "//" := by
  cases s with
  | nil => exact ⟨rfl, rfl, rfl⟩
  | cons c rest =>
    have other : c ≠ '/' := fun same => plain rest (same ▸ rfl)
    refine ⟨?_, ?_, ?_⟩ <;> simp [rootOf, other]

theorem ofTextText {p : Pathname} (h : p.Sound) : ofText p.text = p := by
  obtain ⟨root, parts⟩ := p
  obtain ⟨roots, each⟩ := h
  have read := partsOfText each
  have plain := leadsUnslashed each
  unfold text
  dsimp only at roots each ⊢
  split
  · rename_i both
    simp only [Bool.and_eq_true, String.isEmpty_iff, List.isEmpty_iff] at both
    obtain ⟨rfl, rfl⟩ := both
    rfl
  · rename_i notBoth
    generalize chars : (String.intercalate "/" parts).toList = cs at read plain
    obtain ⟨relative, rooted, doubled⟩ := rootOfPlain plain
    have skipped : ∀ rest, Text.splitOnChar '/' ('/' :: rest) = [] :: Text.splitOnChar '/' rest :=
      fun _ => rfl
    rcases roots with rfl | rfl | rfl
    · simp only [ofText, String.toList_append, chars]
      simp only [String.toList_empty, List.nil_append, relative, read]
    · have slash : "/".toList = ['/'] := rfl
      simp only [ofText, String.toList_append, chars, slash, List.singleton_append, rooted]
      rw [skipped, List.map_cons, List.filter_cons_of_neg (by simp), read]
    · have slash : "//".toList = ['/', '/'] := rfl
      simp only [ofText, String.toList_append, chars, slash, List.cons_append, List.nil_append,
        doubled]
      rw [skipped, skipped, List.map_cons, List.filter_cons_of_neg (by simp), List.map_cons,
        List.filter_cons_of_neg (by simp), read]

theorem textInjective {p q : Pathname} (first : p.Sound) (second : q.Sound)
    (same : p.text = q.text) : p = q := by
  rw [← ofTextText first, same, ofTextText second]

theorem ofTextParts {parts : List String}
    (each : ∀ part ∈ parts, part ≠ "" ∧ part ≠ "." ∧ '/' ∉ part.toList) :
    ofText (String.intercalate "/" parts) = ⟨"", parts⟩ := by
  have sound : Sound ⟨"", parts⟩ := ⟨.inl rfl, each⟩
  have read := ofTextText sound
  cases parts with
  | nil => rfl
  | cons part more => simpa [text] using read

theorem charOfParts {c : Char} (other : c ≠ '/') (parts : List String) :
    c ∈ (String.intercalate "/" parts).toList ↔ ∃ part ∈ parts, c ∈ part.toList := by
  have slash : "/".toList = ['/'] := rfl
  rw [String.toList_intercalate, slash]
  induction parts with
  | nil => simp
  | cons part parts ih =>
    cases parts with
    | nil => simp
    | cons next more =>
      rw [List.map_cons] at ih
      rw [List.map_cons, List.map_cons, List.intercalate_cons_cons]
      simp only [List.mem_append, List.mem_singleton, ih, other, or_false]
      simp

theorem nulOfText {p : Pathname} :
    '\x00' ∈ p.text.toList ↔ '\x00' ∈ p.root.toList ∨ ∃ part ∈ p.parts, '\x00' ∈ part.toList := by
  have parts := charOfParts (c := '\x00') (by decide) p.parts
  unfold text
  split
  · rename_i absent
    simp only [Bool.and_eq_true, String.isEmpty_iff, List.isEmpty_iff] at absent
    simp [absent]
  · rw [String.toList_append, List.mem_append, parts]

end Pathname

namespace Directories

structure Sound (d : Directories) : Prop where
  each : ∀ kind, (d.ofKind kind).Sound

theorem ofOptionsSound (views : String) (embeds components layouts : Option String)
    (suffix encoding : String) :
    (ofOptions views embeds components layouts suffix encoding).Sound := by
  have read := Pathname.ofTextSound
  have under := fun name => (read views).join (read name)
  refine ⟨fun kind => ?_⟩
  cases kind with
  | page => exact read views
  | embed | component | layout =>
    simp only [ofOptions, ofKind]
    split
    · split
      · exact under _
      · exact read _
    · exact under _

theorem Sound.resolve {d : Directories} (sound : d.Sound) {kind : Kind} {name : String}
    {path : Pathname} (found : d.resolve kind name = .ok path) : path.Sound := by
  have joined := (sound.each kind).join (Pathname.ofTextSound name)
  unfold Directories.resolve at found
  dsimp only at found
  split at found
  · exact joined.withName found
  · cases found
    exact joined

theorem sourceFound {d : Directories} {tree : FileTree} {kind : Kind} {name : String}
    {source : String × String} : d.source tree kind name = .ok source ↔ ∃ path bytes,
      d.resolve kind name = .ok path ∧ tree.file? path = .ok (some bytes) ∧
        FileTree.readText d.encoding bytes = .ok source.1 ∧ path.text = source.2 := by
  unfold Directories.source
  cases d.resolve kind name with
  | error fault => simp [bind, Except.bind]
  | ok path =>
    cases opened : tree.file? path with
    | error fault => simp [bind, Except.bind, opened]
    | ok bytes =>
      cases bytes with
      | none => simp [bind, Except.bind, opened]
      | some bytes =>
        cases decoded : FileTree.readText d.encoding bytes with
        | error fault => simp [bind, Except.bind, opened, decoded]
        | ok text => simp [bind, Except.bind, pure, Except.pure, opened, decoded, Prod.ext_iff]

end Directories

namespace Loader

/-- Directories have paths that are read from text, and a store has one source for each key. -/
def Sound : Loader → Prop
  | memory _ => True
  | files d => d.Sound
  | custom store => ∀ kind a b key found, store.cacheKey kind a = .ok key →
      store.cacheKey kind b = .ok key → store.source kind a = .ok found →
        store.source kind b = .ok found

theorem slashedInjective {kind : Kind} {a b : String} (same : slashed kind a = slashed kind b) :
    a = b := by
  simpa [slashed] using same

theorem sourceOfKey {l : Loader} (sound : l.Sound) {tree : FileTree} {kind : Kind}
    {a b key : String} (first : l.cacheKey kind a = .ok key) (second : l.cacheKey kind b = .ok key)
    {found : String × Option String} (reads : l.source tree kind a = .ok found) :
    l.source tree kind b = .ok found := by
  cases l with
  | memory shelves =>
    cases first
    have same := slashedInjective (Except.ok.inj second)
    rw [same]
    exact reads
  | custom store => exact sound kind a b key found first second reads
  | files d =>
    obtain ⟨p, here, same⟩ := okBind first
    obtain ⟨q, there, same'⟩ := okBind second
    cases same
    have equal := Pathname.textInjective (Directories.Sound.resolve sound there)
      (Directories.Sound.resolve sound here) (Except.ok.inj same')
    subst equal
    obtain ⟨⟨text, file⟩, read, made⟩ := okBind reads
    obtain ⟨path, bytes, known, rest⟩ := Directories.sourceFound.mp read
    have same := Except.ok.inj (here.symm.trans known)
    have sourced := Directories.sourceFound.mpr ⟨path, bytes, same ▸ there, rest⟩
    simp only [Loader.source, sourced, bind, Except.bind]
    exact made

end Loader
end Medley

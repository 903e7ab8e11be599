import Mathlib.Data.List.Nodup
import Medley.Proofs.Files.Search
import Medley.Proofs.Files.Suffixes
import Medley.Proofs.Template.Data

/-! Names that a directory lists and the files they stand for. A name is the path of a file from the
directory, so it leads back to that file as long as no suffix is put behind it. -/
namespace Medley

theorem mapMEvery {α β ε : Type} {f : α → Except ε β} {xs : List α} {ys : List β}
    (h : xs.mapM f = .ok ys) : ∀ x ∈ xs, ∃ y ∈ ys, f x = .ok y := by
  induction xs generalizing ys with
  | nil => exact List.forall_mem_nil _
  | cons x xs ih =>
    rw [List.mapM_cons] at h
    obtain ⟨y, first, h⟩ := okBind h
    obtain ⟨rest, more, h⟩ := okBind h
    cases h
    intro z member
    rcases List.mem_cons.mp member with rfl | later
    · exact ⟨y, List.mem_cons_self, first⟩
    · obtain ⟨w, inside, same⟩ := ih more z later
      exact ⟨w, List.mem_cons_of_mem y inside, same⟩

theorem nodupEraseDups {α : Type} [BEq α] [LawfulBEq α] : ∀ xs : List α, xs.eraseDups.Nodup
  | [] => by simp
  | x :: xs => by
    rw [List.eraseDups_cons, List.nodup_cons]
    exact ⟨by simp, nodupEraseDups _⟩
termination_by xs => xs.length
decreasing_by exact Nat.lt_succ_of_le (List.length_filter_le ..)

namespace Directories
variable {d : Directories} {tree : FileTree} {kind : Kind} {name : String} {names : List String}

/- How names are gathered in the directory `here`: from the paths of files that a pattern selects.
-/
structure Gathers (d : Directories) (tree : FileTree) (kind : Kind) (names : List String)
    (here : List String) (pattern : List PartPattern) (paths : List (List String)) : Prop where
  placed : tree.place? (d.ofKind kind) = .ok (some (.directory here))
  read : PartPattern.ofText ("*" ++ d.suffix) = .ok pattern
  made : names = (paths.map (String.intercalate "/")).eraseDups.mergeSort fun a b => a ≤ b
  each : ∀ path, path ∈ paths ↔ path ∈ tree.select here (.below :: pattern) ∧
    ∃ bytes, tree.file? ((d.ofKind kind).join ⟨"", path⟩) = .ok (some bytes)
  opened : ∀ path ∈ tree.select here (.below :: pattern),
    ∃ bytes?, tree.file? ((d.ofKind kind).join ⟨"", path⟩) = .ok bytes?

theorem namesGathered (found : d.names tree kind = .ok names) :
    (names = [] ∧ ∀ here, tree.place? (d.ofKind kind) ≠ .ok (some (.directory here))) ∨
      ∃ here pattern paths, d.Gathers tree kind names here pattern paths := by
  unfold Directories.names at found
  obtain ⟨place, placed, found⟩ := okBind found
  split at found
  · rename_i here
    obtain ⟨pattern, read, found⟩ := okBind found
    obtain ⟨opened, all, found⟩ := okBind found
    cases found
    refine .inr ⟨here, pattern, _, placed, read, rfl, fun path => ?_, fun path selected => ?_⟩
    · simp only [List.mem_filterMap, Option.map_eq_some_iff, Prod.exists]
      constructor
      · rintro ⟨path', bytes?, member, bytes, rfl, rfl⟩
        obtain ⟨path'', selected, made⟩ := Frontmatter.mapMMember all _ member
        obtain ⟨bytes', there, made⟩ := okBind made
        cases made
        exact ⟨selected, bytes, there⟩
      · rintro ⟨selected, bytes, there⟩
        obtain ⟨entry, member, made⟩ := mapMEvery all path selected
        rw [there] at made
        cases made
        exact ⟨path, some bytes, member, bytes, rfl, rfl⟩
    · obtain ⟨entry, _, made⟩ := mapMEvery all path selected
      obtain ⟨bytes?, there, _⟩ := okBind made
      exact ⟨bytes?, there⟩
  · rename_i nowhere
    cases found
    refine .inl ⟨rfl, fun here there => ?_⟩
    rw [placed] at there
    exact nowhere here (Except.ok.inj there)

theorem namesFault {fault : Fault} (refused : d.names tree kind = .error fault) :
    (fault = .badPattern ∧ ∃ part ∈ (Pathname.ofText ("*" ++ d.suffix)).parts, part ≠ "**" ∧
      Text.contains ['*', '*'] part.toList = true) ∨ ∃ p, fault = FileTree.nameTooLong p := by
  rcases errorBind refused with lost | ⟨place, _, refused⟩
  · exact .inr ⟨_, FileTree.placeFault lost⟩
  · split at refused
    · rcases errorBind refused with unread | ⟨pattern, _, refused⟩
      · exact .inl (PartPattern.ofTextFault unread)
      · rcases errorBind refused with lost | ⟨opened, _, refused⟩
        · obtain ⟨path, _, lost⟩ := errorMapM lost
          rcases errorBind lost with lost | ⟨bytes?, _, lost⟩
          · exact .inr ⟨_, FileTree.fileTooLong lost⟩
          · cases lost
        · cases refused
    · cases refused

namespace Gathers
variable {here : List String} {pattern : List PartPattern} {paths : List (List String)}

theorem member (h : d.Gathers tree kind names here pattern paths) :
    name ∈ names ↔ ∃ path ∈ paths, String.intercalate "/" path = name := by
  rw [h.made, List.mem_mergeSort, List.mem_eraseDups, List.mem_map]

theorem path (h : d.Gathers tree kind names here pattern paths) (sound : tree.Sound)
    {path : List String} (inside : path ∈ paths) :
    Pathname.ofText (String.intercalate "/" path) = ⟨"", path⟩ := by
  refine Pathname.ofTextParts fun part here' => ?_
  rcases FileTree.selectParts ((h.each path).mp inside).1 part here' with
    rfl | ⟨place, member, used⟩
  · decide
  · obtain ⟨filled, noDot, _, unslashed, _⟩ := sound.names place member part used
    exact ⟨filled, noDot, unslashed⟩

theorem sorted (h : d.Gathers tree kind names here pattern paths) : names.Pairwise (· ≤ ·) := by
  have trans : ∀ a b c : String, decide (a ≤ b) = true → decide (b ≤ c) = true →
      decide (a ≤ c) = true := fun a b c first second => by
    simp only [decide_eq_true_eq] at first second ⊢
    exact String.le_trans first second
  have total : ∀ a b : String, (decide (a ≤ b) || decide (b ≤ a)) = true := fun a b => by
    simpa using String.le_total a b
  rw [h.made]
  exact (List.pairwise_mergeSort trans total _).imp of_decide_eq_true

theorem once (h : d.Gathers tree kind names here pattern paths) (sound : tree.Sound) :
    (names.map fun name => (Pathname.ofText name).parts).Nodup := by
  have apart : names.Nodup := by
    rw [h.made, (List.mergeSort_perm ..).nodup_iff]
    exact nodupEraseDups _
  refine apart.map_on fun a first b second same => ?_
  obtain ⟨p, inside, rfl⟩ := h.member.mp first
  obtain ⟨q, inside', rfl⟩ := h.member.mp second
  rw [h.path sound inside, h.path sound inside'] at same
  rw [show p = q from same]

end Gathers

def selects (d : Directories) (here path : List String) : Bool :=
  here.isPrefixOf path && (path.drop here.length).getLast?.any fun last =>
    Text.Glob.fits ("*" ++ d.suffix).toList last.toList

theorem patternPlain {pattern : List PartPattern} (configured : d.IsConfigured)
    (unslashed : '/' ∉ d.suffix.toList)
    (read : PartPattern.ofText ("*" ++ d.suffix) = .ok pattern) :
    pattern = [.named (Text.Glob.piecesFrom 0 ("*" ++ d.suffix).toList)] := by
  have chars : ("*" ++ d.suffix).toList = '*' :: d.suffix.toList := by simp
  have unslashed' : '/' ∉ '*' :: d.suffix.toList := by simp [unslashed]
  have whole : (Pathname.ofText ("*" ++ d.suffix)).parts = ["*" ++ d.suffix] := by
    rw [Pathname.ofText, chars, Text.splitOnCharAlone unslashed', List.map_singleton,
      List.filter_cons_of_pos, List.filter_nil, ← chars, String.ofList_toList]
    rw [Bool.and_eq_true, bne_iff_ne, bne_iff_ne, ← String.toList_inj.ne, ← String.toList_inj.ne]
    simp
  have noStars : "*" ++ d.suffix ≠ "**" := fun same => by
    have same' := congrArg String.toList same
    rw [chars] at same'
    rcases configured.suffix with absent | ⟨word, leads⟩
    · simp [absent] at same'
    · simp [leads] at same'
  have unended : ("*" ++ d.suffix).endsWith "/" = false := by
    rw [Bool.eq_false_iff, ← String.endsWith_toSlice, ne_eq, String.Slice.endsWith_string_iff,
      String.copy_toSlice, chars]
    exact fun ends => unslashed' (ends.subset (by simp))
  unfold PartPattern.ofText at read
  obtain ⟨parts, each, read⟩ := okBind read
  rw [unended] at read
  cases read
  rw [whole, List.mapM_cons] at each
  obtain ⟨first, made, each⟩ := okBind each
  cases each
  unfold PartPattern.ofPart at made
  rw [if_neg noStars] at made
  split at made
  · contradiction
  · cases made
    rfl

/- What a listing of a directory says. Its names lead to the files that they are listed for, but
where a suffix is put behind one. -/
structure Lists (d : Directories) (tree : FileTree) (kind : Kind) (names : List String) : Prop where
  sorted : names.Pairwise (· ≤ ·)
  once : (names.map fun name => (Pathname.ofText name).parts).Nodup
  there : ∀ name ∈ names, ∃ bytes, tree.file? (d.listed kind name) = .ok (some bytes)
  resolves : ∀ name ∈ names, d.resolve kind name = .ok (d.listed kind name) ↔
    d.suffix = "" ∨ (d.listed kind name).suffix ≠ ""
  loads : ∀ name ∈ names, d.suffix = "" ∨ (d.listed kind name).suffix ≠ "" →
    ∀ message, d.source tree kind name ≠ .error (.notFound message)
  -- with a common suffix only a file that is named by the suffix alone gets another one
  common : ∀ word, d.suffix = "." ++ word → word ≠ "" → word.toList.getLast? ≠ some '.' →
    '/' ∉ word.toList → Text.Glob.Literal word.toList → ∀ name ∈ names,
      (d.listed kind name).suffix = "" ↔ (d.listed kind name).name = d.suffix ∧ '.' ∉ word.toList
  -- each file below the directory whose name fits has one name
  whole : '/' ∉ d.suffix.toList → ∀ here,
    tree.place? (d.ofKind kind) = .ok (some (.directory here)) →
      (names.map fun name => here ++ (Pathname.ofText name).parts).Perm
        ((tree.files.map Prod.fst).filter (d.selects here))
  bare : (∀ here, tree.place? (d.ofKind kind) ≠ .ok (some (.directory here))) → names = []

namespace Gathers
variable {here : List String} {pattern : List PartPattern} {paths : List (List String)}

theorem listedPath (h : d.Gathers tree kind names here pattern paths) (sound : tree.Sound)
    {path : List String} (inside : path ∈ paths) :
    d.listed kind (String.intercalate "/" path) = (d.ofKind kind).join ⟨"", path⟩ := by
  rw [listed, h.path sound inside]

theorem there (h : d.Gathers tree kind names here pattern paths) (sound : tree.Sound)
    (member : name ∈ names) : ∃ bytes, tree.file? (d.listed kind name) = .ok (some bytes) := by
  obtain ⟨path, inside, rfl⟩ := h.member.mp member
  rw [h.listedPath sound inside]
  exact ((h.each path).mp inside).2

theorem selectedIff (h : d.Gathers tree kind names here pattern paths)
    (configured : d.IsConfigured) (unslashed : '/' ∉ d.suffix.toList) {path : List String} :
    path ∈ tree.select here (.below :: pattern) ↔ ∃ sub name, path = sub ++ [name] ∧
      Text.Glob.fits ("*" ++ d.suffix).toList name.toList = true ∧
        ∃ place ∈ tree.paths, here ++ path <+: place := by
  rw [patternPlain configured unslashed h.read, FileTree.selectNamed]
  rfl

/- With a suffix that is no path, the paths are those of the files that are selected. -/
theorem pathIff (h : d.Gathers tree kind names here pattern paths) (sound : tree.Sound)
    (configured : d.IsConfigured) (unslashed : '/' ∉ d.suffix.toList) {path : List String} :
    path ∈ paths ↔ ∃ f ∈ tree.files, f.1 = here ++ path ∧ d.selects here f.1 = true := by
  rw [h.each]
  constructor
  · rintro ⟨selected, bytes, there⟩
    obtain ⟨sub, name, rfl, fits, place, member, below⟩ :=
      (h.selectedIff configured unslashed).mp selected
    have used : ∀ part ∈ sub ++ [name], part ∈ place := fun part inside =>
      below.subset (List.mem_append_right here inside)
    have level : ".." ∉ sub ++ [name] := fun step =>
      (sound.names place member _ (used _ step)).2.2.1 rfl
    have clear : ∀ part ∈ sub ++ [name], '\x00' ∉ part.toList := fun part inside =>
      (sound.names place member _ (used _ inside)).2.2.2.2.1
    obtain ⟨place, way, leads⟩ := FileTree.fileBelow h.placed clear there
    rw [(leads bytes).mp rfl] at way
    refine ⟨_, FileTree.walkToFile level way, rfl, ?_⟩
    simpa [selects] using fits
  · rintro ⟨f, member, same, chosen⟩
    rw [selects, same, List.drop_left, Bool.and_eq_true, Option.any_eq_true] at chosen
    obtain ⟨_, last, ends, fits⟩ := chosen
    obtain ⟨sub, rfl⟩ := List.getLast?_eq_some_iff.mp ends
    have listed := FileTree.filePath member
    have selected := (h.selectedIff configured unslashed).mpr
      ⟨sub, last, rfl, fits, f.1, listed, same ▸ List.prefix_rfl⟩
    obtain ⟨bytes?, there⟩ := h.opened _ selected
    have clear : ∀ part ∈ sub ++ [last], '\x00' ∉ part.toList := fun part inside =>
      (sound.names f.1 listed part (same ▸ List.mem_append_right here inside)).2.2.2.2.1
    obtain ⟨place, way, leads⟩ := FileTree.fileBelow h.placed clear there
    rw [FileTree.walkFile sound member (by simp) same] at way
    rw [(leads f.2).mpr (Except.ok.inj way).symm] at there
    exact ⟨selected, f.2, there⟩

theorem whole (h : d.Gathers tree kind names here pattern paths) (sound : tree.Sound)
    (configured : d.IsConfigured) (unslashed : '/' ∉ d.suffix.toList) :
    (names.map fun name => here ++ (Pathname.ofText name).parts).Perm
      ((tree.files.map Prod.fst).filter (d.selects here)) := by
  have once := (h.once sound).map (List.append_right_injective here)
  rw [List.map_map] at once
  refine (List.perm_ext_iff_of_nodup once (sound.once.filter _)).mpr fun place => ?_
  simp only [List.mem_map, List.mem_filter, Function.comp_apply]
  constructor
  · rintro ⟨name, member, rfl⟩
    obtain ⟨path, inside, rfl⟩ := h.member.mp member
    obtain ⟨f, there, same, chosen⟩ := (h.pathIff sound configured unslashed).mp inside
    rw [h.path sound inside]
    exact ⟨⟨f, there, same⟩, same ▸ chosen⟩
  · rintro ⟨⟨f, there, rfl⟩, chosen⟩
    have below := chosen
    rw [selects, Bool.and_eq_true, List.isPrefixOf_iff_prefix] at below
    obtain ⟨path, same⟩ := below.1
    have inside := (h.pathIff sound configured unslashed).mpr ⟨f, there, same.symm, chosen⟩
    exact ⟨_, h.member.mpr ⟨path, inside, rfl⟩, by rw [h.path sound inside]; exact same⟩

theorem common (h : d.Gathers tree kind names here pattern paths) (sound : tree.Sound)
    (configured : d.IsConfigured) {word : String} (leads : d.suffix = "." ++ word)
    (filled : word ≠ "") (ends : word.toList.getLast? ≠ some '.') (unslashed : '/' ∉ word.toList)
    (literal : Text.Glob.Literal word.toList) (member : name ∈ names) :
    (d.listed kind name).suffix = "" ↔
      (d.listed kind name).name = d.suffix ∧ '.' ∉ word.toList := by
  have chars : d.suffix.toList = '.' :: word.toList := by simp [leads]
  have unslashed' : '/' ∉ d.suffix.toList := by simp [chars, unslashed]
  have literal' : Text.Glob.Literal ('.' :: word.toList) :=
    List.forall_mem_cons.mpr ⟨by decide, literal⟩
  obtain ⟨path, inside, rfl⟩ := h.member.mp member
  obtain ⟨sub, last, rfl, fits, _⟩ :=
    (h.selectedIff configured unslashed').mp ((h.each path).mp inside).1
  rw [Text.Glob.fits, String.toList_append, chars] at fits
  have star : Text.Glob.piecesFrom 0 ("*".toList ++ '.' :: word.toList) =
      .any :: ('.' :: word.toList).map .char :=
    congrArg (Text.Glob.Piece.any :: ·) (Text.Glob.piecesLiteral literal')
  rw [star, Text.Glob.acceptsAny] at fits
  obtain ⟨front, back, whole, fits⟩ := fits
  rw [Text.Glob.acceptsChars] at fits
  subst fits
  rw [h.listedPath sound inside]
  have named : ((d.ofKind kind).join ⟨"", sub ++ [last]⟩).name = last :=
    Pathname.nameOfParts (List.append_assoc ..).symm
  have cut := Pathname.suffixBehind (named.symm ▸ whole) (by simpa using filled) ends
  rw [cut, named, ← String.toList_inj, whole, chars]
  simp

end Gathers

/-- Names that a directory lists lead to the files that they are listed for, but where a suffix is
put behind one. -/
theorem namesLead (configured : d.IsConfigured) (sound : tree.Sound) (kind : Kind) :
    (∀ names, d.names tree kind = .ok names → d.Lists tree kind names) ∧
    ∀ fault, d.names tree kind = .error fault →
      (fault = .badPattern ∧ ∃ part ∈ (Pathname.ofText ("*" ++ d.suffix)).parts, part ≠ "**" ∧
        Text.contains ['*', '*'] part.toList = true) ∨ ∃ p, fault = FileTree.nameTooLong p := by
  refine ⟨fun names found => ?_, fun fault => namesFault⟩
  rcases namesGathered found with ⟨rfl, nowhere⟩ | ⟨here, pattern, paths, gathers⟩
  · exact {
      sorted := .nil
      once := List.nodup_nil
      there := List.forall_mem_nil _
      resolves := List.forall_mem_nil _
      loads := List.forall_mem_nil _
      common := fun _ _ _ _ _ _ => List.forall_mem_nil _
      whole := fun _ here there => absurd there (nowhere here)
      bare := fun _ => rfl }
  · exact {
      sorted := gathers.sorted
      once := gathers.once sound
      there := fun name member => gathers.there sound member
      resolves := fun name _ => resolveIff configured
      loads := fun name member kept => by
        obtain ⟨bytes, there⟩ := gathers.there sound member
        exact sourceThere ((resolveIff configured).mpr kept) there
      common := fun word leads filled ends unslashed literal name =>
        gathers.common sound configured leads filled ends unslashed literal
      whole := fun unslashed here' there => by
        have same := Except.ok.inj (gathers.placed.symm.trans there)
        cases same
        exact gathers.whole sound configured unslashed
      bare := fun nowhere => absurd gathers.placed (nowhere here) }

def hiddenFiles : FileTree :=
  { files := [(["srv", "home.html"], [120]), (["srv", ".html"], [120])], home := ["srv"] }

def hiddenViews : Directories := ofOptions "." none none none ".html" "utf-8"

theorem hiddenSound : hiddenFiles.Sound where
  names := by decide +kernel
  leaves := by decide
  once := by decide

theorem hiddenConfigured : hiddenViews.IsConfigured :=
  ⟨".", none, none, none, ".html", "utf-8", rfl⟩

theorem hiddenOpened {name : String} (clear : (name.contains '\x00') = false)
    (short : ¬ FileTree.pathLimit ≤ name.utf8ByteSize) :
    hiddenFiles.file? ⟨"", [name]⟩ = match hiddenFiles.walk ["srv"] [name] with
      | .ok (some (.file bytes)) => .ok (some bytes)
      | .ok _ => .ok none
      | .error () => .error (FileTree.nameTooLong ⟨"", [name]⟩) := by
  have text : (Pathname.mk "" [name]).text = name := by simp [Pathname.text]
  unfold FileTree.file? FileTree.place?
  rw [text, clear, if_neg short, show hiddenFiles.start ⟨"", [name]⟩ = ["srv"] from rfl]
  cases hiddenFiles.walk ["srv"] [name] with
  | error => rfl
  | ok place => rcases place with _ | _ | _ <;> rfl

theorem hiddenListed : hiddenViews.names hiddenFiles .page = .ok [".html", "home.html"] := by
  have placed : hiddenFiles.place? ⟨"", []⟩ = .ok (some (.directory ["srv"])) := by
    have plain : (".".contains '\x00') = false := by simp
    unfold FileTree.place?
    rw [show (Pathname.mk "" []).text = "." from rfl, plain]
    rfl
  have read : PartPattern.ofText "*.html" =
      .ok [.named [.any, .char '.', .char 'h', .char 't', .char 'm', .char 'l']] := by
    decide +kernel
  have selected : hiddenFiles.select ["srv"] [.below,
      .named [.any, .char '.', .char 'h', .char 't', .char 'm', .char 'l']] =
        [["home.html"], [".html"]] := by decide +kernel
  have home : hiddenFiles.file? ⟨"", ["home.html"]⟩ = .ok (some [120]) := by
    rw [hiddenOpened (by simp) (by decide +kernel)]
    decide +kernel
  have hidden : hiddenFiles.file? ⟨"", [".html"]⟩ = .ok (some [120]) := by
    rw [hiddenOpened (by simp) (by decide +kernel)]
    decide +kernel
  have apart : ["home.html", ".html"].eraseDups = ["home.html", ".html"] := by decide +kernel
  have order : ["home.html", ".html"].mergeSort (fun a b => decide (a ≤ b)) =
      [".html", "home.html"] := by simp [List.mergeSort]
  have views : hiddenViews.ofKind .page = ⟨"", []⟩ := by decide +kernel
  have pattern : "*" ++ hiddenViews.suffix = "*.html" := by decide +kernel
  unfold Directories.names
  rw [views, pattern]
  simp [placed, read, selected, Pathname.join, home, hidden, apart, order, bind, Except.bind, pure,
    Except.pure]

/- A file that is named by the suffix alone is listed and not found under its name. -/
theorem hiddenUnfound : hiddenViews.IsConfigured ∧ hiddenFiles.Sound ∧
    hiddenViews.names hiddenFiles .page = .ok [".html", "home.html"] ∧
    hiddenViews.resolve .page ".html" = .ok ⟨"", [".html.html"]⟩ ∧
    hiddenViews.source hiddenFiles .page ".html" =
      .error (.notFound "Template '.html' not found in: .") := by
  have resolved : hiddenViews.resolve .page ".html" = .ok ⟨"", [".html.html"]⟩ := by decide +kernel
  have missing : hiddenFiles.file? ⟨"", [".html.html"]⟩ = .ok none := by
    rw [hiddenOpened (by simp) (by decide +kernel)]
    decide +kernel
  refine ⟨hiddenConfigured, hiddenSound, hiddenListed, resolved, ?_⟩
  unfold source
  rw [resolved]
  simp only [bind, Except.bind, missing]
  decide +kernel

theorem homeLeads : hiddenViews.IsConfigured ∧ hiddenFiles.Sound ∧
    hiddenViews.names hiddenFiles .page = .ok [".html", "home.html"] ∧
      hiddenViews.Lists hiddenFiles .page [".html", "home.html"] :=
  ⟨hiddenConfigured, hiddenSound, hiddenListed,
    (namesLead hiddenConfigured hiddenSound .page).1 _ hiddenListed⟩
end Directories
end Medley

import Mathlib
import Medley.Proofs.Template.Data
import Medley.Translator

/-! Translations by their history. Texts come from files, are given in place and are added later;
what a translator finds is what was written last, under whichever spelling of its key. An empty text
is not found. -/
namespace Medley

namespace Value

theorem textual {v : Value} {s : String} (found : v.string? = some s) :
    v = .text s ∨ v = .markup s := by
  cases v <;> simp_all [string?]

theorem sameText {a : Value} {s : String} : a.same (.text s) = true ↔ a.string? = some s := by
  cases a <;> simp [Value.same, sameScalar, string?, entries?, number?]

theorem sameTextual {k : Value} {s : String} (found : k.string? = some s) (a : Value) :
    a.same k = a.same (.text s) := by
  obtain rfl | rfl := textual found
  · rfl
  · cases a <;> simp [Value.same, sameScalar, entries?, number?]

theorem textSame {k b : Value} {s : String} (found : k.string? = some s)
    (same : k.same b = true) : b.string? = some s := by
  obtain rfl | rfl := textual found <;> cases b <;>
    simp_all [Value.same, sameScalar, string?, number?]

theorem sameStrings {a b : Value} (same : a.same b = true) : a.string? = b.string? := by
  cases second : b.string? with
  | some s => exact sameText.mp ((sameTextual second a).symm.trans same)
  | none =>
    cases first : a.string? with
    | none => rfl
    | some s => exact absurd (textSame first same) (by simp [second])

theorem lookupTextual {α : Type} {k : Value} {s : String} (found : k.string? = some s)
    (entries : List (Value × α)) : lookup? k entries = lookup? (.text s) entries := by
  induction entries with
  | nil => rfl
  | cons e rest ih => rw [lookup?, lookup?, sameTextual found, ih]

theorem lookupSetEntry {α : Type} (entries : List (Value × α)) (k : Value) (v : α) (s : String) :
    lookup? (.text s) (setEntry entries k v) =
      if k.string? = some s then some v else lookup? (.text s) entries := by
  induction entries with
  | nil =>
    rw [setEntry, lookup?]
    exact if_congr sameText rfl rfl
  | cons e rest ih =>
    rw [setEntry]
    split
    · rename_i here
      rw [lookup?, lookup?]
      have first : e.1.same (.text s) = true ↔ k.string? = some s := by
        rw [sameText, sameStrings here]
      by_cases asked : k.string? = some s
      · rw [if_pos asked, if_pos (first.mpr asked)]
      · rw [if_neg asked, if_neg (mt first.mp asked), if_neg (mt first.mp asked)]
    · rename_i apart
      rw [lookup?, lookup?, ih]
      by_cases first : e.1.same (.text s) = true
      · have other : k.string? ≠ some s := fun found =>
          apart ((sameTextual found _).trans first)
        rw [if_pos first, if_pos first, if_neg other]
      · rw [if_neg first, if_neg first]

end Value

namespace Table

mutual

/-- What stands in nested entries and is no map, with the keys that lead to it, in order. -/
def leaves : List (Value × Value) → List (List Value × Value)
  | [] => []
  | (k, v) :: rest => (leavesUnder v).map (fun leaf => (k :: leaf.1, leaf.2)) ++ leaves rest

def leavesUnder : Value → List (List Value × Value)
  | .map entries => leaves entries
  | v => [([], v)]

end

def dotted (keys : List Value) : String := String.intercalate "." (keys.map Value.written)

def texts (entries : List (Value × Value)) : Table :=
  (leaves entries).map fun leaf => (dotted leaf.1, leaf.2.written)

def further (keys : List Value) : String := String.join (keys.map fun k => "." ++ k.written)

theorem dottedCons (k : Value) (keys : List Value) :
    dotted (k :: keys) = k.written ++ further keys := by
  induction keys generalizing k with
  | nil => simp [dotted, further]
  | cons l keys ih =>
    have rest := ih l
    unfold dotted further at rest ⊢
    rw [List.map_cons, List.map_cons, String.intercalate_cons_cons, ← List.map_cons, rest,
      List.map_cons, String.join_cons]
    simp only [String.append_assoc]

theorem leavesKeyed {entries : List (Value × Value)} {leaf : List Value × Value}
    (member : leaf ∈ leaves entries) : ∃ k keys, leaf.1 = k :: keys := by
  induction entries with
  | nil => cases member
  | cons e rest ih =>
    rw [leaves] at member
    rcases List.mem_append.mp member with here | later
    · obtain ⟨_, _, rfl⟩ := List.mem_map.mp here
      exact ⟨_, _, rfl⟩
    · exact ih later

mutual

theorem flattenEntriesLeaves (path : String) (entries : List (Value × Value)) :
    flattenEntries path entries =
      (leaves entries).map fun leaf => (path ++ dotted leaf.1, leaf.2.written) := by
  cases entries with
  | nil => rfl
  | cons e rest =>
    obtain ⟨k, v⟩ := e
    rw [flattenEntries, leaves, flattenEntriesLeaves path rest, flattenEntryLeaves, List.map_append,
      List.map_map]
    refine congrArg (· ++ _) (List.map_congr_left fun leaf _ => ?_)
    simp only [Function.comp_apply, dottedCons, String.append_assoc]

theorem flattenEntryLeaves (name : String) (v : Value) :
    flattenEntry name v =
      (leavesUnder v).map fun leaf => (name ++ further leaf.1, leaf.2.written) := by
  cases v with
  | map entries =>
    rw [flattenEntry, leavesUnder, flattenEntriesLeaves]
    refine List.map_congr_left fun leaf member => ?_
    obtain ⟨k, keys, first⟩ := leavesKeyed member
    have front : further (k :: keys) = "." ++ k.written ++ further keys := by
      rw [further, List.map_cons, String.join_cons]
      rfl
    simp only [first, front, dottedCons, String.append_assoc]
  | _ => simp [flattenEntry, leavesUnder, further]

end

theorem flattenTexts (entries : List (Value × Value)) :
    flattenEntries "" entries = texts entries := by
  rw [flattenEntriesLeaves, texts]
  simp only [String.empty_append]

theorem lookupMerge (under top : Table) (key : String) :
    (under.merge top).lookup key = (top.reverse.lookup key).or (under.lookup key) :=
  lookupSetAll under top key

end Table

namespace Translator

/- Texts that are put over those of a locale, or in place of them. -/
structure Change where
  locale : Value
  entries : List (Value × Value)
  keeping : Bool

def Change.text? (c : Change) (key : String) : Option String :=
  (Table.texts c.entries).reverse.lookup key

def Change.after (locale key : String) (before : Option String) (c : Change) : Option String :=
  if c.locale.string? = some locale then (c.text? key).or (if c.keeping then before else none)
  else before

def latest? (changes : List Change) (locale key : String) : Option String :=
  changes.foldl (Change.after locale key) none

theorem latestAppend (changes : List Change) (c : Change) (locale key : String) :
    latest? (changes ++ [c]) locale key = c.after locale key (latest? changes locale key) := by
  simp [latest?]

/- The tables of a translator have what the changes have written. -/
def Holds (t : Translator) (changes : List Change) : Prop :=
  ∀ locale key, (t.table (.text locale)).lookup key = latest? changes locale key

theorem tableSet (t : Translator) (locale : Value) (texts : Table) (other : String) :
    ({ t with tables := Value.setEntry t.tables locale texts } : Translator).table (.text other) =
      if locale.string? = some other then texts else t.table (.text other) := by
  unfold table
  rw [Value.lookupSetEntry]
  split <;> rfl

theorem tableTextual (t : Translator) {locale : Value} {s : String}
    (textual : locale.string? = some s) : t.table locale = t.table (.text s) :=
  congrArg (Option.getD · []) (Value.lookupTextual textual t.tables)

theorem addTexts (t : Translator) (locale : Value) {entries : List (Value × Value)}
    (writable : Value.entriesWritable entries = true) :
    t.add locale (.map entries) = .ok { t with
      tables := Value.setEntry t.tables locale
        ((t.table locale).merge (Table.texts entries)) } := by
  rw [← Table.flattenTexts]
  exact if_pos writable

theorem Holds.add {t t' : Translator} {changes : List Change} (holds : t.Holds changes)
    {locale : Value} {entries : List (Value × Value)}
    (added : t.add locale (.map entries) = .ok t') :
    t'.Holds (changes ++ [⟨locale, entries, true⟩]) ∧ t'.fallback = t.fallback := by
  by_cases writable : Value.entriesWritable entries = true
  · rw [addTexts t locale writable] at added
    cases added
    refine ⟨fun other key => ?_, rfl⟩
    rw [tableSet, latestAppend, Change.after, ← holds]
    split
    · rename_i same
      rw [Table.lookupMerge, tableTextual t same]
      rfl
    · rfl
  · have refused : t.add locale (.map entries) = .error .unwritableInteger := if_neg writable
    rw [refused] at added
    cases added

def addEach (t : Translator) (given : List (Value × List (Value × Value))) :
    Except Fault Translator :=
  given.foldlM (fun t g => t.add g.1 (.map g.2)) t

def atop (given : List (Value × List (Value × Value))) : List Change :=
  given.map fun g => ⟨g.1, g.2, true⟩

theorem Holds.addEach {given : List (Value × List (Value × Value))} {t t' : Translator}
    {changes : List Change} (holds : t.Holds changes) (added : t.addEach given = .ok t') :
    t'.Holds (changes ++ atop given) ∧ t'.fallback = t.fallback := by
  induction given generalizing t changes with
  | nil =>
    cases added
    exact ⟨by simpa [atop] using holds, rfl⟩
  | cons g given ih =>
    rw [Translator.addEach, List.foldlM_cons] at added
    obtain ⟨next, first, later⟩ := okBind added
    obtain ⟨held, same⟩ := holds.add first
    obtain ⟨all, kept⟩ := ih held later
    refine ⟨?_, kept.trans same⟩
    simpa [atop] using all

theorem addEachWritable {given : List (Value × List (Value × Value))}
    (writable : ∀ g ∈ given, Value.entriesWritable g.2 = true) (t : Translator) :
    ∃ t', t.addEach given = .ok t' := by
  induction given generalizing t with
  | nil => exact ⟨t, rfl⟩
  | cons g given ih =>
    obtain ⟨first, later⟩ := List.forall_mem_cons.mp writable
    rw [addEach, List.foldlM_cons, addTexts t g.1 first]
    exact ih later _

def mapOf (given : List (Value × List (Value × Value))) : Value :=
  .map (given.map fun g => (g.1, .map g.2))

theorem addAllMap (t : Translator) (given : List (Value × List (Value × Value))) :
    t.addAll (mapOf given) = t.addEach given := by
  cases given with
  | nil => rfl
  | cons g given =>
    have entries : Table.entriesOf (mapOf (g :: given)) =
        .ok ((g :: given).map fun g => (g.1, .map g.2)) := rfl
    have anything : (mapOf (g :: given)).isGiven = true := rfl
    unfold addAll addEach
    rw [if_pos anything, entries]
    exact List.foldlM_map

/- A file of texts holds a map, and is named for a locale. -/
structure InFile (encoding : String) (file : Pathname × Option Encoding.Bytes)
    (held : String × List (Value × Value)) : Prop where
  named : file.1.stem = held.1
  holds : ∃ bytes source, file.2 = some bytes ∧ FileTree.readText encoding bytes = .ok source ∧
    Json.read source.toList = .ok (.map held.2)

def InDirectory (tree : FileTree) (encoding : String)
    (held : List (String × List (Value × Value))) : Option String → Prop
  | none => held = []
  | some directory => ∃ files, filesIn tree directory = .ok files ∧
      List.Forall₂ (InFile encoding) files held

def instead (held : List (String × List (Value × Value))) : List Change :=
  held.map fun h => ⟨.text h.1, h.2, false⟩

theorem readFileHolds {encoding : String} {file : Pathname × Option Encoding.Bytes}
    {name : String} {texts : Table} (read : readFile encoding file.1 file.2 = .ok (name, texts)) :
    ∃ entries, InFile encoding file (name, entries) ∧
      texts = Table.merge [] (Table.texts entries) := by
  obtain ⟨path, bytes⟩ := file
  unfold readFile at read
  cases bytes with
  | none => cases read
  | some bytes =>
    obtain ⟨_, same, read⟩ := okBind read
    cases same
    obtain ⟨source, decoded, read⟩ := okBind read
    dsimp only at read
    split at read
    · cases read
    · rename_i entries parsed
      cases read
      refine ⟨entries, ⟨rfl, bytes, source, rfl, decoded, parsed⟩, ?_⟩
      rw [Table.ofEntries, Table.flattenTexts]
    · cases read

theorem readEach {encoding : String} {files : List (Pathname × Option Encoding.Bytes)}
    {parts : List (Pathname × String × Table)}
    (read : (files.mapM fun file => do
      let (name, table) ← readFile encoding file.1 file.2
      return (file.1, name, table)) = .ok parts) :
    ∃ held, List.Forall₂ (InFile encoding) files held ∧
      parts.map Prod.snd = held.map fun h => (h.1, Table.merge [] (Table.texts h.2)) := by
  induction files generalizing parts with
  | nil =>
    cases read
    exact ⟨[], .nil, rfl⟩
  | cons file files ih =>
    rw [List.mapM_cons] at read
    obtain ⟨part, first, read⟩ := okBind read
    obtain ⟨rest, later, read⟩ := okBind read
    obtain ⟨⟨name, texts⟩, here, first⟩ := okBind first
    cases first
    cases read
    obtain ⟨held, holds, same⟩ := ih later
    obtain ⟨entries, inside, rfl⟩ := readFileHolds here
    exact ⟨(name, entries) :: held, .cons inside holds, by rw [List.map_cons, same]; rfl⟩

theorem insteadHolds (held : List (String × List (Value × Value))) (locale : String)
    (fallback : Option String) :
    Holds ⟨held.foldl (fun acc h =>
      Value.setEntry acc (.text h.1) (Table.merge [] (Table.texts h.2))) [], locale, fallback⟩
      (instead held) := by
  induction held using List.reverseRecOn with
  | nil => exact fun _ _ => rfl
  | append_singleton held h ih =>
    intro other key
    have changes : instead (held ++ [h]) = instead held ++ [⟨.text h.1, h.2, false⟩] := by
      simp [instead]
    rw [changes, latestAppend, Change.after, ← ih, List.foldl_append]
    refine (congrArg (List.lookup key) (tableSet ⟨_, locale, fallback⟩ (.text h.1) _ other)).trans ?_
    split
    · rw [Table.lookupMerge]
      rfl
    · rfl

theorem readDirectoryHolds {tree : FileTree} {directory encoding : String}
    {tables : List (Value × Table)} {logs : List Log}
    (read : readDirectory tree directory encoding = .ok (tables, logs)) :
    ∃ held, InDirectory tree encoding held (some directory) ∧
      ∀ locale fallback, Holds ⟨tables, locale, fallback⟩ (instead held) := by
  obtain ⟨files, found, read⟩ := okBind read
  obtain ⟨parts, all, read⟩ := okBind read
  cases read
  obtain ⟨held, holds, same⟩ := readEach all
  refine ⟨held, ⟨files, found, holds⟩, fun locale fallback => ?_⟩
  have folded : parts.foldl (fun acc part => Value.setEntry acc (.text part.2.1) part.2.2) [] =
      (parts.map Prod.snd).foldl (fun acc table => Value.setEntry acc (.text table.1) table.2)
        [] := by
    rw [List.foldl_map]
  rw [folded, same, List.foldl_map]
  exact insteadHolds held locale fallback

/- An empty text says nothing. -/
def said? (changes : List Change) (locale key : String) : Option String :=
  (latest? changes locale key).filter fun s => !s.isEmpty

theorem Holds.translate {t : Translator} {changes : List Change} (holds : t.Holds changes)
    (key locale : String) :
    t.translate key locale = ((said? changes locale key).or
      ((t.fallback.filter fun other => !other.isEmpty).bind fun other =>
        said? changes other key)).getD key := by
  have text : ∀ locale, t.text? locale key = said? changes locale key := fun locale =>
    congrArg (Option.filter _) (holds locale key)
  unfold Translator.translate found?
  rw [text]
  cases said : said? changes locale key with
  | some s => rfl
  | none =>
    cases t.fallback with
    | none => rfl
    | some other =>
      dsimp only
      rw [text]
      rw [Option.filter_some]
      by_cases empty : other.isEmpty = true
      · simp [empty]
      · by_cases same : other = locale
        · subst same
          simp [empty, said]
        · simp [empty, same]

theorem latestUnmentioned {entries : List (Value × Value)} {key : String}
    (unmentioned : ∀ leaf ∈ Table.leaves entries, Table.dotted leaf.1 ≠ key) (changes : List Change)
    (added : Value) (locale : String) :
    latest? (changes ++ [⟨added, entries, true⟩]) locale key = latest? changes locale key := by
  have nothing : (Table.texts entries).reverse.lookup key = none := by
    rw [List.lookup_eq_none_iff]
    intro text member
    obtain ⟨leaf, inside, rfl⟩ := List.mem_map.mp (List.mem_reverse.mp member)
    simpa using Ne.symm (unmentioned leaf inside)
  rw [latestAppend, Change.after, Change.text?, nothing]
  simp

theorem loadHolds {tree : FileTree} {directory : Option String} {encoding : String}
    {given : List (Value × List (Value × Value))} {locale : String} {fallback : Option String}
    {t : Translator} {logs : List Log}
    (built : load tree directory encoding (mapOf given) locale fallback = .ok (t, logs)) :
    ∃ held, InDirectory tree encoding held directory ∧ t.Holds (instead held ++ atop given) ∧
      t.fallback = fallback := by
  unfold load at built
  cases directory with
  | none =>
    obtain ⟨_, read, built⟩ := okBind built
    cases read
    obtain ⟨t', added, built⟩ := okBind built
    cases built
    rw [addAllMap] at added
    have empty : Holds ⟨[], locale, fallback⟩ (instead []) := fun _ _ => rfl
    exact ⟨[], rfl, empty.addEach added⟩
  | some directory =>
    obtain ⟨⟨tables, notes⟩, read, built⟩ := okBind built
    obtain ⟨t', added, built⟩ := okBind built
    cases built
    rw [addAllMap] at added
    obtain ⟨held, inside, holds⟩ := readDirectoryHolds read
    exact ⟨held, inside, (holds locale fallback).addEach added⟩

/- It finds what the changes have written last for a key in a locale unless that is empty, then
in the same way what they have written in the fallback, then the key. -/
structure Latest (t : Translator) (changes : List Change) (fallback : Option String) : Prop where
  finds : ∀ key locale, t.translate key locale = ((said? changes locale key).or
    ((fallback.filter fun other => !other.isEmpty).bind fun other =>
      said? changes other key)).getD key
  -- the locale asked for is the one that is named
  named : ∀ current name, name ≠ "" → t.active (.text name) current = .ok name
  -- what is added changes nothing but the texts that are mentioned
  keeps : ∀ {locale entries t'}, t.add locale (.map entries) = .ok t' →
    ∀ {key}, (∀ leaf ∈ Table.leaves entries, Table.dotted leaf.1 ≠ key) →
      ∀ asked, t'.translate key asked = t.translate key asked

/- A translator is built from files and from what is given in place, and is added to: the last text
written is found, with an empty one counting as none. -/
theorem latestFound {tree : FileTree} {directory : Option String} {encoding : String}
    {given added : List (Value × List (Value × Value))} {locale : String}
    {fallback : Option String} {t : Translator} {logs : List Log}
    (built : load tree directory encoding (mapOf given) locale fallback = .ok (t, logs))
    (writable : ∀ a ∈ added, Value.entriesWritable a.2 = true) :
    ∃ held t', InDirectory tree encoding held directory ∧ t.addEach added = .ok t' ∧
      t'.Latest (instead held ++ atop (given ++ added)) fallback := by
  obtain ⟨held, inside, holds, same⟩ := loadHolds built
  obtain ⟨t', run⟩ := addEachWritable writable t
  obtain ⟨holds, kept⟩ := holds.addEach run
  have whole : instead held ++ atop given ++ atop added =
      instead held ++ atop (given ++ added) := by
    rw [atop, atop, atop, List.map_append, List.append_assoc]
  rw [whole] at holds
  refine ⟨held, t', inside, run, fun key locale => ?_, fun current name anything => ?_, ?_⟩
  · rw [holds.translate, kept, same]
  · have named : (Value.text name).isGiven = true := by simpa [Value.isGiven] using anything
    exact if_pos named
  · intro more entries t'' run key unmentioned asked
    obtain ⟨next, still⟩ := holds.add run
    rw [next.translate, holds.translate, still]
    simp only [said?, latestUnmentioned unmentioned]

def shelf : FileTree :=
  .ofTexts ["srv"] [("i18n/en.json",
    "\x7b\"nav\": \x7b\"home\": \"Home\", \"out\": \"Bye\"\x7d\x7d".toUTF8.toList)]

/- One key in two spellings, and another language. -/
def spelled : List (Value × List (Value × Value)) :=
  [(.text "en",
      [(.text "nav", .map [(.text "home", .text "Start")]), (.text "nav.home", .text "Begin")]),
    (.text "fr", [(.text "nav", .map [(.text "home", .text "Accueil")])])]

def shelved : Translator :=
  ⟨[(.text "en", [("nav.home", "Begin"), ("nav.out", "Bye")]),
    (.text "fr", [("nav.home", "Accueil")])], "fr", some "en"⟩

theorem shelfLoads : (load shelf (some "i18n") "utf-8" (mapOf spelled) "fr" (some "en")).map
    Prod.fst = .ok shelved := by cbv

theorem shelvedFound : (∀ a ∈ [(Value.text "fr", [(Value.int 1, Value.bool true)])],
      Value.entriesWritable a.2 = true) ∧
    ∃ logs, load shelf (some "i18n") "utf-8" (mapOf spelled) "fr" (some "en") =
        .ok (shelved, logs) ∧
      ∃ held t', InDirectory shelf "utf-8" held (some "i18n") ∧
        shelved.addEach [(.text "fr", [(.int 1, .bool true)])] = .ok t' ∧
          t'.Latest (instead held ++ atop (spelled ++ [(.text "fr", [(.int 1, .bool true)])]))
            (some "en") := by
  have writable : ∀ a ∈ [(Value.text "fr", [(Value.int 1, Value.bool true)])],
      Value.entriesWritable a.2 = true := by decide
  obtain ⟨⟨t, logs⟩, built, same⟩ := okMap shelfLoads
  cases same
  exact ⟨writable, logs, built, latestFound built writable⟩

/- An empty text that was written is not what is found. -/
theorem emptyUnfound : ∃ t, load {} none "utf-8"
    (mapOf [(.text "en", [(.text "k", .text "")])]) "en"
      none = .ok (t, []) ∧
    latest? (atop [(.text "en", [(.text "k", .text "")])]) "en" "k" = some "" ∧
      t.translate "k" "en" ≠ "" :=
  ⟨⟨[(.text "en", [("k", "")])], "en", none⟩, rfl, rfl, by cbv⟩

end Translator
end Medley

import Medley.Proofs.Session.FailedLoads

/-! What a remembered template goes by. While files stay as they are, an environment that remembers
templates gives the tree, the metadata and the file that one without a cache would give; but the
template keeps the name under which its file was first asked for, as long as it is remembered. -/
namespace Medley

theorem Template.readNamed (o : ReadOptions) (name : Option String) (source : String) :
    read { o with name } source =
      (read o source).map fun out => { out with template := { out.template with name } } := by
  unfold read
  dsimp only
  cases (if o.frontmatter then Frontmatter.split source.toList else none) with
  | none => rfl
  | some split =>
    dsimp only
    cases Frontmatter.data split.block <;> rfl

namespace Engine
variable {e : Engine}

/- Names with one key stand for one template, apart from its name. -/
theorem fetchNamed (sound : e.loader.Sound) {kind : Kind} {a b key : String}
    (first : e.loader.cacheKey kind a = .ok key) (second : e.loader.cacheKey kind b = .ok key)
    {t : Template} (found : e.fetch kind a = .ok t) :
    e.fetch kind b = .ok { t with name := some b } := by
  unfold fetch at found ⊢
  cases source : e.loader.source e.tree kind a with
  | error fault => simp [source] at found
  | ok reads =>
    obtain ⟨text, file⟩ := reads
    rw [source] at found
    rw [Loader.sourceOfKey sound first second source]
    dsimp only [read] at found ⊢
    have named := fun n => Template.readNamed { filename := file, debug := e.debug } (some n) text
    dsimp only at named
    rw [named] at found ⊢
    cases out : Template.read { filename := file, debug := e.debug } text with
    | error fault => simp [out, Except.map] at found
    | ok out =>
      rw [out] at found
      cases found
      rfl

theorem fetchKeyed {d : Directories} (files : e.loader = .files d) {kind : Kind} {name : String}
    {t : Template} (found : e.fetch kind name = .ok t) :
    ∃ key, e.loader.cacheKey kind name = .ok key := by
  unfold fetch at found
  rw [files] at found ⊢
  cases source : (Loader.files d).source e.tree kind name with
  | error fault => simp [source] at found
  | ok reads =>
    obtain ⟨_, file, _⟩ := okBind source
    obtain ⟨path, resolved, _⟩ := okBind file
    exact ⟨path.text, by rw [Loader.cacheKey, resolved]; rfl⟩

end Engine

namespace History
variable (e : Engine) (delayed : Bool) {past : History}

theorem engineStill (still : ∀ step ∈ past, step.Still) :
    engine e past = { e with cached := true } := by
  induction past with
  | nil => rfl
  | cons step past ih =>
    have same := ih fun step member => still step (List.mem_cons_of_mem _ member)
    cases step with
    | change loader tree => exact absurd (still _ List.mem_cons_self) id
    | _ => exact same

theorem readingKeyed {step : Upkeep} {entry : CacheKey × Template}
    (read : reading? e past step = some entry) : key? e past step = some entry.1 := by
  obtain ⟨_, _, rest⟩ := Option.bind_eq_some_iff.mp read
  obtain ⟨own, keyed, rest⟩ := Option.bind_eq_some_iff.mp rest
  obtain ⟨_, _, same⟩ := Option.bind_eq_some_iff.mp rest
  cases same
  exact keyed

/- The name under which a key was first asked for since the cache was last emptied. -/
def firstName? : History → CacheKey → Option String
  | [], _ => none
  | step :: past, key =>
      if empties delayed past step then none
      else (firstName? past key).or
        (if key? e past step = some key then step.asked?.map Prod.snd else none)

theorem readingNamed (sound : e.loader.Sound) (still : ∀ step ∈ past, step.Still) {kind : Kind}
    {name key : String} {t : Template} (keyed : e.loader.cacheKey kind name = .ok key)
    (found : e.fetch kind name = .ok t) {step : Upkeep}
    (same : key? e past step = some ⟨kind, key⟩) : ∃ other, step.asked? = some (kind, other) ∧
      reading? e past step = some (⟨kind, key⟩, { t with name := some other }) := by
  cases asked : step.asked? with
  | none =>
    rw [(unaskedReads e past asked).1] at same
    contradiction
  | some ask =>
    obtain ⟨kind', other⟩ := ask
    have reading := readingOf e past asked
    have known := keyOf e past asked
    rw [same] at reading known
    rw [engineStill e still] at reading known
    obtain ⟨text, made, here⟩ := Option.map_eq_some_iff.mp known.symm
    cases here
    have own : e.loader.cacheKey kind other = .ok key := by
      cases result : e.loader.cacheKey kind other with
      | error fault => simp [result, Except.toOption] at made
      | ok text => simpa [result, Except.toOption] using made
    have read : Engine.fetch { e with cached := true } kind other = _ :=
      Engine.fetchNamed sound keyed own found
    exact ⟨other, rfl, by rw [reading, read]; rfl⟩

theorem firstNamed (sound : e.loader.Sound) (still : ∀ step ∈ past, step.Still) {kind : Kind}
    {name key : String} {t : Template} (keyed : e.loader.cacheKey kind name = .ok key)
    (found : e.fetch kind name = .ok t) :
    first? e delayed past ⟨kind, key⟩ =
      (firstName? e delayed past ⟨kind, key⟩).map fun first => { t with name := some first } := by
  induction past with
  | nil => rfl
  | cons step past ih =>
    have before := fun step member => still step (List.mem_cons_of_mem _ member)
    rw [firstNext, firstName?]
    split
    · rfl
    · rw [ih before]
      cases known : firstName? e delayed past ⟨kind, key⟩ with
      | some first => rfl
      | none =>
        have unread : first? e delayed past ⟨kind, key⟩ = none := by rw [ih before, known]; rfl
        by_cases same : key? e past step = some ⟨kind, key⟩
        · obtain ⟨other, asked, reading⟩ := readingNamed e sound before keyed found same
          simp [stored?, reading, unread, same, asked, Option.filter]
        · -- what the step reads, if it reads anything, is under another key
          have other : (stored? e delayed past step).toList.lookup ⟨kind, key⟩ = none := by
            cases stored : stored? e delayed past step with
            | none => rfl
            | some entry =>
              have keyed := readingKeyed e (Option.filter_eq_some_iff.mp stored).1
              have apart : ¬ (⟨kind, key⟩ : CacheKey) = entry.1 := fun here =>
                same (here ▸ keyed)
              simp [apart]
          rw [other, if_neg same]
          rfl

end History

namespace Session
variable {e : Engine}

theorem answersFirstNamed (sound : e.loader.Sound) (h : Host) (delayed : Bool) {past : History}
    (still : ∀ step ∈ past, step.Still) {kind : Kind} {name key : String} {t : Template}
    (keyed : e.loader.cacheKey kind name = .ok key) (found : e.fetch kind name = .ok t) :
    let s := (new e h delayed).after past
    s.engine.loaded s.cache kind name =
      .ok { t with name := some ((History.firstName? e delayed past ⟨kind, key⟩).getD name) } := by
  dsimp only
  rw [(afterFollows e h delayed past).answers, History.answer, History.engineStill e still]
  dsimp only
  rw [keyed]
  dsimp only [bind, Except.bind]
  rw [History.firstNamed e delayed sound still keyed found]
  cases History.firstName? e delayed past ⟨kind, key⟩ with
  | some first => rfl
  | none =>
    have own : e.fetch kind name = .ok { t with name := some name } :=
      Engine.fetchNamed sound keyed keyed found
    exact own

def viewsAnew : Session := new (viewsSession true).engine Stage.echoHost false

theorem homeSource : (viewsSession true).engine.loader.source (viewsSession true).engine.tree .page
    "home.html" = .ok ("Hi", some "views/home.html") := by
  have resolved : Directories.resolve (.ofOptions "views" none none none ".html" "utf-8") .page
      "home.html" = .ok ⟨"", ["views", "home.html"]⟩ := by decide +kernel
  have text : (Pathname.mk "" ["views", "home.html"]).text = "views/home.html" := by
    decide +kernel
  have file : (viewsSession true).engine.tree.file? ⟨"", ["views", "home.html"]⟩ =
      .ok (some "Hi".toUTF8.toList) := by
    have plain : ("views/home.html".contains '\x00') = false := by simp
    have short : ¬ FileTree.pathLimit ≤ "views/home.html".utf8ByteSize := by decide +kernel
    unfold FileTree.file? FileTree.place?
    rw [text, plain, if_neg short]
    rfl
  have read : FileTree.readText "utf-8" "Hi".toUTF8.toList = .ok "Hi" := by decide +kernel
  have encoding : (Directories.ofOptions "views" none none none ".html" "utf-8").encoding =
      "utf-8" := rfl
  rw [show (viewsSession true).engine.loader =
    .files (.ofOptions "views" none none none ".html" "utf-8") from rfl, Loader.source,
    Directories.source, resolved]
  dsimp only [bind, Except.bind]
  rw [file]
  dsimp only
  rw [encoding, read, text]
  rfl

theorem homeReads : ∃ t, (viewsSession true).engine.fetch .page "home.html" = .ok t := by
  have whole : Frontmatter.split "Hi".toList = none := by decide
  unfold Engine.fetch Engine.read Template.read
  rw [homeSource]
  dsimp only
  rw [whole]
  exact ⟨_, rfl⟩

theorem homeKeyed : (viewsSession true).engine.loader.cacheKey .page "home.html" =
    .ok "views/home.html" := by decide +kernel

theorem homeFirst : History.firstName? (viewsSession true).engine false [.load .page "home"]
    ⟨.page, "views/home.html"⟩ = some "home" := by decide +kernel

theorem homeStill : ∀ step ∈ [Upkeep.load .page "home"], step.Still := by
  intro step member
  cases List.mem_singleton.mp member
  trivial

/-- What a load gives is what it would give without a cache, under the name by which the file was
first asked for. -/
theorem rememberedFirstNamed {views : String} {embeds components layouts : Option String}
    {suffix encoding : String}
    (files : e.loader = .files (.ofOptions views embeds components layouts suffix encoding))
    (h : Host) (delayed : Bool) {past : History} (still : ∀ step ∈ past, step.Still) {kind : Kind}
    {name : String} {t : Template}
    (uncached : (((new e h delayed).withCache false).load kind name).1.result = .ok t) :
    ∃ key, e.loader.cacheKey kind name = .ok key ∧
      let first := (History.firstName? e delayed past ⟨kind, key⟩).getD name
      let s := (new e h delayed).after past
      (s.load kind name).1.result = .ok { t with name := some first } ∧
        (s.load? kind name).1.result = .ok (some { t with name := some first }) := by
  have sound : e.loader.Sound := by
    rw [files]
    exact Directories.ofOptionsSound views embeds components layouts suffix encoding
  rw [(loadGives _ kind name).1] at uncached
  have found : e.fetch kind name = .ok t := uncached
  obtain ⟨key, keyed⟩ := Engine.fetchKeyed files found
  have answer := answersFirstNamed sound h delayed still keyed found
  refine ⟨key, keyed, ?_⟩
  dsimp only at answer ⊢
  rw [(loadGives _ kind name).1, (findGives _ kind name).1, answer]
  exact ⟨rfl, rfl⟩

theorem homeKeepsName : ∃ t,
    ((viewsAnew.withCache false).load .page "home.html").1.result = .ok t ∧
      ((viewsAnew.after [.load .page "home"]).load .page "home.html").1.result =
        .ok { t with name := some "home" } := by
  obtain ⟨t, found⟩ := homeReads
  have uncached : ((viewsAnew.withCache false).load .page "home.html").1.result = .ok t := by
    rw [(loadGives _ .page "home.html").1]
    exact found
  obtain ⟨key, keyed, loaded, _⟩ := rememberedFirstNamed (e := (viewsSession true).engine) rfl
    Stage.echoHost false homeStill uncached
  cases homeKeyed.symm.trans keyed
  rw [homeFirst] at loaded
  exact ⟨t, uncached, loaded⟩

/- A load by another name of a remembered file gives a template that is not of that name. -/
theorem nameNotAsked : ¬ ∀ (e : Engine) (h : Host) (delayed : Bool) (views : String)
    (embeds components layouts : Option String) (suffix encoding : String) (past : History)
    (kind : Kind) (name : String) (t : Template),
    e.loader = .files (.ofOptions views embeds components layouts suffix encoding) →
    (∀ step ∈ past, ∃ kind name, step = .load kind name) →
    (((new e h delayed).withCache false).load kind name).1.result = .ok t →
      (((new e h delayed).after past).load kind name).1.result = .ok t := by
  intro every
  obtain ⟨t, found⟩ := homeReads
  have sound : (viewsSession true).engine.loader.Sound :=
    Directories.ofOptionsSound "views" none none none ".html" "utf-8"
  have uncached : ((viewsAnew.withCache false).load .page "home.html").1.result = .ok t := by
    rw [(loadGives _ .page "home.html").1]
    exact found
  have same := every (viewsSession true).engine Stage.echoHost false "views" none none none
    ".html" "utf-8" [.load .page "home"] .page "home.html" t rfl (by simp) uncached
  have remembered := answersFirstNamed sound Stage.echoHost false homeStill homeKeyed found
  dsimp only at remembered
  rw [(loadGives _ .page "home.html").1, remembered, homeFirst] at same
  have own := Engine.fetchNamed sound homeKeyed homeKeyed found
  rw [found] at own
  have asked := congrArg (Except.map Template.name) own
  have kept := congrArg (Except.map Template.name) same
  rw [asked] at kept
  exact absurd kept (by simp [Except.map])

end Session
end Medley

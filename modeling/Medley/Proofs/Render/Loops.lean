import Medley.Proofs.Render.Escaping

/-! Loops and the names around them. A path of a loop's own names leads into the item of the
iteration; only a name that is the whole of a dotted path, dots and all, can stand before it. -/
namespace Medley

theorem Text.cutCharNone {sep : Char} {s : List Char} (whole : sep ∉ s) :
    cutChar sep s = (s, none) := by
  induction s with
  | nil => rfl
  | cons c s ih =>
    simp only [List.mem_cons, not_or] at whole
    rw [cutChar, if_neg (Ne.symm whole.1), ih whole.2]

namespace Value
open Text (trim cutChar splitOnChar)

/- A path as one name. -/
def whole (path : String) : String := String.ofList (trim path.toList)

def head (path : String) : String := String.ofList (cutChar '.' (trim path.toList)).1

def steps (path : String) : List String :=
  match (cutChar '.' (trim path.toList)).2 with
  | none | some [] => []
  | some rest => (splitOnChar '.' rest).map String.ofList

def Dotted (path : String) : Prop := '.' ∈ trim path.toList
instance (path : String) : Decidable (Dotted path) := inferInstanceAs (Decidable (_ ∈ _))

theorem resolveSteps (members : Members) (scope : Scope) {path : String}
    (named : trim path.toList ≠ []) :
    resolve members scope path = (scope.lookup? (whole path)).getD
      (((scope.lookup? (head path)).getD undefined).along members (steps path)) := by
  have full : (trim path.toList).isEmpty = false := by simpa using named
  unfold resolve
  dsimp only
  rw [full, if_neg Bool.false_ne_true]
  unfold whole head steps
  cases scope.lookup? (String.ofList (trim path.toList)) with
  | some v => rfl
  | none =>
    dsimp only
    split <;> simp_all [along]

theorem resolveAlike (members : Members) {scope scope' : Scope} {path : String}
    (all : scope.lookup? (whole path) = scope'.lookup? (whole path))
    (first : scope.lookup? (head path) = scope'.lookup? (head path)) :
    resolve members scope path = resolve members scope' path := by
  by_cases unnamed : trim path.toList = []
  · simp [resolve, unnamed]
  · rw [resolveSteps members scope unnamed, resolveSteps members scope' unnamed, all, first]

theorem headWhole {path : String} (plain : ¬Dotted path) :
    head path = whole path ∧ steps path = [] := by
  unfold head whole steps
  rw [Text.cutCharNone plain]
  exact ⟨rfl, rfl⟩

end Value

namespace Stage
variable (binder : String) (length index : Nat) (item : Value)

/- The names that every loop has. -/
def givenNames : List String := ["this", "@index", "@first", "@last", "@length"]

def loopNames : List String := binder :: givenNames

def loopValue (name : String) : Value :=
  if name = "@index" then .int index
  else if name = "@first" then .bool (index = 0)
  else if name = "@last" then .bool (index + 1 = length)
  else if name = "@length" then .int length
  else item

def givenLayer : Layer :=
  [("this", item), ("@index", .int index), ("@first", .bool (index = 0)),
   ("@last", .bool (index + 1 = length)), ("@length", .int length)]

def loopLayer : Layer :=
  if ((givenLayer length index item).lookup binder).isSome then givenLayer length index item
  else (binder, item) :: givenLayer length index item

def itemLayers : Scope :=
  match item.entries? with
  | some entries => [Value.layer entries]
  | none => []

theorem loopScopeLayers (scope : Scope) : loopScope scope binder length index item =
    loopLayer binder length index item :: (itemLayers item ++ scope) := by
  unfold loopScope itemLayers
  cases item.entries? <;> rfl

variable {binder length index item} {name : String}

theorem givenLayerLookup (given : name ∈ givenNames) :
    (givenLayer length index item).lookup name = some (loopValue length index item name) := by
  simp only [givenNames, List.mem_cons, List.not_mem_nil, or_false] at given
  rcases given with rfl | rfl | rfl | rfl | rfl <;> rfl

theorem givenLayerOther (other : name ∉ givenNames) :
    (givenLayer length index item).lookup name = none ∧
      loopValue length index item name = item := by
  simp only [givenNames, List.mem_cons, List.not_mem_nil, or_false, not_or] at other
  simp [givenLayer, loopValue, List.lookup_cons, other, beq_eq_false_iff_ne.mpr]

theorem loopLayerLookup (own : name ∈ loopNames binder) :
    (loopLayer binder length index item).lookup name = some (loopValue length index item name) := by
  unfold loopLayer
  by_cases given : binder ∈ givenNames
  · rw [givenLayerLookup given, if_pos (by rfl)]
    refine givenLayerLookup ?_
    rcases List.mem_cons.mp own with rfl | known
    · exact given
    · exact known
  · obtain ⟨absent, value⟩ := @givenLayerOther length index item _ given
    rw [absent, if_neg (by simp)]
    by_cases same : name = binder
    · rw [same, List.lookup_cons_self, value]
    · rw [List.lookup_cons, beq_eq_false_iff_ne.mpr same]
      exact givenLayerLookup ((List.mem_cons.mp own).resolve_left same)

theorem loopScopeLookup (scope : Scope) (own : name ∈ loopNames binder) :
    (loopScope scope binder length index item).lookup? name =
      some (loopValue length index item name) := by
  rw [loopScopeLayers, Scope.lookup?, List.findSome?_cons, loopLayerLookup own]

/- Behind the loop's names and the item's, a name is the same where it was the same outside. -/
theorem loopScopeAlike {scope scope' : Scope} (outer : scope.lookup? name = scope'.lookup? name) :
    (loopScope scope binder length index item).lookup? name =
      (loopScope scope' binder length index item).lookup? name := by
  unfold Scope.lookup? at outer ⊢
  rw [loopScopeLayers, loopScopeLayers, List.findSome?_cons, List.findSome?_cons,
    List.findSome?_append, List.findSome?_append, outer]

end Stage

/- Text, or an output without filters whose path begins with a name of the loop. -/
inductive Node.Own (binder : String) : Node Value → Prop where
  | text (pos content) : Own binder (.text pos content)
  | lookup (pos path escape) (own : Value.head path ∈ Stage.loopNames binder) :
      Own binder (.lookup pos path escape [])

def Node.Agree (scope scope' : Scope) (n : Node Value) : Prop :=
  match n with
  | .lookup _ path _ _ => Value.Dotted path →
      scope.lookup? (Value.whole path) = scope'.lookup? (Value.whole path)
  | _ => True

namespace Stage
variable (s : Stage) (c : RenderContext) (level : Nat) {binder : String} {scope scope' : Scope}

theorem ownResolveAlike (length index : Nat) (item : Value) {path : String}
    (own : Value.head path ∈ loopNames binder)
    (outer : Value.Dotted path →
      scope.lookup? (Value.whole path) = scope'.lookup? (Value.whole path)) :
    s.resolve (loopScope scope binder length index item) path =
      s.resolve (loopScope scope' binder length index item) path := by
  have first : (loopScope scope binder length index item).lookup? (Value.head path) =
      (loopScope scope' binder length index item).lookup? (Value.head path) := by
    rw [loopScopeLookup scope own, loopScopeLookup scope' own]
  refine Value.resolveAlike _ ?_ first
  by_cases dotted : Value.Dotted path
  · exact loopScopeAlike (outer dotted)
  · rw [← (Value.headWhole dotted).1]
    exact first

theorem ownNodesAlike (length index : Nat) (item : Value) {children : List (Node Value)}
    (own : ∀ n ∈ children, n.Own binder) (agree : ∀ n ∈ children, n.Agree scope scope') :
    s.nodes c level (loopScope scope binder length index item) children =
      s.nodes c level (loopScope scope' binder length index item) children := by
  induction children with
  | nil => rw [nodes, nodes]
  | cons n ns ih =>
    have later := ih (fun m member => own m (List.mem_cons_of_mem n member))
      fun m member => agree m (List.mem_cons_of_mem n member)
    have here := agree n List.mem_cons_self
    rw [nodes, nodes, later]
    cases own n List.mem_cons_self with
    | text pos content => rw [node, node]
    | lookup pos path escape first =>
      rw [node, node, ownResolveAlike s length index item first here]
      rfl

theorem eachAlike (length : Nat) {children : List (Node Value)}
    (own : ∀ n ∈ children, n.Own binder) (agree : ∀ n ∈ children, n.Agree scope scope')
    (items : List Value) (index : Nat) :
    s.each c level scope binder children length index items =
      s.each c level scope' binder children length index items := by
  induction items generalizing index with
  | nil => rw [each, each]
  | cons item items ih =>
    rw [each, each, ownNodesAlike s c level length index item own agree, ih]

/- A loop is its body once for every item, in order. -/
theorem eachIterates (length : Nat) (children : List (Node Value)) (items : List Value)
    (index : Nat) :
    s.each c level scope binder children length index items =
      (items.zipIdx index).forM fun (item, i) =>
        s.nodes c level (loopScope scope binder length i item) children := by
  induction items generalizing index with
  | nil =>
    rw [each]
    rfl
  | cons item items ih =>
    rw [each, ih]
    rfl

theorem ownResolve (length index : Nat) (item : Value) {path : String}
    (own : Value.head path ∈ loopNames binder) (named : Text.trim path.toList ≠ [])
    (unnamed : Value.Dotted path →
      (loopScope scope binder length index item).lookup? (Value.whole path) = none) :
    s.resolve (loopScope scope binder length index item) path =
      (loopValue length index item (Value.head path)).along s.host.members (Value.steps path) := by
  rw [resolve, Value.resolveSteps _ _ named, loopScopeLookup scope own, Option.getD_some]
  by_cases dotted : Value.Dotted path
  · rw [unnamed dotted]
    rfl
  · obtain ⟨whole, steps⟩ := Value.headWhole dotted
    rw [← whole, loopScopeLookup scope own, steps]
    rfl

/-- A loop whose body keeps to the loop's names writes the same under scopes that give it the same
items, if they agree on the dotted paths of the body as names. Every iteration sees its own item,
index and flags. -/
theorem loopUnshadowed {pos : Position} {target : String} {children : List (Node Value)}
    (own : ∀ n ∈ children, n.Own binder)
    (same : s.resolve scope target = s.resolve scope' target)
    (agree : ∀ n ∈ children, n.Agree scope scope') :
    s.node c level scope (.each pos target binder children) =
        s.node c level scope' (.each pos target binder children) ∧
      ∀ items, (s.resolve scope target).items? = some items →
        (s.node c level scope (.each pos target binder children) =
          items.zipIdx.forM fun (item, i) =>
            s.nodes c level (loopScope scope binder items.length i item) children) ∧
        ∀ i item, items[i]? = some item → ∀ path, Value.head path ∈ loopNames binder →
          Text.trim path.toList ≠ [] →
          (Value.Dotted path → (loopScope scope binder items.length i item).lookup?
            (Value.whole path) = none) →
          s.resolve (loopScope scope binder items.length i item) path =
            (loopValue items.length i item (Value.head path)).along s.host.members
              (Value.steps path) := by
  refine ⟨?_, fun items found => ⟨?_, fun i item _ path first named unnamed => ?_⟩⟩
  · rw [node, node, ← same]
    split
    · exact eachAlike s c level _ own agree _ 0
    · rfl
  · rw [node, found]
    exact eachIterates s c level _ children items 0
  · exact ownResolve s _ _ _ first named unnamed

def itemBody : List (Node Value) := [.lookup .start "item.name" true []]

def itemsLayer : Layer := [("xs", .list [.map [(.text "name", .text "own")]])]

def itemStage : Stage := .of {} echoHost .plain

/- It has the loop's own names, and the item's. -/
def usurping : Layer := [("item", .text "outer"), ("this", .text "outer"), ("name", .text "outer")]

def dotted : Layer := [("item.name", .text "outer")]

theorem itemBodyOwn : ∀ n ∈ itemBody, n.Own "item" := by
  intro n member
  rw [List.mem_singleton.mp member]
  exact .lookup _ _ _ (by decide)

theorem itemsTarget (layer : Layer) (other : layer.lookup "xs" = none) :
    s.resolve [layer, itemsLayer] "xs" = s.resolve [itemsLayer] "xs" := by
  have whole : Value.whole "xs" = "xs" := rfl
  have head : Value.head "xs" = "xs" := rfl
  have found : Scope.lookup? [layer, itemsLayer] "xs" = Scope.lookup? [itemsLayer] "xs" := by
    rw [Scope.lookup?, List.findSome?_cons, other]
    rfl
  exact Value.resolveAlike _ (whole ▸ found) (head ▸ found)

theorem loopUnshadowedItems : (∀ n ∈ itemBody, n.Own "item") ∧
    itemStage.resolve [itemsLayer] "xs" = itemStage.resolve [usurping, itemsLayer] "xs" ∧
    (∀ n ∈ itemBody, n.Agree [itemsLayer] [usurping, itemsLayer]) ∧
    itemStage.node {} 0 [itemsLayer] (.each .start "xs" "item" itemBody) =
      itemStage.node {} 0 [usurping, itemsLayer] (.each .start "xs" "item" itemBody) := by
  have same := (itemsTarget itemStage usurping rfl).symm
  have agree : ∀ n ∈ itemBody, n.Agree [itemsLayer] [usurping, itemsLayer] := by
    intro n member
    rw [List.mem_singleton.mp member]
    exact fun _ => rfl
  exact ⟨itemBodyOwn, same, agree, (loopUnshadowed itemStage {} 0 itemBodyOwn same agree).1⟩

theorem itemLoopWrites {scope : Scope} {item : Value} {text : String}
    (items : (itemStage.resolve scope "xs").items? = some [item])
    (found : itemStage.resolve (loopScope scope "item" 1 0 item) "item.name" = .text text) :
    Run.Writes (itemStage.node {} 0 scope (.each .start "xs" "item" itemBody))
      ([Chunk.value (Html.escapeText text)].filter fun chunk => !chunk.text.isEmpty) := by
  have body := (@lookupWrites itemStage rfl {} 0 _ _ _ found .start).bind .pure
  rw [List.append_nil] at body
  rw [node, items]
  dsimp only
  rw [each, each]
  exact body

/- A name that is the whole of the body's dotted path comes before the item. -/
theorem dottedNameShadows : ¬∀ (s : Stage) (c : RenderContext) (level : Nat) (pos : Position)
    (target binder : String) (children : List (Node Value)) (scope scope' : Scope),
    (∀ n ∈ children, n.Own binder) → s.resolve scope target = s.resolve scope' target →
      s.node c level scope (.each pos target binder children) =
        s.node c level scope' (.each pos target binder children) := by
  intro all
  have same := all itemStage {} 0 .start "xs" "item" itemBody [itemsLayer] [dotted, itemsLayer]
    itemBodyOwn (itemsTarget itemStage dotted rfl).symm
  have own : itemStage.resolve (loopScope [itemsLayer] "item" 1 0
      (.map [(.text "name", .text "own")])) "item.name" = .text "own" := by
    rw [ownResolve itemStage _ _ _ (by decide) (by decide) fun _ => rfl]
    have steps : Value.steps "item.name" = ["name"] := rfl
    have item : loopValue 1 0 (.map [(.text "name", .text "own")]) (Value.head "item.name") =
      .map [(.text "name", .text "own")] := rfl
    rw [steps, item]
    simp [Value.along, Value.segment, Value.entries?, Value.lookup?, Value.same, Value.sameScalar]
  have outer : itemStage.resolve (loopScope [dotted, itemsLayer] "item" 1 0
      (.map [(.text "name", .text "own")])) "item.name" = .text "outer" := by rfl
  have run := itemLoopWrites rfl own {}
  rw [same, itemLoopWrites rfl outer {}] at run
  exact absurd (congrArg (fun answer => answer.2.chunks) run) (by decide)

end Stage
end Medley

import Mathlib.Logic.Function.Iterate
import Medley.Html

/-! Sums of texts, some plain and some safe. A safe text escapes what is added to it on either side,
and two plain texts are joined as they are; since escaping goes by characters, plain text comes to
the same whether it is escaped piece by piece or after its pieces were joined, and it is never
escaped again inside of safe text. So a sum does not depend on how it is bracketed. -/
namespace Medley

namespace Html

theorem escapeTextAppend (a b : String) : escapeText (a ++ b) = escapeText a ++ escapeText b := by
  simp only [escapeText, escape, String.toList_append, List.flatMap_append, String.ofList_append]

end Html

inductive Summand where
  | plain (s : String)
  | safe (m : Markup)
  deriving DecidableEq, Repr

namespace Summand

def value : Summand → Value
  | plain s => .text s
  | safe m => m.value

/-- The safe one of two has its say, the left one of two safe ones. -/
def add : Summand → Summand → Summand
  | safe m, x => safe (m.append x.value)
  | plain s, safe m => safe (.prepend (.text s) m)
  | plain s, plain t => plain (s ++ t)

def isSafe : Summand → Bool
  | plain _ => false
  | safe _ => true

def text : Summand → String
  | plain s => s
  | safe m => m.text

def html : Summand → String
  | plain s => Html.escapeText s
  | safe m => m.text

theorem valueEscaped (x : Summand) : x.value.escaped = x.html := by
  cases x <;> rfl

/- Either way the sum shows what its summands show. -/
theorem htmlAdd (x y : Summand) : (x.add y).html = x.html ++ y.html := by
  cases x with
  | safe m => rw [add, Markup.append, valueEscaped]; rfl
  | plain s => cases y with
    | safe m => rfl
    | plain t => exact Html.escapeTextAppend s t

theorem isSafeAdd (x y : Summand) : (x.add y).isSafe = (x.isSafe || y.isSafe) := by
  cases x <;> cases y <;> rfl

theorem textAdd {x y : Summand} (left : x.isSafe = false) (right : y.isSafe = false) :
    (x.add y).text = x.text ++ y.text := by
  cases x with
  | safe m => contradiction
  | plain s => cases y with
    | safe m => contradiction
    | plain t => rfl

theorem eqSafe {x : Summand} (h : x.isSafe = true) : x = safe ⟨x.html⟩ := by
  cases x with
  | safe m => rfl
  | plain s => contradiction

theorem eqPlain {x : Summand} (h : x.isSafe = false) : x = plain x.text := by
  cases x with
  | safe m => contradiction
  | plain s => rfl

end Summand

inductive Grouping where
  | one (x : Summand)
  | add (left right : Grouping)
  deriving DecidableEq, Repr

namespace Grouping

def summands : Grouping → List Summand
  | one x => [x]
  | add l r => l.summands ++ r.summands

def total : Grouping → Summand
  | one x => x
  | add l r => l.total.add r.total

theorem summandsSome (s : Grouping) : s.summands ≠ [] := by
  induction s with
  | one x => exact List.cons_ne_nil x []
  | add l r left right => exact List.append_ne_nil_of_left_ne_nil left r.summands

theorem totalSafe (s : Grouping) : s.total.isSafe = s.summands.any Summand.isSafe := by
  induction s with
  | one x => simp [total, summands]
  | add l r left right => rw [total, Summand.isSafeAdd, left, right, summands, List.any_append]

theorem totalHtml (s : Grouping) : s.total.html = String.join (s.summands.map Summand.html) := by
  induction s with
  | one x => simp [total, summands, String.join]
  | add l r left right =>
    rw [total, Summand.htmlAdd, left, right, summands, List.map_append, String.join_append]

theorem totalText {s : Grouping} (plain : s.summands.any Summand.isSafe = false) :
    s.total.text = String.join (s.summands.map Summand.text) := by
  induction s with
  | one x => simp [total, summands, String.join]
  | add l r left right =>
    obtain ⟨first, second⟩ : l.summands.any Summand.isSafe = false ∧
        r.summands.any Summand.isSafe = false := by
      simpa only [summands, List.any_append, Bool.or_eq_false_iff] using plain
    rw [total, Summand.textAdd ((totalSafe l).trans first) ((totalSafe r).trans second),
      left first, right second, summands, List.map_append, String.join_append]

theorem totalOf (s : Grouping) : s.total =
    if s.summands.any Summand.isSafe then .safe ⟨String.join (s.summands.map Summand.html)⟩
    else .plain (String.join (s.summands.map Summand.text)) := by
  have safe := totalSafe s
  cases any : s.summands.any Summand.isSafe with
  | true => rw [if_pos rfl, Summand.eqSafe (safe.trans any), totalHtml]
  | false => rw [if_neg (by decide), Summand.eqPlain (safe.trans any), totalText any]

end Grouping

namespace Markup

/- Safe text added again and again, from none. -/
def addTimes (m : Markup) (n : Nat) : Markup := (fun sum => sum.append m.value)^[n] ⟨""⟩

theorem addTimesText (m : Markup) (n : Nat) :
    m.addTimes n = ⟨String.join (List.replicate n m.text)⟩ := by
  induction n with
  | zero => rfl
  | succ n ih =>
    rw [addTimes, Function.iterate_succ_apply', ← addTimes, ih, List.replicate_succ',
      String.join_append]
    rfl

theorem groupingsAgree : (∀ s : Grouping, s.total =
      if s.summands.any Summand.isSafe then .safe ⟨String.join (s.summands.map Summand.html)⟩
      else .plain (String.join (s.summands.map Summand.text))) ∧
    ∀ (m : Markup) (n : Int), m.times n = m.addTimes n.toNat ∧
      ∀ s : Grouping, s.summands = List.replicate n.toNat (.safe m) →
        s.total = .safe (m.times n) := by
  refine ⟨Grouping.totalOf, fun m n => ⟨(m.addTimesText n.toNat).symm, fun s same => ?_⟩⟩
  have safe : s.summands.any Summand.isSafe = true := by
    rw [List.any_eq_true]
    obtain ⟨x, member⟩ := List.exists_mem_of_ne_nil _ s.summandsSome
    have one : x = .safe m := List.eq_of_mem_replicate (same ▸ member)
    exact ⟨x, member, one ▸ rfl⟩
  rw [s.totalOf, if_pos safe, same, List.map_replicate]
  rfl

theorem groupingsAgreeMixed :
    (Grouping.add (.one (.plain "<")) (.add (.one (.plain "&")) (.one (.safe ⟨"<b>"⟩)))).total =
        .safe ⟨"&lt;&amp;<b>"⟩ ∧
      (Grouping.add (.add (.one (.plain "<")) (.one (.plain "&"))) (.one (.safe ⟨"<b>"⟩))).total =
        .safe ⟨"&lt;&amp;<b>"⟩ ∧
      (Grouping.add (.one (.safe ⟨"&"⟩)) (.add (.one (.safe ⟨"&"⟩)) (.one (.safe ⟨"&"⟩)))).total =
        .safe (Markup.times ⟨"&"⟩ 3) :=
  ⟨groupingsAgree.1 _, groupingsAgree.1 _, (groupingsAgree.2 ⟨"&"⟩ 3).2 _ rfl⟩

end Markup
end Medley

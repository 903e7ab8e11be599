import Medley.Helper.Apply
import Medley.Proofs.Decimal.Grouping
import Medley.Proofs.Decimal.Wholes
import Medley.Proofs.Helper.Rounding

/-! Whole amounts as texts. An integer is turned into a float before it is written, so what is shown
is the nearest number of at most 53 binary digits, and the amount itself where it has no more. -/
namespace Medley
open Decimal

namespace Number

theorem fixedFloat {x : Float} {s n} (h : Holds x s n) (group : Bool) (places : Nat) :
    (float x).fixed group places =
      .ok (String.ofList (signText (isMinus s) ++ fixedText group places (n * tens places))) := by
  rw [fixed, if_neg (by omega), ← h.fixed]
  rfl

theorem fixedInt {n : Int} (small : n.natAbs.log2 ≤ 1022) (group : Bool) :
    (int n).fixed group 0 =
      .ok (String.ofList (signText (n < 0) ++ fixedText group 0 (kept n.natAbs))) := by
  obtain ⟨s, negative, held⟩ := floatOfIntHeld n small
  obtain ⟨b, parts, _⟩ := held.places
  have converted : (int n).toFloat = .ok (floatOfInt n) := by
    simp only [toFloat, isFiniteFloat, parts]
    rfl
  have same : (int n).fixed group 0 = (float (floatOfInt n)).fixed group (0 : Nat) := by
    rw [fixed, fixed, converted]
    rfl
  rw [same, fixedFloat held, negative, Amount.tensNat, Nat.pow_zero, Nat.mul_one]

theorem isNegativeInt (n : Int) : (int n).isNegative = decide (n < 0) := by
  rw [Bool.eq_iff_iff, decide_eq_true_eq, isNegative, compare?, beq_iff_eq,
    Option.some_inj, compare_lt_iff_lt]

variable {n : Int} (short : n.natAbs < 10 ^ 25)
include short

theorem digitsShort : digitCount n.natAbs ≤ 25 := (digitCountLe (by decide)).mpr short

theorem log2Short : n.natAbs.log2 ≤ 1022 := by
  rcases Nat.eq_zero_or_pos n.natAbs with zero | some
  · rw [zero]
    decide
  · have := (Nat.log2_lt (Nat.ne_of_gt some)).mpr (Nat.lt_trans short (by decide : 10 ^ 25 < 2 ^ 84))
    omega

theorem roundWhole : (int n).roundTo 0 = .ok (int n) := by
  have digits := digitsShort short
  have rounded := roundBefore (n := n) (k := 0) (by decide) (by unfold digitLimit; omega)
  rw [Nat.pow_zero, Amount.halfUpOne, if_pos (by unfold precision; omega)] at rounded
  have same : Decimal.signed (n < 0) n.natAbs * (1 : Nat) = n := by
    simp only [Decimal.signed, decide_eq_true_eq, Nat.cast_one, Int.mul_one]
    split <;> omega
  rwa [same] at rounded

theorem roundHundredths : (int n).roundTo 2 =
    .ok (float (Amount.toFloat ⟨n < 0, n.natAbs * 100, -2⟩)) := by
  have digits := digitsShort short
  have room : n.natAbs * 10 ^ 2 < 10 ^ precision := by
    unfold precision
    omega
  have rounded : (Amount.ofInt n).roundTo (-2) = .ok ⟨n < 0, n.natAbs * 10 ^ 2, -2⟩ :=
    Amount.roundToFraction n 2 room
  rw [roundShort (by decide) (by unfold digitLimit; omega), rounded]
  rfl

end Number

namespace Helper
variable {n : Int} (short : n.natAbs < 10 ^ 25)
include short

theorem numberShown : formatNumber (.int n) (.int 0) =
    .ok (String.ofList (signText (n < 0) ++ natText (kept n.natAbs))) := by
  have fixed := Number.fixedInt (Number.log2Short short) false
  have place : Number.place 0 = .ok 0 := rfl
  rw [fixedWhole] at fixed
  simp only [formatNumber, Value.toWhole, Value.toNumber, Number.whole, place,
    Number.roundWhole short, bind, Except.bind]
  exact fixed

theorem bodyShown {places : Nat} (either : places = 0 ∨ places = 2) :
    ∃ r, (Number.int n).roundTo places = .ok r ∧ r.abs.fixed true places =
      .ok (String.ofList (fixedText true places (kept n.natAbs * 10 ^ places))) := by
  have log := Number.log2Short short
  rcases either with rfl | rfl
  · have fixed := Number.fixedInt (n := n.natAbs) (by rwa [Int.natAbs_natCast]) true
    have positive : ¬ (n.natAbs : Int) < 0 := by omega
    rw [Int.natAbs_natCast, decide_eq_false positive] at fixed
    refine ⟨_, Number.roundWhole short, ?_⟩
    rw [Nat.pow_zero, Nat.mul_one]
    exact fixed
  · exact ⟨_, Number.roundHundredths short, Number.fixedFloat (hundredthsHeld _ _ log) true 2⟩

theorem priceShown (currency : Value) {code : String} (sign : String) (places : Nat)
    (known : currencyCode currency = .ok code) (listed : currencySigns.lookup code = some sign)
    (digits : (if code ∈ wholeCurrencies then (0 : Int) else 2) = places) :
    formatPrice (.int n) currency = .ok (String.ofList (signText (n < 0) ++ sign.toList ++
      fixedText true places (kept n.natAbs * 10 ^ places))) := by
  have either : places = 0 ∨ places = 2 := by
    split at digits <;> omega
  obtain ⟨r, rounded, fixed⟩ := bodyShown short either
  have minus : (if decide (n < 0) = true then "-" else "") = String.ofList (signText (n < 0)) := by
    cases decide (n < 0) <;> rfl
  simp only [formatPrice, known, Value.toNumber, bind, Except.bind, digits, rounded, fixed, listed,
    Number.isNegativeInt, minus]
  rw [String.ofList_append, String.ofList_append, String.ofList_toList]
  rfl

end Helper

/-- What a whole amount is shown as: the digits of the nearest number that there is room for. -/
structure AmountShown (n : Int) : Prop where
  exact : kept n.natAbs = n.natAbs ↔ HasRoom n.natAbs
  nearest : NearestRoom n.natAbs (kept n.natAbs)
  number : ∀ host, Builtin.formatNumber.apply host [.int n] =
    pure (.text (String.ofList (signText (n < 0) ++ natText (kept n.natAbs))))
  yen : ∃ body, InThrees (natText (kept n.natAbs)) body ∧
    ∀ host, Builtin.formatPrice.apply host [.int n, .text "JPY"] =
      pure (.text (String.ofList (signText (n < 0) ++ '¥' :: body)))
  dollars : ∃ body, InThrees (natText (kept n.natAbs)) body ∧
    ∀ host, Builtin.formatPrice.apply host [.int n, .text "USD"] =
      pure (.text (String.ofList (signText (n < 0) ++ '$' :: body ++ ['.', '0', '0'])))

theorem amountsShown (n : Int) (short : n.natAbs < 10 ^ 25) : AmountShown n where
  exact := keptExact n.natAbs
  nearest := keptNearest n.natAbs
  number _ := by
    change Run.ofExcept ((Helper.formatNumber (.int n) (.int 0)).map Value.text) = _
    rw [Helper.numberShown short]
    rfl
  yen := by
    have shown := Helper.priceShown short (.text "JPY") "¥" 0 rfl rfl rfl
    rw [Nat.pow_zero, Nat.mul_one, fixedWhole] at shown
    refine ⟨_, groupedInThrees (natTextSome _), fun _ => ?_⟩
    change Run.ofExcept ((Helper.formatPrice (.int n) (.text "JPY")).map Value.text) = _
    rw [shown, List.append_assoc]
    rfl
  dollars := by
    have shown := Helper.priceShown short (.text "USD") "$" 2 rfl rfl rfl
    rw [show 10 ^ 2 = 100 from rfl, fixedHundredths] at shown
    refine ⟨_, groupedInThrees (natTextSome _), fun _ => ?_⟩
    change Run.ofExcept ((Helper.formatPrice (.int n) (.text "USD")).map Value.text) = _
    rw [shown, List.append_assoc, List.append_assoc]
    rfl

theorem millionsShown : (-1234567 : Int).natAbs < 10 ^ 25 ∧
    (∀ host, Builtin.formatNumber.apply host [.int (-1234567)] = pure (.text "-1234567")) ∧
    (∀ host, Builtin.formatPrice.apply host [.int (-1234567), .text "USD"] =
      pure (.text "-$1,234,567.00")) := by
  have short : (-1234567 : Int).natAbs < 10 ^ 25 := by decide
  have shown := amountsShown (-1234567) short
  have kept := shown.exact.mpr (shortRoom (by decide))
  refine ⟨short, fun host => ?_, fun host => ?_⟩
  · rw [shown.number, kept]
    rfl
  · obtain ⟨body, threes, dollars⟩ := shown.dollars
    rw [kept] at threes
    obtain rfl : body = "1,234,567".toList := threes.unique (groupedInThrees (natTextSome _))
    exact dollars host

/- The first amount that has one binary digit too many. -/
theorem oddUnshown : ¬ ∀ n : Int, n.natAbs < 10 ^ 25 →
    Helper.formatNumber (.int n) (.int 0) = .ok (String.ofList (intText n)) := by
  intro every
  have shown := Helper.numberShown (n := 9007199254740993) (by decide)
  have even : kept (Int.natAbs 9007199254740993) = 9007199254740992 := by decide
  rw [every 9007199254740993 (by decide), even] at shown
  exact absurd shown (by decide)

end Medley

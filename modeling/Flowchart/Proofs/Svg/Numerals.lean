import Flowchart.Number.Decimal
import Flowchart.Proofs.Number.Double
import Flowchart.Proofs.Svg.Characters

/-!
The numbers of a picture as they are written. The text of a finite number is a decimal numeral for the nearest
hundredth; nothing but zeros of the fraction, and a point that nothing follows, is left out of it.
-/
namespace Flowchart

open Number

/-- A decimal numeral: its sign, the digits of its integer part and those of its fraction. -/
structure Numeral where
  negative : Bool
  whole : List Char
  fraction : List Char

namespace Numeral

variable {numeral other : Numeral}

/-- The fraction with the point in front of it, if there is one. -/
def pointed (fraction : List Char) : List Char :=
  if fraction = [] then [] else '.' :: fraction

def chars (numeral : Numeral) : List Char :=
  (if numeral.negative then ['-'] else []) ++ numeral.whole ++ pointed numeral.fraction

def value (numeral : Numeral) : Rat :=
  (if numeral.negative then -1 else 1) *
    (digitsValue numeral.whole + digitsValue numeral.fraction / 10 ^ numeral.fraction.length)

/-- The integer part has a digit, and there are digits only. -/
structure IsProper (numeral : Numeral) : Prop where
  whole_ne_nil : numeral.whole ≠ []
  whole : ∀ c ∈ numeral.whole, c.isDigit = true
  fraction : ∀ c ∈ numeral.fraction, c.isDigit = true

theorem pointed_inj {first second : List Char} (same : pointed first = pointed second) : first = second := by
  unfold pointed at same
  split at same <;> split at same <;> simp_all

theorem span_pointed {whole : List Char} (digits : ∀ c ∈ whole, c.isDigit = true) (fraction : List Char) :
    (whole ++ pointed fraction).span Char.isDigit = (whole, pointed fraction) := by
  rw [List.span_eq_takeWhile_dropWhile, List.takeWhile_append_of_pos digits, List.dropWhile_append_of_pos digits,
    pointed]
  split
  · simp
  · simp [show '.'.isDigit = false by decide]

/-- A text is that of one numeral at most. -/
theorem IsProper.unique (proper : numeral.IsProper) (properOther : other.IsProper)
    (same : numeral.chars = other.chars) : numeral = other := by
  obtain ⟨negative, whole, fraction⟩ := numeral
  obtain ⟨negative', whole', fraction'⟩ := other
  -- No digit is a minus sign, so the first character tells the sign.
  have isMinus {negative : Bool} {whole fraction : List Char} (proper : IsProper ⟨negative, whole, fraction⟩) :
      (chars ⟨negative, whole, fraction⟩).head? = some '-' ↔ negative = true := by
    obtain ⟨c, cs, rfl⟩ := List.exists_cons_of_ne_nil proper.whole_ne_nil
    have isDigit : c.isDigit = true := proper.whole c List.mem_cons_self
    cases negative with
    | true => simp [chars]
    | false =>
      simp only [chars, Bool.false_eq_true, if_false, List.nil_append, List.cons_append, List.head?_cons,
        Option.some.injEq, iff_false]
      rintro rfl
      cases isDigit
  obtain rfl : negative = negative' := by
    rw [Bool.eq_iff_iff, ← isMinus proper, ← isMinus properOther, same]
  have behind := List.append_cancel_left (by simpa only [chars, List.append_assoc] using same)
  have parts := congrArg (List.span Char.isDigit) behind
  rw [span_pointed proper.whole, span_pointed properOther.whole] at parts
  obtain ⟨rfl, isFraction⟩ := Prod.mk.inj parts
  rw [pointed_inj isFraction]

/-- A numeral never ends in its point. -/
theorem IsProper.getLast?_chars (proper : numeral.IsProper) : numeral.chars.getLast? ≠ some '.' := by
  have noPoint {cs : List Char} (digits : ∀ c ∈ cs, c.isDigit = true) : cs.getLast? ≠ some '.' := by
    intro isLast
    cases digits '.' (List.mem_of_getLast? isLast)
  rw [chars, pointed]
  by_cases noFraction : numeral.fraction = []
  · rw [if_pos noFraction, List.append_nil, List.getLast?_append_of_ne_nil _ proper.whole_ne_nil]
    exact noPoint proper.whole
  · rw [if_neg noFraction]
    obtain ⟨c, cs, isFraction⟩ := List.exists_cons_of_ne_nil noFraction
    rw [List.getLast?_append_of_ne_nil _ (List.cons_ne_nil _ _), isFraction, List.getLast?_cons_cons, ← isFraction]
    exact noPoint proper.fraction

end Numeral

namespace Svg

variable {c d : Char} {cs : List Char}

theorem dropLast_concat (c d : Char) (cs : List Char) :
    dropLast c (cs ++ [d]) = if d = c then dropLast c cs else cs ++ [d] := by
  by_cases same : d = c
  · simp [dropLast, same]
  · simp [dropLast, same]

theorem getLast?_dropLast (c : Char) (cs : List Char) : (dropLast c cs).getLast? ≠ some c := by
  induction cs using List.reverseRecOn with
  | nil => simp [dropLast]
  | append_singleton cs d ih =>
    rw [dropLast_concat]
    split
    · exact ih
    · rename_i differ
      simpa using differ

theorem dropLast_eq_self (other : cs.getLast? ≠ some c) : dropLast c cs = cs := by
  induction cs using List.reverseRecOn with
  | nil => rfl
  | append_singleton cs d _ =>
    rw [dropLast_concat, if_neg (by simpa using other)]

/-- What stands in front of another character stays. -/
theorem dropLast_append_cons (differ : d ≠ c) (front cs : List Char) :
    dropLast c (front ++ d :: cs) = front ++ d :: dropLast c cs := by
  induction cs using List.reverseRecOn with
  | nil => rw [dropLast_concat, if_neg differ]; rfl
  | append_singleton cs e ih =>
    rw [← List.cons_append, ← List.append_assoc, dropLast_concat, dropLast_concat]
    split
    · exact ih
    · simp

theorem digitsValue_concat (cs : List Char) (c : Char) :
    digitsValue (cs ++ [c]) = 10 * digitsValue cs + (c.toNat - '0'.toNat) := by
  simp [digitsValue]

/-- The zeros at the end of a fraction do not count. -/
theorem digitsValue_dropLast (cs : List Char) :
    (digitsValue (dropLast '0' cs) / 10 ^ (dropLast '0' cs).length : Rat) = digitsValue cs / 10 ^ cs.length := by
  induction cs using List.reverseRecOn with
  | nil => rfl
  | append_singleton cs d ih =>
    rw [dropLast_concat]
    split
    · rename_i isZero
      rw [ih, digitsValue_concat, isZero, List.length_append, List.length_singleton, pow_succ]
      push_cast
      field_simp
      norm_num
    · rfl

theorem isDigit_digitChar {n : Nat} (bound : n < 10) : n.digitChar.isDigit = true := by
  decide +revert

theorem paddedDigits_two {n : Nat} (bound : n < 100) :
    paddedDigits 2 n = [(n / 10).digitChar, (n % 10).digitChar] := by
  by_cases small : n < 10
  · rw [paddedDigits, Nat.toDigits_of_lt_base small, Nat.div_eq_of_lt small, Nat.mod_eq_of_lt small]
    rfl
  · rw [paddedDigits, Nat.toDigits_of_base_le (by decide) (by omega), Nat.toDigits_of_lt_base (by omega)]
    rfl

/-- The numeral of some hundredths, without zeros at its end. -/
def ofHundredths (negative : Bool) (units : Nat) : Numeral :=
  ⟨negative, Nat.toDigits 10 (units / 100), dropLast '0' (paddedDigits 2 (units % 100))⟩

theorem isDigit_of_mem_toDigits {n : Nat} : ∀ c ∈ Nat.toDigits 10 n, c.isDigit = true :=
  fun _ mem => Nat.isDigit_of_mem_toDigits (by decide) (by decide) mem

theorem isProper_ofHundredths (negative : Bool) (units : Nat) : (ofHundredths negative units).IsProper where
  whole_ne_nil := Nat.toDigits_ne_nil
  whole := isDigit_of_mem_toDigits
  fraction := by
    intro c mem
    have padded := dropLast_subset '0' _ mem
    rw [paddedDigits_two (Nat.mod_lt _ (by decide))] at padded
    simp only [List.mem_cons, List.not_mem_nil, or_false] at padded
    rcases padded with rfl | rfl <;> exact isDigit_digitChar (by omega)

theorem value_ofHundredths (negative : Bool) (units : Nat) :
    (ofHundredths negative units).value = (if negative then -1 else 1) * (units / 100 : Rat) := by
  have whole : digitsValue (Nat.toDigits 10 (units / 100)) = units / 100 := Nat.ofDigitChars_ten_toDigits
  have digit {n : Nat} (bound : n < 10) : n.digitChar.toNat - '0'.toNat = n := by
    decide +revert
  have fraction : digitsValue (paddedDigits 2 (units % 100)) = units % 100 := by
    rw [paddedDigits_two (Nat.mod_lt _ (by decide))]
    show 10 * (10 * 0 + _) + _ = _
    rw [digit (by omega), digit (by omega)]
    omega
  have length : (paddedDigits 2 (units % 100)).length = 2 := by
    rw [paddedDigits_two (Nat.mod_lt _ (by decide))]
    rfl
  have split : (units : Rat) = 100 * (units / 100 : Nat) + (units % 100 : Nat) := by
    exact_mod_cast (Nat.div_add_mod units 100).symm
  rw [Numeral.value, ofHundredths, digitsValue_dropLast, whole, fraction, length, split]
  congr 1
  norm_num
  ring

/-- The text of a finite number is the numeral of its hundredths. -/
theorem numeralChars_of_finite {x : Float} {negative : Bool} {mantissa : Nat} {exponent : Int}
    (finite : decode x = .finite negative mantissa exponent) :
    numeralChars x = (ofHundredths negative (roundScaled 100 mantissa exponent)).chars := by
  generalize units_eq : roundScaled 100 mantissa exponent = units
  have fixed : fixedChars 2 x = ((if negative then ['-'] else []) ++ Nat.toDigits 10 (units / 100)) ++
      '.' :: paddedDigits 2 (units % 100) := by
    have units_eq : roundScaled (Nat.pow 10 2) mantissa exponent = units := units_eq
    simp only [fixedChars, finite, placesText, units_eq, List.append_assoc]
    rfl
  have isLast := (isProper_ofHundredths negative units).getLast?_chars
  rw [numeralChars, fixed, dropLast_append_cons (by decide)]
  change dropLast '.' (_ ++ '.' :: (ofHundredths negative units).fraction) = _ ++ Numeral.pointed _
  change (_ ++ Nat.toDigits 10 (units / 100) ++ Numeral.pointed _).getLast? ≠ _ at isLast
  by_cases noFraction : (ofHundredths negative units).fraction = []
  · rw [noFraction, Numeral.pointed, if_pos rfl, List.append_nil] at isLast ⊢
    rw [dropLast_concat, if_pos rfl]
    exact dropLast_eq_self isLast
  · rw [Numeral.pointed, if_neg noFraction] at isLast ⊢
    exact dropLast_eq_self isLast

/-- Hundredths and a sign in front of them, which only zero leaves open. -/
theorem hundredths_inj {negative negative' : Bool} {units units' : Nat}
    (same : (if negative then -1 else 1) * (units : Int) = (if negative' then -1 else 1) * (units' : Int))
    (sameSign : (if negative then -1 else 1) * (units : Int) = 0 → negative = negative') :
    negative = negative' ∧ units = units' := by
  cases negative <;> cases negative' <;> simp at same sameSign ⊢ <;> omega

/-- What is to be written for a number: the nearest hundredth, without zeros at the end of its fraction. -/
structure IsRounded (x : Float) (written : Numeral) (hundredths : Int) : Prop where
  nearest : IsNearest (100 * Number.value x) hundredths
  value : written.value = hundredths / 100
  near : |Number.value x - written.value| ≤ 1 / 200
  negative : written.negative = (decode x).hasMinus
  proper : written.IsProper
  whole : written.whole = Nat.toDigits 10 (hundredths.natAbs / 100)
  fraction : written.fraction.getLast? ≠ some '0'

theorem isRounded_ofHundredths {x : Float} {negative : Bool} {mantissa : Nat} {exponent : Int}
    (finite : decode x = .finite negative mantissa exponent) :
    IsRounded x (ofHundredths negative (roundScaled 100 mantissa exponent)) (decode x).hundredths := by
  have nearest : IsNearest (100 * Number.value x) (decode x).hundredths := isNearest_hundredths (decode x)
  have isValue : (ofHundredths negative (roundScaled 100 mantissa exponent)).value = (decode x).hundredths / 100 := by
    rw [value_ofHundredths, finite, Decoded.hundredths, mul_div_assoc']
    cases negative <;> simp
  refine ⟨nearest, isValue, ?_, ?_, isProper_ofHundredths _ _, ?_, getLast?_dropLast '0' _⟩
  · rw [isValue]
    have near := abs_le.1 nearest.near
    rw [abs_le]
    constructor <;> linarith
  · rw [finite]
    rfl
  · rw [finite, Decoded.hundredths, Int.natAbs_mul, Int.natAbs_natCast]
    cases negative <;> simp [ofHundredths]

/-- A finite number is written as its nearest hundredth, and two of them have the same text exactly if that
is the same, with the same sign in front of a zero. -/
theorem numeral_rounds {x : Float} (finite : x.isFinite = true) :
    (∃ written hundredths, IsRounded x written hundredths ∧ (numeral x).toList = written.chars ∧
      (numeral x).toList.getLast? ≠ some '.') ∧
    ∀ y : Float, y.isFinite = true →
      (numeral x = numeral y ↔ ∃ hundredths, IsNearest (100 * Number.value x) hundredths ∧
        IsNearest (100 * Number.value y) hundredths ∧
        (hundredths = 0 → (decode x).hasMinus = (decode y).hasMinus)) := by
  obtain ⟨negative, mantissa, exponent, isFinite⟩ := isFinite_iff.1 finite
  have rounded := isRounded_ofHundredths isFinite
  have isText := numeralChars_of_finite isFinite
  constructor
  · refine ⟨_, _, rounded, ?_, ?_⟩
    · rw [numeral, String.toList_ofList, isText]
    · rw [numeral, String.toList_ofList, isText]
      exact rounded.proper.getLast?_chars
  intro y finiteOther
  obtain ⟨negative', mantissa', exponent', isFinite'⟩ := isFinite_iff.1 finiteOther
  have rounded' := isRounded_ofHundredths isFinite'
  rw [numeral, numeral, String.ofList_inj, isText, numeralChars_of_finite isFinite']
  constructor
  · intro same
    have sameNumeral := rounded.proper.unique rounded'.proper same
    have sameHundredths : (decode x).hundredths = (decode y).hundredths := by
      have sameValue := rounded.value.symm.trans ((congrArg Numeral.value sameNumeral).trans rounded'.value)
      have cleared := (div_left_inj' (by norm_num : (100 : Rat) ≠ 0)).1 sameValue
      exact_mod_cast cleared
    refine ⟨_, rounded.nearest, sameHundredths ▸ rounded'.nearest, fun _ => ?_⟩
    rw [← rounded.negative, ← rounded'.negative, sameNumeral]
  · rintro ⟨hundredths, nearest, nearest', sameSign⟩
    have first := nearest.unique rounded.nearest
    have second := nearest'.unique rounded'.nearest
    rw [isFinite, Decoded.hundredths] at first
    rw [isFinite', Decoded.hundredths] at second
    rw [isFinite, isFinite', first] at sameSign
    obtain ⟨sameNegative, sameUnits⟩ := hundredths_inj (first.symm.trans second) sameSign
    rw [sameNegative, sameUnits]

/-- A tie goes to the even hundredth, and the zeros of the integer part stay. -/
theorem numeral_rounds_tie :
    numeral 100.125 = "100.12" ∧
    (∃ written hundredths, IsRounded 100.125 written hundredths ∧ (numeral 100.125).toList = written.chars ∧
      (numeral 100.125).toList.getLast? ≠ some '.') ∧
    (numeral 100.125 = numeral 100.12 ↔ ∃ hundredths, IsNearest (100 * Number.value 100.125) hundredths ∧
      IsNearest (100 * Number.value 100.12) hundredths ∧
      (hundredths = 0 → (decode 100.125).hasMinus = (decode 100.12).hasMinus)) := by
  have finite : (100.125 : Float).isFinite = true := by decide +kernel
  refine ⟨by decide +kernel, (numeral_rounds finite).1, ?_⟩
  exact (numeral_rounds finite).2 100.12 (by decide +kernel)

example : numeral (-0.001) = "-0" ∧ numeral 0.001 = "0" := by decide +kernel

end Svg
end Flowchart

/- PrivateBtc/Library/Double
   digest: Double-precision numbers as rationals, with JavaScript's readings and spellings. -/

import Mathlib.Algebra.Order.Field.Power
import Mathlib.Data.Rat.Floor
import Mathlib.Tactic.NormNum
import PrivateBtc.Library.JsText

set_option autoImplicit false
set_option relaxedAutoImplicit false

namespace PrivateBtc.Library

open JsText

/-- A finite double is the rational it stands for; the two zeros are one. -/
inductive Double where
  | finite (value : ℚ)
  | infinite (negative : Bool)
  | nan
  deriving DecidableEq

namespace Double

def power (base : Nat) : Int → ℚ
  | .ofNat n => ((base ^ n : Nat) : ℚ)
  | .negSucc n => mkRat 1 (base ^ (n + 1))

/-- The exponent `e` with `2^e ≤ |q| < 2^(e+1)`. -/
def exponent (q : ℚ) : Int :=
  let estimate : Int := (q.num.natAbs.log2 : Int) - q.den.log2
  if power 2 estimate ≤ |q| then estimate else estimate - 1

def roundEven (q : ℚ) : Int :=
  let low := q.floor
  let rest := q - low
  if rest < 1 / 2 ∨ (rest = 1 / 2 ∧ low % 2 = 0) then low else low + 1

/-- The nearest double, ties to the even significand. -/
def ofRat (q : ℚ) : Double :=
  let unit := power 2 (max (exponent q) (-1022) - 52)
  let rounded := roundEven (q / unit) * unit
  if power 2 1024 ≤ |rounded| then .infinite (q < 0) else .finite rounded

/-- `Number(n)` of a BigInt. -/
def ofInt (n : Int) : Double := ofRat n

def mul : Double → Double → Double
  | .nan, _ | _, .nan => .nan
  | .finite a, .finite b => ofRat (a * b)
  | .infinite n, .infinite m => .infinite (n != m)
  | .finite a, .infinite n | .infinite n, .finite a =>
      if a = 0 then .nan else .infinite (n != decide (a < 0))

/-- Division by a positive constant. -/
def divBy (divisor : ℚ) : Double → Double
  | .finite a => ofRat (a / divisor)
  | a => a

def floor : Double → Double
  | .finite a => .finite a.floor
  | a => a

/-- `Math.round`: ties go up. -/
def round : Double → Double
  | .finite a => .finite (a + 1 / 2).floor
  | a => a

/-- `BigInt(number)`; `none` is the RangeError. -/
def toBigInt : Double → Option Int
  | .finite a => if a.den = 1 then some a.num else none
  | _ => none

private def readExponent : Text → Int
  | 'e' :: '-' :: rest | 'E' :: '-' :: rest =>
      -Int.ofNat (Nat.ofDigitChars 10 (rest.takeWhile Char.isDigit) 0)
  | 'e' :: '+' :: rest | 'E' :: '+' :: rest | 'e' :: rest | 'E' :: rest =>
      Int.ofNat (Nat.ofDigitChars 10 (rest.takeWhile Char.isDigit) 0)
  | _ => 0

private def readSign : Text → Bool × Text
  | '-' :: rest => (true, rest)
  | '+' :: rest => (false, rest)
  | text => (false, text)

def infinityText : Text := ['I', 'n', 'f', 'i', 'n', 'i', 't', 'y']

/-- The longest decimal literal at the front of the text. -/
def parseFloat (text : Text) : Double :=
  let (negative, text) := readSign (text.dropWhile isSpace)
  let whole := text.takeWhile Char.isDigit
  let (fraction, rest) :=
    match text.dropWhile Char.isDigit with
    | '.' :: rest => (rest.takeWhile Char.isDigit, rest.dropWhile Char.isDigit)
    | rest => ([], rest)
  if infinityText.isPrefixOf text then .infinite negative
  else if whole.isEmpty && fraction.isEmpty then .nan
  else
    let digits := Nat.ofDigitChars 10 (whole ++ fraction) 0
    let magnitude := digits * power 10 (readExponent rest - fraction.length)
    ofRat (if negative then -magnitude else magnitude)

/-- The exact value of the literal that `parseFloat` rounds. -/
def decimalValue (text : Text) : Option ℚ :=
  let (negative, text) := readSign (text.dropWhile isSpace)
  let whole := text.takeWhile Char.isDigit
  let (fraction, rest) :=
    match text.dropWhile Char.isDigit with
    | '.' :: rest => (rest.takeWhile Char.isDigit, rest.dropWhile Char.isDigit)
    | rest => ([], rest)
  if infinityText.isPrefixOf text then none
  else if whole.isEmpty && fraction.isEmpty then none
  else
    let digits := Nat.ofDigitChars 10 (whole ++ fraction) 0
    let magnitude := digits * power 10 (readExponent rest - fraction.length)
    some (if negative then -magnitude else magnitude)

/-- Whether `parseInt` finds a decimal digit after the sign. -/
def parsesInt (text : Text) : Bool :=
  match (readSign (text.dropWhile isSpace)).2 with
  | c :: _ => c.isDigit
  | [] => false

/-- The text of a natural number: digits alone, and at least one. -/
private theorem toDigits_cons (n : Nat) : ∃ c rest, Nat.toDigits 10 n = c :: rest ∧
    c.isDigit = true ∧ ∀ d ∈ c :: rest, d.isDigit = true := by
  have decimal : ∀ c ∈ Nat.toDigits 10 n, c.isDigit = true := fun c member =>
    Nat.isDigit_of_mem_toDigits (by decide) (by decide) member
  cases written : Nat.toDigits 10 n with
  | nil => exact absurd written Nat.toDigits_ne_nil
  | cons c rest =>
      rw [written] at decimal
      exact ⟨c, rest, rfl, decimal c List.mem_cons_self, decimal⟩

private theorem digit_unsigned {c : Char} (digit : c.isDigit = true) :
    c ≠ '-' ∧ c ≠ '+' ∧ c ≠ 'I' := by
  refine ⟨?_, ?_, ?_⟩ <;> rintro rfl <;> cases digit

private theorem readSign_toText (n : Int) :
    readSign ((JsText.toText 10 n).dropWhile isSpace) = (decide (n < 0), Nat.toDigits 10 n.natAbs) := by
  cases n with
  | ofNat n =>
      obtain ⟨c, rest, written, digit, decimal⟩ := toDigits_cons n
      obtain ⟨notMinus, notPlus, -⟩ := digit_unsigned digit
      rw [JsText.toText, written, dropWhile_solid _ fun d member => isSpace_digit (decimal d member)]
      show readSign (c :: rest) = (decide (Int.ofNat n < 0), Nat.toDigits 10 n)
      rw [written, readSign]
      · simp
      · exact fun _ told => notMinus (List.cons.inj told).1
      · exact fun _ told => notPlus (List.cons.inj told).1
  | negSucc n =>
      rw [decide_eq_true (Int.negSucc_lt_zero n)]
      rfl

/-- The exact value of an integer's text is the integer. -/
theorem decimalValue_toText (n : Int) : decimalValue (JsText.toText 10 n) = some (n : ℚ) := by
  obtain ⟨c, rest, written, digit, decimal⟩ := toDigits_cons n.natAbs
  obtain ⟨-, -, notInfinity⟩ := digit_unsigned digit
  have whole : (c :: rest).takeWhile Char.isDigit = c :: rest := by
    rw [← List.append_nil (c :: rest), List.takeWhile_append_of_pos decimal]
    rfl
  have ended : (c :: rest).dropWhile Char.isDigit = [] := by
    rw [← List.append_nil (c :: rest), List.dropWhile_append_of_pos decimal]
    rfl
  have finite : infinityText.isPrefixOf (c :: rest) = false := by
    rw [infinityText, List.isPrefixOf_cons_cons, beq_eq_false_iff_ne.mpr (Ne.symm notInfinity)]
    rfl
  have value : Nat.ofDigitChars 10 (c :: rest) 0 = n.natAbs := by
    rw [← written, Nat.ofDigitChars_ten_toDigits]
  simp only [decimalValue, readSign_toText, written, whole, ended, finite, List.append_nil, value,
    readExponent, List.length_nil, List.isEmpty_cons, Bool.false_and, Bool.false_eq_true, if_false,
    decide_eq_true_eq]
  cases n with
  | ofNat n => simp [power]
  | negSucc n => simp [power]

theorem parsesInt_toText (n : Int) : parsesInt (JsText.toText 10 n) = true := by
  obtain ⟨c, rest, written, digit, -⟩ := toDigits_cons n.natAbs
  rw [parsesInt, readSign_toText, written]
  exact digit

/-- The `s` with `10^(s-1) ≤ q < 10^s`, for the size of a positive double. -/
private def decimalPoint (q : ℚ) : Int :=
  (Nat.toDigits 10 (q * power 10 400).floor.toNat).length - 400

/-- The shortest decimal significand that still rounds to the number. -/
private def shortest (q : ℚ) (point : Int) : Nat → Nat → Text
  | 0, count => Nat.toDigits 10 (q * power 10 (count - point)).floor.toNat
  | more + 1, count =>
      let scale := power 10 (count - point)
      let low := (q * scale).floor.toNat
      let near : List Nat := if q * scale - low ≤ 1 / 2 then [low, low + 1] else [low + 1, low]
      match near.find? fun n : Nat => ofRat ((n : ℚ) / scale) = .finite q with
      | some n => Nat.toDigits 10 n
      | none => shortest q point more (count + 1)

private def spell (digits : Text) (point : Int) : Text :=
  let count : Int := digits.length
  if count ≤ point ∧ point ≤ 21 then digits ++ List.replicate (point - count).toNat '0'
  else if 0 < point ∧ point ≤ 21 then
    digits.take point.toNat ++ '.' :: digits.drop point.toNat
  else if -6 < point ∧ point ≤ 0 then '0' :: '.' :: List.replicate (-point).toNat '0' ++ digits
  else
    let mark := if point - 1 < 0 then '-' else '+'
    let tail := 'e' :: mark :: Nat.toDigits 10 (point - 1).natAbs
    match digits with
    | [d] => d :: tail
    | d :: rest => d :: '.' :: rest ++ tail
    | [] => tail

theorem power_eq (base : Nat) (e : Int) : power base e = (base : ℚ) ^ e := by
  cases e with
  | ofNat n => simp [power]
  | negSucc n => rw [power, Rat.mkRat_eq_div, zpow_negSucc]; simp

theorem roundEven_intCast (n : Int) : roundEven (n : ℚ) = n := by
  rw [roundEven]
  simp

theorem floor_natCast (n : Nat) : ((n : ℚ)).floor = n := Rat.floor_intCast n

theorem exponent_natCast (n : Nat) : exponent (n : ℚ) ≤ n.log2 := by
  unfold exponent
  simp only [Rat.num_natCast, Rat.den_natCast, Int.natAbs_natCast, show Nat.log2 1 = 0 from rfl]
  split_ifs <;> omega

/-- Every integer of fewer than 54 binary digits is a double. -/
theorem ofRat_natCast {n : Nat} (small : n < 2 ^ 53) : ofRat (n : ℚ) = .finite n := by
  have short : n.log2 ≤ 52 := by
    by_cases zero : n = 0
    · subst zero
      decide
    · have := (Nat.log2_lt zero).mpr small
      omega
  have top := exponent_natCast n
  obtain ⟨k, unit⟩ : ∃ k : Nat, max (exponent (n : ℚ)) (-1022) - 52 = -(k : Int) :=
    ⟨(52 - max (exponent (n : ℚ)) (-1022)).toNat, by omega⟩
  have scaled : (n : ℚ) / ((2 : Nat) : ℚ) ^ (-(k : Int)) = ((n * 2 ^ k : Nat) : Int) := by
    rw [zpow_neg, zpow_natCast, div_inv_eq_mul]
    push_cast
    rfl
  have exact : ((n * 2 ^ k : Nat) : Int) * ((2 : Nat) : ℚ) ^ (-(k : Int)) = n := by
    rw [← scaled, div_mul_cancel₀]
    positivity
  have finite : ¬ power 2 1024 ≤ |(n : ℚ)| := by
    rw [power_eq, not_le, abs_of_nonneg (Nat.cast_nonneg n)]
    have wide : (2 : ℚ) ^ 53 ≤ (2 : ℚ) ^ (1024 : Int) := by
      rw [← zpow_natCast]
      exact zpow_le_zpow_right₀ (by norm_num) (by norm_num)
    have below : (n : ℚ) < 2 ^ 53 := by exact_mod_cast small
    exact lt_of_lt_of_le below wide
  unfold ofRat
  dsimp only
  rw [unit, power_eq 2 (-(k : Int)), scaled, roundEven_intCast, exact, if_neg finite]

theorem roundEven_near (q : ℚ) : |(roundEven q : ℚ) - q| ≤ 1 := by
  have below : ((q.floor : Int) : ℚ) ≤ q := Rat.floor_le q
  have above : q < (q.floor : Int) + 1 := by
    have next := Rat.lt_floor_add_one q
    rwa [Int.cast_add, Int.cast_one] at next
  rw [roundEven, abs_le]
  split_ifs <;> push_cast <;> constructor <;> linarith

/-- The exponent is at most one too large. -/
theorem power_exponent_le {q : ℚ} (nonzero : q ≠ 0) : power 2 (exponent q) ≤ 2 * |q| := by
  have numerator : (2 : ℚ) ^ q.num.natAbs.log2 ≤ q.num.natAbs := by
    have positive : q.num.natAbs ≠ 0 := by simpa using nonzero
    exact_mod_cast Nat.log2_self_le positive
  have denominator : (q.den : ℚ) ≤ 2 * 2 ^ q.den.log2 := by
    have below : q.den < 2 ^ (q.den.log2 + 1) := Nat.lt_log2_self
    rw [pow_succ'] at below
    exact_mod_cast below.le
  have magnitude : |q| = (q.num.natAbs : ℚ) / q.den := by
    rw [Rat.abs_def, Rat.divInt_eq_div, Int.cast_natCast, Int.cast_natCast]
  have estimate : (2 : ℚ) ^ ((q.num.natAbs.log2 : Int) - q.den.log2) ≤ 2 * |q| := by
    have den : (0 : ℚ) < q.den := by exact_mod_cast q.den_pos
    rw [zpow_sub₀ two_ne_zero, zpow_natCast, zpow_natCast, magnitude, mul_div_assoc',
      div_le_div_iff₀ (by positivity) den]
    calc (2 : ℚ) ^ q.num.natAbs.log2 * q.den
        ≤ q.num.natAbs * (2 * 2 ^ q.den.log2) := by gcongr
      _ = 2 * q.num.natAbs * 2 ^ q.den.log2 := by ring
  refine le_trans ?_ estimate
  rw [power_eq]
  apply zpow_le_zpow_right₀ (by norm_num)
  unfold exponent
  dsimp only
  split_ifs <;> omega

private theorem unit_le (q : ℚ) :
    power 2 (max (exponent q) (-1022) - 52) ≤ |q| + 1 / 2 := by
  have small : (2 : ℚ) ^ (-52 : Int) ≤ 1 / 2 := by norm_num
  rw [power_eq]
  by_cases low : exponent q ≤ 0
  · calc ((2 : Nat) : ℚ) ^ (max (exponent q) (-1022) - 52)
        ≤ (2 : ℚ) ^ (-52 : Int) := by
          apply zpow_le_zpow_right₀ (by norm_num)
          omega
      _ ≤ |q| + 1 / 2 := by linarith [abs_nonneg q]
  · have nonzero : q ≠ 0 := by
      rintro rfl
      exact low (exponent_natCast 0)
    have top := power_exponent_le nonzero
    rw [power_eq] at top
    have scaled : ((2 : Nat) : ℚ) ^ (max (exponent q) (-1022) - 52) =
        (2 : ℚ) ^ exponent q * (2 : ℚ) ^ (-52 : Int) := by
      rw [max_eq_left (by omega), sub_eq_add_neg]
      exact zpow_add₀ two_ne_zero _ _
    have step : (2 : ℚ) ^ exponent q * (2 : ℚ) ^ (-52 : Int) ≤ 2 * |q| * (1 / 2) := by
      gcongr
      exact_mod_cast top
    rw [scaled]
    linarith

/-- A double is at most half as far from zero again as what it stands for. -/
theorem ofRat_near {q r : ℚ} (rounded : ofRat q = .finite r) : |r| ≤ 2 * |q| + 1 / 2 := by
  unfold ofRat at rounded
  dsimp only at rounded
  split_ifs at rounded
  cases rounded
  set unit := power 2 (max (exponent q) (-1022) - 52) with unit_eq
  have positive : 0 < unit := by
    rw [unit_eq, power_eq]
    positivity
  have close : |(roundEven (q / unit) : ℚ) * unit - q| ≤ unit := by
    have near := roundEven_near (q / unit)
    have factored : (roundEven (q / unit) : ℚ) * unit - q =
        ((roundEven (q / unit) : ℚ) - q / unit) * unit := by
      rw [sub_mul, div_mul_cancel₀ _ positive.ne']
    rw [factored, abs_mul, abs_of_pos positive]
    exact mul_le_of_le_one_left positive.le near
  have bound := unit_le q
  rw [← unit_eq] at bound
  have apart := abs_sub_abs_le_abs_sub ((roundEven (q / unit) : ℚ) * unit) q
  linarith

theorem divBy_near {d : Double} {divisor r : ℚ} (positive : 0 < divisor)
    (divided : d.divBy divisor = .finite r) :
    ∃ a, d = .finite a ∧ |r| ≤ 2 * (|a| / divisor) + 1 / 2 := by
  cases d with
  | nan => cases divided
  | infinite negative => cases divided
  | finite a =>
      have near := ofRat_near divided
      rw [abs_div, abs_of_pos positive] at near
      exact ⟨a, rfl, near⟩

/-- The integer below a double; what is no number counts as zero. -/
theorem floored_lt {d : Double} {bound : ℚ} (positive : 0 < bound)
    (below : ∀ r, d = .finite r → r < bound) :
    ((d.floor.toBigInt.getD 0 : Int) : ℚ) < bound := by
  cases d with
  | nan => simpa [floor, toBigInt] using positive
  | infinite negative => simpa [floor, toBigInt] using positive
  | finite r =>
      have whole : (floor (.finite r)).toBigInt = some r.floor := by simp [floor, toBigInt]
      rw [whole, Option.getD_some]
      calc ((r.floor : Int) : ℚ) ≤ r := Rat.floor_le r
        _ < bound := below r rfl

private theorem toDigits_mul_power {m : Nat} (positive : 0 < m) (k : Nat) :
    Nat.toDigits 10 (m * 10 ^ k) = Nat.toDigits 10 m ++ List.replicate k '0' := by
  induction k with
  | zero => simp
  | succ k ih =>
      have shifted : m * 10 ^ (k + 1) = 10 * (m * 10 ^ k) + 0 := by ring
      rw [shifted, ← Nat.toDigits_append_toDigits (by omega) (Nat.mul_pos positive (by positivity))
        (by omega), ih, List.append_assoc, List.replicate_succ']
      rfl

private theorem decimalPoint_natCast {n : Nat} (positive : 0 < n) :
    decimalPoint (n : ℚ) = (Nat.toDigits 10 n).length := by
  have scaled : (n : ℚ) * power 10 400 = ((n * 10 ^ 400 : Nat) : ℚ) := by
    rw [power_eq, show (400 : Int) = ((400 : Nat) : Int) from rfl, zpow_natCast, Nat.cast_mul,
      Nat.cast_pow]
  rw [decimalPoint, scaled, floor_natCast, Int.toNat_natCast, toDigits_mul_power positive,
    List.length_append, List.length_replicate]
  push_cast
  omega

/-- The search for the shortest significand ends at the integer's digits up to zeros. -/
private theorem shortest_natCast {n : Nat} (positive : 0 < n) (small : n < 2 ^ 52) {width : Nat}
    (low : 10 ^ (width - 1) ≤ n) (more count : Nat) (above : 0 < count) (inside : count ≤ width)
    (enough : width ≤ count + more) : ∃ m k, 0 < m ∧ n = m * 10 ^ k ∧
      shortest (n : ℚ) width more count = Nat.toDigits 10 m := by
  induction more generalizing count with
  | zero =>
      have equal : (count : Int) - width = 0 := by omega
      refine ⟨n, 0, positive, by simp, ?_⟩
      rw [shortest, equal, power_eq, zpow_zero, mul_one, floor_natCast, Int.toNat_natCast]
  | succ more ih =>
      obtain ⟨j, rfl⟩ := Nat.exists_eq_add_of_le inside
      have scale : power 10 ((count : Int) - (count + j : Nat)) = ((10 : ℚ) ^ j)⁻¹ := by
        rw [power_eq, show (count : Int) - (count + j : Nat) = -(j : Int) by omega, zpow_neg,
          zpow_natCast]
        rfl
      have unscaled : ∀ m : Nat, (m : ℚ) / ((10 : ℚ) ^ j)⁻¹ = ((m * 10 ^ j : Nat) : ℚ) := by
        intro m
        rw [div_inv_eq_mul]
        push_cast
        rfl
      have cut : ((n : ℚ) * ((10 : ℚ) ^ j)⁻¹).floor.toNat = n / 10 ^ j := by
        have floored := Rat.floor_natCast_div_natCast n (10 ^ j)
        push_cast at floored
        rw [← div_eq_mul_inv]
        change (⌊(n : ℚ) / 10 ^ j⌋).toNat = n / 10 ^ j
        rw [floored]
        rfl
      rw [shortest, scale, cut]
      simp only [unscaled]
      cases found : List.find? _ _ with
      | some m =>
          have chosen := List.mem_of_find?_eq_some found
          have matched := List.find?_some found
          have near : m ≤ n / 10 ^ j + 1 := by
            split_ifs at chosen
            · simp only [List.mem_cons, List.not_mem_nil, or_false] at chosen
              omega
            · simp only [List.mem_cons, List.not_mem_nil, or_false] at chosen
              omega
          have unit : 10 ^ j ≤ n :=
            (Nat.pow_le_pow_right (by omega) (by omega)).trans low
          have fits : m * 10 ^ j < 2 ^ 53 := by
            have whole := Nat.div_mul_le_self n (10 ^ j)
            have grown := Nat.mul_le_mul_right (10 ^ j) near
            rw [Nat.add_mul, Nat.one_mul] at grown
            omega
          rw [ofRat_natCast fits, decide_eq_true_eq, Double.finite.injEq, Nat.cast_inj] at matched
          refine ⟨m, j, ?_, matched.symm, rfl⟩
          by_contra zero
          rw [Nat.eq_zero_of_not_pos zero, Nat.zero_mul] at matched
          omega
      | none =>
          have missed := List.find?_eq_none.mp found
          by_cases last : j = 0
          · subst last
            have exact := missed n (by split_ifs <;> simp)
            simp [ofRat_natCast (show n < 2 ^ 53 by omega)] at exact
          · exact ih (count + 1) (by omega) (by omega) (by omega)

/-- `Number.prototype.toString`. -/
def toText : Double → Text
  | .nan => ['N', 'a', 'N']
  | .infinite false => infinityText
  | .infinite true => '-' :: infinityText
  | .finite q =>
      if q = 0 then ['0']
      else
        let point := decimalPoint |q|
        let digits := spell (shortest |q| point 16 1) point
        if q < 0 then '-' :: digits else digits

/-- An integer below 2^52 is written in its decimal digits. -/
theorem toText_natCast {n : Nat} (small : n < 2 ^ 52) :
    toText (.finite n) = Nat.toDigits 10 n := by
  by_cases zero : n = 0
  · subst zero
    rfl
  have positive : 0 < n := Nat.pos_of_ne_zero zero
  have filled : 0 < (Nat.toDigits 10 n).length := Nat.length_toDigits_pos
  have low : 10 ^ ((Nat.toDigits 10 n).length - 1) ≤ n := by
    by_cases single : (Nat.toDigits 10 n).length - 1 = 0
    · rw [single]
      exact positive
    · by_contra under
      have short := (Nat.length_toDigits_le_iff (by omega) (Nat.pos_of_ne_zero single)).mpr
        (Nat.lt_of_not_le under)
      omega
  have width : (Nat.toDigits 10 n).length ≤ 16 :=
    (Nat.length_toDigits_le_iff (by omega) (by omega)).mpr (by omega)
  obtain ⟨m, k, kept, factored, digits⟩ :=
    shortest_natCast positive small low 16 1 (by omega) (by omega) (by omega)
  have spelled : (Nat.toDigits 10 n).length = (Nat.toDigits 10 m).length + k := by
    rw [factored, toDigits_mul_power kept, List.length_append, List.length_replicate]
  unfold toText
  dsimp only
  rw [if_neg (by exact_mod_cast zero), abs_of_nonneg (Nat.cast_nonneg n),
    decimalPoint_natCast positive, digits, if_neg (not_lt.mpr (Nat.cast_nonneg n)), spell,
    if_pos (by omega), factored, toDigits_mul_power kept]
  congr 2
  rw [← toDigits_mul_power kept, ← factored]
  omega

end Double
end PrivateBtc.Library

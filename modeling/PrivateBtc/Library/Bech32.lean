/- PrivateBtc/Library/Bech32
   digest: Bech32 texts: groups of five bits in letters, closed by a checksum of six. -/

import Mathlib.Data.Nat.Digits.Lemmas

set_option autoImplicit false
set_option relaxedAutoImplicit false

namespace PrivateBtc.Library.Bech32

abbrev Quintet := Fin 32

def charset : List Char :=
  ['q', 'p', 'z', 'r', 'y', '9', 'x', '8', 'g', 'f', '2', 't', 'v', 'd', 'w', '0',
    's', '3', 'j', 'n', '5', '4', 'k', 'h', 'c', 'e', '6', 'm', 'u', 'a', '7', 'l']

def letter (v : Quintet) : Char := charset.getD v 'q'

def generator : List (BitVec 30) := [0x3b6a57b2, 0x26508e6d, 0x1ea119fa, 0x3d4233dd, 0x2a1462b3]

/-- Each bit from `i` on that is set brings its generator. -/
def carried (c : BitVec 30) : Nat → List (BitVec 30) → BitVec 30
  | _, [] => 0
  | i, g :: rest => (if c.getLsbD i then g else 0) ^^^ carried c (i + 1) rest

/-- The remainder moves up five bits; those that leave it are replaced by generators. -/
def shift (c : BitVec 30) : BitVec 30 := c <<< 5 ^^^ carried c 25 generator

def step (c : BitVec 30) (v : Quintet) : BitVec 30 := shift c ^^^ BitVec.ofNat 30 v

def polymod (values : List Quintet) : BitVec 30 := values.foldl step 1

/-- The last `count` groups of a number, most significant first. -/
def quintets : Nat → Nat → List Quintet
  | 0, _ => []
  | count + 1, n => quintets count (n / 32) ++ [Fin.ofNat 32 n]

def createChecksum (values : List Quintet) : List Quintet :=
  quintets 6 (polymod (values ++ List.replicate 6 0) ^^^ 1).toNat

def verifyChecksum (values : List Quintet) : Prop := polymod values = 1

instance (values : List Quintet) : Decidable (verifyChecksum values) :=
  inferInstanceAs (Decidable (polymod values = 1))

def hrpExpand (hrp : List Char) : List Quintet :=
  hrp.map (fun c => Fin.ofNat 32 (c.toNat / 32)) ++ 0 :: hrp.map fun c => Fin.ofNat 32 c.toNat

/-- The data of an address of version zero. -/
def version0 (program : List Quintet) : List Quintet := 0 :: program

/-- The text stands for the data under its human-readable part, and its checksum holds. -/
def Spells (hrp : List Char) (data : List Quintet) (text : List Char) : Prop :=
  ∃ checksum : List Quintet, checksum.length = 6 ∧
    verifyChecksum (hrpExpand hrp ++ data ++ checksum) ∧
    text = hrp ++ '1' :: (data ++ checksum).map letter

theorem letter_injective : Function.Injective letter := by
  have each : ∀ a b : Quintet, letter a = letter b → a = b := by decide
  exact fun a b => each a b

theorem carried_xor (a b : BitVec 30) (i : Nat) (generators : List (BitVec 30)) :
    carried (a ^^^ b) i generators = carried a i generators ^^^ carried b i generators := by
  induction generators generalizing i with
  | nil => simp [carried]
  | cons g rest ih =>
      rw [carried, carried, carried, ih, BitVec.getLsbD_xor]
      have cancels : ∀ x y : BitVec 30, x ^^^ y = g ^^^ x ^^^ (g ^^^ y) := by
        intro x y
        rw [BitVec.xor_comm g x, BitVec.xor_assoc, ← BitVec.xor_assoc g g y, BitVec.xor_self,
          BitVec.zero_xor]
      cases a.getLsbD i <;> cases b.getLsbD i
      · simp
      · simp only [Bool.false_xor, if_true, Bool.false_eq_true, if_false]
        ac_rfl
      · simp [BitVec.xor_assoc]
      · simpa using cancels _ _

theorem carried_clear {c : BitVec 30} {i : Nat} (clear : ∀ j, i ≤ j → c.getLsbD j = false)
    (generators : List (BitVec 30)) : carried c i generators = 0#30 := by
  induction generators generalizing i with
  | nil => rfl
  | cons g rest ih =>
      rw [carried, clear i (Nat.le_refl i), ih fun j high => clear j (by omega)]
      simp

theorem shift_xor (a b : BitVec 30) : shift (a ^^^ b) = shift a ^^^ shift b := by
  rw [shift, carried_xor, BitVec.shiftLeft_xor_distrib, shift, shift]
  ac_rfl

/-- The remainder after some values is that of its start after zeros, and of the values alone. -/
theorem foldl_step (c : BitVec 30) (values : List Quintet) :
    values.foldl step c =
      (List.replicate values.length 0).foldl step c ^^^ values.foldl step 0 := by
  have linear : ∀ a b : BitVec 30, values.foldl step (a ^^^ b) =
      (List.replicate values.length 0).foldl step a ^^^ values.foldl step b := by
    induction values with
    | nil => exact fun _ _ => rfl
    | cons v rest ih =>
        intro a b
        have one : step (a ^^^ b) v = step a 0 ^^^ step b v := by
          rw [step, step, step, shift_xor]
          simp [BitVec.xor_assoc]
        rw [List.foldl_cons, one, ih]
        rfl
  simpa using linear c 0

/-- The number that groups of five bits spell after `n`. -/
def value (n : Nat) (values : List Quintet) : Nat := values.foldl (fun n v => 32 * n + v.val) n

theorem step_toNat {c : BitVec 30} (low : c.toNat < 2 ^ 25) (v : Quintet) :
    (step c v).toNat = 32 * c.toNat + v.val := by
  have clear : ∀ i, 25 ≤ i → c.getLsbD i = false := by
    intro i high
    rw [BitVec.getLsbD, Nat.testBit_lt_two_pow]
    exact Nat.lt_of_lt_of_le low (Nat.pow_le_pow_right (by decide) high)
  have still : carried c 25 generator = 0#30 := carried_clear clear generator
  have bound := v.isLt
  have up : (c <<< 5).toNat = 2 ^ 5 * c.toNat := by
    rw [BitVec.toNat_shiftLeft, Nat.shiftLeft_eq]
    omega
  have own : (BitVec.ofNat 30 v.val).toNat = v.val := by
    rw [BitVec.toNat_ofNat]
    omega
  rw [step, shift, still, BitVec.xor_zero, BitVec.toNat_xor, up, own]
  apply Nat.eq_of_testBit_eq
  intro i
  rw [Nat.testBit_xor, show 32 * c.toNat + v.val = 2 ^ 5 * c.toNat + v.val from rfl,
    Nat.testBit_two_pow_mul_add c.toNat (by omega), Nat.testBit_two_pow_mul]
  by_cases small : i < 5
  · have outside : ¬ 5 ≤ i := by omega
    simp [small, outside]
  · have gone : v.val.testBit i = false := by
      have room : 2 ^ 5 ≤ 2 ^ i := Nat.pow_le_pow_right (by decide) (Nat.le_of_not_lt small)
      exact Nat.testBit_lt_two_pow (Nat.lt_of_lt_of_le bound room)
    simp [small, gone, Nat.le_of_not_lt small]

/-- Six groups fit the remainder, so after zero it is the number they spell. -/
theorem foldl_step_toNat (values : List Quintet) (c : BitVec 30)
    (fits : (c.toNat + 1) * 32 ^ values.length ≤ 2 ^ 30) :
    (values.foldl step c).toNat = value c.toNat values := by
  induction values generalizing c with
  | nil => rfl
  | cons v rest ih =>
      have bound := v.isLt
      have room : 1 ≤ 32 ^ rest.length := Nat.one_le_pow _ _ (by decide)
      rw [List.length_cons, Nat.pow_succ'] at fits
      have low : c.toNat < 2 ^ 25 := by
        have least := Nat.le_trans (Nat.mul_le_mul_left (c.toNat + 1)
          (Nat.mul_le_mul_left 32 room)) fits
        omega
      have next := step_toNat low v
      rw [List.foldl_cons, ih, next]
      · rfl
      · rw [next]
        calc (32 * c.toNat + v.val + 1) * 32 ^ rest.length
            ≤ 32 * (c.toNat + 1) * 32 ^ rest.length := Nat.mul_le_mul_right _ (by omega)
          _ = (c.toNat + 1) * (32 * 32 ^ rest.length) := by rw [Nat.mul_comm 32, Nat.mul_assoc]
          _ ≤ 2 ^ 30 := fits

theorem quintets_length (count n : Nat) : (quintets count n).length = count := by
  induction count generalizing n with
  | zero => rfl
  | succ count ih => rw [quintets, List.length_append, ih, List.length_singleton]

theorem value_quintets (count n : Nat) : value 0 (quintets count n) = n % 32 ^ count := by
  induction count generalizing n with
  | zero => simp [quintets, value, Nat.mod_one]
  | succ count ih =>
      have front := ih (n / 32)
      unfold value at front ⊢
      rw [quintets, List.foldl_append, front, List.foldl_cons, List.foldl_nil, Nat.pow_succ',
        Nat.mod_mul]
      exact Nat.add_comm _ _

theorem quintets_value (values : List Quintet) :
    quintets values.length (value 0 values) = values := by
  induction values using List.reverseRecOn with
  | nil => rfl
  | append_singleton values v ih =>
      have bound := v.isLt
      have whole : value 0 (values ++ [v]) = 32 * value 0 values + v.val := by
        rw [value, List.foldl_append]
        rfl
      have quotient : (32 * value 0 values + v.val) / 32 = value 0 values := by omega
      have last : Fin.ofNat 32 (32 * value 0 values + v.val) = v := by
        apply Fin.ext
        show (32 * value 0 values + v.val) % 32 = v.val
        omega
      rw [List.length_append, List.length_singleton, quintets, whole, quotient, last, ih]

/-- Six groups close the values exactly when they are the checksum made for them. -/
theorem verifyChecksum_iff {values checksum : List Quintet} (six : checksum.length = 6) :
    verifyChecksum (values ++ checksum) ↔ checksum = createChecksum values := by
  have told : (checksum.foldl step 0).toNat = value 0 checksum :=
    foldl_step_toNat checksum 0 (by rw [six]; decide)
  have split : polymod (values ++ checksum) =
      polymod (values ++ List.replicate 6 0) ^^^ checksum.foldl step 0 := by
    rw [polymod, List.foldl_append, foldl_step, six, polymod, List.foldl_append]
  rw [verifyChecksum, split, createChecksum]
  generalize polymod (values ++ List.replicate 6 0) = remainder
  constructor
  · intro closes
    have own : checksum.foldl step 0 = remainder ^^^ 1 := by
      rw [← closes, ← BitVec.xor_assoc, BitVec.xor_self, BitVec.zero_xor]
    rw [← own, told, ← six, quintets_value]
  · intro made
    have fits := (remainder ^^^ 1).isLt
    have number : value 0 checksum = (remainder ^^^ 1).toNat := by
      rw [made, value_quintets, Nat.mod_eq_of_lt (by simpa using fits)]
    have own : checksum.foldl step 0 = remainder ^^^ 1 :=
      BitVec.eq_of_toNat_eq (told.trans number)
    rw [own, ← BitVec.xor_assoc, BitVec.xor_self, BitVec.zero_xor]

/-- The text of some data under a human-readable part. -/
def encode (hrp : List Char) (data : List Quintet) : List Char :=
  hrp ++ '1' :: (data ++ createChecksum (hrpExpand hrp ++ data)).map letter

theorem spells_iff {hrp text : List Char} {data : List Quintet} :
    Spells hrp data text ↔ text = encode hrp data := by
  constructor
  · rintro ⟨checksum, six, closes, rfl⟩
    rw [(verifyChecksum_iff six).mp closes, encode]
  · rintro rfl
    refine ⟨_, quintets_length 6 _, ?_, rfl⟩
    exact (verifyChecksum_iff (quintets_length 6 _)).mpr rfl

end PrivateBtc.Library.Bech32

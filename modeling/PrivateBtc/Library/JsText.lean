/- PrivateBtc/Library/JsText
   digest: Texts as JavaScript reads and writes integers in them. -/

import PrivateBtc.Library.Hex

set_option autoImplicit false
set_option relaxedAutoImplicit false

namespace PrivateBtc.Library.JsText

abbrev Text := List Char

def isSpace (c : Char) : Bool :=
  [9, 10, 11, 12, 13, 32, 160, 5760, 8232, 8233, 8239, 8287, 12288, 65279].contains c.toNat ||
    (8192 ≤ c.toNat && c.toNat ≤ 8202)

def trim (text : Text) : Text :=
  ((text.dropWhile isSpace).reverse.dropWhile isSpace).reverse

def toLowerCase (text : Text) : Text := text.map Char.toLower

def padStart (width : Nat) (fill : Char) (text : Text) : Text :=
  List.replicate (width - text.length) fill ++ text

/-- The text without the first place where `0x` stands in it. -/
def dropFirst0x : Text → Text
  | '0' :: 'x' :: rest => rest
  | c :: rest => c :: dropFirst0x rest
  | [] => []

def includes (needle : Text) : Text → Bool
  | [] => needle.isEmpty
  | c :: rest => needle.isPrefixOf (c :: rest) || includes needle rest

def digitIn (radix : Nat) (c : Char) : Option Nat :=
  match Hex.digitValue c with
  | some d => if d < radix then some d else none
  | none => none

def readDigits (radix : Nat) : Nat → Text → Option Nat
  | value, [] => some value
  | value, c :: rest =>
      match digitIn radix c with
      | some d => readDigits radix (radix * value + d) rest
      | none => none

def readLiteral (radix : Nat) : Text → Option Nat
  | [] => none
  | text => readDigits radix 0 text

/-- `BigInt(text)`: a sign stands before decimal digits only; `none` is the SyntaxError. -/
def bigInt (text : Text) : Option Int :=
  match trim text with
  | [] => some 0
  | '0' :: 'x' :: rest | '0' :: 'X' :: rest => (readLiteral 16 rest).map Int.ofNat
  | '0' :: 'o' :: rest | '0' :: 'O' :: rest => (readLiteral 8 rest).map Int.ofNat
  | '0' :: 'b' :: rest | '0' :: 'B' :: rest => (readLiteral 2 rest).map Int.ofNat
  | '-' :: rest => (readLiteral 10 rest).map fun n => -Int.ofNat n
  | '+' :: rest => (readLiteral 10 rest).map Int.ofNat
  | literal => (readLiteral 10 literal).map Int.ofNat

def toText (radix : Nat) : Int → Text
  | .ofNat n => Nat.toDigits radix n
  | .negSucc n => '-' :: Nat.toDigits radix (n + 1)

def hexText (n : Nat) : Text := '0' :: 'x' :: Nat.toDigits 16 n

def leadingDigits (text : Text) : Option Nat :=
  match text.takeWhile Char.isDigit with
  | [] => none
  | digits => some (Nat.ofDigitChars 10 digits 0)

/-- `parseInt(text, 10)`; `none` is NaN. -/
def parseInt (text : Text) : Option Int :=
  match text.dropWhile isSpace with
  | '-' :: rest => (leadingDigits rest).map fun n => -Int.ofNat n
  | '+' :: rest => (leadingDigits rest).map Int.ofNat
  | rest => (leadingDigits rest).map Int.ofNat

private theorem digit_bounds {c : Char} (digit : c.isDigit = true) :
    48 ≤ c.toNat ∧ c.toNat ≤ 57 := by
  simp only [Char.isDigit, ge_iff_le, UInt32.le_iff_toNat_le, Bool.and_eq_true,
    decide_eq_true_eq] at digit
  exact digit

private theorem digitIn_digit {c : Char} (digit : c.isDigit = true) :
    digitIn 10 c = some (c.toNat - '0'.toNat) := by
  obtain ⟨low, high⟩ := digit_bounds digit
  have value : Hex.digitValue c = some (c.toNat - 48) := by
    rw [Hex.digitValue, if_pos]
    exact ⟨Char.le_def.mpr (UInt32.le_iff_toNat_le.mpr low),
      Char.le_def.mpr (UInt32.le_iff_toNat_le.mpr high)⟩
  rw [digitIn, value]
  exact if_pos (by omega)

private theorem readDigits_digits (text : Text) (decimal : ∀ c ∈ text, c.isDigit = true)
    (value : Nat) : readDigits 10 value text = some (Nat.ofDigitChars 10 text value) := by
  induction text generalizing value with
  | nil => rfl
  | cons c rest ih =>
      rw [readDigits, digitIn_digit (decimal c List.mem_cons_self), Nat.ofDigitChars_cons]
      exact ih (fun d member => decimal d (List.mem_cons_of_mem _ member)) _

theorem isSpace_digit {c : Char} (digit : c.isDigit = true) : isSpace c = false := by
  obtain ⟨low, high⟩ := digit_bounds digit
  have each : ∀ n < 58, 48 ≤ n →
      ([9, 10, 11, 12, 13, 32, 160, 5760, 8232, 8233, 8239, 8287, 12288, 65279].contains n ||
        (8192 ≤ n && n ≤ 8202)) = false := by decide
  exact each c.toNat (by omega) low

theorem dropWhile_solid (text : Text) (solid : ∀ c ∈ text, isSpace c = false) :
    text.dropWhile isSpace = text := by
  cases text with
  | nil => rfl
  | cons c rest =>
      rw [List.dropWhile_cons_of_neg]
      simp [solid c List.mem_cons_self]

private theorem trim_solid (text : Text) (solid : ∀ c ∈ text, isSpace c = false) :
    trim text = text := by
  rw [trim, dropWhile_solid text solid, dropWhile_solid text.reverse, List.reverse_reverse]
  intro c member
  exact solid c (List.mem_reverse.mp member)

private theorem trim_digits (text : Text) (decimal : ∀ c ∈ text, c.isDigit = true) :
    trim text = text :=
  trim_solid text fun c member => isSpace_digit (decimal c member)

private theorem trim_negative (text : Text) (decimal : ∀ c ∈ text, c.isDigit = true)
    (nonempty : text ≠ []) : trim ('-' :: text) = '-' :: text := by
  have first : ('-' :: text).dropWhile isSpace = '-' :: text := by
    rw [List.dropWhile_cons_of_neg]
    decide
  have last : (text.reverse ++ ['-']).dropWhile isSpace = text.reverse ++ ['-'] := by
    cases turned : text.reverse with
    | nil => exact absurd (List.reverse_eq_nil_iff.mp turned) nonempty
    | cons c rest =>
        have member : c ∈ text := List.mem_reverse.mp (turned ▸ List.mem_cons_self)
        rw [List.cons_append, List.dropWhile_cons_of_neg]
        simp [isSpace_digit (decimal c member)]
  rw [trim, first, List.reverse_cons, last, List.reverse_append, List.reverse_reverse]
  rfl

private theorem bigInt_digits (text : Text) (decimal : ∀ c ∈ text, c.isDigit = true)
    (nonempty : text ≠ []) : bigInt text = some (Int.ofNat (Nat.ofDigitChars 10 text 0)) := by
  have read : readLiteral 10 text = some (Nat.ofDigitChars 10 text 0) := by
    cases text with
    | nil => exact absurd rfl nonempty
    | cons c rest => exact readDigits_digits _ decimal 0
  -- none of the marks of the other literals is a digit
  have noMark : ∀ c ∈ text, c ∉ ['x', 'X', 'o', 'O', 'b', 'B', '-', '+'] := by
    intro c member mark
    have marks : ∀ d ∈ ['x', 'X', 'o', 'O', 'b', 'B', '-', '+'], d.isDigit = false := by simp
    have digit := decimal c member
    rw [marks c mark] at digit
    cases digit
  rw [bigInt, trim_digits text decimal]
  split <;> simp_all

/-- An integer written in decimal is read back. -/
theorem bigInt_toText (n : Int) : bigInt (toText 10 n) = some n := by
  have decimal : ∀ m, ∀ c ∈ Nat.toDigits 10 m, c.isDigit = true := fun m c member =>
    Nat.isDigit_of_mem_toDigits (by decide) (by decide) member
  cases n with
  | ofNat n =>
      rw [toText, bigInt_digits _ (decimal n) Nat.toDigits_ne_nil, Nat.ofDigitChars_ten_toDigits]
  | negSucc n =>
      have digits := decimal (n + 1)
      have read : readLiteral 10 (Nat.toDigits 10 (n + 1)) = some (n + 1) := by
        cases written : Nat.toDigits 10 (n + 1) with
        | nil => exact absurd written Nat.toDigits_ne_nil
        | cons c rest =>
            rw [written] at digits
            rw [readLiteral, readDigits_digits _ digits, ← written,
              Nat.ofDigitChars_ten_toDigits]
            exact List.cons_ne_nil c rest
      rw [toText, bigInt, trim_negative _ digits Nat.toDigits_ne_nil]
      show (readLiteral 10 (Nat.toDigits 10 (n + 1))).map (fun n => -Int.ofNat n) = _
      rw [read]
      rfl

private theorem leadingDigits_toDigits (n : Nat) :
    leadingDigits (Nat.toDigits 10 n) = some n := by
  have whole : (Nat.toDigits 10 n).takeWhile Char.isDigit = Nat.toDigits 10 n := by
    rw [← List.append_nil (Nat.toDigits 10 n), List.takeWhile_append_of_pos]
    · rfl
    · intro c member
      exact Nat.isDigit_of_mem_toDigits (by omega) (by omega) member
  cases written : Nat.toDigits 10 n with
  | nil => exact absurd written Nat.toDigits_ne_nil
  | cons c rest =>
      rw [written] at whole
      rw [leadingDigits, whole]
      dsimp only
      rw [← written, Nat.ofDigitChars_ten_toDigits]

theorem parseInt_toText (n : Int) : parseInt (toText 10 n) = some n := by
  cases n with
  | ofNat n =>
      have digits : ∀ c ∈ Nat.toDigits 10 n, c.isDigit = true := fun c member =>
        Nat.isDigit_of_mem_toDigits (by omega) (by omega) member
      have solid := dropWhile_solid _ fun c member => isSpace_digit (digits c member)
      rw [parseInt, toText, solid]
      cases written : Nat.toDigits 10 n with
      | nil => exact absurd written Nat.toDigits_ne_nil
      | cons c rest =>
          have first := digits c (by rw [written]; exact List.mem_cons_self)
          have minus : c ≠ '-' := by
            rintro rfl
            cases first
          have plus : c ≠ '+' := by
            rintro rfl
            cases first
          have value := leadingDigits_toDigits n
          rw [written] at value
          split
          · rename_i told
            exact absurd (List.cons.inj told).1 minus
          · rename_i told
            exact absurd (List.cons.inj told).1 plus
          · rw [value]
            rfl
  | negSucc n =>
      have spaced : ('-' :: Nat.toDigits 10 (n + 1)).dropWhile isSpace =
          '-' :: Nat.toDigits 10 (n + 1) := List.dropWhile_cons_of_neg (by decide)
      rw [parseInt, toText, spaced]
      simp only [leadingDigits_toDigits]
      rfl

private theorem readDigits_append (radix value : Nat) (left right : Text) :
    readDigits radix value (left ++ right) =
      (readDigits radix value left).bind fun v => readDigits radix v right := by
  induction left generalizing value with
  | nil => rfl
  | cons c rest ih =>
      rw [List.cons_append, readDigits, readDigits]
      cases digitIn radix c with
      | none => rfl
      | some d => exact ih _

private theorem hexDigit : ∀ d < 16, digitIn 16 (Nat.digitChar d) = some d ∧
    isSpace (Nat.digitChar d) = false ∧ Hex.digit d = Nat.digitChar d := by
  decide

private theorem readDigits_hex (n : Nat) : readDigits 16 0 (Nat.toDigits 16 n) = some n := by
  have one : ∀ d < 16, ∀ value, readDigits 16 value [Nat.digitChar d] = some (16 * value + d) := by
    intro d small value
    rw [readDigits, (hexDigit d small).1]
    rfl
  induction n using Nat.strongRecOn with
  | ind n ih =>
      rcases Nat.lt_or_ge n 16 with small | large
      · rw [Nat.toDigits_of_lt_base small, one n small, Nat.mul_zero, Nat.zero_add]
      · rw [Nat.toDigits_of_base_le (by decide) large, readDigits_append,
          ih _ (Nat.div_lt_self (by omega) (by decide)), Option.bind_some,
          one _ (Nat.mod_lt _ (by decide)), Nat.div_add_mod]

/-- What holds of the sixteen digits holds of every character of a hex numeral. -/
theorem forall_hex {p : Char → Prop} (each : ∀ d < 16, p (Nat.digitChar d)) (n : Nat) :
    ∀ c ∈ Nat.toDigits 16 n, p c := by
  induction n using Nat.strongRecOn with
  | ind n ih =>
      intro c member
      rcases Nat.lt_or_ge n 16 with small | large
      · rw [Nat.toDigits_of_lt_base small, List.mem_singleton] at member
        rw [member]
        exact each n small
      · rw [Nat.toDigits_of_base_le (by decide) large, List.mem_append, List.mem_singleton] at member
        rcases member with member | rfl
        · exact ih _ (Nat.div_lt_self (by omega) (by decide)) c member
        · exact each _ (Nat.mod_lt _ (by decide))

private theorem isSpace_hex (n : Nat) : ∀ c ∈ Nat.toDigits 16 n, isSpace c = false :=
  forall_hex (fun d small => (hexDigit d small).2.1) n

theorem digitIn_hex (n : Nat) : ∀ c ∈ Nat.toDigits 16 n, (digitIn 16 c).isSome = true := by
  apply forall_hex
  intro d small
  rw [(hexDigit d small).1]
  rfl

private theorem isSpace_hexText (n : Nat) : ∀ c ∈ hexText n, isSpace c = false := by
  intro c member
  rcases List.mem_cons.mp member with rfl | member
  · decide
  rcases List.mem_cons.mp member with rfl | member
  · decide
  · exact isSpace_hex n c member

theorem readLiteral_hex (n : Nat) : readLiteral 16 (Nat.toDigits 16 n) = some n := by
  cases written : Nat.toDigits 16 n with
  | nil => exact absurd written Nat.toDigits_ne_nil
  | cons c rest =>
      rw [readLiteral, ← written, readDigits_hex]
      exact List.cons_ne_nil c rest

/-- A number written in hex is read back. -/
theorem bigInt_hexText (n : Nat) : bigInt (hexText n) = some (n : Int) := by
  rw [bigInt, trim_solid _ (isSpace_hexText n)]
  show (readLiteral 16 (Nat.toDigits 16 n)).map Int.ofNat = _
  rw [readLiteral_hex]
  rfl

/-- Only the 26 capital letters have another lower case. -/
private theorem toLower_cases (c : Char) :
    c.toLower = c ∨ ∃ k, 65 ≤ k ∧ k < 91 ∧ c = Char.ofNat k := by
  by_cases capital : c.val ≥ 'A'.val ∧ c.val ≤ 'Z'.val
  · have low := UInt32.le_iff_toNat_le.mp capital.1
    have high := UInt32.le_iff_toNat_le.mp capital.2
    have bounds : 65 ≤ c.toNat ∧ c.toNat < 91 := ⟨low, Nat.lt_succ_of_le high⟩
    exact Or.inr ⟨c.toNat, bounds.1, bounds.2, (Char.ofNat_toNat c).symm⟩
  · left
    exact dif_neg capital

private theorem capitals : ∀ k < 91, 65 ≤ k →
    Hex.digitValue (Char.ofNat k).toLower = Hex.digitValue (Char.ofNat k) ∧
      isSpace (Char.ofNat k) = false ∧ (Char.ofNat k).toLower ≠ '0' ∧
      ((Char.ofNat k).toLower = 'x' → Char.ofNat k = 'X') := by
  decide

private theorem digitIn_toLower (radix : Nat) (c : Char) :
    digitIn radix c.toLower = digitIn radix c := by
  rcases toLower_cases c with same | ⟨k, low, high, rfl⟩
  · rw [same]
  · rw [digitIn, digitIn, (capitals k high low).1]

private theorem readDigits_toLowerCase (radix value : Nat) (text : Text) :
    readDigits radix value (toLowerCase text) = readDigits radix value text := by
  induction text generalizing value with
  | nil => rfl
  | cons c rest ih =>
      show readDigits radix value (c.toLower :: toLowerCase rest) = _
      rw [readDigits, readDigits, digitIn_toLower]
      cases digitIn radix c with
      | none => rfl
      | some d => exact ih _

private theorem toLower_digitChar : ∀ d < 16, (Nat.digitChar d).toLower = Nat.digitChar d := by
  decide

theorem toLowerCase_toDigits (n : Nat) : toLowerCase (Nat.toDigits 16 n) = Nat.toDigits 16 n := by
  have kept : ∀ c ∈ Nat.toDigits 16 n, c.toLower = c := forall_hex toLower_digitChar n
  rw [toLowerCase, List.map_congr_left kept, List.map_id']

theorem toLowerCase_hexText (n : Nat) : toLowerCase (hexText n) = hexText n :=
  congrArg (fun digits => '0' :: 'x' :: digits) (toLowerCase_toDigits n)

/-- A text has the characters of what it includes. -/
theorem mem_of_includes {needle text : Text} (found : includes needle text = true) :
    ∀ c ∈ needle, c ∈ text := by
  induction text with
  | nil =>
      rw [includes, List.isEmpty_iff] at found
      rw [found]
      exact fun c member => member
  | cons head rest ih =>
      rw [includes, Bool.or_eq_true, List.isPrefixOf_iff_prefix] at found
      intro c member
      rcases found with here | later
      · exact here.subset member
      · exact List.mem_cons_of_mem head (ih later c member)

theorem hexText_injective {m n : Nat} (same : hexText m = hexText n) : m = n := by
  have read := bigInt_hexText m
  rw [same, bigInt_hexText, Option.some_inj] at read
  exact (Int.ofNat.inj read).symm

theorem toDigits_injective {m n : Nat} (same : Nat.toDigits 16 m = Nat.toDigits 16 n) : m = n :=
  hexText_injective (congrArg (fun digits => '0' :: 'x' :: digits) same)

/-- Letter case does not change the number. -/
theorem bigInt_of_toLowerCase {text : Text} {n : Nat} (lower : toLowerCase text = hexText n) :
    bigInt text = some (n : Int) := by
  have solid : ∀ c ∈ text, isSpace c = false := by
    intro c member
    rcases toLower_cases c with same | ⟨k, low, high, rfl⟩
    · have inside : c.toLower ∈ hexText n := lower ▸ List.mem_map_of_mem member
      rw [same] at inside
      exact isSpace_hexText n c inside
    · exact (capitals k high low).2.1
  match text, lower with
  | [c], lower => simp [toLowerCase, hexText] at lower
  | zero :: mark :: rest, lower =>
      obtain ⟨zero_lower, mark_lower, digits⟩ : zero.toLower = '0' ∧ mark.toLower = 'x' ∧
          toLowerCase rest = Nat.toDigits 16 n := by
        simpa [toLowerCase, hexText] using lower
      have read : readLiteral 16 rest = some n := by
        cases written : rest with
        | nil =>
            rw [written] at digits
            exact absurd digits.symm Nat.toDigits_ne_nil
        | cons c others =>
            rw [readLiteral, ← written, ← readDigits_toLowerCase, digits, readDigits_hex]
            exact List.cons_ne_nil c others
      have zero_eq : zero = '0' := by
        rcases toLower_cases zero with same | ⟨k, low, high, rfl⟩
        · rw [← same, zero_lower]
        · exact absurd zero_lower (capitals k high low).2.2.1
      have mark_eq : mark = 'x' ∨ mark = 'X' := by
        rcases toLower_cases mark with same | ⟨k, low, high, rfl⟩
        · rw [← same, mark_lower]
          exact Or.inl rfl
        · exact Or.inr ((capitals k high low).2.2.2 mark_lower)
      rw [bigInt, trim_solid _ solid, zero_eq]
      rcases mark_eq with rfl | rfl
      · show (readLiteral 16 rest).map Int.ofNat = _
        rw [read]
        rfl
      · show (readLiteral 16 rest).map Int.ofNat = _
        rw [read]
        rfl

/-- One digit less to pad when the last digit is set apart. -/
private theorem padStart_hex (width n : Nat) :
    padStart (width + 2) '0' (Nat.toDigits 16 n) =
      padStart (width + 1) '0' (Nat.toDigits 16 (n / 16)) ++ [(n % 16).digitChar] := by
  rcases Nat.lt_or_ge n 16 with small | large
  · rw [Nat.toDigits_of_lt_base small, Nat.div_eq_of_lt small, Nat.mod_eq_of_lt small,
      Nat.toDigits_zero, padStart, padStart, ← List.replicate_succ']
    rfl
  · have shorter : width + 2 - (Nat.toDigits 16 n).length =
        width + 1 - (Nat.toDigits 16 (n / 16)).length := by
      rw [Nat.toDigits_of_base_le (by decide) large, List.length_append, List.length_singleton]
      omega
    rw [padStart, padStart, shorter, Nat.toDigits_of_base_le (by decide) large, List.append_assoc]

/-- A number padded to the digits of its bytes spells them. -/
theorem encode_bigEndian (width n : Nat) (fits : n < 256 ^ (width + 1)) :
    Hex.encode (Bytes.bigEndian (width + 1) n) =
      padStart (2 * (width + 1)) '0' (Nat.toDigits 16 n) := by
  have last : ∀ n : Nat, Hex.encode [UInt8.ofNat n] =
      [((n / 16) % 16).digitChar, (n % 16).digitChar] := by
    intro n
    have high : (UInt8.ofNat n).toNat / 16 = (n / 16) % 16 := by
      rw [UInt8.toNat_ofNat']
      omega
    have low : (UInt8.ofNat n).toNat % 16 = n % 16 := by
      rw [UInt8.toNat_ofNat']
      omega
    rw [Hex.encode, Hex.encode, high, low, (hexDigit _ (Nat.mod_lt _ (by decide))).2.2,
      (hexDigit _ (Nat.mod_lt _ (by decide))).2.2]
  induction width generalizing n with
  | zero =>
      have first : n / 16 < 16 := by omega
      rw [show Bytes.bigEndian (0 + 1) n = [UInt8.ofNat n] from rfl, last, Nat.mod_eq_of_lt first]
      show _ = padStart (0 + 2) '0' _
      rw [padStart_hex, Nat.toDigits_of_lt_base first]
      rfl
  | succ width ih =>
      have split : Bytes.bigEndian (width + 1 + 1) n =
          Bytes.bigEndian (width + 1) (n / 256) ++ [UInt8.ofNat n] := by
        rw [Bytes.bigEndian, Bytes.littleEndian, List.reverse_cons, Bytes.bigEndian]
      have quotient : n / 16 / 16 = n / 256 := by omega
      rw [split, Hex.encode_append, ih (n / 256) (by rw [pow_succ] at fits; omega), last,
        show 2 * (width + 1 + 1) = 2 * width + 2 + 2 from by omega, padStart_hex, padStart_hex,
        quotient, List.append_assoc]
      rfl

/-- An even number of digits spells the bytes of the number they stand for. -/
private theorem readDigits_decode (width : Nat) {value n : Nat} {text : Text}
    (even : text.length = 2 * width) (read : readDigits 16 value text = some n) :
    (Hex.decode text).length = width ∧
      n = value * 256 ^ width + Bytes.fromBigEndian (Hex.decode text) := by
  induction width generalizing value text with
  | zero =>
      obtain rfl := List.length_eq_zero_iff.mp even
      cases read
      exact ⟨rfl, by simp [Hex.decode, Bytes.fromBigEndian]⟩
  | succ width ih =>
      obtain ⟨high, low, rest, rfl⟩ : ∃ high low rest, text = high :: low :: rest := by
        cases text with
        | nil =>
            simp only [List.length_nil] at even
            omega
        | cons high tail =>
            cases tail with
            | nil =>
                simp only [List.length_singleton] at even
                omega
            | cons low rest => exact ⟨high, low, rest, rfl⟩
      have short : rest.length = 2 * width := by
        simp only [List.length_cons] at even
        omega
      rw [readDigits] at read
      cases top : Hex.digitValue high with
      | none => simp [digitIn, top] at read
      | some h =>
          have h_lt := Hex.digitValue_lt top
          rw [digitIn, top] at read
          simp only [h_lt, if_true] at read
          rw [readDigits] at read
          cases bottom : Hex.digitValue low with
          | none => simp [digitIn, bottom] at read
          | some l =>
              have l_lt := Hex.digitValue_lt bottom
              rw [digitIn, bottom] at read
              simp only [l_lt, if_true] at read
              obtain ⟨length, sum⟩ := ih short read
              have byte : (UInt8.ofNat (16 * h + l)).toNat = 16 * h + l := by
                rw [UInt8.toNat_ofNat']
                omega
              rw [Hex.decode, Hex.byteOf, top, bottom]
              refine ⟨by simp [length], ?_⟩
              rw [sum, Bytes.fromBigEndian_cons, length, byte, Nat.pow_succ]
              ring

/-- Digits padded to whole bytes spell the number they stand for. -/
theorem decode_padStart {width n : Nat} {digits : Text} (short : digits.length ≤ 2 * width)
    (read : readLiteral 16 digits = some n) :
    Hex.decode (padStart (2 * width) '0' digits) = Bytes.bigEndian width n := by
  have zeros : ∀ count, readDigits 16 0 (List.replicate count '0') = some 0 := by
    intro count
    induction count with
    | zero => rfl
    | succ count ih => exact ih
  have own : readDigits 16 0 digits = some n := by
    cases digits with
    | nil => cases read
    | cons c rest => exact read
  have padded : readDigits 16 0 (padStart (2 * width) '0' digits) = some n := by
    rw [padStart, readDigits_append, zeros]
    exact own
  have even : (padStart (2 * width) '0' digits).length = 2 * width := by
    rw [padStart, List.length_append, List.length_replicate]
    omega
  obtain ⟨length, sum⟩ := readDigits_decode width even padded
  rw [sum, Nat.zero_mul, Nat.zero_add]
  have spelled := Bytes.bigEndian_fromBigEndian (Hex.decode (padStart (2 * width) '0' digits))
  rw [length] at spelled
  exact spelled.symm

end PrivateBtc.Library.JsText

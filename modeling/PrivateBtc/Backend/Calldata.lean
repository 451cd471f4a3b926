/- PrivateBtc/Backend/Calldata
   digest: Calldata as the backend writes it and as the vault's entry points read it. -/

import PrivateBtc.Backend.WithdrawGate
import PrivateBtc.Contracts.Vault

set_option autoImplicit false
set_option relaxedAutoImplicit false

namespace PrivateBtc.Backend.Calldata

open Library Library.JsText
open Contracts.Corelib (Felt U256)
open Contracts.Hashing (Digest)
open Contracts.Vault (Call DepositArgs WithdrawArgs)
open WithdrawGate (WithdrawCall)

def feltOf (text : Text) : Option Felt :=
  match bigInt text with
  | some n =>
      if h : 0 ≤ n ∧ n.toNat < CryptoService.starkFieldPrime then
        some ⟨n.toNat, CryptoService.felt_of_fits h⟩
      else none
  | none => none

/-- starknet.js' /^0x[0-9a-f]*$/i -/
def isHex : Text → Bool
  | '0' :: x :: digits => (x == 'x' || x == 'X') && digits.all fun c => (digitIn 16 c).isSome
  | _ => false

def isStringWholeNumber (text : Text) : Bool := !text.isEmpty && text.all Char.isDigit

/-- How starknet.js writes a calldata text as a felt: hex and whole numbers as `BigInt` reads
them; what it makes of any other text is left to it. -/
structure FeltReading where
  felt : Text → Option Felt
  hex : ∀ text, isHex text = true → felt text = feltOf text
  wholeNumber : ∀ text, isStringWholeNumber text = true → felt text = feltOf text

def encodeShortString (text : Text) : Option Felt :=
  if !text.isEmpty && text.length ≤ 31 && text.all fun c => c.toNat < 128 then
    some (Fin.ofNat _ (text.foldl (fun value c => 256 * value + c.toNat) 0))
  else none

/-- `felt`: a text that is no number is a short string. -/
def FeltReading.shortStrings : FeltReading where
  felt text := if isHex text || isStringWholeNumber text then feltOf text else encodeShortString text
  hex text isHex := by simp [isHex]
  wholeNumber text whole := by simp [whole]

def decimal (n : Nat) : Text := toText 10 (Int.ofNat n)

/-- Serde: a value read off the front of the calldata. -/
abbrev Reader (A : Type) := List Felt → Option (A × List Felt)

def readFelt : Reader Felt
  | felt :: rest => some (felt, rest)
  | [] => none

def readBelow (bound : Nat) : Reader Nat
  | felt :: rest => if felt.val < bound then some (felt.val, rest) else none
  | [] => none

def readMany {A : Type} (read : Reader A) : Nat → Reader (List A)
  | 0, felts => some ([], felts)
  | count + 1, felts => do
      let (first, felts) ← read felts
      let (others, felts) ← readMany read count felts
      pure (first :: others, felts)

def readSpan {A : Type} (read : Reader A) : Reader (List A)
  | length :: felts => readMany read length.val felts
  | [] => none

def readDigest : Reader Digest := fun felts => do
  let (words, felts) ← readMany (readBelow (2 ^ 32)) 8 felts
  pure (Words.Words8.ofList (words.map UInt32.ofNat), felts)

def readDeposit (felts : List Felt) : Option DepositArgs := do
  let (commitment, felts) ← readFelt felts
  let (blockHeight, felts) ← readBelow (2 ^ 64) felts
  let (txPos, felts) ← readBelow (2 ^ 64) felts
  let (rawTx, felts) ← readSpan (readBelow (2 ^ 8)) felts
  let (voutIndex, felts) ← readBelow (2 ^ 32) felts
  let (merkleProof, felts) ← readSpan readDigest felts
  if felts.isEmpty then
    some { commitment, blockHeight := .ofNat blockHeight, txPos := .ofNat txPos,
           rawTx := rawTx.map UInt8.ofNat, voutIndex := .ofNat voutIndex, merkleProof }
  else none

def readWithdraw (felts : List Felt) : Option WithdrawArgs := do
  let (nullifier, felts) ← readFelt felts
  let (proof, felts) ← readSpan readFelt felts
  let (recipient, felts) ← readFelt felts
  let (low, felts) ← readBelow (2 ^ 128) felts
  let (high, felts) ← readBelow (2 ^ 128) felts
  if felts.isEmpty then
    some { nullifier, proof, recipient, amount := Fin.ofNat _ (low + 2 ^ 128 * high) }
  else none

def readMint (felts : List Felt) : Option (Felt × U256) := do
  let (recipient, felts) ← readFelt felts
  let (low, felts) ← readBelow (2 ^ 128) felts
  let (high, felts) ← readBelow (2 ^ 128) felts
  if felts.isEmpty then some (recipient, Fin.ofNat _ (low + 2 ^ 128 * high)) else none

/-- The body of spv-deposit, as far as the deposit call uses it. -/
structure SpvDepositParams where
  commitment : Text
  blockHeight : Nat
  txPos : Nat
  rawTxBytes : List UInt8
  voutIndex : Nat
  merkleProofWords : List (List Double)

def spvDepositCalldata (params : SpvDepositParams) : List Text :=
  [params.commitment, decimal params.blockHeight, decimal params.txPos] ++
  (decimal params.rawTxBytes.length :: params.rawTxBytes.map fun b => decimal b.toNat) ++
  [decimal params.voutIndex] ++
  (decimal params.merkleProofWords.length ::
    params.merkleProofWords.flatMap fun words => words.map Double.toText)

/-- `uint256.bnToUint256`, low limb first. -/
def limbs (amount : Nat) : List Text := [hexText (amount % 2 ^ 128), hexText (amount / 2 ^ 128)]

def withdrawCalldata (call : WithdrawCall) : List Text :=
  [call.nullifierHash, decimal call.proof.length] ++ call.proof ++ call.recipient ::
    limbs call.amount.toNat

/-- The entry points the relayer account invokes. -/
inductive Invocation where
  | spvDeposit (params : SpvDepositParams)
  | mintAndDeposit (vault commitment : Text) (amount : Int)
  | withdraw (call : WithdrawCall)

/-- The calls of an invocation; `none` when the calldata of one of them cannot be written (which
is so of a negative amount) or read. The multicall gives `deposit` its commitment only. -/
def Invocation.calls (felts : FeltReading) (caller : Felt) : Invocation → Option (List Call)
  | .spvDeposit params => do
      let written ← (spvDepositCalldata params).mapM felts.felt
      pure [.deposit caller (← readDeposit written)]
  | .mintAndDeposit vault commitment amount => do
      guard (0 ≤ amount)
      let (recipient, amount) ← readMint (← (vault :: limbs amount.toNat).mapM felts.felt)
      let args ← readDeposit (← [commitment].mapM felts.felt)
      pure [.mint caller recipient amount, .deposit caller args]
  | .withdraw call => do
      guard (0 ≤ call.amount)
      let written ← (withdrawCalldata call).mapM felts.felt
      pure [.withdraw caller (← readWithdraw written)]

theorem feltOf_eq_some {text : Text} {felt : Felt} :
    feltOf text = some felt ↔ bigInt text = some (felt.val : Int) := by
  have inside : 0 ≤ (felt.val : Int) ∧ (felt.val : Int).toNat < CryptoService.starkFieldPrime := by
    exact ⟨Int.natCast_nonneg _, felt.isLt⟩
  constructor
  · intro read
    rw [feltOf] at read
    split at read
    · next n number =>
      split_ifs at read with fits
      cases read
      rw [number, Option.some.injEq]
      exact (Int.toNat_of_nonneg fits.1).symm
    · cases read
  · intro number
    rw [feltOf, number]
    dsimp only
    rw [dif_pos inside]
    rfl

section Reading

variable (felts : FeltReading)

theorem FeltReading.felt_numeral {text : Text}
    (numeral : isHex text = true ∨ isStringWholeNumber text = true) :
    felts.felt text = feltOf text := by
  rcases numeral with hex | whole
  · exact felts.hex text hex
  · exact felts.wholeNumber text whole

theorem FeltReading.felt_decimal (n : Nat) : felts.felt (decimal n) = feltOf (decimal n) := by
  apply felts.wholeNumber
  have digits : (Nat.toDigits 10 n).all Char.isDigit = true := List.all_eq_true.mpr fun c member =>
    Nat.isDigit_of_mem_toDigits (by decide) (by decide) member
  have filled : (Nat.toDigits 10 n).isEmpty = false := by
    rw [List.isEmpty_eq_false_iff]
    exact Nat.toDigits_ne_nil
  rw [isStringWholeNumber, decimal]
  change (!(Nat.toDigits 10 n).isEmpty && (Nat.toDigits 10 n).all Char.isDigit) = true
  rw [filled, digits]
  rfl

theorem FeltReading.felt_hexText (n : Nat) : felts.felt (hexText n) = feltOf (hexText n) := by
  apply felts.hex
  rw [hexText, isHex, List.all_eq_true.mpr (digitIn_hex n)]
  rfl

variable {felts}

theorem felt_of_decimal {n : Nat} {felt : Felt} (read : felts.felt (decimal n) = some felt) :
    felt.val = n := by
  rw [felts.felt_decimal, feltOf_eq_some, decimal, bigInt_toText, Option.some.injEq] at read
  exact (Int.ofNat.inj read).symm

theorem felt_of_hexText {n : Nat} {felt : Felt} (read : felts.felt (hexText n) = some felt) :
    felt.val = n := by
  rw [felts.felt_hexText, feltOf_eq_some, bigInt_hexText, Option.some.injEq] at read
  exact (Int.ofNat.inj read).symm

theorem mapM_decimal (values : List Nat) (written : List Felt)
    (read : (values.map decimal).mapM felts.felt = some written) :
    written.map Fin.val = values := by
  induction values generalizing written with
  | nil =>
      cases read
      rfl
  | cons n rest ih =>
      rw [List.map_cons, List.mapM_cons] at read
      simp only [Option.bind_eq_bind, Option.bind_eq_some_iff, Option.pure_def,
        Option.some.injEq] at read
      obtain ⟨felt, first, others, read, rfl⟩ := read
      rw [List.map_cons, felt_of_decimal first, ih others read]

end Reading

theorem readMany_below (bound : Nat) (items rest : List Felt) (small : ∀ f ∈ items, f.val < bound) :
    readMany (readBelow bound) items.length (items ++ rest) = some (items.map Fin.val, rest) := by
  induction items with
  | nil => rfl
  | cons f items ih =>
      have tail := ih fun g member => small g (List.mem_cons_of_mem _ member)
      rw [List.length_cons, readMany, List.cons_append, readBelow,
        if_pos (small f List.mem_cons_self)]
      simp only [Option.bind_eq_bind, Option.bind_some, tail, Option.pure_def, List.map_cons]

theorem readBelow_cons {bound n : Nat} {felt : Felt} {rest felts : List Felt} :
    readBelow bound (felt :: rest) = some (n, felts) ↔
      felt.val < bound ∧ felt.val = n ∧ rest = felts := by
  rw [readBelow]
  split_ifs with small
  · simp [small]
  · simp [small]

/-- A deposit read from the calldata of a request has the request's commitment,
transaction and output index. -/
theorem readDeposit_spv {felts : FeltReading} {params : SpvDepositParams} {caller : Felt}
    {calls : List Call}
    (read : (Invocation.spvDeposit params).calls felts caller = some calls) :
    ∃ args, calls = [.deposit caller args] ∧
      felts.felt params.commitment = some args.commitment ∧
      args.rawTx = params.rawTxBytes ∧ args.voutIndex.toNat = params.voutIndex := by
  simp only [Invocation.calls, Option.bind_eq_bind, Option.bind_eq_some_iff, Option.pure_def,
    Option.some.injEq] at read
  obtain ⟨felts, written, args, decoded, rfl⟩ := read
  have layout : spvDepositCalldata params = params.commitment ::
      (([params.blockHeight, params.txPos, params.rawTxBytes.length] ++
        params.rawTxBytes.map UInt8.toNat ++ [params.voutIndex]).map decimal ++
      decimal params.merkleProofWords.length ::
        params.merkleProofWords.flatMap fun words => words.map Double.toText) := by
    simp [spvDepositCalldata, Function.comp_def]
  rw [layout, List.mapM_cons] at written
  simp only [List.mapM_append, Option.bind_eq_bind, Option.bind_eq_some_iff, Option.pure_def,
    Option.some.injEq] at written
  obtain ⟨commitment, first, _, ⟨middle, numbers, tail, -, rfl⟩, rfl⟩ := written
  have values := mapM_decimal _ _ numbers
  simp only [List.cons_append, List.nil_append, List.map_eq_cons_iff, List.map_eq_append_iff,
    List.map_eq_nil_iff] at values
  obtain ⟨height, _, rfl, height_val, pos, _, rfl, pos_val, length, _, rfl, length_val, bytes, _,
    rfl, bytes_val, vout, _, rfl, vout_val, rfl⟩ := values
  have width : bytes.length = length.val := by
    rw [length_val, ← List.length_map (f := Fin.val), bytes_val, List.length_map]
  have small : ∀ f ∈ bytes, f.val < 2 ^ 8 := by
    intro f member
    have byte : f.val ∈ params.rawTxBytes.map UInt8.toNat := by
      rw [← bytes_val]
      exact List.mem_map_of_mem member
    obtain ⟨b, -, value⟩ := List.mem_map.mp byte
    rw [← value]
    exact b.toNat_lt
  have span := readMany_below (2 ^ 8) bytes (vout :: tail) small
  rw [width] at span
  simp only [readDeposit, readFelt, readSpan, List.cons_append, List.append_assoc,
    List.nil_append, Option.bind_eq_bind, Option.bind_eq_some_iff, Prod.exists, Option.some.injEq,
    Prod.mk.injEq] at decoded
  obtain ⟨_, _, ⟨rfl, rfl⟩, heightRead, _, atHeight, posRead, _, atPos, rawTx, _, atRaw, voutRead, _,
    atVout, merkleProof, rest, -, decoded⟩ := decoded
  obtain ⟨-, rfl, rfl⟩ := readBelow_cons.mp atHeight
  obtain ⟨-, rfl, rfl⟩ := readBelow_cons.mp atPos
  dsimp only at atRaw
  rw [span, Option.some.injEq, Prod.mk.injEq] at atRaw
  obtain ⟨rfl, rfl⟩ := atRaw
  obtain ⟨inWord, rfl, rfl⟩ := readBelow_cons.mp atVout
  split_ifs at decoded
  cases decoded
  refine ⟨_, rfl, first, ?_, ?_⟩
  · rw [bytes_val]
    simp [Function.comp_def]
  · rw [UInt32.toNat_ofNat', Nat.mod_eq_of_lt inWord, vout_val]

end PrivateBtc.Backend.Calldata

/- PrivateBtc/Backend/TxHashes
   digest: The checks of transaction hashes agree only on hashes of at least 63 digits. -/

import PrivateBtc.Backend.Authorizations
import PrivateBtc.Backend.Http
import PrivateBtc.Backend.Starknet

set_option autoImplicit false
set_option relaxedAutoImplicit false

namespace PrivateBtc.Backend.TxHashes

open Library Library.JsText Library.Outcome
open Authorizations CryptoService Database Http Starknet
open Contracts.Corelib (Felt)

inductive AuditFormat where
  | valid
  | fake
  deriving DecidableEq

inductive AuditStatus where
  | confirmed
  | notFound
  | error

structure AuditResult where
  txHash : Text
  type : TransactionType
  format : AuditFormat
  status : AuditStatus
  blockNumber : Option Nat := none

structure Audit where
  total : Nat
  realOnChain : Nat := 0
  notFoundOnChain : Nat := 0
  fakeFormatDetected : Nat := 0
  results : List AuditResult := []

/-- One turn of the audit's loop; the node answers for the row's hash. -/
def auditRow (node : Text → Except String TransactionReceipt) (audit : Audit)
    (row : TransactionRow) : Audit :=
  if !isHex 63 64 row.txHash then
    { audit with
      fakeFormatDetected := audit.fakeFormatDetected + 1
      results := audit.results ++ [⟨row.txHash, row.type, .fake, .error, none⟩] }
  else
    match getTransactionReceipt row.txHash (node row.txHash) with
    | .ok receipt =>
        { audit with
          realOnChain := audit.realOnChain + 1
          results := audit.results ++
            [⟨row.txHash, row.type, .valid, .confirmed, some receipt.blockNumber⟩] }
    | .error (.notFound _) =>
        { audit with
          notFoundOnChain := audit.notFoundOnChain + 1
          results := audit.results ++ [⟨row.txHash, row.type, .valid, .notFound, none⟩] }
    | .error _ =>
        { audit with results := audit.results ++ [⟨row.txHash, row.type, .valid, .error, none⟩] }

/-- GET /api/audit/verify-all-transactions, newest rows first. -/
def verifyAllTransactions (node : Text → Except String TransactionReceipt) (db : Db) : Audit :=
  let rows := db.transactions.rows.insertionSort fun a b => b.timestamp ≤ a.timestamp
  rows.foldl (auditRow node) { total := rows.length }

/-- The lookup of a receipt takes the text as a hash. -/
def LooksUp (text : Text) : Prop := validateTxHashFormat (paddedHash text) = true

/-- The text as a hash passes each of the other checks. -/
structure Passes (text : Text) : Prop where
  middleware : validateTxHash text = .ok ()
  audit : ∀ node db, ∀ result ∈ (verifyAllTransactions node db).results,
    result.txHash = text → result.format = .valid
  trigger : ∀ row : TransactionRow, row.txHash = text → transactionSchema.check row = true
  vaults : isTxHashOrNull (some text) = true
  authorization : ∀ params id nowSecs db, params.starknetTxHash = text →
    createAuthorization params id nowSecs db ≠ .error "Invalid Starknet transaction hash"

theorem auditRow_format {node : Text → Except String TransactionReceipt} {audit : Audit}
    {row : TransactionRow} {result : AuditResult}
    (listed : result ∈ (auditRow node audit row).results) :
    result ∈ audit.results ∨
      (result.format = .valid ↔ isHex 63 64 result.txHash = true) := by
  unfold auditRow at listed
  split_ifs at listed with malformed
  · rcases List.mem_append.mp listed with earlier | new
    · exact Or.inl earlier
    · rw [List.mem_singleton.mp new]
      refine Or.inr ?_
      simp only [reduceCtorEq, false_iff]
      simpa using malformed
  · have formed : isHex 63 64 row.txHash = true := by simpa using malformed
    split at listed <;>
    · rcases List.mem_append.mp listed with earlier | new
      · exact Or.inl earlier
      · rw [List.mem_singleton.mp new]
        exact Or.inr (iff_of_true rfl formed)

theorem auditRows_format {node : Text → Except String TransactionReceipt}
    (rows : List TransactionRow) (audit : Audit)
    (before : ∀ result ∈ audit.results,
      (result.format = .valid ↔ isHex 63 64 result.txHash = true)) :
    ∀ result ∈ (rows.foldl (auditRow node) audit).results,
      (result.format = .valid ↔ isHex 63 64 result.txHash = true) := by
  induction rows generalizing audit with
  | nil => exact before
  | cons row rows ih =>
      apply ih
      intro result listed
      rcases auditRow_format listed with earlier | formed
      · exact before result earlier
      · exact formed

theorem isHex_hexText (low high n : Nat) : isHex low high (hexText n) = true ↔
    low ≤ (Nat.toDigits 16 n).length ∧ (Nat.toDigits 16 n).length ≤ high := by
  have digits : (Nat.toDigits 16 n).all (fun c => (digitIn 16 c).isSome) = true :=
    List.all_eq_true.mpr (digitIn_hex n)
  rw [hexText, isHex, digits]
  simp

theorem digits_felt (h : Felt) : (Nat.toDigits 16 h.val).length ≤ 63 := by
  have bound : h.val < 16 ^ 63 := h.isLt.trans (by decide)
  exact (Nat.length_toDigits_le_iff (by decide) (by decide)).mpr bound

theorem digits_63 (n : Nat) : 63 ≤ (Nat.toDigits 16 n).length ↔ 2 ^ 248 ≤ n := by
  have short : (Nat.toDigits 16 n).length ≤ 62 ↔ n < 16 ^ 62 :=
    Nat.length_toDigits_le_iff (by decide) (by decide)
  omega

/-- The padding puts every hash of a felt into the lookup's format. -/
theorem looksUp_felt (h : Felt) : LooksUp (hexText h.val) := by
  have padded : paddedHash (hexText h.val) =
      '0' :: 'x' :: padStart 64 '0' (Nat.toDigits 16 h.val) := rfl
  have digits := digitIn_hex h.val
  have short := digits_felt h
  have width : (padStart 64 '0' (Nat.toDigits 16 h.val)).length = 64 := by
    rw [padStart, List.length_append, List.length_replicate]
    omega
  have all : (padStart 64 '0' (Nat.toDigits 16 h.val)).all (fun c => (digitIn 16 c).isSome) =
      true := by
    rw [padStart, List.all_append, Bool.and_eq_true, List.all_eq_true, List.all_eq_true]
    refine ⟨?_, digits⟩
    intro c member
    rw [(List.mem_replicate.mp member).2]
    rfl
  rw [LooksUp, validateTxHashFormat, padded, isHex, width, all]
  rfl

theorem isHex_shape {text : Text} (formed : isHex 63 64 text = true) :
    ∃ digits, text = '0' :: 'x' :: digits ∧ 63 ≤ digits.length := by
  unfold isHex at formed
  split at formed
  · rename_i digits
    simp only [Bool.and_eq_true, decide_eq_true_eq] at formed
    exact ⟨digits, rfl, formed.1.1⟩
  · cases formed

theorem isTxHash_of_isHex {text : Text} (formed : isHex 63 64 text = true) :
    isTxHash text = true := by
  obtain ⟨digits, rfl, wide⟩ := isHex_shape formed
  have length : 34 ≤ ('0' :: 'x' :: digits).length := by
    simp only [List.length_cons]
    omega
  rw [isTxHash, decide_eq_true length, Bool.true_and, like, toLowerCase, List.map_cons,
    List.map_cons]
  rfl

theorem insertAuthorization_fails (row : WithdrawalAuthorization) (db : Db) :
    Fails (fun e => e ≠ "Invalid Starknet transaction hash") (insertAuthorization row db) := by
  unfold insertAuthorization
  apply Fails.bind
  · cases db.authorizations.insert row with
    | ok table => exact fails_ok _
    | error violation => cases violation <;> exact fails_error (by decide)
  · intro table _
    apply Fails.bind
    · unfold references
      split_ifs
      · exact fails_ok _
      · exact fails_error (by decide)
    · intro _ _
      exact fails_ok _

theorem passes_of_isHex {text : Text} (formed : isHex 63 64 text = true) : Passes text := by
  have stored := isTxHash_of_isHex formed
  constructor
  · rw [validateTxHash, formed]
    rfl
  · intro node db result listed same
    rw [auditRows_format _ _ (fun _ told => by cases told) result listed, same]
    exact formed
  · rintro row rfl
    exact stored
  · exact stored
  · rintro params id nowSecs db rfl
    obtain ⟨digits, shape, wide⟩ := isHex_shape formed
    have hashed : (!(['0', 'x'].isPrefixOf params.starknetTxHash) ||
        params.starknetTxHash.length < 34) = false := by
      rw [shape]
      simp
      omega
    rw [createAuthorization, hashed, if_neg Bool.false_ne_true]
    split_ifs
    · simp
    · simp
    · intro refused
      exact insertAuthorization_fails _ _ _ refused rfl

/-- The checks agree on the hashes with at most one leading zero digit and on no other. -/
theorem hash_passes_iff (h : Felt) :
    (LooksUp (hexText h.val) → Passes (hexText h.val)) ↔ 2 ^ 248 ≤ h.val := by
  rw [← digits_63]
  constructor
  · intro agree
    have middleware := (agree (looksUp_felt h)).middleware
    rw [validateTxHash, refuse] at middleware
    split_ifs at middleware with malformed
    have formed : isHex 63 64 (hexText h.val) = true := by simpa using malformed
    exact ((isHex_hexText 63 64 h.val).mp formed).1
  · intro wide _
    apply passes_of_isHex
    rw [isHex_hexText]
    exact ⟨wide, (digits_felt h).trans (by decide)⟩

/-- A hash that starts with one zero byte more is looked up and refused by the middleware. -/
theorem passes_short : ¬ ∀ h : Felt, LooksUp (hexText h.val) → Passes (hexText h.val) := by
  intro agree
  have looked : LooksUp (hexText (2 ^ 247)) := by
    unfold LooksUp
    decide +kernel
  have middleware := (agree ⟨2 ^ 247, by decide⟩ looked).middleware
  have refused : isHex 63 64 (hexText (2 ^ 247)) = false := by decide +kernel
  rw [validateTxHash, refused] at middleware
  cases middleware

end PrivateBtc.Backend.TxHashes

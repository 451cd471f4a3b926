/- PrivateBtc/Backend/ParserRounds
   digest: Every parser ends after a number of rounds that the buffer's length bounds. -/

import PrivateBtc.Backend.BitcoinProof
import PrivateBtc.Contracts.RawTransactionRounds

set_option autoImplicit false
set_option relaxedAutoImplicit false

namespace PrivateBtc.Backend.ParserRounds

open Library Library.Cursor Library.Outcome
open Library.Metered (Counted Within beginRound outcome_bind outcome_lift_bind outcome_round)
open BitcoinProof
open Contracts.RawTransactionRounds (bytesLeft parseOutputRounds parseOutputRounds_outcome
  parseOutputRounds_le parseOutput_slice)
open Contracts.RawTransaction (parseOutput)

/-- `BitcoinProof.skipInputs`, counting the rounds of its loop. -/
def skipInputsRounds (buf : List UInt8) : Nat → Nat → Counted String Nat
  | 0, cursor => pure cursor
  | remaining + 1, cursor => do
      beginRound
      let cursor := cursor + 36
      let (scriptLen, sl) ← readVarInt buf cursor
      skipInputsRounds buf remaining (cursor + (sl + scriptLen + 4))

def skipOutputsRounds (buf : List UInt8) : Nat → Nat → Counted String Nat
  | 0, cursor => pure cursor
  | remaining + 1, cursor => do
      beginRound
      let cursor := cursor + 8
      let (scriptLen, sl) ← readVarInt buf cursor
      skipOutputsRounds buf remaining (cursor + (sl + scriptLen))

def skipItemsRounds (buf : List UInt8) : Nat → Nat → Counted String Nat
  | 0, cursor => pure cursor
  | remaining + 1, cursor => do
      beginRound
      let (itemLen, ilSize) ← readVarInt buf cursor
      skipItemsRounds buf remaining (cursor + (ilSize + itemLen))

/-- Both loops count, the one over the stacks and the one over their items. -/
def skipWitnessRounds (buf : List UInt8) : Nat → Nat → Counted String Nat
  | 0, cursor => pure cursor
  | remaining + 1, cursor => do
      beginRound
      let (witnessItemCount, wicSize) ← readVarInt buf cursor
      let cursor ← skipItemsRounds buf witnessItemCount (cursor + wicSize)
      skipWitnessRounds buf remaining cursor

def scanOutputsRounds (buf : List UInt8) (vaultScriptPubKeyHex : List Char) :
    Nat → Nat → Nat → Counted String (Nat × Nat)
  | 0, _, _ => liftM (.error
      "No output in tx pays the vault address. Did the user send to the right address?" :
      Except String (Nat × Nat))
  | remaining + 1, vout, cursor => do
      beginRound
      let amountSats := Binary64.ofNat (← readUIntLE buf cursor 8)
      let cursor := cursor + 8
      let (scriptLen, sl) ← readVarInt buf cursor
      let cursor := cursor + sl
      let scriptHex := Hex.encode (slice buf cursor (cursor + scriptLen))
      if scriptHex = vaultScriptPubKeyHex then pure (vout, amountSats)
      else scanOutputsRounds buf vaultScriptPubKeyHex remaining (vout + 1) (cursor + scriptLen)

def findVaultOutputRounds (rawTxHex vaultScriptPubKeyHex : List Char) :
    Counted String (Nat × Nat) := do
  let buf := Hex.decode rawTxHex
  let cursor := if isSegWit buf 4 then 4 + 2 else 4
  let (inputCount, inSz) ← readVarInt buf cursor
  let cursor ← skipInputsRounds buf inputCount (cursor + inSz)
  let (outputCount, outSz) ← readVarInt buf cursor
  scanOutputsRounds buf vaultScriptPubKeyHex outputCount 0 (cursor + outSz)

def stripWitnessDataRounds (rawTxHex : List Char) : Counted String (List Char) :=
  let buf := Hex.decode rawTxHex
  let version := slice buf 0 4
  if isSegWit buf 4 then do
    let cursor := 4 + 2
    let (inputCount, inCountSize) ← readVarInt buf cursor
    let inputCountBytes := slice buf cursor (cursor + inCountSize)
    let inputsStart := cursor + inCountSize
    let cursor ← skipInputsRounds buf inputCount inputsStart
    let inputs := slice buf inputsStart cursor
    let outputsStart := cursor
    let (outputCount, outCountSize) ← readVarInt buf cursor
    let cursor ← skipOutputsRounds buf outputCount (cursor + outCountSize)
    let outputs := slice buf outputsStart cursor
    let cursor ← skipWitnessRounds buf inputCount cursor
    let locktime := slice buf cursor (cursor + 4)
    pure (Hex.encode (version ++ inputCountBytes ++ inputs ++ outputs ++ locktime))
  else
    pure rawTxHex

/-- A loop whose rounds read the varint at one place and move on, with its counted twin. -/
structure ReadsVarInts (buf : List UInt8) (place : Nat → Nat) (next : Nat → Nat × Nat → Nat)
    (plain : Nat → Nat → Except String Nat) (counted : Nat → Nat → Counted String Nat) :
    Prop where
  plain_zero : ∀ cursor, plain 0 cursor = pure cursor
  plain_succ : ∀ remaining cursor, plain (remaining + 1) cursor =
    readVarInt buf (place cursor) >>= fun read => plain remaining (next cursor read)
  counted_zero : ∀ cursor, counted 0 cursor = pure cursor
  counted_succ : ∀ remaining cursor, counted (remaining + 1) cursor =
    beginRound >>= fun _ => liftM (readVarInt buf (place cursor)) >>= fun read =>
      counted remaining (next cursor read)

theorem skipInputs_reads (buf : List UInt8) :
    ReadsVarInts buf (fun cursor => cursor + 36)
      (fun cursor read => cursor + 36 + (read.2 + read.1 + 4)) (skipInputs buf)
      (skipInputsRounds buf) :=
  ⟨fun _ => rfl, fun _ _ => rfl, fun _ => rfl, fun _ _ => rfl⟩

theorem skipOutputs_reads (buf : List UInt8) :
    ReadsVarInts buf (fun cursor => cursor + 8)
      (fun cursor read => cursor + 8 + (read.2 + read.1)) (skipOutputs buf)
      (skipOutputsRounds buf) :=
  ⟨fun _ => rfl, fun _ _ => rfl, fun _ => rfl, fun _ _ => rfl⟩

theorem skipItems_reads (buf : List UInt8) :
    ReadsVarInts buf (fun cursor => cursor) (fun cursor read => cursor + (read.2 + read.1))
      (skipItems buf) (skipItemsRounds buf) :=
  ⟨fun _ => rfl, fun _ _ => rfl, fun _ => rfl, fun _ _ => rfl⟩

section Outcomes

variable (buf : List UInt8)

theorem ReadsVarInts.outcome {place : Nat → Nat} {next : Nat → Nat × Nat → Nat}
    {plain : Nat → Nat → Except String Nat} {counted : Nat → Nat → Counted String Nat}
    (reads : ReadsVarInts buf place next plain counted) (remaining cursor : Nat) :
    (counted remaining cursor).outcome = plain remaining cursor := by
  induction remaining generalizing cursor with
  | zero =>
      rw [reads.counted_zero, reads.plain_zero]
      rfl
  | succ remaining ih =>
      rw [reads.counted_succ, reads.plain_succ]
      apply outcome_round
      apply outcome_lift_bind
      intro read
      exact ih _

theorem skipWitnessRounds_outcome (remaining cursor : Nat) :
    (skipWitnessRounds buf remaining cursor).outcome = skipWitness buf remaining cursor := by
  induction remaining generalizing cursor with
  | zero => rfl
  | succ remaining ih =>
      apply outcome_round
      apply outcome_lift_bind
      rintro ⟨witnessItemCount, wicSize⟩
      apply outcome_bind ((skipItems_reads buf).outcome _ _ _)
      intro next
      exact ih next

theorem scanOutputsRounds_outcome (vaultScriptPubKeyHex : List Char)
    (remaining vout cursor : Nat) :
    (scanOutputsRounds buf vaultScriptPubKeyHex remaining vout cursor).outcome =
      scanOutputs buf vaultScriptPubKeyHex remaining vout cursor := by
  induction remaining generalizing vout cursor with
  | zero => rfl
  | succ remaining ih =>
      apply outcome_round
      apply outcome_lift_bind
      intro amount
      apply outcome_lift_bind
      rintro ⟨scriptLen, sl⟩
      dsimp only
      rw [apply_ite Metered.Counted.outcome, ih]
      rfl

theorem findVaultOutputRounds_outcome (rawTxHex vaultScriptPubKeyHex : List Char) :
    (findVaultOutputRounds rawTxHex vaultScriptPubKeyHex).outcome =
      findVaultOutput rawTxHex vaultScriptPubKeyHex := by
  apply outcome_lift_bind
  rintro ⟨inputCount, inSz⟩
  apply outcome_bind ((skipInputs_reads _).outcome _ _ _)
  intro atOutputs
  apply outcome_lift_bind
  rintro ⟨outputCount, outSz⟩
  exact scanOutputsRounds_outcome _ _ _ _ _

theorem stripWitnessDataRounds_outcome (rawTxHex : List Char) :
    (stripWitnessDataRounds rawTxHex).outcome = stripWitnessData rawTxHex := by
  rw [stripWitnessDataRounds, stripWitnessData]
  dsimp only
  cases isSegWit (Hex.decode rawTxHex) 4 with
  | false => rfl
  | true =>
      rw [if_pos rfl, if_pos rfl]
      apply outcome_lift_bind
      rintro ⟨inputCount, inCountSize⟩
      apply outcome_bind ((skipInputs_reads _).outcome _ _ _)
      intro atOutputs
      apply outcome_lift_bind
      rintro ⟨outputCount, outCountSize⟩
      apply outcome_bind ((skipOutputs_reads _).outcome _ _ _)
      intro atWitness
      apply outcome_bind (skipWitnessRounds_outcome _ _ _)
      intro atLocktime
      rfl

end Outcomes

section Bounds

variable (buf : List UInt8)

/-- A Node buffer read past the end throws. -/
private theorem readUIntLE_inside {offset width value : Nat}
    (read : readUIntLE buf offset width = .ok value) : offset + width ≤ buf.length := by
  unfold readUIntLE at read
  split_ifs at read with inside
  exact inside

/-- Past the end the read falls through to eight bytes that are not there. -/
private theorem readVarInt_inside {offset : Nat} {value : Nat × Nat}
    (read : readVarInt buf offset = .ok value) : offset < buf.length ∧ 0 < value.2 := by
  unfold readVarInt at read
  cases found : buf[offset]? with
  | some first =>
      have inside := (List.getElem?_eq_some_iff.mp found).1
      rw [found] at read
      dsimp only at read
      split_ifs at read
      · cases read
        exact ⟨inside, Nat.one_pos⟩
      all_goals
        obtain ⟨v, -, done⟩ := bind_eq_ok.mp read
        cases done
        exact ⟨inside, by omega⟩
  | none =>
      rw [found] at read
      obtain ⟨v, long, done⟩ := bind_eq_ok.mp read
      have inside := readUIntLE_inside buf long
      cases done
      exact ⟨by omega, by omega⟩

/-- A loop that moves past each varint it reads is paid for by the bytes it passes. -/
theorem ReadsVarInts.within {place : Nat → Nat} {next : Nat → Nat × Nat → Nat}
    {plain : Nat → Nat → Except String Nat} {counted : Nat → Nat → Counted String Nat}
    (reads : ReadsVarInts buf place next plain counted)
    (moves : ∀ cursor read, place cursor < buf.length → 0 < read.2 →
      bytesLeft buf (next cursor read) + 1 ≤ bytesLeft buf cursor) (remaining cursor : Nat) :
    Within (bytesLeft buf) (bytesLeft buf cursor) 0 (counted remaining cursor) := by
  induction remaining generalizing cursor with
  | zero =>
      rw [reads.counted_zero]
      exact Within.pure (by omega)
  | succ remaining ih =>
      rw [reads.counted_succ]
      apply Within.round
      apply Within.lift_bind (by omega)
      intro value read
      obtain ⟨inside, moved⟩ := readVarInt_inside buf read
      have progress := moves cursor value inside moved
      apply (ih _).repay
      omega

theorem skipInputsRounds_within (remaining cursor : Nat) :
    Within (bytesLeft buf) (bytesLeft buf cursor) 0 (skipInputsRounds buf remaining cursor) := by
  apply (skipInputs_reads buf).within
  intro cursor read inside moved
  simp only [bytesLeft]
  omega

theorem skipOutputsRounds_within (remaining cursor : Nat) :
    Within (bytesLeft buf) (bytesLeft buf cursor) 0 (skipOutputsRounds buf remaining cursor) := by
  apply (skipOutputs_reads buf).within
  intro cursor read inside moved
  simp only [bytesLeft]
  omega

theorem skipItemsRounds_within (remaining cursor : Nat) :
    Within (bytesLeft buf) (bytesLeft buf cursor) 0 (skipItemsRounds buf remaining cursor) := by
  apply (skipItems_reads buf).within
  intro cursor read inside moved
  simp only [bytesLeft]
  omega

/-- A stack pays for its own round with its count, and its items with their lengths. -/
theorem skipWitnessRounds_within (remaining cursor : Nat) :
    Within (bytesLeft buf) (bytesLeft buf cursor) 0 (skipWitnessRounds buf remaining cursor) := by
  induction remaining generalizing cursor with
  | zero => exact Within.pure (by omega)
  | succ remaining ih =>
      apply Within.round
      apply Within.lift_bind (by omega)
      rintro ⟨witnessItemCount, wicSize⟩ read
      obtain ⟨inside, moved⟩ := readVarInt_inside buf read
      have progress : bytesLeft buf (cursor + wicSize) + (0 + 1) ≤ bytesLeft buf cursor := by
        simp only [bytesLeft]
        dsimp only at moved
        omega
      apply ((skipItemsRounds_within buf witnessItemCount (cursor + wicSize)).repay progress).bind
      intro next _
      exact ih next

theorem scanOutputsRounds_within (vaultScriptPubKeyHex : List Char)
    (remaining vout cursor : Nat) :
    Within (fun _ => 0) (bytesLeft buf cursor) 0
      (scanOutputsRounds buf vaultScriptPubKeyHex remaining vout cursor) := by
  induction remaining generalizing vout cursor with
  | zero => exact Within.lift (by omega) (fun a done => by cases done)
  | succ remaining ih =>
      apply Within.round
      apply Within.lift_bind (by omega)
      intro amount read
      have inside := readUIntLE_inside buf read
      apply Within.lift_bind (by omega)
      rintro ⟨scriptLen, sl⟩ _
      dsimp only
      split_ifs
      · apply Within.pure
        simp only [bytesLeft]
        omega
      · apply (ih _ _).repay
        simp only [bytesLeft]
        omega

theorem findVaultOutputRounds_le (rawTxHex vaultScriptPubKeyHex : List Char) :
    (findVaultOutputRounds rawTxHex vaultScriptPubKeyHex).rounds ≤
      (Hex.decode rawTxHex).length + 1 := by
  have within : Within (fun _ => 0) (Hex.decode rawTxHex).length 0
      (findVaultOutputRounds rawTxHex vaultScriptPubKeyHex) := by
    apply Within.lift_bind (by omega)
    rintro ⟨inputCount, inSz⟩ _
    apply ((skipInputsRounds_within (Hex.decode rawTxHex) inputCount _).repay (Nat.sub_le _ _)).bind
    intro atOutputs _
    apply Within.lift_bind (by omega)
    rintro ⟨outputCount, outSz⟩ _
    apply (scanOutputsRounds_within (Hex.decode rawTxHex) vaultScriptPubKeyHex outputCount 0 _).repay
    simp only [bytesLeft]
    omega
  exact within.2

theorem stripWitnessDataRounds_le (rawTxHex : List Char) :
    (stripWitnessDataRounds rawTxHex).rounds ≤ (Hex.decode rawTxHex).length + 1 := by
  have within : Within (fun _ => 0) (Hex.decode rawTxHex).length 0
      (stripWitnessDataRounds rawTxHex) := by
    rw [stripWitnessDataRounds]
    dsimp only
    cases isSegWit (Hex.decode rawTxHex) 4 with
    | false => exact Within.pure (Nat.zero_le _)
    | true =>
        rw [if_pos rfl]
        apply Within.lift_bind (by omega)
        rintro ⟨inputCount, inCountSize⟩ _
        apply ((skipInputsRounds_within (Hex.decode rawTxHex) inputCount _).repay
          (Nat.sub_le _ _)).bind
        intro atOutputs _
        apply Within.lift_bind (by omega)
        rintro ⟨outputCount, outCountSize⟩ _
        have further : bytesLeft (Hex.decode rawTxHex) (atOutputs + outCountSize) + 0 ≤
            bytesLeft (Hex.decode rawTxHex) atOutputs := by
          simp only [bytesLeft]
          omega
        apply ((skipOutputsRounds_within (Hex.decode rawTxHex) outputCount _).repay further).bind
        intro atWitness _
        apply (skipWitnessRounds_within (Hex.decode rawTxHex) inputCount atWitness).bind
        intro atLocktime _
        exact Within.pure (Nat.zero_le _)
  exact within.2

end Bounds

/-- On every buffer and every index the three parsers end with a result or an error, after
at most one round more than the buffer has bytes; a script the contract returns is a
contiguous piece of the buffer. -/
theorem parsers_linear (rawTx : List UInt8) (voutIndex : Nat)
    (rawTxHex vaultScriptPubKeyHex : List Char) :
    ((parseOutputRounds rawTx voutIndex).outcome = parseOutput rawTx voutIndex ∧
      (parseOutputRounds rawTx voutIndex).rounds ≤ rawTx.length + 1 ∧
      ∀ amount script, parseOutput rawTx voutIndex = .ok (amount, script) →
        ∃ start, start + script.length ≤ rawTx.length ∧
          script = slice rawTx start (start + script.length)) ∧
    ((findVaultOutputRounds rawTxHex vaultScriptPubKeyHex).outcome =
        findVaultOutput rawTxHex vaultScriptPubKeyHex ∧
      (findVaultOutputRounds rawTxHex vaultScriptPubKeyHex).rounds ≤
        (Hex.decode rawTxHex).length + 1) ∧
    (stripWitnessDataRounds rawTxHex).outcome = stripWitnessData rawTxHex ∧
      (stripWitnessDataRounds rawTxHex).rounds ≤ (Hex.decode rawTxHex).length + 1 := by
  refine ⟨⟨parseOutputRounds_outcome rawTx voutIndex, parseOutputRounds_le rawTx voutIndex, ?_⟩,
    ⟨findVaultOutputRounds_outcome rawTxHex vaultScriptPubKeyHex,
      findVaultOutputRounds_le rawTxHex vaultScriptPubKeyHex⟩,
    stripWitnessDataRounds_outcome rawTxHex, stripWitnessDataRounds_le rawTxHex⟩
  intro amount script parsed
  exact parseOutput_slice rawTx parsed

end PrivateBtc.Backend.ParserRounds

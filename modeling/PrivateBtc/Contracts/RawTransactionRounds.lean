/- PrivateBtc/Contracts/RawTransactionRounds
   digest: The contract's parser begins fewer rounds than the buffer has bytes, and one more. -/

import PrivateBtc.Contracts.RawTransaction
import PrivateBtc.Library.Metered

set_option autoImplicit false
set_option relaxedAutoImplicit false

namespace PrivateBtc.Contracts.RawTransactionRounds

open Library.Cursor Library.Outcome
open Library.Metered (Counted Within beginRound outcome_bind outcome_lift_bind outcome_round)
open RawTransaction

/-- `RawTransaction.skipInputs`, counting the rounds of its loop. -/
def skipInputsRounds (rawTx : List UInt8) : Nat → Nat → Counted String Nat
  | 0, cursor => pure cursor
  | remaining + 1, cursor => do
      beginRound
      let cursor ← addU32 cursor (32 + 4)
      let (scriptLen, c) ← readVarint rawTx cursor
      let cursor ← addU32 cursor (← addU32 c (← toU32 scriptLen))
      let cursor ← addU32 cursor 4
      skipInputsRounds rawTx remaining cursor

/-- `RawTransaction.readOutputs`, counting the rounds of its loop. -/
def readOutputsRounds (rawTx : List UInt8) (voutIndex : Nat) :
    Nat → Nat → Nat → Selected → Counted String Selected
  | 0, _, _, selected => pure selected
  | remaining + 1, vout, cursor, selected => do
      beginRound
      let amount ← readU64Le rawTx cursor
      let cursor ← addU32 cursor 8
      let (slen, c3) ← readVarint rawTx cursor
      let cursor ← addU32 cursor c3
      let width ← toU32 slen
      let selected := if vout = voutIndex then ⟨amount, cursor, width⟩ else selected
      let cursor ← addU32 cursor width
      let vout ← addU32 vout 1
      readOutputsRounds rawTx voutIndex remaining vout cursor selected

def parseOutputRounds (rawTx : List UInt8) (voutIndex : Nat) :
    Counted String (Nat × List UInt8) := do
  let cursor := if ← isSegwit rawTx then 4 + 2 else 4
  let (inputCount, consumed) ← readVarint rawTx cursor
  let cursor ← addU32 cursor consumed
  let cursor ← skipInputsRounds rawTx inputCount cursor
  let (outputCount, consumed2) ← readVarint rawTx cursor
  let cursor ← addU32 cursor consumed2
  if voutIndex < outputCount then
    let selected ← readOutputsRounds rawTx voutIndex outputCount 0 cursor ⟨0, 0, 0⟩
    let script ← spanSlice rawTx selected.scriptStart selected.scriptLenVal
    pure (selected.resultAmount, script)
  else
    liftM (.error "vout_index out of range" : Except String (Nat × List UInt8))

theorem skipInputsRounds_outcome (rawTx : List UInt8) (remaining cursor : Nat) :
    (skipInputsRounds rawTx remaining cursor).outcome = skipInputs rawTx remaining cursor := by
  induction remaining generalizing cursor with
  | zero => rfl
  | succ remaining ih =>
      apply outcome_round
      apply outcome_lift_bind
      intro atScript
      apply outcome_lift_bind
      rintro ⟨scriptLen, c⟩
      apply outcome_lift_bind
      intro width
      apply outcome_lift_bind
      intro consumed
      apply outcome_lift_bind
      intro atSequence
      apply outcome_lift_bind
      intro next
      exact ih next

theorem readOutputsRounds_outcome (rawTx : List UInt8) (voutIndex remaining vout cursor : Nat)
    (selected : Selected) :
    (readOutputsRounds rawTx voutIndex remaining vout cursor selected).outcome =
      readOutputs rawTx voutIndex remaining vout cursor selected := by
  induction remaining generalizing vout cursor selected with
  | zero => rfl
  | succ remaining ih =>
      apply outcome_round
      apply outcome_lift_bind
      intro amount
      apply outcome_lift_bind
      intro atLength
      apply outcome_lift_bind
      rintro ⟨slen, c3⟩
      apply outcome_lift_bind
      intro atScript
      apply outcome_lift_bind
      intro width
      apply outcome_lift_bind
      intro next
      apply outcome_lift_bind
      intro later
      exact ih later next _

/-- Counting the rounds changes no result. -/
theorem parseOutputRounds_outcome (rawTx : List UInt8) (voutIndex : Nat) :
    (parseOutputRounds rawTx voutIndex).outcome = parseOutput rawTx voutIndex := by
  apply outcome_lift_bind
  intro segwit
  apply outcome_lift_bind
  rintro ⟨inputCount, consumed⟩
  apply outcome_lift_bind
  intro atInputs
  apply outcome_bind (skipInputsRounds_outcome _ _ _)
  intro atOutputs
  apply outcome_lift_bind
  rintro ⟨outputCount, consumed2⟩
  apply outcome_lift_bind
  intro atFirst
  by_cases inside : voutIndex < outputCount
  · rw [if_pos inside, if_pos inside]
    apply outcome_bind (readOutputsRounds_outcome _ _ _ _ _ _)
    intro selected
    apply outcome_lift_bind
    intro script
    rfl
  · rw [if_neg inside, if_neg inside]
    rfl

section Bounds

variable (rawTx : List UInt8)

/-- The bytes from the cursor to the end of the buffer. -/
def bytesLeft (cursor : Nat) : Nat := rawTx.length - cursor

private theorem addU32_eq {a b sum : Nat} (added : addU32 a b = .ok sum) : sum = a + b := by
  unfold addU32 at added
  split_ifs at added
  cases added
  rfl

private theorem byteAt_inside {index : Nat} {b : UInt8} (read : byteAt rawTx index = .ok b) :
    index < rawTx.length := by
  unfold byteAt at read
  cases found : rawTx[index]? with
  | none =>
      rw [found] at read
      cases read
  | some b => exact (List.getElem?_eq_some_iff.mp found).1

private theorem readVarint_inside {offset : Nat} {value : Nat × Nat}
    (read : readVarint rawTx offset = .ok value) : offset < rawTx.length := by
  obtain ⟨first, found, -⟩ := bind_eq_ok.mp read
  exact byteAt_inside rawTx found

/-- A round that reads its script length inside the buffer moves the cursor on. -/
theorem skipInputsRounds_within (remaining cursor : Nat) :
    Within (bytesLeft rawTx) (bytesLeft rawTx cursor) 0
      (skipInputsRounds rawTx remaining cursor) := by
  induction remaining generalizing cursor with
  | zero => exact Within.pure (by omega)
  | succ remaining ih =>
      apply Within.round
      apply Within.lift_bind (by omega)
      intro atScript moved
      apply Within.lift_bind (by omega)
      rintro ⟨scriptLen, c⟩ read
      apply Within.lift_bind (by omega)
      intro width _
      apply Within.lift_bind (by omega)
      intro consumed _
      apply Within.lift_bind (by omega)
      intro atSequence skipped
      apply Within.lift_bind (by omega)
      intro next finished
      apply (ih next).repay
      have inside := readVarint_inside rawTx read
      have place := addU32_eq moved
      have script := addU32_eq skipped
      have sequence := addU32_eq finished
      simp only [bytesLeft]
      omega

theorem readOutputsRounds_within (voutIndex remaining vout cursor : Nat) (selected : Selected) :
    Within (fun _ => 0) (bytesLeft rawTx cursor) 0
      (readOutputsRounds rawTx voutIndex remaining vout cursor selected) := by
  induction remaining generalizing vout cursor selected with
  | zero => exact Within.pure (by omega)
  | succ remaining ih =>
      apply Within.round
      apply Within.lift_bind (by omega)
      intro amount _
      apply Within.lift_bind (by omega)
      intro atLength moved
      apply Within.lift_bind (by omega)
      rintro ⟨slen, c3⟩ read
      apply Within.lift_bind (by omega)
      intro atScript skipped
      apply Within.lift_bind (by omega)
      intro width _
      apply Within.lift_bind (by omega)
      intro next finished
      apply Within.lift_bind (by omega)
      intro later _
      apply (ih later next _).repay
      have inside := readVarint_inside rawTx read
      have place := addU32_eq moved
      have script := addU32_eq skipped
      have text := addU32_eq finished
      simp only [bytesLeft]
      omega

/-- The rounds of both loops together are at most one more than the bytes, whatever the
buffer announces. -/
theorem parseOutputRounds_le (voutIndex : Nat) :
    (parseOutputRounds rawTx voutIndex).rounds ≤ rawTx.length + 1 := by
  have within : Within (fun _ => 0) rawTx.length 0 (parseOutputRounds rawTx voutIndex) := by
    apply Within.lift_bind (by omega)
    intro segwit _
    apply Within.lift_bind (by omega)
    rintro ⟨inputCount, consumed⟩ _
    apply Within.lift_bind (by omega)
    intro atInputs _
    have start : bytesLeft rawTx atInputs ≤ rawTx.length := Nat.sub_le _ _
    apply ((skipInputsRounds_within rawTx inputCount atInputs).repay start).bind
    intro atOutputs _
    apply Within.lift_bind (by omega)
    rintro ⟨outputCount, consumed2⟩ _
    apply Within.lift_bind (by omega)
    intro atFirst moved
    have further : bytesLeft rawTx atFirst ≤ bytesLeft rawTx atOutputs := by
      rw [addU32_eq moved]
      simp only [bytesLeft]
      omega
    by_cases inside : voutIndex < outputCount
    · rw [if_pos inside]
      apply ((readOutputsRounds_within rawTx voutIndex outputCount 0 atFirst _).repay further).bind
      intro selected _
      apply Within.lift_bind (by omega)
      intro script _
      exact Within.pure (by omega)
    · rw [if_neg inside]
      exact Within.lift (by omega) (fun a done => by cases done)
  exact within.2

/-- A returned script is a contiguous piece of the buffer. -/
theorem parseOutput_slice {voutIndex amount : Nat} {script : List UInt8}
    (parsed : parseOutput rawTx voutIndex = .ok (amount, script)) :
    ∃ start, start + script.length ≤ rawTx.length ∧
      script = slice rawTx start (start + script.length) := by
  simp only [parseOutput, bind_eq_ok, Prod.exists] at parsed
  obtain ⟨_, -, _, _, -, _, -, _, -, _, _, -, _, -, parsed⟩ := parsed
  split_ifs at parsed with inside
  simp only [bind_eq_ok, pure_eq_ok, Except.ok.injEq, Prod.mk.injEq] at parsed
  obtain ⟨selected, -, text, sliced, -, rfl⟩ := parsed
  unfold spanSlice at sliced
  split_ifs at sliced with fits
  cases sliced
  have width : (slice rawTx selected.scriptStart
      (selected.scriptStart + selected.scriptLenVal)).length = selected.scriptLenVal := by
    rw [slice_eq_take_drop, List.length_take, List.length_drop]
    omega
  refine ⟨selected.scriptStart, ?_, ?_⟩
  · rw [width]
    exact fits
  · rw [width]

end Bounds

end PrivateBtc.Contracts.RawTransactionRounds

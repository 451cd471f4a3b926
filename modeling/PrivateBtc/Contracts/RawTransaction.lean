/- PrivateBtc/Contracts/RawTransaction
   digest: The contract's transaction parser and its exact result on serialised transactions. -/

import PrivateBtc.Library.Cursor
import PrivateBtc.Library.Outcome
import PrivateBtc.Library.WireFormat

set_option autoImplicit false
set_option relaxedAutoImplicit false

namespace PrivateBtc.Contracts.RawTransaction

open Library.Bytes Library.Cursor Library.Outcome Library.WireFormat

/-- A `usize` addition; the panic text is the corelib's. -/
def addU32 (a b : Nat) : Except String Nat :=
  if a + b < 2 ^ 32 then .ok (a + b) else .error "u32_add Overflow"

/-- `try_into().unwrap()` from `u64` to `usize`. -/
def toU32 (n : Nat) : Except String Nat :=
  if n < 2 ^ 32 then .ok n else .error "Option::unwrap failed."

def byteAt (data : List UInt8) (index : Nat) : Except String UInt8 :=
  match data[index]? with
  | some b => .ok b
  | none => .error "Index out of bounds"

/-- The sum of `count` bytes from `offset + start`, the first one lowest. -/
def readLe (data : List UInt8) (offset start : Nat) : Nat → Except String Nat
  | 0 => pure 0
  | count + 1 => do
      let b ← byteAt data (← addU32 offset start)
      let rest ← readLe data offset (start + 1) count
      pure (b.toNat + 256 * rest)

def readVarint (data : List UInt8) (offset : Nat) : Except String (Nat × Nat) := do
  let first ← byteAt data offset
  if first < 0xfd then
    pure (first.toNat, 1)
  else if first = 0xfd then
    pure (← readLe data offset 1 2, 3)
  else if first = 0xfe then
    pure (← readLe data offset 1 4, 5)
  else
    pure (← readLe data offset 1 8, 9)

def readU64Le (data : List UInt8) (offset : Nat) : Except String Nat :=
  readLe data offset 0 8

/-- The loop over the inputs, `remaining` rounds before its end. -/
def skipInputs (rawTx : List UInt8) : Nat → Nat → Except String Nat
  | 0, cursor => pure cursor
  | remaining + 1, cursor => do
      let cursor ← addU32 cursor (32 + 4)
      let (scriptLen, c) ← readVarint rawTx cursor
      let cursor ← addU32 cursor (← addU32 c (← toU32 scriptLen))
      let cursor ← addU32 cursor 4
      skipInputs rawTx remaining cursor

structure Selected where
  resultAmount : Nat
  scriptStart : Nat
  scriptLenVal : Nat

/-- The loop over the outputs; every output is read, the selected one is kept. -/
def readOutputs (rawTx : List UInt8) (voutIndex : Nat) :
    Nat → Nat → Nat → Selected → Except String Selected
  | 0, _, _, selected => pure selected
  | remaining + 1, vout, cursor, selected => do
      let amount ← readU64Le rawTx cursor
      let cursor ← addU32 cursor 8
      let (slen, c3) ← readVarint rawTx cursor
      let cursor ← addU32 cursor c3
      let width ← toU32 slen
      let selected := if vout = voutIndex then ⟨amount, cursor, width⟩ else selected
      let cursor ← addU32 cursor width
      let vout ← addU32 vout 1
      readOutputs rawTx voutIndex remaining vout cursor selected

def spanSlice (data : List UInt8) (start length : Nat) : Except String (List UInt8) :=
  if start + length ≤ data.length then .ok (slice data start (start + length))
  else .error "Index out of bounds"

def isSegwit (rawTx : List UInt8) : Except String Bool := do
  if (← byteAt rawTx 4) = 0 then
    pure ((← byteAt rawTx 5) = 1)
  else
    pure false

def parseOutput (rawTx : List UInt8) (voutIndex : Nat) : Except String (Nat × List UInt8) := do
  let cursor := if ← isSegwit rawTx then 4 + 2 else 4
  let (inputCount, consumed) ← readVarint rawTx cursor
  let cursor ← addU32 cursor consumed
  let cursor ← skipInputs rawTx inputCount cursor
  let (outputCount, consumed2) ← readVarint rawTx cursor
  let cursor ← addU32 cursor consumed2
  if voutIndex < outputCount then
    let selected ← readOutputs rawTx voutIndex outputCount 0 cursor ⟨0, 0, 0⟩
    let script ← spanSlice rawTx selected.scriptStart selected.scriptLenVal
    pure (selected.resultAmount, script)
  else
    .error "vout_index out of range"

/-- The comparison loop, `remaining` rounds before its end. -/
def matchesFrom (script key : List UInt8) : Nat → Nat → Except String Bool
  | 0, _ => pure true
  | remaining + 1, i => do
      if (← byteAt script (i + 2)) ≠ (← byteAt key i) then pure false
      else matchesFrom script key remaining (i + 1)

/-- A witness program: the version opcode, the push of `width` bytes and the key. -/
def scriptMatches (opcode push : UInt8) (width : Nat) (script key : List UInt8) :
    Except String Bool := do
  if script.length ≠ width + 2 then
    pure false
  else if (← byteAt script 0) ≠ opcode then
    pure false
  else if (← byteAt script 1) ≠ push then
    pure false
  else
    matchesFrom script key width 0

def scriptMatchesP2tr (script tapkey : List UInt8) : Except String Bool :=
  scriptMatches 0x51 0x20 32 script tapkey

theorem addU32_ok {a b : Nat} (fits : a + b < 2 ^ 32) : addU32 a b = .ok (a + b) := if_pos fits

theorem toU32_ok {n : Nat} (fits : n < 2 ^ 32) : toU32 n = .ok n := if_pos fits

theorem byteAt_ok {data : List UInt8} {index : Nat} {b : UInt8} (found : data[index]? = some b) :
    byteAt data index = .ok b := by
  rw [byteAt, found]

private theorem readLe_ok {data : List UInt8} {offset : Nat} {text : List UInt8}
    (ahead : Ahead data offset text) (short : data.length < 2 ^ 32) (count start : Nat)
    (inside : start + count ≤ text.length) :
    readLe data offset start count = .ok (fromLittleEndian ((text.drop start).take count)) := by
  induction count generalizing start with
  | zero => rfl
  | succ count ih =>
      have length := ahead.length_eq
      have found : data[offset + start]? = some text[start] := by
        rw [ahead.getElem?, List.getElem?_eq_getElem]
      rw [readLe, addU32_ok (by omega), ok_bind, byteAt_ok found, ok_bind,
        ih (start + 1) (by omega), ok_bind, pure_eq_ok]
      have split : text.drop start = text[start] :: text.drop (start + 1) :=
        List.drop_eq_getElem_cons (by omega)
      rw [split, List.take_succ_cons, fromLittleEndian_cons]

private theorem readLe_littleEndian (lead : List UInt8) {data text : List UInt8}
    {offset width n : Nat} (bound : n < 256 ^ width)
    (ahead : Ahead data offset (lead ++ (littleEndian width n ++ text)))
    (short : data.length < 2 ^ 32) : readLe data offset lead.length width = .ok n := by
  rw [readLe_ok ahead short width lead.length (by simp), List.drop_left,
    List.take_left' (littleEndian_length width n), fromLittleEndian_littleEndian,
    Nat.mod_eq_of_lt bound]

theorem readU64Le_ok {data text : List UInt8} {offset amount : Nat} (bound : amount < 2 ^ 64)
    (ahead : Ahead data offset (littleEndian 8 amount ++ text)) (short : data.length < 2 ^ 32) :
    readU64Le data offset = .ok amount :=
  readLe_littleEndian [] bound ahead short

theorem readVarint_ok {data text : List UInt8} {offset n : Nat} (bound : n < 2 ^ 64)
    (ahead : Ahead data offset (varInt n ++ text)) (short : data.length < 2 ^ 32) :
    readVarint data offset = .ok (n, (varInt n).length) := by
  have marked (marker : UInt8) (width : Nat) (fits : n < 256 ^ width)
      (long : Ahead data offset (marker :: littleEndian width n ++ text)) :
      byteAt data offset = .ok marker ∧ readLe data offset 1 width = .ok n := by
    constructor
    · exact byteAt_ok (long.getElem? 0)
    · exact readLe_littleEndian [marker] fits long short
  unfold varInt at ahead
  split_ifs at ahead with one two four
  · have first : byteAt data offset = .ok (UInt8.ofNat n) := byteAt_ok (ahead.getElem? 0)
    have value : (UInt8.ofNat n).toNat = n := by
      rw [UInt8.toNat_ofNat']
      omega
    have small : UInt8.ofNat n < 0xfd := by
      rw [UInt8.lt_iff_toNat_lt, value]
      exact one
    rw [varInt, if_pos one, readVarint, first]
    rw [ok_bind, if_pos small, value, pure_eq_ok, List.length_singleton]
  · obtain ⟨first, rest⟩ := marked 0xfd 2 (by omega) ahead
    rw [varInt, if_neg one, if_pos two, readVarint, first]
    simp [rest]
  · obtain ⟨first, rest⟩ := marked 0xfe 4 (by omega) ahead
    rw [varInt, if_neg one, if_neg two, if_pos four, readVarint, first]
    simp [rest]
  · obtain ⟨first, rest⟩ := marked 0xff 8 bound ahead
    rw [varInt, if_neg one, if_neg two, if_neg four, readVarint, first]
    simp [rest]

private theorem skipInputs_ok {rawTx text : List UInt8} (inputs : List Input) {cursor : Nat}
    (ahead : Ahead rawTx cursor (inputs.flatMap Input.bytes ++ text))
    (short : rawTx.length < 2 ^ 32) :
    skipInputs rawTx inputs.length cursor =
      .ok (cursor + (inputs.flatMap Input.bytes).length) := by
  induction inputs generalizing cursor with
  | nil => rfl
  | cons input inputs ih =>
      simp only [List.flatMap_cons, Input.bytes, counted, List.append_assoc] at ahead
      have total := ahead.length_eq
      simp only [List.length_append, input.outpoint_length, input.sequence_length] at total
      have atScript := ahead.advance
      have atSequence := atScript.advance.advance
      have atNext := atSequence.advance
      rw [input.outpoint_length] at atScript atSequence atNext
      rw [input.sequence_length] at atNext
      have width : input.bytes.length =
          36 + ((varInt input.script.length).length + input.script.length) + 4 := by
        simp only [Input.bytes, counted, List.length_append, input.outpoint_length,
          input.sequence_length]
        omega
      rw [List.length_cons, skipInputs, addU32_ok (by omega), ok_bind,
        readVarint_ok (by omega) atScript short, ok_bind]
      dsimp only
      rw [toU32_ok (by omega), ok_bind, addU32_ok (by omega), ok_bind, addU32_ok (by omega),
        ok_bind, addU32_ok (by omega), ok_bind, ← Nat.add_assoc, ih atNext]
      simp only [List.flatMap_cons, List.length_append, width]
      congr 1
      omega

/-- The selected amount and the place of the selected script. -/
private def Holds (rawTx : List UInt8) (output : Output) (selected : Selected) : Prop :=
  selected.resultAmount = output.amount ∧ selected.scriptLenVal = output.script.length ∧
    ∃ text, Ahead rawTx selected.scriptStart (output.script ++ text)

private theorem readOutputs_ok {rawTx text : List UInt8} (voutIndex : Nat)
    (outputs : List Output) {vout cursor : Nat} (selected : Selected)
    (ahead : Ahead rawTx cursor (outputs.flatMap Output.bytes ++ text))
    (short : rawTx.length < 2 ^ 32) (count : vout + outputs.length < 2 ^ 32) :
    ∃ last, readOutputs rawTx voutIndex outputs.length vout cursor selected = .ok last ∧
      (voutIndex < vout → last = selected) ∧
      (vout ≤ voutIndex → ∀ output, outputs[voutIndex - vout]? = some output →
        Holds rawTx output last) := by
  induction outputs generalizing vout cursor selected with
  | nil => exact ⟨selected, rfl, fun _ => rfl, fun _ _ none => absurd none (by simp)⟩
  | cons output outputs ih =>
      simp only [List.flatMap_cons, Output.bytes, counted, List.append_assoc] at ahead
      simp only [List.length_cons] at count
      have total := ahead.length_eq
      simp only [List.length_append, littleEndian_length] at total
      have atLength := ahead.advance
      have atScript := atLength.advance
      have atNext := atScript.advance
      rw [littleEndian_length] at atLength atScript atNext
      obtain ⟨last, run, passed, ahead_of⟩ := ih
        (if vout = voutIndex then ⟨output.amount, cursor + 8 +
          (varInt output.script.length).length, output.script.length⟩ else selected)
        atNext (by omega : vout + 1 + outputs.length < 2 ^ 32)
      refine ⟨last, ?_, ?_, ?_⟩
      · rw [List.length_cons, readOutputs, readU64Le_ok output.amount_lt ahead short, ok_bind,
          addU32_ok (by omega), ok_bind, readVarint_ok (by omega) atLength short, ok_bind]
        dsimp only
        rw [addU32_ok (by omega), ok_bind, toU32_ok (by omega), ok_bind, addU32_ok (by omega),
          ok_bind, addU32_ok (by omega), ok_bind]
        exact run
      · intro before
        rw [passed (by omega), if_neg (by omega)]
      · intro after chosen found
        rcases Nat.eq_or_lt_of_le after with here | further
        · rw [here, Nat.sub_self, List.getElem?_cons_zero, Option.some_inj] at found
          rw [passed (by omega), if_pos here, ← found]
          exact ⟨rfl, rfl, _, atScript⟩
        · rw [show voutIndex - vout = voutIndex - (vout + 1) + 1 by omega,
            List.getElem?_cons_succ] at found
          exact ahead_of further chosen found

section Serialised

variable {parts : Parts}

theorem serialise_ahead (shaped : parts.WellFormed) (withWitness : Bool) :
    Ahead (parts.serialise withWitness) (if withWitness then 4 + 2 else 4)
      (varInt parts.inputs.length ++ (parts.inputBytes ++
        (parts.outputBytes ++ parts.rest withWitness))) := by
  cases withWitness with
  | false =>
      have ahead := (ahead_zero parts.stripped).advance
      rw [shaped.version_length, Nat.zero_add] at ahead
      exact ahead
  | true =>
      have ahead := (ahead_zero parts.extended).advance.advance
      rw [shaped.version_length, Nat.zero_add] at ahead
      exact ahead

/-- Without a witness the byte after the version starts the input count, which is
not the zero of the marker. -/
theorem serialise_marker (shaped : parts.WellFormed) (withWitness : Bool) :
    ∃ b c, (parts.serialise withWitness)[4]? = some b ∧
      (parts.serialise withWitness)[5]? = some c ∧
      if withWitness then b = 0 ∧ c = 1 else b ≠ 0 := by
  cases withWitness with
  | false =>
      have nonempty := List.length_pos_of_ne_nil shaped.inputs_ne_nil
      obtain ⟨b, text, head, marked⟩ := varInt_head parts.inputs.length nonempty
      have ahead := serialise_ahead shaped false
      have length := ahead.length_eq
      have first := ahead.getElem? 0
      rw [head] at first
      have inputs : 0 < parts.inputBytes.length :=
        Nat.lt_of_lt_of_le nonempty
          (length_le_flatMap Input.bytes Input.bytes_length_pos parts.inputs)
      have second : 5 < (parts.serialise false).length := by
        simp only [List.length_append, head, List.length_cons] at length
        rw [length, if_neg (by decide)]
        omega
      exact ⟨b, (parts.serialise false)[5], first, List.getElem?_eq_getElem second, marked⟩
  | true =>
      have ahead := (ahead_zero parts.extended).advance
      rw [shaped.version_length, Nat.zero_add] at ahead
      exact ⟨0, 1, ahead.getElem? 0, ahead.getElem? 1, rfl, rfl⟩

theorem isSegwit_serialise (shaped : parts.WellFormed) (withWitness : Bool) :
    isSegwit (parts.serialise withWitness) = .ok withWitness := by
  obtain ⟨b, c, fourth, fifth, marker⟩ := serialise_marker shaped withWitness
  rw [isSegwit, byteAt_ok fourth, ok_bind]
  cases withWitness with
  | false =>
      have marked : b ≠ 0 := marker
      rw [if_neg marked, pure_eq_ok]
  | true =>
      obtain ⟨rfl, rfl⟩ : b = 0 ∧ c = 1 := marker
      rw [if_pos rfl, byteAt_ok fifth, ok_bind, pure_eq_ok]
      rfl

/-- The parser looks the output up, and panics past the last one. -/
theorem parseOutput_serialise (shaped : parts.WellFormed) (withWitness : Bool)
    (short : (parts.serialise withWitness).length < 2 ^ 32) (voutIndex : Nat) :
    parseOutput (parts.serialise withWitness) voutIndex =
      match parts.outputs[voutIndex]? with
      | some output => .ok (output.amount, output.script)
      | none => .error "vout_index out of range" := by
  have start := serialise_ahead shaped withWitness
  have total := start.length_eq
  have inputCount : parts.inputs.length ≤ parts.inputBytes.length :=
    length_le_flatMap Input.bytes Input.bytes_length_pos parts.inputs
  have outputCount : parts.outputs.length ≤ (parts.outputs.flatMap Output.bytes).length :=
    length_le_flatMap Output.bytes Output.bytes_length_pos parts.outputs
  simp only [List.length_append, Parts.outputBytes] at total
  have atInputs := start.advance
  have atOutputs := atInputs.advance
  rw [Parts.outputBytes, List.append_assoc] at atOutputs
  have atFirst := atOutputs.advance
  rw [parseOutput, isSegwit_serialise shaped, ok_bind]
  dsimp only
  rw [readVarint_ok (by omega) start short, ok_bind]
  dsimp only
  rw [addU32_ok (by omega), ok_bind, skipInputs_ok parts.inputs atInputs short, ok_bind,
    ← Parts.inputBytes, readVarint_ok (by omega) atOutputs short, ok_bind]
  dsimp only
  rw [addU32_ok (by omega), ok_bind]
  cases chosen : parts.outputs[voutIndex]? with
  | none =>
      have outside := List.getElem?_eq_none_iff.mp chosen
      rw [if_neg (by omega)]
  | some output =>
      have inside := (List.getElem?_eq_some_iff.mp chosen).1
      obtain ⟨last, run, -, holds⟩ := readOutputs_ok voutIndex parts.outputs ⟨0, 0, 0⟩
        atFirst short (by omega : 0 + parts.outputs.length < 2 ^ 32)
      obtain ⟨amount, width, text, atScript⟩ := holds (Nat.zero_le _) output chosen
      have length := atScript.length_eq
      rw [List.length_append] at length
      rw [if_pos inside, run, ok_bind, spanSlice, if_pos (by omega), ok_bind, pure_eq_ok, amount,
        width, atScript.slice_eq rfl]

/-- Parsing undoes either serialisation of a transaction with any inputs, outputs and
witness stacks. -/
theorem parseOutput_inverts (shaped : parts.WellFormed) (withWitness : Bool)
    (short : (parts.serialise withWitness).length < 2 ^ 32) :
    (∀ i (inside : i < parts.outputs.length),
      parseOutput (parts.serialise withWitness) i =
        .ok (parts.outputs[i].amount, parts.outputs[i].script)) ∧
    ∀ i, parts.outputs.length ≤ i →
      parseOutput (parts.serialise withWitness) i = .error "vout_index out of range" := by
  constructor
  · intro i inside
    rw [parseOutput_serialise shaped withWitness short, List.getElem?_eq_getElem inside]
  · intro i outside
    rw [parseOutput_serialise shaped withWitness short, List.getElem?_eq_none outside]

end Serialised

/-- The contract reads the selected output of every stripped transaction. -/
theorem parseOutput_stripped (tx : Transaction) (voutIndex : Nat) (output : Output)
    (selected : tx.outputs[voutIndex]? = some output) :
    parseOutput tx.stripped voutIndex = .ok (output.amount, output.script) := by
  have parsed := parseOutput_serialise tx.wellFormed false tx.stripped_length_lt voutIndex
  rw [selected] at parsed
  exact parsed

/-- Every panic text of the parser. -/
def panics : List String :=
  ["u32_add Overflow", "Option::unwrap failed.", "Index out of bounds", "vout_index out of range"]

section Panics

private theorem addU32_fails (a b : Nat) : Fails (· ∈ panics) (addU32 a b) := by
  unfold addU32
  split_ifs
  · exact fails_ok _
  · exact fails_error (by simp [panics])

private theorem toU32_fails (n : Nat) : Fails (· ∈ panics) (toU32 n) := by
  unfold toU32
  split_ifs
  · exact fails_ok _
  · exact fails_error (by simp [panics])

private theorem byteAt_fails (data : List UInt8) (index : Nat) :
    Fails (· ∈ panics) (byteAt data index) := by
  unfold byteAt
  cases data[index]? with
  | none => exact fails_error (by simp [panics])
  | some b => exact fails_ok b

private theorem readLe_fails (data : List UInt8) (offset start count : Nat) :
    Fails (· ∈ panics) (readLe data offset start count) := by
  induction count generalizing start with
  | zero => exact fails_ok 0
  | succ count ih =>
      apply (addU32_fails offset start).bind
      intro index _
      apply (byteAt_fails data index).bind
      intro b _
      apply (ih (start + 1)).bind
      intro rest _
      exact fails_ok _

private theorem readVarint_fails (data : List UInt8) (offset : Nat) :
    Fails (· ∈ panics) (readVarint data offset) := by
  apply (byteAt_fails data offset).bind
  intro first _
  split_ifs
  · exact fails_ok _
  · exact (readLe_fails data offset 1 2).bind fun v _ => fails_ok _
  · exact (readLe_fails data offset 1 4).bind fun v _ => fails_ok _
  · exact (readLe_fails data offset 1 8).bind fun v _ => fails_ok _

private theorem skipInputs_fails (rawTx : List UInt8) (remaining cursor : Nat) :
    Fails (· ∈ panics) (skipInputs rawTx remaining cursor) := by
  induction remaining generalizing cursor with
  | zero => exact fails_ok cursor
  | succ remaining ih =>
      apply (addU32_fails _ _).bind
      intro atScript _
      apply (readVarint_fails _ _).bind
      rintro ⟨scriptLen, c⟩ _
      apply (toU32_fails _).bind
      intro width _
      apply (addU32_fails _ _).bind
      intro consumed _
      apply (addU32_fails _ _).bind
      intro atSequence _
      apply (addU32_fails _ _).bind
      intro next _
      exact ih next

private theorem readOutputs_fails (rawTx : List UInt8) (voutIndex remaining vout cursor : Nat)
    (selected : Selected) :
    Fails (· ∈ panics) (readOutputs rawTx voutIndex remaining vout cursor selected) := by
  induction remaining generalizing vout cursor selected with
  | zero => exact fails_ok selected
  | succ remaining ih =>
      apply (readLe_fails _ _ _ _).bind
      intro amount _
      apply (addU32_fails _ _).bind
      intro atLength _
      apply (readVarint_fails _ _).bind
      rintro ⟨slen, c3⟩ _
      apply (addU32_fails _ _).bind
      intro atScript _
      apply (toU32_fails _).bind
      intro width _
      apply (addU32_fails _ _).bind
      intro next _
      apply (addU32_fails _ _).bind
      intro later _
      exact ih later next _

private theorem isSegwit_fails (rawTx : List UInt8) : Fails (· ∈ panics) (isSegwit rawTx) := by
  apply (byteAt_fails rawTx 4).bind
  intro marker _
  split_ifs
  · exact (byteAt_fails rawTx 5).bind fun flag _ => fails_ok _
  · exact fails_ok _

/-- The parser stops with one of its own texts. -/
theorem parseOutput_fails (rawTx : List UInt8) (voutIndex : Nat) :
    Fails (· ∈ panics) (parseOutput rawTx voutIndex) := by
  apply (isSegwit_fails rawTx).bind
  intro segwit _
  apply (readVarint_fails _ _).bind
  rintro ⟨inputCount, consumed⟩ _
  apply (addU32_fails _ _).bind
  intro atInputs _
  apply (skipInputs_fails _ _ _).bind
  intro atOutputs _
  apply (readVarint_fails _ _).bind
  rintro ⟨outputCount, consumed2⟩ _
  apply (addU32_fails _ _).bind
  intro atFirst _
  split_ifs
  · apply (readOutputs_fails _ _ _ _ _ _).bind
    intro selected _
    have sliced : Fails (· ∈ panics)
        (spanSlice rawTx selected.scriptStart selected.scriptLenVal) := by
      unfold spanSlice
      split_ifs
      · exact fails_ok _
      · exact fails_error (by simp [panics])
    exact sliced.bind fun script _ => fails_ok _
  · exact fails_error (by simp [panics])

private theorem matchesFrom_fails (script key : List UInt8) (remaining i : Nat) :
    Fails (· ∈ panics) (matchesFrom script key remaining i) := by
  induction remaining generalizing i with
  | zero => exact fails_ok true
  | succ remaining ih =>
      apply (byteAt_fails _ _).bind
      intro left _
      apply (byteAt_fails _ _).bind
      intro right _
      split_ifs
      · exact fails_ok _
      · exact ih (i + 1)

theorem scriptMatches_fails (opcode push : UInt8) (width : Nat) (script key : List UInt8) :
    Fails (· ∈ panics) (scriptMatches opcode push width script key) := by
  unfold scriptMatches
  split_ifs
  · exact fails_ok _
  · apply (byteAt_fails _ _).bind
    intro first _
    split_ifs
    · exact fails_ok _
    · apply (byteAt_fails _ _).bind
      intro second _
      split_ifs
      · exact fails_ok _
      · exact matchesFrom_fails script key width 0

end Panics

private theorem readLe_lt {data : List UInt8} {offset start count value : Nat}
    (read : readLe data offset start count = .ok value) : value < 256 ^ count := by
  induction count generalizing start value with
  | zero =>
      cases read
      simp
  | succ count ih =>
      simp only [readLe, bind_eq_ok, pure_eq_ok, Except.ok.injEq] at read
      obtain ⟨index, -, b, -, rest, later, rfl⟩ := read
      have low : b.toNat < 256 := b.toNat_lt
      have high := ih later
      rw [Nat.pow_succ]
      omega

private theorem readOutputs_lt {rawTx : List UInt8} {voutIndex remaining vout cursor : Nat}
    {selected last : Selected} (bound : selected.resultAmount < 2 ^ 64)
    (read : readOutputs rawTx voutIndex remaining vout cursor selected = .ok last) :
    last.resultAmount < 2 ^ 64 := by
  induction remaining generalizing vout cursor selected with
  | zero =>
      cases read
      exact bound
  | succ remaining ih =>
      simp only [readOutputs, bind_eq_ok, Prod.exists] at read
      obtain ⟨amount, found, _, -, _, _, -, _, -, _, -, _, -, _, -, later⟩ := read
      refine ih ?_ later
      split_ifs
      · exact readLe_lt found
      · exact bound

/-- A parsed amount is a `u64`. -/
theorem parseOutput_amount_lt {rawTx script : List UInt8} {voutIndex amount : Nat}
    (parsed : parseOutput rawTx voutIndex = .ok (amount, script)) : amount < 2 ^ 64 := by
  simp only [parseOutput, bind_eq_ok, Prod.exists] at parsed
  obtain ⟨_, -, _, _, -, _, -, _, -, _, _, -, _, -, parsed⟩ := parsed
  split_ifs at parsed with inside
  simp only [bind_eq_ok, pure_eq_ok, Except.ok.injEq, Prod.mk.injEq] at parsed
  obtain ⟨selected, read, _, -, rfl, -⟩ := parsed
  exact readOutputs_lt (by simp) read

end PrivateBtc.Contracts.RawTransaction

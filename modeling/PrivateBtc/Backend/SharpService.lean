/- PrivateBtc/Backend/SharpService
   digest: The local proof of a withdrawal, and when its circuit attests the backend's nullifier. -/

import PrivateBtc.Backend.CryptoService
import PrivateBtc.Contracts.WithdrawCircuit

set_option autoImplicit false
set_option relaxedAutoImplicit false

namespace PrivateBtc.Backend.SharpService

open Library Library.JsText Library.Outcome
open Contracts.Corelib (Felt)
open Contracts.WithdrawCircuit
open CryptoService

/-- What a command in WSL leaves. -/
structure CommandResult where
  stdout : Text
  stderr : Text
  status : Option Int

def savingProof : Text := "Saving proof to:".toList

def pathAfter (text : Text) : Option Text :=
  let relProofPath := (text.dropWhile isSpace).takeWhile fun c => !isSpace c
  if (text.takeWhile isSpace).isEmpty || relProofPath.isEmpty then none else some relProofPath

/-- /Saving proof to:\s+(\S+)/ -/
def savedPath : Text → Option Text
  | [] => none
  | c :: rest =>
      if savingProof.isPrefixOf (c :: rest) then
        match pathAfter ((c :: rest).drop savingProof.length) with
        | some relProofPath => some relProofPath
        | none => savedPath rest
      else savedPath rest

abbrev Program := List Felt → Except String (List Felt)

/-- What the service takes from Scarb and the disk: how an argument is read, a program run and
proved on the arguments of a file, and a saved proof read back. -/
structure Scarb (Json : Type) where
  readArgument : Text → Option Felt
  readArgument_hex : ∀ digits x, (∀ c ∈ digits, (digitIn 16 c).isSome = true) →
    pedersenArg ('0' :: 'x' :: digits) = .ok x → readArgument ('0' :: 'x' :: digits) = some x
  prove : Program → List Text → CommandResult
  prove_status : ∀ program arguments, (prove program arguments).status = some 0 ↔
    ∃ felts output, arguments.mapM readArgument = some felts ∧ program felts = .ok output
  readProof : Text → Except String (List Json)
  prove_saves : ∀ program arguments, (prove program arguments).status = some 0 →
    ∃ path proofArray, savedPath (prove program arguments).stdout = some path ∧
      readProof path = .ok proofArray

/-- It reads what stands for a felt and saves a proof of every run that succeeds. -/
def plainScarb : Scarb Nat where
  readArgument text := (pedersenArg text).toOption
  readArgument_hex digits x _ stands := by
    rw [stands]
    rfl
  prove program arguments :=
    match (arguments.mapM fun text => (pedersenArg text).toOption).map program with
    | some (.ok _) => ⟨savingProof ++ [' ', 'p'], [], some 0⟩
    | _ => ⟨[], "error".toList, some 1⟩
  prove_status program arguments := by
    cases arguments.mapM fun text => (pedersenArg text).toOption with
    | none => simp
    | some felts => cases ran : program felts <;> simp [ran]
  readProof _ := .ok []
  prove_saves program arguments := by
    intro succeeded
    split at succeeded
    · exact ⟨['p'], [], by decide +kernel, rfl⟩
    · cases succeeded

def toHex (val : Text) : Except String Text :=
  if ['0', 'x'].isPrefixOf val then .ok val else do
    pure ('0' :: 'x' :: toText 16 (← toBigInt val))

section Proving

variable {Json : Type} (scarb : Scarb Json) (program : Program)

def withdrawArguments (secret commitmentHash nullifierHash : Text) : Except String (List Text) := do
  pure [← toHex secret, ← toHex commitmentHash, ← toHex nullifierHash]

def statusText : Option Int → Text
  | some status => toText 10 status
  | none => "null".toList

def collectProof (proveRes : CommandResult) : Except String (List Json) :=
  if proveRes.status ≠ some 0 then
    let told := if proveRes.stderr.isEmpty then proveRes.stdout else proveRes.stderr
    .error (s!"scarb prove failed (exit {String.ofList (statusText proveRes.status)}):\n" ++
      String.ofList told)
  else match savedPath proveRes.stdout with
    | some relProofPath => scarb.readProof relProofPath
    | none =>
        .error ("Could not parse proof path from scarb output.\nSTDOUT: " ++
          String.ofList proveRes.stdout)

def provingFlow (proof : Except String (List Json)) : Except String (List Json) :=
  match proof with
  | .ok proofArray => .ok proofArray
  | .error message =>
      .error (s!"Proving flow failed: {message}\n\n" ++
        "Please ensure Scarb 2.12.2 is installed in WSL Ubuntu.")

/-- The arguments are written before the `try`, so that what is no integer throws its own error. -/
def generateWithdrawProof (secret commitmentHash nullifierHash : Text) :
    Except String (List Json) := do
  let arguments ← withdrawArguments secret commitmentHash nullifierHash
  provingFlow (collectProof scarb (scarb.prove program arguments))

end Proving

/-- A text for an element; what starts with 0x is hexadecimal to its end. -/
structure Spells (text : Text) (x : Felt) : Prop where
  value : pedersenArg text = .ok x
  plain : ∀ digits, text = '0' :: 'x' :: digits → ∀ c ∈ digits, (digitIn 16 c).isSome = true

section Runs

variable {Json : Type} (scarb : Scarb Json) {program : Program}
  {secret commitmentHash nullifierHash : Text}

theorem toHex_read {text : Text} {x : Felt} (spells : Spells text x) :
    ∃ argument, toHex text = .ok argument ∧ scarb.readArgument argument = some x := by
  unfold toHex
  split_ifs with hex
  · obtain ⟨digits, rfl⟩ := List.isPrefixOf_iff_prefix.mp hex
    exact ⟨_, rfl, scarb.readArgument_hex digits x (spells.plain digits rfl) spells.value⟩
  · have value : toBigInt text = .ok (x.val : Int) := by
      rw [toBigInt, pedersenArg_ok.mp spells.value]
    refine ⟨hexText x.val, by rw [value]; rfl, ?_⟩
    exact scarb.readArgument_hex _ x (digitIn_hex x.val) (pedersenArg_hexText x)

/-- Texts for three elements reach the program as these, in the order of its parameters. -/
theorem withdrawArguments_read {x y z : Felt} (first : Spells secret x)
    (second : Spells commitmentHash y) (third : Spells nullifierHash z) :
    ∃ arguments, withdrawArguments secret commitmentHash nullifierHash = .ok arguments ∧
      arguments.mapM scarb.readArgument = some [x, y, z] := by
  obtain ⟨a, a_hex, a_read⟩ := toHex_read scarb first
  obtain ⟨b, b_hex, b_read⟩ := toHex_read scarb second
  obtain ⟨c, c_hex, c_read⟩ := toHex_read scarb third
  refine ⟨[a, b, c], ?_, ?_⟩
  · rw [withdrawArguments, a_hex, b_hex, c_hex]
    rfl
  · simp [a_read, b_read, c_read]

theorem collectProof_ok {arguments : List Text} :
    (∃ proofArray, collectProof scarb (scarb.prove program arguments) = .ok proofArray) ↔
      ∃ felts output, arguments.mapM scarb.readArgument = some felts ∧
        program felts = .ok output := by
  rw [← scarb.prove_status]
  unfold collectProof
  split_ifs with failed
  · simp [failed]
  · rw [not_not] at failed
    obtain ⟨path, proofArray, saved, read⟩ := scarb.prove_saves program arguments failed
    rw [saved]
    exact iff_of_true ⟨proofArray, read⟩ failed

/-- There is a proof exactly where the program's run on the arguments succeeds. -/
theorem generateWithdrawProof_ok :
    (∃ proofArray, generateWithdrawProof scarb program secret commitmentHash nullifierHash =
        .ok proofArray) ↔
      ∃ arguments felts output,
        withdrawArguments secret commitmentHash nullifierHash = .ok arguments ∧
          arguments.mapM scarb.readArgument = some felts ∧ program felts = .ok output := by
  have flows : ∀ (proof : Except String (List Json)) proofArray,
      provingFlow proof = .ok proofArray ↔ proof = .ok proofArray := by
    intro proof proofArray
    cases proof <;> simp [provingFlow]
  simp only [generateWithdrawProof, bind_eq_ok, flows]
  constructor
  · rintro ⟨proofArray, arguments, written, collected⟩
    obtain ⟨felts, output, read, done⟩ := (collectProof_ok scarb).mp ⟨proofArray, collected⟩
    exact ⟨arguments, felts, output, written, read, done⟩
  · rintro ⟨arguments, felts, output, written, read, done⟩
    obtain ⟨proofArray, collected⟩ := (collectProof_ok scarb).mpr ⟨felts, output, read, done⟩
    exact ⟨proofArray, arguments, written, collected⟩

/-- The service gets a proof of every secret and commitment for every nullifier. -/
theorem generateWithdrawProof_any (pedersen : Felt → Felt → Felt) {x y z : Felt}
    (first : Spells secret x) (second : Spells commitmentHash y) (third : Spells nullifierHash z) :
    ∃ proofArray, generateWithdrawProof scarb (execute pedersen) secret commitmentHash
      nullifierHash = .ok proofArray := by
  obtain ⟨arguments, written, read⟩ := withdrawArguments_read scarb first second third
  have ran : execute pedersen [x, y, z] = .ok [pedersen x y] := execute_ok.mpr ⟨x, y, z, rfl, rfl⟩
  exact (generateWithdrawProof_ok scarb).mpr ⟨arguments, [x, y, z], _, written, read, ran⟩

/-- A wrong nullifier passes. -/
example (pedersen : Felt → Felt → Felt) : ∃ proofArray,
    generateWithdrawProof scarb (execute pedersen) ['7'] ['0', 'x', 'B'] ['5'] = .ok proofArray := by
  have secret : Spells ['7'] 7 := ⟨rfl, by simp⟩
  have commitment : Spells ['0', 'x', 'B'] 11 := by
    refine ⟨rfl, fun digits same c member => ?_⟩
    cases same
    cases List.mem_singleton.mp member
    rfl
  have nullifier : Spells ['5'] 5 := ⟨rfl, by simp⟩
  exact generateWithdrawProof_any scarb pedersen secret commitment nullifier

end Runs

/-- The run on these elements succeeds just where the backend makes this nullifier of any texts
for the commitment and the secret, and then gives it. -/
def Attests (crypto : Crypto) (secret commitmentHash nullifierHash : Felt) : Prop :=
  ∀ secretText commitmentText, pedersenArg secretText = .ok secret →
    pedersenArg commitmentText = .ok commitmentHash →
      ((∃ output, execute crypto.pedersen [secret, commitmentHash, nullifierHash] = .ok output) ↔
        ∃ nullifier, generateNullifier crypto commitmentText secretText = .ok nullifier ∧
          pedersenArg nullifier = .ok nullifierHash) ∧
      ∀ output, execute crypto.pedersen [secret, commitmentHash, nullifierHash] = .ok output →
        output = [nullifierHash]

variable {crypto : Crypto} {secret commitmentHash nullifierHash : Felt}

/-- The run succeeds on every nullifier, and gives the hash in the circuit's order. -/
theorem execute_three {output : List Felt} :
    execute crypto.pedersen [secret, commitmentHash, nullifierHash] = .ok output ↔
      output = [crypto.pedersen secret commitmentHash] := by
  rw [execute_ok]
  constructor
  · rintro ⟨_, _, _, same, rfl⟩
    cases same
    rfl
  · rintro rfl
    exact ⟨secret, commitmentHash, nullifierHash, rfl, rfl⟩

/-- The backend's nullifier is the hash in the other order. -/
theorem generateNullifier_stands {secretText commitmentText : Text}
    (secret_stands : pedersenArg secretText = .ok secret)
    (commitment_stands : pedersenArg commitmentText = .ok commitmentHash) :
    (∃ nullifier, generateNullifier crypto commitmentText secretText = .ok nullifier ∧
        pedersenArg nullifier = .ok nullifierHash) ↔
      crypto.pedersen commitmentHash secret = nullifierHash := by
  have made : generateNullifier crypto commitmentText secretText =
      .ok (hexText (crypto.pedersen commitmentHash secret).val) :=
    computePedersenHash_ok.mpr ⟨commitmentHash, secret, commitment_stands, secret_stands, rfl⟩
  rw [made]
  simp [pedersenArg_hexText]

theorem Attests.orders (attests : Attests crypto secret commitmentHash nullifierHash) :
    crypto.pedersen commitmentHash secret = nullifierHash ∧
      crypto.pedersen secret commitmentHash = nullifierHash := by
  have secret_stands := pedersenArg_hexText secret
  have commitment_stands := pedersenArg_hexText commitmentHash
  obtain ⟨succeeds, gives⟩ := attests _ _ secret_stands commitment_stands
  have ran : execute crypto.pedersen [secret, commitmentHash, nullifierHash] =
      .ok [crypto.pedersen secret commitmentHash] := execute_three.mpr rfl
  refine ⟨?_, List.singleton_inj.mp (gives _ ran)⟩
  exact (generateNullifier_stands secret_stands commitment_stands).mp (succeeds.mp ⟨_, ran⟩)

/-- The circuit attests a nullifier exactly where it is the hash of the commitment and the secret
and the hash of this pair does not depend on its order. -/
theorem circuit_attests_iff (crypto : Crypto) (secret commitmentHash nullifierHash : Felt) :
    Attests crypto secret commitmentHash nullifierHash ↔
      crypto.pedersen commitmentHash secret = nullifierHash ∧
        crypto.pedersen secret commitmentHash = crypto.pedersen commitmentHash secret := by
  constructor
  · intro attests
    obtain ⟨backend, circuit⟩ := attests.orders
    exact ⟨backend, circuit.trans backend.symm⟩
  · rintro ⟨backend, symmetric⟩ secretText commitmentText secret_stands commitment_stands
    rw [generateNullifier_stands secret_stands commitment_stands]
    have gives : ∀ output, execute crypto.pedersen [secret, commitmentHash, nullifierHash] =
        .ok output → output = [nullifierHash] := by
      intro output ran
      rw [execute_three.mp ran, symmetric, backend]
    exact ⟨iff_of_true ⟨_, execute_three.mpr rfl⟩ backend, gives⟩

/-- The elements of the end-to-end script; its nullifier is the commitment itself. -/
def scriptSecret : Felt := 0xa77a50134bbbb1380604ce79b545a3b3648e0637be13c996630e0d2c9d084f

def scriptCommitment : Felt := 0x170742102eeb1ed0d841ef87ed26059e9375d8bbe94515fa053e96074d6879

def scriptNullifier : Felt := scriptCommitment

/-- What the script's runs have put out. -/
def scriptOutput : Felt := 0x664343fac91da0bbf826370dd39627aa79c84ee7090a7a98cb6ca43d0a41306

/-- The Pedersen hash of the commitment and the secret. -/
def backendNullifier : Felt := 0x4315a4110bcaa88e3073abd229d191b4353cecf81fa6850b8c39d0dd098dfd4

/-- A hash that knows the script's pair in both orders. -/
def scriptCrypto : Crypto :=
  { plainCrypto with
    pedersen := fun x y =>
      if x = scriptSecret ∧ y = scriptCommitment then scriptOutput
      else if x = scriptCommitment ∧ y = scriptSecret then backendNullifier
      else 0 }

/-- The script's nullifier is wrong and its run succeeds; the right one gives another output. -/
theorem circuit_strays_script :
    execute scriptCrypto.pedersen [scriptSecret, scriptCommitment, scriptNullifier] =
        .ok [scriptOutput] ∧
      generateNullifier scriptCrypto (hexText scriptCommitment.val) (hexText scriptSecret.val) =
        .ok (hexText backendNullifier.val) ∧
      ¬ Attests scriptCrypto scriptSecret scriptCommitment scriptNullifier ∧
      ¬ Attests scriptCrypto scriptSecret scriptCommitment backendNullifier := by
  have circuit : scriptCrypto.pedersen scriptSecret scriptCommitment = scriptOutput := by decide
  have backend : scriptCrypto.pedersen scriptCommitment scriptSecret = backendNullifier := by
    decide
  refine ⟨?_, ?_, ?_, ?_⟩
  · rw [execute_three, circuit]
  · refine computePedersenHash_ok.mpr ⟨_, _, pedersenArg_hexText _, pedersenArg_hexText _, ?_⟩
    rw [backend]
  · intro attests
    have same := backend.symm.trans attests.orders.1
    revert same
    decide
  · intro attests
    have same := circuit.symm.trans attests.orders.2
    revert same
    decide

end PrivateBtc.Backend.SharpService

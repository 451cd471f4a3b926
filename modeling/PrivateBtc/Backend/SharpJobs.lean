/- PrivateBtc/Backend/SharpJobs
   digest: What a stored proof job rests on, and that the withdrawal circuit never gets one. -/

import PrivateBtc.Backend.Database
import PrivateBtc.Backend.SharpService
import PrivateBtc.Backend.Starknet
import PrivateBtc.Library.GuardedRun

set_option autoImplicit false
set_option relaxedAutoImplicit false

namespace PrivateBtc.Backend.SharpJobs

open Library Library.JsText Library.Outcome
open Contracts.Corelib (Felt)
open Database (orThrow)
open SharpService
open Starknet (mentions)

inductive JobStatus where
  | submitted
  | inProgress
  | processed
  | onchain
  | failed
  deriving DecidableEq

structure ProofRecord where
  id : Text
  jobKey : Text
  secretHash : Text
  saltHash : Text
  status : JobStatus
  onChain : Nat
  createdAt : Nat

/-- The table `sharp_proofs`. -/
def jobSchema : Schema ProofRecord where
  check _ := true
  clash a b := a.id == b.id || a.jobKey == b.jobKey
  clash_symm a b := by rw [BEq.comm (a := a.id), BEq.comm (a := a.jobKey)]

abbrev Jobs := Table jobSchema

/-- What a submission takes from its surroundings. -/
structure Given where
  id : Text
  jobKey : Text
  nowSecs : Nat
  verifyRes : CommandResult

section Service

variable {Json : Type} (scarb : Scarb Json) (program : Program) (sha256Hex : Text → Text)

/-- The `try` of `submitProof`: the two arguments are proved, and the proof is verified. -/
def submitFlow (secret salt secretHex saltHex : Text) (given : Given) (jobs : Jobs) :
    Except String Jobs :=
  let proveRes := scarb.prove program [secretHex, saltHex]
  if proveRes.status ≠ some 0 then
    .error s!"scarb prove failed: {String.ofList proveRes.stderr}"
  else if (savedPath proveRes.stdout).isNone then
    .error ("Could not parse proof path from scarb prove output: " ++
      String.ofList proveRes.stdout)
  else if given.verifyRes.status ≠ some 0 then
    .error s!"Proof verification failed: {String.ofList given.verifyRes.stderr}"
  else
    orThrow (jobs.insert
      { id := given.id
        jobKey := given.jobKey
        secretHash := sha256Hex secret
        saltHash := sha256Hex salt
        status := .processed
        onChain := 0
        createdAt := given.nowSecs })

def submitProof (secret salt : Text) (given : Given) (jobs : Jobs) :
    Except String (Text × Jobs) := do
  let secretHex ← toHex secret
  let saltHex ← toHex salt
  match submitFlow scarb program sha256Hex secret salt secretHex saltHex given jobs with
  | .ok jobs => .ok (given.jobKey, jobs)
  | .error message => .error s!"Proving flow failed: {message}"

/-- The first of the status words that the output has. -/
def parseStatus (stdout : Text) : JobStatus :=
  let told := mentions (String.ofList stdout)
  if told "ONCHAIN" then .onchain
  else if told "PROCESSED" then .processed
  else if told "FAILED" then .failed
  else .inProgress

def isSimulated (jobKey : Text) : Bool := "SIMULATED-JOB".toList.isPrefixOf jobKey

/-- UPDATE sharp_proofs SET status = ?, on_chain = ? WHERE job_key = ? -/
def setJobStatus (jobKey : Text) (status : JobStatus) (jobs : Jobs) : Jobs :=
  jobs.modify (fun job => job.jobKey == jobKey)
    (fun job => { job with status, onChain := if status = .onchain then 1 else 0 })
    ⟨fun _ => rfl, fun _ _ => rfl⟩

/-- The status answered, with `none` for UNKNOWN, and whether it is on chain. -/
def checkProofStatus (jobKey : Text) (res : CommandResult) (jobs : Jobs) :
    (Option JobStatus × Bool) × Jobs :=
  if isSimulated jobKey then ((some .processed, false), jobs)
  else if res.status ≠ some 0 then
    let stderr := String.ofList res.stderr
    if mentions stderr "not found" || mentions stderr "command not found" then
      ((some .processed, false), jobs)
    else ((none, false), jobs)
  else
    let proofStatus := parseStatus res.stdout
    ((some proofStatus, proofStatus == .onchain), setJobStatus jobKey proofStatus jobs)

/-- ORDER BY created_at DESC -/
def getProofHistory (jobs : Jobs) : List ProofRecord :=
  jobs.rows.mergeSort fun a b => b.createdAt ≤ a.createdAt

/-- The calls of the service, of the sharp routes and behind a deposit; a call is synchronous. -/
inductive Label where
  | submit (secret salt : Text) (given : Given)
  | status (jobKey : Text) (res : CommandResult)

def step (jobs : Jobs) : Label → Option Jobs
  | .submit secret salt given =>
      match submitProof scarb program sha256Hex secret salt given jobs with
      | .ok (_, jobs') => some jobs'
      | .error _ => some jobs
  | .status jobKey res => some (checkProofStatus jobKey res jobs).2

end Service

/-- The status that a label tells of a job. -/
def told (jobKey : Text) : Label → Option JobStatus
  | .submit _ _ _ => none
  | .status asked res =>
      if asked = jobKey ∧ isSimulated asked = false ∧ res.status = some 0 then
        some (parseStatus res.stdout)
      else none

def lastTold (jobKey : Text) (labels : List Label) : Option JobStatus :=
  (labels.filterMap (told jobKey)).getLast?

section Jobs

variable {Json : Type} (scarb : Scarb Json) (program : Program) (sha256Hex : Text → Text)

/-- The program succeeds on the two texts, read as felts. -/
def Accepts (secret salt : Text) : Prop :=
  ∃ secretHex saltHex x y output, toHex secret = .ok secretHex ∧ toHex salt = .ok saltHex ∧
    scarb.readArgument secretHex = some x ∧ scarb.readArgument saltHex = some y ∧
    program [x, y] = .ok output

/-- What a stored job rests on: its submission, with an accepting run and a verified proof, and the
last status that was told of it since. -/
def Earned (labels : List Label) (job : ProofRecord) : Prop :=
  ∃ earlier secret salt given later, labels = earlier ++ .submit secret salt given :: later ∧
    Accepts scarb program secret salt ∧ given.verifyRes.status = some 0 ∧
    job.id = given.id ∧ job.jobKey = given.jobKey ∧ job.createdAt = given.nowSecs ∧
    job.secretHash = sha256Hex secret ∧ job.saltHash = sha256Hex salt ∧
    job.status = (lastTold job.jobKey later).getD .processed ∧
    job.onChain = if job.status = .onchain then 1 else 0

end Jobs

section Runs

variable {Json : Type} {scarb : Scarb Json} {program : Program} {sha256Hex : Text → Text}
  {jobs jobs' : Jobs} {labels : List Label} {label : Label}

/-- Both arguments are read, and the program runs on them, before a job is stored. -/
theorem submitProof_ok {secret salt jobKey : Text} {given : Given}
    (submitted : submitProof scarb program sha256Hex secret salt given jobs = .ok (jobKey, jobs')) :
    Accepts scarb program secret salt ∧ given.verifyRes.status = some 0 ∧
      jobs'.rows = jobs.rows ++ [⟨given.id, given.jobKey, sha256Hex secret, sha256Hex salt,
        .processed, 0, given.nowSecs⟩] := by
  simp only [submitProof, bind_eq_ok] at submitted
  obtain ⟨secretHex, first, saltHex, second, flow⟩ := submitted
  split at flow
  · next stored went =>
      cases flow
      unfold submitFlow at went
      dsimp only at went
      split_ifs at went with unproved unsaved unverified
      rw [not_not] at unproved unverified
      obtain ⟨felts, output, read, ran⟩ := (scarb.prove_status program _).mp unproved
      have inserted := Table.insert_rows (Database.orThrow_ok.mp went)
      refine ⟨?_, unverified, inserted⟩
      simp only [List.mapM_cons, List.mapM_nil, bind, Option.bind_eq_some_iff] at read
      obtain ⟨x, x_read, rest, ⟨y, y_read, none_, nil, tail⟩, same⟩ := read
      cases nil
      cases tail
      cases same
      exact ⟨secretHex, saltHex, x, y, output, first, second, x_read, y_read, ran⟩
  · cases flow

theorem lastTold_snoc (jobKey : Text) :
    lastTold jobKey (labels ++ [label]) = (told jobKey label).or (lastTold jobKey labels) := by
  rw [lastTold, List.filterMap_append, List.getLast?_append, lastTold]
  cases h : told jobKey label with
  | none => simp [h]
  | some status => simp [h]

/-- A job on which a label is silent stays what it was. -/
theorem Earned.snoc {job : ProofRecord} (earned : Earned scarb program sha256Hex labels job)
    (silent : told job.jobKey label = none) :
    Earned scarb program sha256Hex (labels ++ [label]) job := by
  obtain ⟨earlier, secret, salt, given, later, rfl, accepts, verified, id, key, at_, left, right,
    status, onChain⟩ := earned
  refine ⟨earlier, secret, salt, given, later ++ [label], by simp, accepts, verified, id, key, at_,
    left, right, ?_, onChain⟩
  rw [lastTold_snoc, silent, Option.none_or, status]

theorem Earned.told {job : ProofRecord} (earned : Earned scarb program sha256Hex labels job)
    {status : JobStatus} (tells : SharpJobs.told job.jobKey label = some status) :
    Earned scarb program sha256Hex (labels ++ [label])
      { job with status, onChain := if status = .onchain then 1 else 0 } := by
  obtain ⟨earlier, secret, salt, given, later, rfl, accepts, verified, id, key, at_, left, right,
    -, -⟩ := earned
  refine ⟨earlier, secret, salt, given, later ++ [label], by simp, accepts, verified, id, key, at_,
    left, right, ?_, rfl⟩
  rw [lastTold_snoc, tells]
  rfl

theorem earned_step (labels : List Label) (jobs : Jobs) (label : Label) (jobs' : Jobs)
    (earned : ∀ job ∈ jobs.rows, Earned scarb program sha256Hex labels job)
    (stepped : step scarb program sha256Hex jobs label = some jobs') :
    ∀ job ∈ jobs'.rows, Earned scarb program sha256Hex (labels ++ [label]) job := by
  cases label with
  | submit secret salt given =>
      have kept : ∀ job ∈ jobs.rows,
          Earned scarb program sha256Hex (labels ++ [.submit secret salt given]) job :=
        fun job member => (earned job member).snoc rfl
      rw [step] at stepped
      split at stepped
      · next jobKey stored submitted =>
          cases stepped
          obtain ⟨accepts, verified, rows⟩ := submitProof_ok submitted
          intro job member
          rw [rows] at member
          rcases List.mem_append.mp member with old | new
          · exact kept job old
          · rw [List.mem_singleton.mp new]
            exact ⟨labels, secret, salt, given, [], rfl, accepts, verified, rfl, rfl, rfl, rfl, rfl,
              rfl, rfl⟩
      · cases stepped
        exact kept
  | status jobKey res =>
      cases stepped
      have silent : isSimulated jobKey = true ∨ res.status ≠ some 0 → ∀ job ∈ jobs.rows,
          Earned scarb program sha256Hex (labels ++ [.status jobKey res]) job := by
        intro unheard job member
        refine (earned job member).snoc (if_neg ?_)
        rintro ⟨-, plain, succeeded⟩
        rcases unheard with simulated | failed
        · rw [plain] at simulated
          cases simulated
        · exact failed succeeded
      unfold checkProofStatus
      dsimp only
      split_ifs with simulated failed
      · exact silent (Or.inl simulated)
      · exact silent (Or.inr failed)
      · exact silent (Or.inr failed)
      · rw [not_not] at failed
        rw [Bool.not_eq_true] at simulated
        intro job member
        obtain ⟨old, among, rfl⟩ := List.mem_map.mp member
        by_cases same : old.jobKey = jobKey
        · rw [if_pos (beq_iff_eq.mpr same)]
          exact (earned old among).told (if_pos ⟨same.symm, simulated, failed⟩)
        · rw [if_neg (by rwa [beq_iff_eq])]
          refine (earned old among).snoc (if_neg ?_)
          rintro ⟨asked, -, -⟩
          exact same asked.symm

/-- The circuit takes three arguments. -/
theorem not_accepts_circuit {pedersen : Felt → Felt → Felt} {secret salt : Text} :
    ¬ Accepts scarb (Contracts.WithdrawCircuit.execute pedersen) secret salt := by
  rintro ⟨_, _, x, y, output, -, -, -, -, ran⟩
  obtain ⟨_, _, _, three, -⟩ := Contracts.WithdrawCircuit.execute_ok.mp ran
  cases three

end Runs

end PrivateBtc.Backend.SharpJobs

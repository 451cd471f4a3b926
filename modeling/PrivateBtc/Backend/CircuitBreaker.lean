/- PrivateBtc/Backend/CircuitBreaker
   digest: The resilience wrapper; which runs of overlapping calls and polls keep it closed. -/

import PrivateBtc.Backend.Starknet
import PrivateBtc.Library.GuardedRun

set_option autoImplicit false
set_option relaxedAutoImplicit false

namespace PrivateBtc.Backend.CircuitBreaker

open Library Library.JsText
open Starknet

inductive CircuitStatus where
  | closed
  | opened
  | halfOpen
  deriving DecidableEq

/-- The static fields of `StarknetService`, shared by all its calls. -/
structure Circuit where
  circuitStatus : CircuitStatus
  consecutiveFailures : Nat
  nextAttemptAt : Nat
  deriving DecidableEq

def threshold : Nat := 5

def resetTimeoutMs : Nat := 60000

def isNetworkError (errMsg : String) : Bool :=
  mentions errMsg "fetch failed" ||
    mentions errMsg "timed out" ||
    mentions errMsg "ECONNREFUSED" ||
    mentions errMsg "ENOTFOUND" ||
    mentions errMsg "EAI_AGAIN" ||
    mentions errMsg "network" ||
    includes "502".toList (toLowerCase errMsg.toList) ||
    includes "503".toList (toLowerCase errMsg.toList) ||
    includes "504".toList (toLowerCase errMsg.toList)

def isApplicationError (errMsg : String) : Bool :=
  mentions errMsg "insufficient" ||
    mentions errMsg "Invalid transaction" ||
    mentions errMsg "Validation failed" ||
    mentions errMsg "Block header not relayed yet"

/-- The first check of `withResilience`; what it throws is not counted. -/
def enter (c : Circuit) (now : Nat) : Except String Circuit :=
  match c.circuitStatus with
  | .opened =>
      if c.nextAttemptAt ≤ now then .ok { c with circuitStatus := .halfOpen }
      else .error s!"RPC circuit is OPEN. Next retry in {(c.nextAttemptAt - now + 999) / 1000}s"
  | .closed | .halfOpen => .ok c

def countFailure (c : Circuit) (now : Nat) : Circuit :=
  let consecutiveFailures := c.consecutiveFailures + 1
  if threshold ≤ consecutiveFailures then ⟨.opened, consecutiveFailures, now + resetTimeoutMs⟩
  else { c with consecutiveFailures }

/-- The call of `withResilience` has answered or thrown. -/
def settle (c : Circuit) (now : Nat) : Except String Unit → Circuit
  | .ok () => { c with circuitStatus := .closed, consecutiveFailures := 0 }
  | .error errMsg =>
      if isNetworkError errMsg && !isApplicationError errMsg then countFailure c now
      else if isApplicationError errMsg then c
      else countFailure c now

/-- A call under the wrapper, or a `waitForTransaction` with its attempt. -/
inductive Task where
  | calling
  | polling (txHash : Text) (attempt : Nat)
  | sleeping (txHash : Text) (attempt : Nat)

/-- `refusals` are the calls and polls that the open circuit has turned away. -/
structure State where
  circuit : Circuit
  tasks : Nat → Option Task
  refusals : List Nat

def initial : State := ⟨⟨.closed, 0, 0⟩, fun _ => none, []⟩

def State.setTask (s : State) (id : Nat) (task : Option Task) : State :=
  { s with tasks := Function.update s.tasks id task }

/-- The wait goes to sleep before its next attempt, or ends. -/
def afterAttempt (s : State) (id : Nat) (txHash : Text) : Waiting → State
  | .again attempt => s.setTask id (some (.sleeping txHash attempt))
  | .confirmed _ | .failed _ => s.setTask id none

/-- `getTransactionReceipt` up to the answer of the node. -/
def poll (s : State) (id : Nat) (now : Nat) (txHash : Text) (attempt : Nat) : State :=
  if !validateTxHashFormat (paddedHash txHash) then
    afterAttempt s id txHash (waitOnce txHash attempt (.error ""))
  else match enter s.circuit now with
    | .ok circuit => { s with circuit }.setTask id (some (.polling txHash attempt))
    | .error message =>
        afterAttempt { s with refusals := s.refusals ++ [id] } id txHash
          (waitOnce txHash attempt (.error message))

/-- Calls and polls of any number may be under way; each label is one turn of one of them. -/
inductive Label where
  | call (id : Nat) (now : Nat)
  | wait (id : Nat) (now : Nat) (txHash : Text)
  | wake (id : Nat) (now : Nat)
  | called (id : Nat) (now : Nat) (outcome : Except String Unit)
  | polled (id : Nat) (now : Nat) (reply : Except String TransactionReceipt)

/-- How the call under the wrapper that a label settles has ended. -/
def Label.outcome : Label → Option (Except String Unit)
  | called _ _ outcome => some outcome
  | polled _ _ reply => some (reply.map fun _ => ())
  | call _ _ | wait _ _ _ | wake _ _ => none

def step (s : State) : Label → Option State
  | .call id now =>
      if (s.tasks id).isSome then none
      else match enter s.circuit now with
        | .ok circuit => some ({ s with circuit }.setTask id (some .calling))
        | .error _ => some { s with refusals := s.refusals ++ [id] }
  | .wait id now txHash =>
      if (s.tasks id).isSome then none else some (poll s id now txHash 1)
  | .wake id now =>
      match s.tasks id with
      | some (.sleeping txHash attempt) => some (poll s id now txHash attempt)
      | _ => none
  | .called id now outcome =>
      match s.tasks id with
      | some .calling => some ({ s with circuit := settle s.circuit now outcome }.setTask id none)
      | _ => none
  | .polled id now reply =>
      match s.tasks id with
      | some (.polling txHash attempt) =>
          some (afterAttempt { s with circuit := settle s.circuit now (reply.map fun _ => ()) } id
            txHash (waitOnce txHash attempt reply))
      | _ => none

/-- No call of the run fails with an error of the network class. -/
def NoNetworkError (labels : List Label) : Prop :=
  ∀ label ∈ labels, ∀ errMsg, label.outcome = some (.error errMsg) →
    isNetworkError errMsg = false

/-- All along the run the circuit is closed, and it has turned nobody away. -/
def StaysClosed (labels : List Label) : Prop :=
  ∀ earlier, earlier <+: labels → ∀ s, GuardedRun.run step initial earlier = some s →
    s.circuit.circuitStatus = .closed ∧ s.refusals = []

/-- The failures outside the application class since the last success. -/
def tally (failures : Nat) (label : Label) : Nat :=
  match label.outcome with
  | none => failures
  | some (.ok ()) => 0
  | some (.error errMsg) => if isApplicationError errMsg then failures else failures + 1

def streak (labels : List Label) : Nat := labels.foldl tally 0

/-- Five failures outside the application class never come without a success between them. -/
def Spaced (labels : List Label) : Prop :=
  ∀ earlier, earlier <+: labels → streak earlier < threshold

instance (labels : List Label) : Decidable (Spaced labels) :=
  decidable_of_iff (∀ earlier ∈ labels.inits, streak earlier < threshold) <| by
    simp only [List.mem_inits, Spaced]

@[simp] theorem setTask_circuit (s : State) (id : Nat) (task : Option Task) :
    (s.setTask id task).circuit = s.circuit := rfl

@[simp] theorem setTask_refusals (s : State) (id : Nat) (task : Option Task) :
    (s.setTask id task).refusals = s.refusals := rfl

@[simp] theorem afterAttempt_circuit (s : State) (id : Nat) (txHash : Text) (waiting : Waiting) :
    (afterAttempt s id txHash waiting).circuit = s.circuit := by
  cases waiting <;> rfl

@[simp] theorem afterAttempt_refusals (s : State) (id : Nat) (txHash : Text) (waiting : Waiting) :
    (afterAttempt s id txHash waiting).refusals = s.refusals := by
  cases waiting <;> rfl

/-- The closed circuit with so many failures behind it, which has turned nobody away. -/
def Closed (failures : Nat) (s : State) : Prop :=
  s.circuit = ⟨.closed, failures, 0⟩ ∧ s.refusals = []

theorem enter_closed (failures now : Nat) :
    enter ⟨.closed, failures, 0⟩ now = .ok ⟨.closed, failures, 0⟩ := rfl

/-- A closed circuit admits every poll. -/
theorem poll_closed {s : State} {failures : Nat} (closed : Closed failures s) (id now : Nat)
    (txHash : Text) (attempt : Nat) : Closed failures (poll s id now txHash attempt) := by
  obtain ⟨circuit, refusals⟩ := closed
  unfold poll
  split_ifs
  · exact ⟨by rw [afterAttempt_circuit, circuit], by rw [afterAttempt_refusals, refusals]⟩
  · rw [circuit, enter_closed]
    exact ⟨rfl, refusals⟩

/-- The wrapper counts what is outside the application class, whatever else the message says. -/
theorem settle_error (c : Circuit) (now : Nat) (errMsg : String) :
    settle c now (.error errMsg) = if isApplicationError errMsg then c else countFailure c now := by
  rw [settle]
  by_cases application : isApplicationError errMsg = true
  · simp [application]
  · simp [application]

theorem settle_closed {failures : Nat} (few : failures < threshold) (now : Nat) {label : Label}
    {outcome : Except String Unit} (settled : label.outcome = some outcome) :
    settle ⟨.closed, failures, 0⟩ now outcome =
      if threshold ≤ tally failures label then
        ⟨.opened, tally failures label, now + resetTimeoutMs⟩
      else ⟨.closed, tally failures label, 0⟩ := by
  cases outcome with
  | ok u =>
      have count : tally failures label = 0 := by rw [tally, settled]
      rw [count]
      rfl
  | error errMsg =>
      rw [settle_error]
      by_cases application : isApplicationError errMsg = true
      · have count : tally failures label = failures := by
          rw [tally, settled]
          exact if_pos application
        rw [count, if_pos application, if_neg (not_le.mpr few)]
      · have count : tally failures label = failures + 1 := by
          rw [tally, settled]
          exact if_neg application
        rw [count, if_neg application]
        rfl

theorem step_cases {s s' : State} {label : Label} {failures : Nat} (few : failures < threshold)
    (closed : Closed failures s) (stepped : step s label = some s') :
    tally failures label < threshold ∧ Closed (tally failures label) s' ∨
      threshold ≤ tally failures label ∧ s'.circuit.circuitStatus = .opened := by
  have entered : label.outcome = none → Closed failures s' →
      tally failures label < threshold ∧ Closed (tally failures label) s' := by
    intro unsettled kept
    have same : tally failures label = failures := by rw [tally, unsettled]
    rw [same]
    exact ⟨few, kept⟩
  have left : ∀ {now : Nat} {outcome : Except String Unit}, label.outcome = some outcome →
      s'.circuit = settle s.circuit now outcome → s'.refusals = s.refusals →
      tally failures label < threshold ∧ Closed (tally failures label) s' ∨
        threshold ≤ tally failures label ∧ s'.circuit.circuitStatus = .opened := by
    intro now outcome settled circuit refusals
    rw [closed.1, settle_closed few now settled] at circuit
    by_cases many : threshold ≤ tally failures label
    · rw [if_pos many] at circuit
      exact Or.inr ⟨many, by rw [circuit]⟩
    · rw [if_neg many] at circuit
      exact Or.inl ⟨not_le.mp many, circuit, refusals.trans closed.2⟩
  cases label with
  | call id now =>
      rw [step] at stepped
      split_ifs at stepped
      rw [closed.1, enter_closed] at stepped
      cases stepped
      exact Or.inl (entered rfl ⟨rfl, closed.2⟩)
  | wait id now txHash =>
      rw [step] at stepped
      split_ifs at stepped
      cases stepped
      exact Or.inl (entered rfl (poll_closed closed id now txHash 1))
  | wake id now =>
      rw [step] at stepped
      split at stepped
      · cases stepped
        exact Or.inl (entered rfl (poll_closed closed id now _ _))
      · cases stepped
  | called id now outcome =>
      rw [step] at stepped
      split at stepped
      · cases stepped
        exact left rfl rfl rfl
      · cases stepped
  | polled id now reply =>
      rw [step] at stepped
      split at stepped
      · cases stepped
        exact left rfl (afterAttempt_circuit _ _ _ _) (afterAttempt_refusals _ _ _ _)
      · cases stepped

theorem streak_snoc (labels : List Label) (label : Label) :
    streak (labels ++ [label]) = tally (streak labels) label := by
  rw [streak, List.foldl_append]
  rfl

theorem Spaced.earlier {labels earlier : List Label} (spaced : Spaced labels)
    (before : earlier <+: labels) : Spaced earlier :=
  fun first start => spaced first (start.trans before)

/-- A spaced run leaves the circuit closed, with the streak as its count. -/
theorem closed_of_spaced {labels : List Label} (spaced : Spaced labels) {s : State}
    (ran : GuardedRun.run step initial labels = some s) : Closed (streak labels) s := by
  induction labels using List.reverseRecOn generalizing s with
  | nil =>
      cases ran
      exact ⟨rfl, rfl⟩
  | append_singleton labels label ih =>
      obtain ⟨middle, first, stepped⟩ := GuardedRun.run_snoc.mp ran
      have before : labels <+: labels ++ [label] := List.prefix_append _ _
      have closed := ih (spaced.earlier before) first
      have few := spaced _ (List.prefix_refl _)
      rw [streak_snoc] at few ⊢
      rcases step_cases (spaced labels before) closed stepped with ⟨-, kept⟩ | ⟨many, -⟩
      · exact kept
      · exact absurd few (not_lt.mpr many)

/-- The fifth failure in a row opens the circuit. -/
theorem spaced_of_staysClosed {labels : List Label} (stays : StaysClosed labels) {s : State}
    (ran : GuardedRun.run step initial labels = some s) : Spaced labels := by
  induction labels using List.reverseRecOn generalizing s with
  | nil =>
      intro earlier start
      rw [List.prefix_nil.mp start]
      decide
  | append_singleton labels label ih =>
      obtain ⟨middle, first, stepped⟩ := GuardedRun.run_snoc.mp ran
      have before : labels <+: labels ++ [label] := List.prefix_append _ _
      have spaced := ih (fun earlier start => stays earlier (start.trans before)) first
      intro earlier start
      rcases List.prefix_concat_iff.mp start with whole | start
      · rw [whole, streak_snoc]
        have few := spaced labels (List.prefix_refl _)
        rcases step_cases few (closed_of_spaced spaced first) stepped with ⟨kept, -⟩ | ⟨-, tripped⟩
        · exact kept
        · have closed := (stays _ (List.prefix_refl _) s ran).1
          rw [tripped] at closed
          cases closed
      · exact spaced earlier start

/-- A run keeps the circuit closed exactly when five failures that are not application errors never
come without a success between them, however many of them are network errors. -/
theorem stays_closed_iff {labels : List Label} {s : State}
    (ran : GuardedRun.run step initial labels = some s) : StaysClosed labels ↔ Spaced labels := by
  constructor
  · intro stays
    exact spaced_of_staysClosed stays ran
  · intro spaced earlier start middle first
    have closed := closed_of_spaced (spaced.earlier start) first
    exact ⟨by rw [closed.1], closed.2⟩

def Label.quiet (label : Label) : Bool :=
  match label.outcome with
  | some (.error errMsg) => !isNetworkError errMsg
  | _ => true

theorem noNetworkError_of_quiet {labels : List Label}
    (quiet : ∀ label ∈ labels, label.quiet = true) : NoNetworkError labels := by
  intro label member errMsg failed
  have silent := quiet label member
  rw [Label.quiet, failed] at silent
  simpa using silent

/-- What the node says about a hash that it does not know yet. -/
def unknownHash : Except String TransactionReceipt := .error "29: Transaction hash not found"

def mined : TransactionReceipt := ⟨7, true, []⟩

/-- A deposit is polled while it is not mined, and a block number is asked for meanwhile. -/
def minedInTime : List Label :=
  [.wait 0 0 ['0', 'x', '1'], .call 1 50, .polled 0 100 unknownHash, .wake 0 5100,
    .polled 0 5200 unknownHash, .called 1 5300 (.error "insufficient"), .wake 0 10200,
    .polled 0 10300 (.ok mined), .call 2 10400]

theorem stays_closed_mined : StaysClosed minedInTime := by
  have runs : (GuardedRun.run step initial minedInTime).isSome = true := by decide +kernel
  obtain ⟨s, ran⟩ := Option.isSome_iff_exists.mp runs
  exact (stays_closed_iff ran).mpr (by decide +kernel)

/-- The transaction is still unknown at the fifth attempt; then another call comes. -/
def stillUnknown : List Label :=
  [.wait 0 0 ['0', 'x', '1'], .polled 0 100 unknownHash, .wake 0 5100, .polled 0 5200 unknownHash,
    .wake 0 10200, .polled 0 10300 unknownHash, .wake 0 15300, .polled 0 15400 unknownHash,
    .wake 0 20400, .polled 0 20500 unknownHash, .call 1 20600]

theorem polls_open_the_circuit : ¬ ∀ labels s, GuardedRun.run step initial labels = some s →
    NoNetworkError labels → StaysClosed labels := by
  intro claimed
  have ran : (GuardedRun.run step initial stillUnknown).map (fun s => s.refusals) = some [1] := by
    decide +kernel
  obtain ⟨s, ran, refused⟩ := Option.map_eq_some_iff.mp ran
  have quiet : NoNetworkError stillUnknown := noNetworkError_of_quiet (by decide +kernel)
  have nobody := (claimed stillUnknown s ran quiet stillUnknown (List.prefix_refl _) s ran).2
  rw [nobody] at refused
  cases refused

end PrivateBtc.Backend.CircuitBreaker

/- PrivateBtc/Backend/CircuitTrips
   digest: The circuit's invariant, and what a trip keeps out until a call under way succeeds. -/

import PrivateBtc.Backend.CircuitBreaker

set_option autoImplicit false
set_option relaxedAutoImplicit false

namespace PrivateBtc.Backend.CircuitTrips

open Library Library.JsText
open CircuitBreaker Starknet

def time : Label → Nat
  | .call _ now | .wait _ now _ | .wake _ now | .called _ now _ | .polled _ now _ => now

def idOf : Label → Nat
  | .call id _ | .wait id _ _ | .wake id _ | .called id _ _ | .polled id _ _ => id

/-- The clock does not go back from one turn to the next. -/
def Timely (labels : List Label) : Prop := labels.Pairwise fun a b => time a ≤ time b

def Task.wrapped : Task → Bool
  | .calling | .polling _ _ => true
  | .sleeping _ _ => false

/-- A function under the wrapper has been started and has not settled. -/
def InFlight (s : State) (id : Nat) : Prop := (s.tasks id).any Task.wrapped = true

/-- The step starts a function under the wrapper. -/
def Starts (s s' : State) : Prop := ∃ id, ¬ InFlight s id ∧ InFlight s' id

/-- The step counts a failure and leaves the circuit open. -/
def Trips (s s' : State) : Prop :=
  s.circuit.consecutiveFailures < s'.circuit.consecutiveFailures ∧
    s'.circuit.circuitStatus = .opened

def Succeeds (label : Label) : Prop := label.outcome = some (.ok ())

/-- Closed means fewer failures than the threshold. -/
def Balanced (c : Circuit) : Prop := c.circuitStatus = .closed ↔ c.consecutiveFailures < threshold

theorem inFlight_setTask {s : State} {id other : Nat} {task : Option Task}
    (idle : task.any Task.wrapped = false) (flies : InFlight (s.setTask id task) other) :
    InFlight s other := by
  unfold InFlight State.setTask at *
  dsimp only at flies
  by_cases same : other = id
  · subst same
    rw [Function.update_self, idle] at flies
    cases flies
  · rwa [Function.update_of_ne same] at flies

theorem inFlight_afterAttempt {s : State} {id other : Nat} {txHash : Text} {waiting : Waiting}
    (flies : InFlight (afterAttempt s id txHash waiting) other) : InFlight s other := by
  cases waiting <;> exact inFlight_setTask rfl flies

/-- What one turn does: it leaves the circuit alone (turned away, or not asking), it is let in, or it
settles a call under way. Only a turn that is let in starts a function. -/
inductive Turned (s s' : State) (label : Label) : Prop
  | passed (unsettled : label.outcome = none) (circuit : s'.circuit = s.circuit)
      (flying : ∀ other, InFlight s' other → InFlight s other)
  | admitted (unsettled : label.outcome = none)
      (entered : enter s.circuit (time label) = .ok s'.circuit)
  | settled (outcome : Except String Unit) (ends : label.outcome = some outcome)
      (circuit : s'.circuit = settle s.circuit (time label) outcome)
      (under : InFlight s (idOf label)) (flying : ∀ other, InFlight s' other → InFlight s other)

theorem poll_turned (s : State) (label : Label) (unsettled : label.outcome = none) (id : Nat)
    (txHash : Text) (attempt : Nat) :
    Turned s (poll s id (time label) txHash attempt) label := by
  unfold poll
  split_ifs
  · refine .passed unsettled (afterAttempt_circuit _ _ _ _) ?_
    intro other flies
    exact inFlight_afterAttempt flies
  · cases entered : enter s.circuit (time label) with
    | ok c => exact .admitted unsettled entered
    | error message =>
        refine .passed unsettled (afterAttempt_circuit _ _ _ _) ?_
        intro other flies
        have kept := inFlight_afterAttempt flies
        exact kept

theorem step_turned {s s' : State} {label : Label} (stepped : step s label = some s') :
    Turned s s' label := by
  cases label with
  | call id now =>
      rw [step] at stepped
      split_ifs at stepped
      cases entered : enter s.circuit now with
      | ok c =>
          rw [entered] at stepped
          cases stepped
          exact .admitted rfl entered
      | error message =>
          rw [entered] at stepped
          cases stepped
          exact .passed rfl rfl fun _ flies => flies
  | wait id now txHash =>
      rw [step] at stepped
      split_ifs at stepped
      cases stepped
      exact poll_turned s (.wait id now txHash) rfl id txHash 1
  | wake id now =>
      rw [step] at stepped
      split at stepped
      · cases stepped
        exact poll_turned s (.wake id now) rfl id _ _
      · cases stepped
  | called id now outcome =>
      rw [step] at stepped
      split at stepped
      · rename_i running
        cases stepped
        refine .settled outcome rfl rfl ?_ fun _ flies => inFlight_setTask rfl flies
        rw [InFlight, idOf, running]
        rfl
      · cases stepped
  | polled id now reply =>
      rw [step] at stepped
      split at stepped
      · rename_i running
        cases stepped
        refine .settled _ rfl (afterAttempt_circuit _ _ _ _) ?_ ?_
        · rw [InFlight, idOf, running]
          rfl
        · intro other flies
          have kept := inFlight_afterAttempt flies
          exact kept
      · cases stepped

theorem settle_balanced {c : Circuit} (balanced : Balanced c) (now : Nat)
    (outcome : Except String Unit) : Balanced (settle c now outcome) := by
  cases outcome with
  | ok u => exact iff_of_true rfl (show 0 < threshold by decide)
  | error errMsg =>
      rw [settle_error]
      split_ifs
      · exact balanced
      · unfold countFailure
        dsimp only
        split_ifs with many
        · refine iff_of_false ?_ (not_lt.mpr many)
          simp
        · have few := Nat.lt_of_succ_lt (not_le.mp many)
          exact iff_of_true (balanced.mpr few) (not_le.mp many)

theorem enter_balanced {c c' : Circuit} {now : Nat} (balanced : Balanced c)
    (entered : enter c now = .ok c') : Balanced c' := by
  unfold enter at entered
  cases status : c.circuitStatus with
  | opened =>
      rw [status] at entered
      dsimp only at entered
      split_ifs at entered
      cases entered
      have many : ¬ c.consecutiveFailures < threshold := by
        intro few
        have closed := balanced.mpr few
        rw [status] at closed
        cases closed
      refine iff_of_false ?_ many
      simp
  | closed =>
      rw [status] at entered
      cases entered
      exact balanced
  | halfOpen =>
      rw [status] at entered
      cases entered
      exact balanced

theorem step_balanced {s s' : State} {label : Label} (balanced : Balanced s.circuit)
    (stepped : step s label = some s') : Balanced s'.circuit := by
  cases step_turned stepped with
  | passed unsettled circuit flying =>
      rw [circuit]
      exact balanced
  | admitted unsettled entered => exact enter_balanced balanced entered
  | settled outcome ends circuit under flying =>
      rw [circuit]
      exact settle_balanced balanced _ outcome

theorem run_balanced {s s' : State} {labels : List Label} (balanced : Balanced s.circuit)
    (ran : GuardedRun.run step s labels = some s') : Balanced s'.circuit :=
  GuardedRun.run_preserves (fun s => Balanced s.circuit)
    (fun _ _ _ before stepped => step_balanced before stepped) ran balanced

/-- The circuit is open and admits nothing before the given time. -/
structure Barred (reopens : Nat) (c : Circuit) : Prop where
  status : c.circuitStatus = .opened
  waits : reopens ≤ c.nextAttemptAt
  many : threshold ≤ c.consecutiveFailures

theorem enter_barred {reopens now : Nat} {c : Circuit} (barred : Barred reopens c)
    (early : now < reopens) : ∃ message, enter c now = .error message := by
  have waits := barred.waits
  unfold enter
  rw [barred.status]
  dsimp only
  rw [if_neg (by omega)]
  exact ⟨_, rfl⟩

theorem settle_barred {reopens now : Nat} {c : Circuit} (barred : Barred reopens c)
    (later : reopens ≤ now + resetTimeoutMs) (errMsg : String) :
    Barred reopens (settle c now (.error errMsg)) := by
  have many := barred.many
  rw [settle_error]
  split_ifs
  · exact barred
  · unfold countFailure
    dsimp only
    rw [if_pos (by omega)]
    exact ⟨rfl, later, Nat.le_succ_of_le many⟩

/-- Before the circuit reopens a step that is no success keeps it open and starts nothing. -/
theorem step_barred {reopens : Nat} {s s' : State} {label : Label}
    (barred : Barred reopens s.circuit) (early : time label < reopens)
    (later : reopens ≤ time label + resetTimeoutMs) (fails : ¬ Succeeds label)
    (stepped : step s label = some s') :
    Barred reopens s'.circuit ∧ ∀ id, InFlight s' id → InFlight s id := by
  cases step_turned stepped with
  | passed unsettled circuit flying =>
      rw [circuit]
      exact ⟨barred, flying⟩
  | admitted unsettled entered =>
      obtain ⟨message, refused⟩ := enter_barred barred early
      rw [refused] at entered
      cases entered
  | settled outcome ends circuit under flying =>
      cases outcome with
      | ok u => exact absurd ends fails
      | error errMsg =>
          rw [circuit]
          exact ⟨settle_barred barred later errMsg, flying⟩

/-- The call that a success settles is under way, and the success starts nothing. -/
theorem flights_of_succeeds {s s' : State} {label : Label} (succeeds : Succeeds label)
    (stepped : step s label = some s') :
    InFlight s (idOf label) ∧ ∀ id, InFlight s' id → InFlight s id := by
  have ends : label.outcome = some (.ok ()) := succeeds
  cases step_turned stepped with
  | passed unsettled circuit flying =>
      rw [unsettled] at ends
      cases ends
  | admitted unsettled entered =>
      rw [unsettled] at ends
      cases ends
  | settled outcome failed circuit under flying => exact ⟨under, flying⟩

/-- From the state after a trip on, a call that was under way there and still is succeeds. -/
def InFlightSuccess (s : State) (labels : List Label) : Prop :=
  ∃ first success last, labels = first ++ success :: last ∧ Succeeds success ∧
    ∀ earlier, earlier <+: first → ∀ middle, GuardedRun.run step s earlier = some middle →
      InFlight middle (idOf success)

theorem run_barred {reopens : Nat} {s s' : State} {labels : List Label}
    (barred : Barred reopens s.circuit)
    (during : ∀ label ∈ labels, time label < reopens ∧ reopens ≤ time label + resetTimeoutMs)
    (ran : GuardedRun.run step s labels = some s') :
    InFlightSuccess s labels ∨ Barred reopens s'.circuit := by
  induction labels generalizing s with
  | nil =>
      cases ran
      exact Or.inr barred
  | cons label labels ih =>
      obtain ⟨s₁, stepped, rest⟩ := Option.bind_eq_some_iff.mp ran
      by_cases succeeds : Succeeds label
      · refine Or.inl ⟨[], label, labels, rfl, succeeds, ?_⟩
        intro earlier start middle reached
        rw [List.prefix_nil.mp start] at reached
        cases reached
        exact (flights_of_succeeds succeeds stepped).1
      · obtain ⟨early, later⟩ := during label List.mem_cons_self
        obtain ⟨barred₁, flying⟩ := step_barred barred early later succeeds stepped
        have others := fun l member => during l (List.mem_cons_of_mem label member)
        rcases ih barred₁ others rest with ⟨first, success, last, split, ends, under⟩ | still
        · refine Or.inl ⟨label :: first, success, last, by rw [split]; rfl, ends, ?_⟩
          have next := under [] (List.nil_prefix) s₁ rfl
          intro earlier start middle reached
          cases earlier with
          | nil =>
              cases reached
              exact flying _ next
          | cons l earlier =>
              obtain ⟨rfl, inside⟩ := List.cons_prefix_cons.mp start
              obtain ⟨s₂, steppedAgain, onward⟩ := Option.bind_eq_some_iff.mp reached
              rw [stepped] at steppedAgain
              cases steppedAgain
              exact under earlier inside middle onward
        · exact Or.inr still

theorem enter_failures {c c' : Circuit} {now : Nat} (entered : enter c now = .ok c') :
    c'.consecutiveFailures = c.consecutiveFailures := by
  unfold enter at entered
  split at entered
  · split_ifs at entered
    cases entered
    rfl
  · cases entered
    rfl
  · cases entered
    rfl

/-- Only the end of a call changes the count of failures. -/
theorem step_failures {s s' : State} {label : Label} (stepped : step s label = some s') :
    s'.circuit.consecutiveFailures = s.circuit.consecutiveFailures ∨
      ∃ outcome, s'.circuit = settle s.circuit (time label) outcome := by
  cases step_turned stepped with
  | passed unsettled circuit flying => exact Or.inl (by rw [circuit])
  | admitted unsettled entered => exact Or.inl (enter_failures entered)
  | settled outcome ends circuit under flying => exact Or.inr ⟨outcome, circuit⟩

theorem trips_barred {s s' : State} {label : Label} (balanced : Balanced s.circuit)
    (trips : Trips s s') (stepped : step s label = some s') :
    Barred (time label + resetTimeoutMs) s'.circuit := by
  obtain ⟨counted, opened⟩ := trips
  rcases step_failures stepped with same | ⟨outcome, settled⟩
  · omega
  · rw [settled] at counted opened ⊢
    cases outcome with
    | ok u => exact absurd counted (Nat.not_lt_zero _)
    | error errMsg =>
        rw [settle_error] at counted opened ⊢
        split_ifs at counted opened ⊢ with application
        · omega
        · unfold countFailure at counted opened ⊢
          dsimp only at counted opened ⊢
          split_ifs at counted opened ⊢ with many
          · exact ⟨rfl, le_rfl, many⟩
          · have closed := balanced.mpr (Nat.lt_of_succ_lt (not_le.mp many))
            rw [show s.circuit.circuitStatus = .opened from opened] at closed
            cases closed

/-- In every run the circuit is closed exactly while the failures are below the threshold; and
where a function starts within the reset time of a trip, a call that was under way at the trip
has succeeded in between. -/
theorem circuit_invariant (labels : List Label) :
    (∀ s, GuardedRun.run step initial labels = some s →
      (s.circuit.circuitStatus = .closed ↔ s.circuit.consecutiveFailures < threshold)) ∧
    (Timely labels → ∀ before trip between start after s₀ s₁ s₂ s₃,
      labels = before ++ trip :: between ++ start :: after →
      GuardedRun.run step initial before = some s₀ → step s₀ trip = some s₁ →
      GuardedRun.run step s₁ between = some s₂ → step s₂ start = some s₃ →
      Trips s₀ s₁ → Starts s₂ s₃ → time start < time trip + resetTimeoutMs →
      InFlightSuccess s₁ between) := by
  constructor
  · intro s ran
    exact run_balanced (iff_of_true rfl (by decide)) ran
  · intro timely before trip between start after s₀ s₁ s₂ s₃ split ran tripped onward started trips
      starts early
    have balanced := run_balanced (iff_of_true rfl (by decide)) ran
    have barred := trips_barred balanced trips tripped
    have ordered : (trip :: between ++ start :: after).Pairwise fun a b => time a ≤ time b := by
      rw [Timely, split, List.append_assoc] at timely
      exact (List.pairwise_append.mp timely).2.1
    obtain ⟨afterTrip, rest⟩ := List.pairwise_cons.mp ordered
    have beforeStart := (List.pairwise_append.mp rest).2.2
    have during : ∀ label ∈ between, time label < time trip + resetTimeoutMs ∧
        time trip + resetTimeoutMs ≤ time label + resetTimeoutMs := by
      intro label member
      have late := afterTrip label (List.mem_append_left _ member)
      have soon := beforeStart label member start List.mem_cons_self
      omega
    rcases run_barred barred during onward with succeeded | still
    · exact succeeded
    · have late := afterTrip start (List.mem_append_right _ List.mem_cons_self)
      obtain ⟨id, idle, flies⟩ := starts
      by_cases succeeds : Succeeds start
      · have flying := (flights_of_succeeds succeeds started).2
        exact absurd (flying id flies) idle
      · have flying := (step_barred still early (by omega) succeeds started).2
        exact absurd (flying id flies) idle

/-- Six calls overlap; five fail and trip the circuit, the sixth succeeds, then one more starts. -/
def overlapping : List Label :=
  [.call 0 0, .call 1 0, .call 2 0, .call 3 0, .call 4 0, .call 5 0,
    .called 0 10 (.error "fetch failed"), .called 1 11 (.error "fetch failed"),
    .called 2 12 (.error "fetch failed"), .called 3 13 (.error "fetch failed"),
    .called 4 14 (.error "fetch failed"), .called 5 20 (.ok ()), .call 6 30]

theorem circuit_invariant_overlapping :
    ∃ s₁, GuardedRun.run step initial (overlapping.take 11) = some s₁ ∧
      s₁.circuit.circuitStatus = .opened ∧ InFlightSuccess s₁ [.called 5 20 (.ok ())] := by
  have ran : ((GuardedRun.run step initial (overlapping.take 10)).bind fun s₀ =>
      (step s₀ (.called 4 14 (.error "fetch failed"))).bind fun s₁ =>
      (GuardedRun.run step s₁ [.called 5 20 (.ok ())]).bind fun s₂ =>
      (step s₂ (.call 6 30)).map fun s₃ => (s₀.circuit.consecutiveFailures, s₁.circuit,
        (s₂.tasks 6).any Task.wrapped, (s₃.tasks 6).any Task.wrapped)) =
      some (4, ⟨.opened, 5, 60014⟩, false, true) := by decide +kernel
  obtain ⟨s₀, first, ran⟩ := Option.bind_eq_some_iff.mp ran
  obtain ⟨s₁, tripped, ran⟩ := Option.bind_eq_some_iff.mp ran
  obtain ⟨s₂, onward, ran⟩ := Option.bind_eq_some_iff.mp ran
  obtain ⟨s₃, started, seen⟩ := Option.map_eq_some_iff.mp ran
  simp only [Prod.mk.injEq] at seen
  obtain ⟨failures, circuit, idle, flies⟩ := seen
  have trips : Trips s₀ s₁ := by
    rw [Trips, failures, circuit]
    decide
  have starts : Starts s₂ s₃ := by
    refine ⟨6, ?_, flies⟩
    rw [InFlight, idle]
    exact Bool.false_ne_true
  have timely : Timely overlapping := by
    unfold Timely
    decide
  have reached : GuardedRun.run step initial (overlapping.take 11) = some s₁ :=
    GuardedRun.run_snoc.mpr ⟨s₀, first, tripped⟩
  refine ⟨s₁, reached, by rw [circuit], ?_⟩
  exact (circuit_invariant overlapping).2 timely (overlapping.take 10) _ _ (.call 6 30) [] s₀ s₁ s₂
    s₃ rfl first tripped onward started trips starts (by decide)

end PrivateBtc.Backend.CircuitTrips

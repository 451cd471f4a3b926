/- PrivateBtc/Backend/LockManager
   digest: A callback that outlives its forced release releases the next holder's lock. -/

import PrivateBtc.Library.GuardedRun
import PrivateBtc.Library.JsText

set_option autoImplicit false
set_option relaxedAutoImplicit false

namespace PrivateBtc.Backend.LockManager

open Library Library.JsText Library.GuardedRun

/-- The two maps of the manager; a timer carries the number of the call that set it. -/
structure Manager where
  locks : Text → Bool
  timeouts : Text → Option Nat

/-- The manager, the timers that are set with the key each closes over, and the callbacks
that run. `acquired` and `forced` record who set a lock last and whose own timer released it. -/
structure State where
  manager : Manager
  timers : Nat → Option Text
  running : Nat → Option Text
  acquired : Text → Option Nat
  forced : Nat → Bool
  calls : Nat

def initial : State where
  manager := ⟨fun _ => false, fun _ => none⟩
  timers _ := none
  running _ := none
  acquired _ := none
  forced _ := false
  calls := 0

def isLocked (s : State) (key : Text) : Bool := s.manager.locks key

def releaseLock (s : State) (key : Text) : State :=
  let locks := Function.update s.manager.locks key false
  match s.manager.timeouts key with
  | some timeout =>
      { s with
        manager := ⟨locks, Function.update s.manager.timeouts key none⟩
        timers := Function.update s.timers timeout none }
  | none => { s with manager := ⟨locks, s.manager.timeouts⟩ }

/-- The call up to the start of its callback. -/
def withLock (s : State) (key : Text) : Except String State :=
  if isLocked s key then .error "Resource is locked — concurrent operation in progress"
  else .ok
    { manager :=
        ⟨Function.update s.manager.locks key true,
          Function.update s.manager.timeouts key (some s.calls)⟩
      timers := Function.update s.timers s.calls (some key)
      running := Function.update s.running s.calls (some key)
      acquired := Function.update s.acquired key (some s.calls)
      forced := s.forced
      calls := s.calls + 1 }

/-- The `finally` of a call whose callback has settled. -/
def settle (s : State) (call : Nat) (key : Text) : State :=
  { releaseLock s key with running := Function.update s.running call none }

/-- The timer's callback; a timer that has fired is no longer set. -/
def fire (s : State) (call : Nat) (key : Text) : State :=
  let s := { s with timers := Function.update s.timers call none }
  if s.manager.locks key then
    { releaseLock s key with forced := Function.update s.forced call true }
  else s

inductive Label where
  | call (key : Text)
  | complete (call : Nat)
  | timer (call : Nat)
  deriving DecidableEq

def step (s : State) : Label → Option State
  | .call key =>
      match withLock s key with
      | .ok s' => some s'
      | .error _ => some s
  | .complete call => (s.running call).map fun key => settle s call key
  | .timer call => (s.timers call).map fun key => fire s call key

/-- The call that has the lock of a key. -/
def holder (s : State) (key : Text) : Option Nat :=
  if s.manager.locks key then s.acquired key else none

/-- The timer of a held lock is set, and it is its holder's. -/
structure Timed (s : State) : Prop where
  held : ∀ key, s.manager.locks key = true ↔ (s.manager.timeouts key).isSome
  timeout : ∀ key call, s.manager.timeouts key = some call →
    s.timers call = some key ∧ s.acquired key = some call
  timer : ∀ key call, s.timers call = some key → s.manager.timeouts key = some call
  old : ∀ key call, s.timers call = some key → call < s.calls

theorem initial_timed : Timed initial := by
  constructor <;> simp [initial]

theorem holder_timeout {s : State} (timed : Timed s) (key : Text) :
    holder s key = s.manager.timeouts key := by
  rw [holder]
  cases set : s.manager.timeouts key with
  | none =>
      have free : ¬ s.manager.locks key = true := by
        rw [timed.held, set]
        simp
      rw [if_neg free]
  | some call =>
      have locked : s.manager.locks key = true := by
        rw [timed.held, set]
        rfl
      rw [if_pos locked]
      exact (timed.timeout key call set).2

theorem releaseLock_locks (s : State) (key : Text) :
    (releaseLock s key).manager.locks = Function.update s.manager.locks key false := by
  unfold releaseLock
  cases s.manager.timeouts key <;> rfl

theorem releaseLock_timeouts (s : State) (key : Text) :
    (releaseLock s key).manager.timeouts = Function.update s.manager.timeouts key none := by
  unfold releaseLock
  cases absent : s.manager.timeouts key with
  | none =>
      dsimp only
      rw [← absent, Function.update_eq_self]
  | some _ => rfl

theorem releaseLock_timers {s : State} (timed : Timed s) (key : Text) (call : Nat) :
    (releaseLock s key).timers call =
      if s.timers call = some key then none else s.timers call := by
  unfold releaseLock
  cases set : s.manager.timeouts key with
  | none =>
      have other : s.timers call ≠ some key := by
        intro own
        rw [timed.timer key call own] at set
        cases set
      rw [if_neg other]
  | some timeout =>
      dsimp only
      by_cases same : call = timeout
      · subst same
        rw [Function.update_self, if_pos (timed.timeout key call set).1]
      · have other : s.timers call ≠ some key := by
          intro own
          rw [timed.timer key call own, Option.some.injEq] at set
          exact same set
        rw [Function.update_of_ne same, if_neg other]

theorem releaseLock_kept (s : State) (key : Text) :
    (releaseLock s key).running = s.running ∧ (releaseLock s key).acquired = s.acquired ∧
      (releaseLock s key).forced = s.forced ∧ (releaseLock s key).calls = s.calls := by
  unfold releaseLock
  cases s.manager.timeouts key <;> exact ⟨rfl, rfl, rfl, rfl⟩

theorem releaseLock_timed {s : State} (timed : Timed s) (key : Text) :
    Timed (releaseLock s key) := by
  obtain ⟨-, acquired, -, calls⟩ := releaseLock_kept s key
  constructor
  · intro k
    rw [releaseLock_locks, releaseLock_timeouts]
    by_cases same : k = key
    · subst same
      simp
    · rw [Function.update_of_ne same, Function.update_of_ne same]
      exact timed.held k
  · intro k call set
    rw [releaseLock_timeouts] at set
    by_cases same : k = key
    · subst same
      rw [Function.update_self] at set
      cases set
    · rw [Function.update_of_ne same] at set
      obtain ⟨timer, holder⟩ := timed.timeout k call set
      rw [releaseLock_timers timed, timer, acquired, if_neg (by simpa using same)]
      exact ⟨rfl, holder⟩
  · intro k call timer
    rw [releaseLock_timers timed] at timer
    split_ifs at timer with own
    have apart : k ≠ key := by
      rintro rfl
      exact own timer
    rw [releaseLock_timeouts, Function.update_of_ne apart]
    exact timed.timer k call timer
  · intro k call timer
    rw [releaseLock_timers timed] at timer
    split_ifs at timer
    rw [calls]
    exact timed.old k call timer

/-- A timer that fires belongs to the holder, so it always releases. -/
theorem fire_eq {s : State} (timed : Timed s) {call : Nat} {key : Text}
    (timer : s.timers call = some key) :
    fire s call key =
      { releaseLock s key with forced := Function.update s.forced call true } := by
  have set := timed.timer key call timer
  have locked : s.manager.locks key = true := by
    rw [timed.held, set]
    rfl
  rw [fire]
  dsimp only
  rw [if_pos locked]
  unfold releaseLock
  dsimp only
  rw [set]
  dsimp only
  rw [Function.update_idem]

/-- What a step can do: refuse, acquire, or release by a completion or a timer. -/
theorem step_cases {s s' : State} {label : Label} (timed : Timed s)
    (stepped : step s label = some s') :
    (∃ key, label = .call key ∧ isLocked s key = true ∧ s' = s) ∨
    (∃ key, label = .call key ∧ isLocked s key = false ∧ withLock s key = .ok s') ∨
    (∃ call key, label = .complete call ∧ s.running call = some key ∧ s' = settle s call key) ∨
    ∃ call key, label = .timer call ∧ s.timers call = some key ∧
      s' = { releaseLock s key with forced := Function.update s.forced call true } := by
  cases label with
  | call key =>
      rw [step] at stepped
      cases locked : isLocked s key with
      | true =>
          rw [withLock, locked] at stepped
          cases stepped
          exact Or.inl ⟨key, rfl, locked, rfl⟩
      | false =>
          refine Or.inr (Or.inl ⟨key, rfl, locked, ?_⟩)
          rw [withLock, locked, if_neg Bool.false_ne_true] at stepped ⊢
          cases stepped
          rfl
  | complete call =>
      obtain ⟨key, running, rfl⟩ := Option.map_eq_some_iff.mp stepped
      exact Or.inr (Or.inr (Or.inl ⟨call, key, rfl, running, rfl⟩))
  | timer call =>
      obtain ⟨key, timer, rfl⟩ := Option.map_eq_some_iff.mp stepped
      exact Or.inr (Or.inr (Or.inr ⟨call, key, rfl, timer, fire_eq timed timer⟩))

theorem Timed.unset {s : State} (timed : Timed s) {key : Text} (free : isLocked s key = false) :
    s.manager.timeouts key = none := by
  have empty := timed.held key
  rw [isLocked] at free
  rw [free] at empty
  simpa using empty

theorem withLock_timed {s s' : State} {key : Text} (timed : Timed s)
    (free : isLocked s key = false) (locked : withLock s key = .ok s') : Timed s' := by
  have unset := timed.unset free
  rw [withLock, free, if_neg Bool.false_ne_true] at locked
  cases locked
  constructor
  · intro k
    dsimp only
    by_cases same : k = key
    · subst same
      simp
    · rw [Function.update_of_ne same, Function.update_of_ne same]
      exact timed.held k
  · intro k call set
    dsimp only at set ⊢
    by_cases same : k = key
    · subst same
      rw [Function.update_self, Option.some.injEq] at set
      subst set
      rw [Function.update_self, Function.update_self]
      exact ⟨rfl, rfl⟩
    · rw [Function.update_of_ne same] at set
      obtain ⟨timer, holder⟩ := timed.timeout k call set
      have apart : call ≠ s.calls := (timed.old k call timer).ne
      rw [Function.update_of_ne apart, Function.update_of_ne same]
      exact ⟨timer, holder⟩
  · intro k call timer
    dsimp only at timer ⊢
    by_cases new : call = s.calls
    · subst new
      rw [Function.update_self, Option.some.injEq] at timer
      subst timer
      rw [Function.update_self]
    · rw [Function.update_of_ne new] at timer
      have set := timed.timer k call timer
      have apart : k ≠ key := by
        rintro rfl
        rw [unset] at set
        cases set
      rw [Function.update_of_ne apart]
      exact set
  · intro k call timer
    dsimp only at timer ⊢
    by_cases new : call = s.calls
    · omega
    · rw [Function.update_of_ne new] at timer
      have before := timed.old k call timer
      omega

theorem step_timed {s s' : State} {label : Label} (timed : Timed s)
    (stepped : step s label = some s') : Timed s' := by
  rcases step_cases timed stepped with ⟨_, -, -, rfl⟩ | ⟨key, -, free, locked⟩ |
    ⟨call, key, -, -, rfl⟩ | ⟨call, key, -, -, rfl⟩
  · exact timed
  · exact withLock_timed timed free locked
  · have released := releaseLock_timed timed key
    exact ⟨released.held, released.timeout, released.timer, released.old⟩
  · have released := releaseLock_timed timed key
    exact ⟨released.held, released.timeout, released.timer, released.old⟩

/-- A callback whose own timer has not released its lock still has it. -/
def Owned (s : State) : Prop :=
  ∀ call key, s.running call = some key → s.forced call = false → holder s key = some call

/-- The lock of a completing call's key is not another call's. -/
def OwnCompletion (s : State) (call : Nat) : Prop :=
  ∀ key other, s.running call = some key → holder s key = some other → other = call

theorem step_owned {s s' : State} {label : Label} (timed : Timed s) (owned : Owned s)
    (own : ∀ call, label = .complete call → OwnCompletion s call)
    (stepped : step s label = some s') : Owned s' := by
  have timed' := step_timed timed stepped
  have had : ∀ call key, s.running call = some key → s.forced call = false →
      s.manager.timeouts key = some call := by
    intro call key running unforced
    rw [← holder_timeout timed]
    exact owned call key running unforced
  intro other k running unforced
  rw [holder_timeout timed']
  rcases step_cases timed stepped with ⟨_, -, -, rfl⟩ | ⟨key, -, free, locked⟩ |
    ⟨call, key, rfl, completes, rfl⟩ | ⟨call, key, -, timer, rfl⟩
  · exact had other k running unforced
  · have unset := timed.unset free
    rw [withLock, free, if_neg Bool.false_ne_true] at locked
    cases locked
    dsimp only at running unforced ⊢
    by_cases new : other = s.calls
    · subst new
      rw [Function.update_self, Option.some.injEq] at running
      subst running
      rw [Function.update_self]
    · rw [Function.update_of_ne new] at running
      have before := had other k running unforced
      have apart : k ≠ key := by
        rintro rfl
        rw [unset] at before
        cases before
      rw [Function.update_of_ne apart]
      exact before
  · obtain ⟨-, -, forced, -⟩ := releaseLock_kept s key
    have still : other ≠ call := by
      rintro rfl
      simp [settle] at running
    rw [settle] at running unforced ⊢
    dsimp only at running unforced ⊢
    rw [Function.update_of_ne still] at running
    rw [forced] at unforced
    have before := had other k running unforced
    have apart : k ≠ key := by
      rintro rfl
      rw [← holder_timeout timed] at before
      exact still (own call rfl k other completes before)
    rw [releaseLock_timeouts, Function.update_of_ne apart]
    exact before
  · obtain ⟨runs, -, -, -⟩ := releaseLock_kept s key
    dsimp only at running unforced ⊢
    have still : other ≠ call := by
      rintro rfl
      simp at unforced
    rw [runs] at running
    rw [Function.update_of_ne still] at unforced
    have before := had other k running unforced
    have apart : k ≠ key := by
      rintro rfl
      rw [timed.timer k call timer, Option.some.injEq] at before
      exact still before.symm
    rw [releaseLock_timeouts, Function.update_of_ne apart]
    exact before

/-- A lock that leaves its holder does so by the holder's own completion or timer. -/
def OwnRelease (s : State) (label : Label) (s' : State) : Prop :=
  ∀ key call, holder s key = some call → holder s' key ≠ some call →
    label = .complete call ∨ label = .timer call

/-- Of the callbacks of a key at most one has not been force-released by its own timer. -/
def Exclusive (s : State) : Prop :=
  ∀ key call other, s.running call = some key → s.forced call = false →
    s.running other = some key → s.forced other = false → call = other

/-- The timer of every held lock is set. -/
def HasTimer (s : State) : Prop :=
  ∀ key, isLocked s key = true → ∃ call, holder s key = some call ∧ s.timers call = some key

theorem hasTimer {s : State} (timed : Timed s) : HasTimer s := by
  intro key locked
  obtain ⟨call, set⟩ := Option.isSome_iff_exists.mp ((timed.held key).mp locked)
  refine ⟨call, ?_, (timed.timeout key call set).1⟩
  rw [holder_timeout timed, set]

theorem exclusive {s : State} (owned : Owned s) : Exclusive s := by
  intro key call other running unforced runningOther unforcedOther
  have first := owned call key running unforced
  have second := owned other key runningOther unforcedOther
  rw [first, Option.some.injEq] at second
  exact second

theorem holder_released (s : State) (key : Text) : holder (releaseLock s key) key = none := by
  rw [holder, releaseLock_locks, Function.update_self, if_neg Bool.false_ne_true]

theorem ownRelease {s s' : State} {label : Label} (timed : Timed s)
    (own : ∀ call, label = .complete call → OwnCompletion s call)
    (stepped : step s label = some s') : OwnRelease s label s' := by
  have timed' := step_timed timed stepped
  intro key call held lost
  rw [holder_timeout timed] at held
  rw [holder_timeout timed'] at lost
  rcases step_cases timed stepped with ⟨_, -, -, rfl⟩ | ⟨k, -, free, locked⟩ |
    ⟨c, k, rfl, completes, rfl⟩ | ⟨c, k, rfl, timer, rfl⟩
  · exact absurd held lost
  · have apart : key ≠ k := by
      rintro rfl
      have set := (timed.held key).mpr (by rw [held]; rfl)
      rw [isLocked, set] at free
      cases free
    rw [withLock, free, if_neg Bool.false_ne_true] at locked
    cases locked
    dsimp only at lost
    rw [Function.update_of_ne apart] at lost
    exact absurd held lost
  · by_cases same : key = k
    · subst same
      rw [← holder_timeout timed] at held
      exact Or.inl (congrArg Label.complete (own c rfl key call completes held).symm)
    · rw [settle] at lost
      dsimp only at lost
      rw [releaseLock_timeouts, Function.update_of_ne same] at lost
      exact absurd held lost
  · by_cases same : key = k
    · subst same
      rw [timed.timer key c timer, Option.some.injEq] at held
      exact Or.inr (congrArg Label.timer held)
    · dsimp only at lost
      rw [releaseLock_timeouts, Function.update_of_ne same] at lost
      exact absurd held lost

theorem run_owned {labels : List Label} {s : State} (ran : run step initial labels = some s)
    (own : ∀ first call last s, labels = first ++ .complete call :: last →
      run step initial first = some s → OwnCompletion s call) : Timed s ∧ Owned s := by
  induction labels using List.reverseRecOn generalizing s with
  | nil =>
      cases ran
      refine ⟨initial_timed, ?_⟩
      intro call key running
      cases running
  | append_singleton labels label ih =>
      obtain ⟨before, reached, stepped⟩ := run_snoc.mp ran
      have earlier : ∀ first call last s, labels = first ++ .complete call :: last →
          run step initial first = some s → OwnCompletion s call := by
        intro first call last s split
        exact own first call (last ++ [label]) s (by simp [split])
      obtain ⟨timed, owned⟩ := ih reached earlier
      have now : ∀ call, label = .complete call → OwnCompletion before call := by
        rintro call rfl
        exact own labels call [] before rfl reached
      exact ⟨step_timed timed stepped, step_owned timed owned now stepped⟩

/-- Along a run every lock is released by its holder alone, one callback of a key runs that
was not force-released, and every held lock has a timer. -/
def BelongsToHolder (labels : List Label) : Prop :=
  ∀ first label last s s', labels = first ++ label :: last → run step initial first = some s →
    step s label = some s' → OwnRelease s label s' ∧ Exclusive s' ∧ HasTimer s'

/-- The lock belongs to its holder along a run if and only if no callback completes while
another call holds its key. -/
theorem belongsToHolder_iff (labels : List Label) :
    BelongsToHolder labels ↔
      ∀ first call last s, labels = first ++ .complete call :: last →
        run step initial first = some s → OwnCompletion s call := by
  constructor
  · intro belongs first call last s split ran key other completes held
    have stepped : step s (.complete call) = some (settle s call key) := by
      rw [step, completes]
      rfl
    obtain ⟨own, -, -⟩ := belongs first _ last s _ split ran stepped
    have lost : holder (settle s call key) key ≠ some other := by
      have gone : holder (settle s call key) key = none := holder_released s key
      rw [gone]
      simp
    rcases own key other held lost with same | timer
    · cases same
      rfl
    · cases timer
  · intro own first label last s s' split ran stepped
    have before : ∀ front call rest s, first = front ++ .complete call :: rest →
        run step initial front = some s → OwnCompletion s call := by
      intro front call rest s splitFirst
      exact own front call (rest ++ label :: last) s (by simp [split, splitFirst])
    obtain ⟨timed, owned⟩ := run_owned ran before
    have now : ∀ call, label = .complete call → OwnCompletion s call := by
      rintro call rfl
      exact own first call last s split ran
    exact ⟨ownRelease timed now stepped, exclusive (step_owned timed owned now stepped),
      hasTimer (step_timed timed stepped)⟩

/-- The second call takes the lock after the first one's timer; the first completes. -/
def outlived (key : Text) : List Label :=
  [.call key, .timer 0, .call key, .complete 0, .call key]

/-- A third call runs beside the second, whose timer has not fired. -/
theorem outlived_shares : ¬ ∀ labels, BelongsToHolder labels := by
  intro belongs
  have ran : (run step initial [.call ['k'], .timer 0, .call ['k'], .complete 0]).bind (fun s =>
      (step s (.call ['k'])).map fun s' => (s'.running 1, s'.forced 1, s'.running 2, s'.forced 2)) =
      some (some ['k'], false, some ['k'], false) := by decide +kernel
  obtain ⟨s, before, stepped⟩ := Option.bind_eq_some_iff.mp ran
  obtain ⟨s', stepped, shown⟩ := Option.map_eq_some_iff.mp stepped
  simp only [Prod.mk.injEq] at shown
  obtain ⟨second, unforcedSecond, third, unforcedThird⟩ := shown
  obtain ⟨-, exclusive, -⟩ := belongs (outlived ['k'])
    [.call ['k'], .timer 0, .call ['k'], .complete 0] (.call ['k']) [] s s' rfl before stepped
  have same := exclusive ['k'] 1 2 second unforcedSecond third unforcedThird
  cases same

end PrivateBtc.Backend.LockManager

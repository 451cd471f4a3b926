/- PrivateBtc/Library/Metered
   digest: Computations that may stop with an error and count the loop rounds they begin. -/

import PrivateBtc.Library.Outcome

set_option autoImplicit false
set_option relaxedAutoImplicit false

namespace PrivateBtc.Library.Metered

open Outcome

universe u v

/-- An outcome, and the rounds begun until it was reached. -/
structure Counted (E : Type u) (A : Type v) where
  outcome : Except E A
  rounds : Nat

variable {E : Type u} {A B : Type v}

instance : Monad (Counted E) where
  pure a := ⟨.ok a, 0⟩
  bind x f :=
    match x.outcome with
    | .ok a => ⟨(f a).outcome, x.rounds + (f a).rounds⟩
    | .error e => ⟨.error e, x.rounds⟩

/-- A computation without a loop begins no round. -/
instance : MonadLift (Except E) (Counted E) where
  monadLift x := ⟨x, 0⟩

/-- The head of a loop's body. -/
def beginRound : Counted E PUnit := ⟨.ok ⟨⟩, 1⟩

@[simp] theorem pure_outcome (a : A) : (pure a : Counted E A).outcome = .ok a := rfl

@[simp] theorem pure_rounds (a : A) : (pure a : Counted E A).rounds = 0 := rfl

@[simp] theorem lift_outcome (x : Except E A) : (liftM x : Counted E A).outcome = x := rfl

@[simp] theorem lift_rounds (x : Except E A) : (liftM x : Counted E A).rounds = 0 := rfl

@[simp] theorem bind_outcome (x : Counted E A) (f : A → Counted E B) :
    (x >>= f).outcome = x.outcome >>= fun a => (f a).outcome := by
  rcases x with ⟨_ | a, n⟩ <;> rfl

theorem bind_rounds_ok {x : Counted E A} {a : A} (done : x.outcome = .ok a)
    (f : A → Counted E B) : (x >>= f).rounds = x.rounds + (f a).rounds := by
  rcases x with ⟨_ | b, n⟩
  · cases done
  · cases done
    rfl

theorem bind_rounds_error {x : Counted E A} {e : E} (failed : x.outcome = .error e)
    (f : A → Counted E B) : (x >>= f).rounds = x.rounds := by
  rcases x with ⟨_ | b, n⟩
  · rfl
  · cases failed

section Erasure

/-- Counting changes no outcome, step by step. -/
theorem outcome_bind {x : Counted E A} {y : Except E A} {f : A → Counted E B}
    {g : A → Except E B} (first : x.outcome = y) (rest : ∀ a, (f a).outcome = g a) :
    (x >>= f).outcome = y >>= g := by
  rw [bind_outcome, first]
  exact congrArg (y >>= ·) (funext rest)

theorem outcome_lift_bind {x : Except E A} {f : A → Counted E B} {g : A → Except E B}
    (rest : ∀ a, (f a).outcome = g a) : ((liftM x : Counted E A) >>= f).outcome = x >>= g :=
  outcome_bind (lift_outcome x) rest

theorem outcome_round {f : PUnit → Counted E B} {y : Except E B} (rest : (f ⟨⟩).outcome = y) :
    (beginRound >>= f).outcome = y := rest

end Erasure

section Amortized

variable {left : A → Nat} {left' : B → Nat} {budget debt : Nat}

/-- A completed computation has paid for its rounds, and for `debt` rounds begun
before it, out of the budget and has `left` over; a failed one is at most one round
behind. -/
def Within (left : A → Nat) (budget debt : Nat) (x : Counted E A) : Prop :=
  (∀ a, x.outcome = .ok a → x.rounds + debt + left a ≤ budget) ∧ x.rounds + debt ≤ budget + 1

theorem Within.pure {a : A} (paid : debt + left a ≤ budget) :
    Within (E := E) left budget debt (pure a) := by
  constructor
  · intro b done
    cases done
    simp only [pure_rounds]
    omega
  · simp only [pure_rounds]
    omega

theorem Within.lift {x : Except E A} (behind : debt ≤ budget + 1)
    (paid : ∀ a, x = .ok a → debt + left a ≤ budget) :
    Within left budget debt (liftM x : Counted E A) := by
  constructor
  · intro a done
    have within := paid a done
    simp only [lift_rounds]
    omega
  · simp only [lift_rounds]
    omega

/-- Running one computation after another, the second on what the first leaves over. -/
theorem Within.bind {x : Counted E A} {f : A → Counted E B} (first : Within left budget debt x)
    (rest : ∀ a, x.outcome = .ok a → Within left' (left a) 0 (f a)) :
    Within left' budget debt (x >>= f) := by
  cases reached : x.outcome with
  | error e =>
      have behind := first.2
      constructor
      · intro b done
        rw [bind_outcome, reached] at done
        cases done
      · rw [bind_rounds_error reached]
        exact behind
  | ok a =>
      obtain ⟨complete, behind⟩ := rest a reached
      have paid := first.1 a reached
      rw [Within, bind_rounds_ok reached]
      constructor
      · intro b done
        rw [bind_outcome, reached] at done
        have later := complete b done
        omega
      · omega

/-- A step without a loop keeps the debt. -/
theorem Within.lift_bind {x : Except E A} {f : A → Counted E B} (behind : debt ≤ budget + 1)
    (rest : ∀ a, x = .ok a → Within left' budget debt (f a)) :
    Within left' budget debt ((liftM x : Counted E A) >>= f) := by
  cases reached : x with
  | error e =>
      constructor
      · intro b done
        cases done
      · rw [bind_rounds_error (lift_outcome _)]
        simp only [lift_rounds]
        omega
  | ok a =>
      have complete := rest a reached
      rw [Within, bind_rounds_ok (lift_outcome _), bind_outcome, lift_outcome, lift_rounds,
        Nat.zero_add]
      exact complete

/-- The head of a round runs into debt. -/
theorem Within.round {f : PUnit → Counted E B} (body : Within left' budget (debt + 1) (f ⟨⟩)) :
    Within left' budget debt (beginRound >>= f) := by
  obtain ⟨complete, behind⟩ := body
  have count : (beginRound >>= f).rounds = 1 + (f ⟨⟩).rounds := rfl
  rw [Within, count]
  constructor
  · intro b done
    have later := complete b done
    omega
  · omega

/-- Progress pays the debt. -/
theorem Within.repay {x : Counted E A} {budget' : Nat} (within : Within left budget' 0 x)
    (progress : budget' + debt ≤ budget) : Within left budget debt x := by
  obtain ⟨complete, behind⟩ := within
  constructor
  · intro a done
    have later := complete a done
    omega
  · omega

end Amortized

end PrivateBtc.Library.Metered

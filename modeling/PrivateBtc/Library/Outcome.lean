/- PrivateBtc/Library/Outcome
   digest: Composition rules for computations that return a value or stop with an error. -/

import Mathlib.Tactic.TypeStar

set_option autoImplicit false
set_option relaxedAutoImplicit false

namespace PrivateBtc.Library.Outcome

universe u v w

variable {E : Type u} {A : Type v} {B : Type w}

@[simp] theorem ok_bind {A B : Type v} (a : A) (f : A → Except E B) :
    (Except.ok a >>= f) = f a := rfl

@[simp] theorem error_bind {A B : Type v} (e : E) (f : A → Except E B) :
    (Except.error e >>= f) = Except.error e := rfl

@[simp] theorem pure_eq_ok (a : A) : (pure a : Except E A) = Except.ok a := rfl

theorem bind_eq_ok {A B : Type v} {x : Except E A} {f : A → Except E B} {b : B} :
    (x >>= f) = Except.ok b ↔ ∃ a, x = Except.ok a ∧ f a = Except.ok b := by
  cases x with
  | error e => simp
  | ok a => simp

theorem bind_eq_error {A B : Type v} {x : Except E A} {f : A → Except E B} {e : E} :
    (x >>= f) = Except.error e ↔
      x = Except.error e ∨ ∃ a, x = Except.ok a ∧ f a = Except.error e := by
  cases x with
  | error d => simp
  | ok a => simp

/-- Every error the computation can stop with is an allowed one. -/
def Fails (allowed : E → Prop) (x : Except E A) : Prop := ∀ e, x = Except.error e → allowed e

theorem fails_ok {allowed : E → Prop} (a : A) : Fails allowed (Except.ok a : Except E A) := by
  intro e same
  cases same

theorem fails_error {allowed : E → Prop} {e : E} (known : allowed e) :
    Fails allowed (Except.error e : Except E A) := by
  intro e' same
  cases same
  exact known

theorem Fails.bind {A B : Type v} {allowed : E → Prop} {x : Except E A} {f : A → Except E B}
    (first : Fails allowed x) (rest : ∀ a, x = Except.ok a → Fails allowed (f a)) :
    Fails allowed (x >>= f) := by
  intro e failed
  rcases bind_eq_error.mp failed with failed | ⟨a, done, failed⟩
  · exact first e failed
  · exact rest a done e failed

end PrivateBtc.Library.Outcome

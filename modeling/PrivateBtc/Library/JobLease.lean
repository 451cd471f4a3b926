/- PrivateBtc/Library/JobLease
   digest: Handlers that lease jobs and start effects for them: no job gets two effects. -/

import Mathlib.Data.Set.Insert
import Mathlib.Logic.Function.Basic
import Mathlib.Logic.Relation

set_option autoImplicit false
set_option relaxedAutoImplicit false

namespace PrivateBtc.Library.JobLease

universe u v

/-- An effect that was started for a job; whether it lands is not up to its handler. -/
structure Effect (J : Type u) where
  job : J
  landed : Bool

/-- A leased job with the number of the effect that its handler has started. -/
structure Lease (J : Type u) where
  job : J
  effect : Option Nat

@[ext]
structure State (J : Type u) (H : Type v) where
  done : Set J
  leases : H → Option (Lease J)
  effects : List (Effect J)

variable {J : Type u} {H : Type v}

def land (effects : List (Effect J)) (n : Nat) : List (Effect J) :=
  effects.modify n fun effect => { effect with landed := true }

def Landed (effects : List (Effect J)) (n : Nat) (job : J) : Prop := effects[n]? = some ⟨job, true⟩

/-- A job that no handler leases and that is not done. -/
def State.Free (s : State J H) (job : J) : Prop :=
  job ∉ s.done ∧ ∀ h lease, s.leases h = some lease → lease.job ≠ job

/-- A lease that no landed effect depends on. -/
def Idle (effects : List (Effect J)) (lease : Lease J) : Prop :=
  ∀ n, lease.effect = some n → ¬Landed effects n lease.job

variable [DecidableEq H]

def State.put (s : State J H) (h : H) (lease : Option (Lease J)) : State J H :=
  { s with leases := Function.update s.leases h lease }

/-- The moves. An effect without a lease (`stray`) can start, but nothing here lets it land. -/
inductive Step (s : State J H) : State J H → Prop where
  | take (h : H) (job : J) (unleased : s.leases h = none) (free : s.Free job) :
      Step s (s.put h (some ⟨job, none⟩))
  | start (h : H) (job : J) (leased : s.leases h = some ⟨job, none⟩) :
      Step s { s.put h (some ⟨job, some s.effects.length⟩) with
        effects := s.effects ++ [⟨job, false⟩] }
  | stray (job : J) : Step s { s with effects := s.effects ++ [⟨job, false⟩] }
  | land (h : H) (job : J) (n : Nat) (leased : s.leases h = some ⟨job, some n⟩) :
      Step s { s with effects := land s.effects n }
  | finish (h : H) (job : J) (n : Nat) (leased : s.leases h = some ⟨job, some n⟩) :
      Step s { s.put h none with done := insert job s.done }
  | release (h : H) (lease : Lease J) (leased : s.leases h = some lease)
      (idle : Idle s.effects lease) : Step s (s.put h none)

abbrev Steps : State J H → State J H → Prop := Relation.ReflTransGen Step

/-- Every landed effect is on record or in the hands of its handler, and alone for its job. -/
structure Invariant (s : State J H) : Prop where
  alone : ∀ h h' lease lease', s.leases h = some lease → s.leases h' = some lease' →
    lease.job = lease'.job → h = h'
  undone : ∀ h lease, s.leases h = some lease → lease.job ∉ s.done
  started : ∀ h lease n, s.leases h = some lease → lease.effect = some n →
    ∃ landed, s.effects[n]? = some ⟨lease.job, landed⟩
  recorded : ∀ n job, Landed s.effects n job →
    job ∈ s.done ∨ ∃ h, s.leases h = some ⟨job, some n⟩
  once : ∀ n m job, Landed s.effects n job → Landed s.effects m job → n = m

theorem landed_append {effects : List (Effect J)} {n : Nat} {job new : J} :
    Landed (effects ++ [⟨new, false⟩]) n job ↔ Landed effects n job := by
  unfold Landed
  rw [List.getElem?_append]
  split_ifs with below
  · rfl
  · rw [List.getElem?_eq_none (by omega : effects.length ≤ n)]
    rcases n - effects.length with _ | k <;> simp

theorem landed_land {effects : List (Effect J)} {n m : Nat} {job : J} :
    Landed (land effects n) m job ↔
      Landed effects m job ∨ m = n ∧ ∃ landed, effects[n]? = some ⟨job, landed⟩ := by
  unfold Landed land
  rw [List.getElem?_modify]
  by_cases same : n = m
  · subst same
    cases effects[n]? with
    | none => simp
    | some effect =>
        rcases effect with ⟨owner, landed⟩
        cases landed <;> simp
  · simp [same, Ne.symm same]

theorem land_job {effects : List (Effect J)} {n m : Nat} {job : J} {landed : Bool}
    (found : effects[m]? = some ⟨job, landed⟩) :
    ∃ landed', (land effects n)[m]? = some ⟨job, landed'⟩ := by
  unfold land
  rw [List.getElem?_modify, found]
  by_cases same : n = m <;> simp [same]

section Put

variable {s : State J H} {h h' : H} {lease lease' : Lease J}

theorem put_none (found : (s.put h none).leases h' = some lease') :
    h' ≠ h ∧ s.leases h' = some lease' := by
  by_cases same : h' = h
  · subst same
    simp [State.put] at found
  · exact ⟨same, by simpa [State.put, same] using found⟩

theorem put_some (found : (s.put h (some lease)).leases h' = some lease') :
    h' = h ∧ lease' = lease ∨ h' ≠ h ∧ s.leases h' = some lease' := by
  by_cases same : h' = h
  · subst same
    left
    simpa [State.put, eq_comm] using found
  · right
    exact ⟨same, by simpa [State.put, same] using found⟩

end Put

variable {s s' : State J H}

theorem put_same {h : H} : s.put h (s.leases h) = s := by
  rw [State.put, Function.update_eq_self]

theorem State.Free.release {job : J} (free : s.Free job) (h : H) : (s.put h none).Free job :=
  ⟨free.1, fun _ lease found => free.2 _ lease (put_none found).2⟩

/-- A free job is another than the one that is finished, so it stays free. -/
theorem State.Free.finish {h : H} {job : J} {lease : Lease J} (free : s.Free job)
    (leased : s.leases h = some lease) :
    State.Free { s.put h none with done := insert lease.job s.done } job := by
  refine ⟨?_, fun _ lease found => free.2 _ lease (put_none found).2⟩
  rintro (same | done)
  · exact free.2 h lease leased same.symm
  · exact free.1 done

/-- Taking a free job. -/
theorem Invariant.take (inv : Invariant s) {h : H} {job : J} (unleased : s.leases h = none)
    (free : s.Free job) : Invariant (s.put h (some ⟨job, none⟩)) := by
  constructor
  · intro h₁ h₂ l₁ l₂ found₁ found₂ same
    rcases put_some found₁ with ⟨rfl, rfl⟩ | ⟨_, old₁⟩ <;>
      rcases put_some found₂ with ⟨rfl, rfl⟩ | ⟨_, old₂⟩
    · rfl
    · exact absurd same.symm (free.2 h₂ l₂ old₂)
    · exact absurd same (free.2 h₁ l₁ old₁)
    · exact inv.alone h₁ h₂ l₁ l₂ old₁ old₂ same
  · intro h' l found
    rcases put_some found with ⟨_, rfl⟩ | ⟨_, old⟩
    · exact free.1
    · exact inv.undone h' l old
  · intro h' l n found effect
    rcases put_some found with ⟨_, rfl⟩ | ⟨_, old⟩
    · cases effect
    · exact inv.started h' l n old effect
  · intro n j landed
    rcases inv.recorded n j landed with done | ⟨h', leased⟩
    · exact Or.inl done
    · right
      have apart : h' ≠ h := by
        rintro rfl
        rw [unleased] at leased
        cases leased
      exact ⟨h', by simpa [State.put, apart] using leased⟩
  · exact inv.once

/-- Starting the effect of a lease. -/
theorem Invariant.start (inv : Invariant s) {h : H} {job : J}
    (leased : s.leases h = some ⟨job, none⟩) :
    Invariant { s.put h (some ⟨job, some s.effects.length⟩) with
      effects := s.effects ++ [⟨job, false⟩] } := by
  constructor
  · intro h₁ h₂ l₁ l₂ found₁ found₂ same
    rcases put_some found₁ with ⟨rfl, rfl⟩ | ⟨_, old₁⟩ <;>
      rcases put_some found₂ with ⟨rfl, rfl⟩ | ⟨_, old₂⟩
    · rfl
    · exact inv.alone h₁ h₂ _ l₂ leased old₂ same
    · exact inv.alone h₁ h₂ l₁ _ old₁ leased same
    · exact inv.alone h₁ h₂ l₁ l₂ old₁ old₂ same
  · intro h' l found
    rcases put_some found with ⟨_, rfl⟩ | ⟨_, old⟩
    · show job ∉ s.done
      exact inv.undone h ⟨job, none⟩ leased
    · exact inv.undone h' l old
  · intro h' l n found effect
    rcases put_some found with ⟨_, rfl⟩ | ⟨_, old⟩
    · cases effect
      exact ⟨false, by simp⟩
    · obtain ⟨landed, there⟩ := inv.started h' l n old effect
      refine ⟨landed, ?_⟩
      have below : n < s.effects.length := (List.getElem?_eq_some_iff.mp there).1
      simpa [List.getElem?_append_left below] using there
  · intro n j landed
    rcases inv.recorded n j (landed_append.mp landed) with done | ⟨h', old⟩
    · exact Or.inl done
    · right
      have apart : h' ≠ h := by
        rintro rfl
        rw [leased] at old
        cases old
      exact ⟨h', by simpa [State.put, apart] using old⟩
  · intro n m j first second
    exact inv.once n m j (landed_append.mp first) (landed_append.mp second)

omit [DecidableEq H] in
theorem Invariant.stray (inv : Invariant s) (job : J) :
    Invariant { s with effects := s.effects ++ [⟨job, false⟩] } := by
  refine ⟨inv.alone, inv.undone, ?_, ?_, ?_⟩
  · intro h l n found effect
    obtain ⟨landed, there⟩ := inv.started h l n found effect
    have below : n < s.effects.length := (List.getElem?_eq_some_iff.mp there).1
    exact ⟨landed, by simpa [List.getElem?_append_left below] using there⟩
  · intro n j landed
    exact inv.recorded n j (landed_append.mp landed)
  · intro n m j first second
    exact inv.once n m j (landed_append.mp first) (landed_append.mp second)

omit [DecidableEq H] in
/-- The effect of a lease lands: no other effect of its job can have landed before. -/
theorem Invariant.land (inv : Invariant s) {h : H} {job : J} {n : Nat}
    (leased : s.leases h = some ⟨job, some n⟩) :
    Invariant { s with effects := land s.effects n } := by
  have owner : ∀ j landed, s.effects[n]? = some ⟨j, landed⟩ → j = job := by
    intro j landed there
    obtain ⟨_, started⟩ := inv.started h _ n leased rfl
    rw [there] at started
    cases started
    rfl
  have sole : ∀ m, Landed s.effects m job → m = n := by
    intro m landed
    rcases inv.recorded m job landed with done | ⟨h', leased'⟩
    · exact absurd done (inv.undone h _ leased)
    · have same := inv.alone h' h _ _ leased' leased rfl
      subst same
      rw [leased] at leased'
      cases leased'
      rfl
  refine ⟨inv.alone, inv.undone, ?_, ?_, ?_⟩
  · intro h' l m found effect
    obtain ⟨landed, there⟩ := inv.started h' l m found effect
    exact land_job there
  · intro m j landed
    rcases landed_land.mp landed with old | ⟨rfl, _, there⟩
    · exact inv.recorded m j old
    · right
      rw [owner j _ there]
      exact ⟨h, leased⟩
  · intro m k j first second
    rcases landed_land.mp first with old | ⟨rfl, _, there⟩ <;>
      rcases landed_land.mp second with old' | ⟨rfl, _, there'⟩
    · exact inv.once m k j old old'
    · exact sole m (owner j _ there' ▸ old)
    · exact (sole k (owner j _ there ▸ old')).symm
    · rfl

theorem Invariant.finish (inv : Invariant s) {h : H} {job : J} {n : Nat}
    (leased : s.leases h = some ⟨job, some n⟩) :
    Invariant { s.put h none with done := insert job s.done } := by
  refine ⟨?_, ?_, ?_, ?_, inv.once⟩
  · intro h₁ h₂ l₁ l₂ found₁ found₂ same
    exact inv.alone h₁ h₂ l₁ l₂ (put_none found₁).2 (put_none found₂).2 same
  · intro h' l found
    obtain ⟨apart, old⟩ := put_none found
    rintro (same | done)
    · exact apart (inv.alone h' h l _ old leased same)
    · exact inv.undone h' l old done
  · intro h' l m found effect
    exact inv.started h' l m (put_none found).2 effect
  · intro m j landed
    rcases inv.recorded m j landed with done | ⟨h', old⟩
    · exact Or.inl (Or.inr done)
    · by_cases same : h' = h
      · subst same
        rw [leased] at old
        cases old
        exact Or.inl (Or.inl rfl)
      · exact Or.inr ⟨h', by simpa [State.put, same] using old⟩

theorem Invariant.release (inv : Invariant s) {h : H} {lease : Lease J}
    (leased : s.leases h = some lease) (idle : Idle s.effects lease) :
    Invariant (s.put h none) := by
  refine ⟨?_, ?_, ?_, ?_, inv.once⟩
  · intro h₁ h₂ l₁ l₂ found₁ found₂ same
    exact inv.alone h₁ h₂ l₁ l₂ (put_none found₁).2 (put_none found₂).2 same
  · intro h' l found
    exact inv.undone h' l (put_none found).2
  · intro h' l m found effect
    exact inv.started h' l m (put_none found).2 effect
  · intro m j landed
    rcases inv.recorded m j landed with done | ⟨h', old⟩
    · exact Or.inl done
    · right
      have apart : h' ≠ h := by
        rintro rfl
        rw [leased] at old
        cases old
        exact idle m rfl landed
      exact ⟨h', by simpa [State.put, apart] using old⟩

theorem Step.invariant (step : Step s s') (inv : Invariant s) : Invariant s' := by
  cases step with
  | take h job unleased free => exact inv.take unleased free
  | start h job leased => exact inv.start leased
  | stray job => exact inv.stray job
  | land h job n leased => exact inv.land leased
  | finish h job n leased => exact inv.finish leased
  | release h lease leased idle => exact inv.release leased idle

theorem Steps.invariant (steps : Steps s s') (inv : Invariant s) : Invariant s' := by
  induction steps with
  | refl => exact inv
  | tail _ step ih => exact step.invariant ih

end PrivateBtc.Library.JobLease

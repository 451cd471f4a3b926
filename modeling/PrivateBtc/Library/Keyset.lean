/- PrivateBtc/Library/Keyset
   digest: Pages cut by the last key are complete exactly when no key straddles two pages. -/

import Mathlib.Data.List.Perm.Subperm
import Mathlib.Data.List.Sort
import Mathlib.Tactic.SplitIfs

set_option autoImplicit false
set_option relaxedAutoImplicit false

namespace PrivateBtc.Library.Keyset

variable {A K : Type}

/-- A key stands at the end of one page and at the start of the next. -/
def Straddles (limit : Nat) (keys : List K) : Prop :=
  ∃ k c, 0 < k ∧ keys[k * limit - 1]? = some c ∧ keys[k * limit]? = some c

theorem straddles_drop {limit : Nat} {keys : List K} (positive : 0 < limit) :
    Straddles limit keys ↔
      (∃ c, keys[limit - 1]? = some c ∧ keys[limit]? = some c) ∨
        Straddles limit (keys.drop limit) := by
  constructor
  · rintro ⟨k, c, started, last, first⟩
    by_cases one : k = 1
    · subst one
      rw [Nat.one_mul] at last first
      exact Or.inl ⟨c, last, first⟩
    · have grown : limit ≤ (k - 1) * limit := Nat.le_mul_of_pos_left limit (by omega)
      have split : k * limit = limit + (k - 1) * limit := by
        rw [Nat.sub_mul, Nat.one_mul, Nat.add_sub_cancel' (Nat.le_mul_of_pos_left limit started)]
      refine Or.inr ⟨k - 1, c, by omega, ?_, ?_⟩
      · rw [List.getElem?_drop, ← last]
        congr 1
        omega
      · rw [List.getElem?_drop, ← first]
        congr 1
        omega
  · rintro (⟨c, last, first⟩ | ⟨k, c, started, last, first⟩)
    · exact ⟨1, c, by omega, by rwa [Nat.one_mul], by rwa [Nat.one_mul]⟩
    · have grown : limit ≤ k * limit := Nat.le_mul_of_pos_left limit started
      rw [List.getElem?_drop] at last first
      refine ⟨k + 1, c, by omega, ?_, ?_⟩
      · rw [← last]
        congr 1
        rw [Nat.succ_mul]
        omega
      · rw [← first]
        congr 1
        rw [Nat.succ_mul]
        omega

theorem straddles_short {limit : Nat} {keys : List K} (short : keys.length ≤ limit) :
    ¬ Straddles limit keys := by
  rintro ⟨k, c, started, -, first⟩
  have grown : limit ≤ k * limit := Nat.le_mul_of_pos_left limit started
  rw [List.getElem?_eq_none (by omega)] at first
  cases first

/-- A full page shares its last key with what follows it, or a later page does. -/
theorem straddles_page {limit : Nat} {c : K} {front rest : List K}
    (width : front.length + 1 = limit) :
    Straddles limit (front ++ c :: rest) ↔ rest.head? = some c ∨ Straddles limit rest := by
  have gathered : front ++ c :: rest = (front ++ [c]) ++ rest := by simp
  have counted : (front ++ [c]).length = limit := by
    rw [List.length_append, List.length_singleton, width]
  have atLast : (front ++ c :: rest)[limit - 1]? = some c := by
    rw [← width, Nat.add_sub_cancel, List.getElem?_append_right le_rfl, Nat.sub_self]
    rfl
  have atFirst : (front ++ c :: rest)[limit]? = rest.head? := by
    rw [gathered, List.getElem?_append_right counted.le, counted, Nat.sub_self,
      List.head?_eq_getElem?]
  have dropped : (front ++ c :: rest).drop limit = rest := by
    rw [gathered]
    exact List.drop_left' counted
  rw [straddles_drop (by omega), atLast, atFirst, dropped]
  constructor
  · rintro (⟨d, same, first⟩ | later)
    · cases same
      exact Or.inl first
    · exact Or.inr later
  · rintro (first | later)
    · exact Or.inl ⟨c, rfl, first⟩
    · exact Or.inr later

variable [LinearOrder K] {key : A → K}

/-- A query orders the rows by descending key, those of one key as it likes. -/
structure Engine (key : A → K) where
  arrange : Option K → List A → List A
  perm : ∀ cursor rows, (arrange cursor rows).Perm rows
  descending : ∀ cursor rows, (arrange cursor rows).Pairwise fun a b => key b ≤ key a

def below (key : A → K) (cursor : Option K) (rows : List A) : List A :=
  rows.filter fun a => cursor.all fun c => key a < c

def Engine.page (engine : Engine key) (limit : Nat) (rows : List A) (cursor : Option K) : List A :=
  (engine.arrange cursor (below key cursor rows)).take limit

def next (key : A → K) (limit : Nat) (page : List A) : Option K :=
  if page.length = limit then page.getLast?.map key else none

/-- The pages from a cursor on, one after the other; `none` when the steps run out. -/
def Engine.follow (engine : Engine key) (limit : Nat) (rows : List A) :
    Nat → Option K → Option (List A)
  | 0, _ => none
  | steps + 1, cursor =>
      let page := engine.page limit rows cursor
      match next key limit page with
      | some c => (engine.follow limit rows steps (some c)).map (page ++ ·)
      | none => some page

def ranking (keys : List K) : List K := keys.insertionSort (· ≥ ·)

theorem ranking_eq {keys ranked : List K} (same : ranked.Perm keys)
    (descending : ranked.Pairwise (· ≥ ·)) : ranking keys = ranked := by
  have antisymmetric : ∀ a b, a ∈ keys.insertionSort (· ≥ ·) → b ∈ ranked → a ≥ b → b ≥ a →
      a = b := by
    intro a b _ _ above under
    exact le_antisymm under above
  exact List.Perm.eq_of_pairwise antisymmetric (List.pairwise_insertionSort _ keys) descending
    ((List.perm_insertionSort _ keys).trans same.symm)

theorem below_below {rows : List A} {cursor : Option K} {a : A}
    (member : a ∈ below key cursor rows) :
    below key (some (key a)) rows =
      (below key cursor rows).filter fun b => key b < key a := by
  have inside := (List.mem_filter.mp member).2
  rw [below, below, List.filter_filter]
  apply List.filter_congr
  intro b _
  cases cursor with
  | none => simp
  | some c =>
      rw [Option.all_some, decide_eq_true_eq] at inside
      have within : key b < key a → key b < c := fun less => less.trans inside
      by_cases less : key b < key a
      · simp [less, within less]
      · simp [less]

/-- What the pages from a cursor on are to be. -/
structure Lists (limit : Nat) (key : A → K) (wanted listed : List A) : Prop where
  descending : listed.Pairwise fun a b => key b ≤ key a
  once : List.Subperm listed wanted
  complete : listed.Perm wanted ↔ ¬ Straddles limit (ranking (wanted.map key))

theorem Engine.ranked (engine : Engine key) (cursor : Option K) (rows : List A) :
    ranking (rows.map key) = (engine.arrange cursor rows).map key := by
  apply ranking_eq
  · exact (engine.perm cursor rows).map key
  · exact List.pairwise_map.mpr (engine.descending cursor rows)

theorem ranking_sorted {ranked : List A} (sorted : ranked.Pairwise fun a b => key b ≤ key a) :
    ranking (ranked.map key) = ranked.map key :=
  ranking_eq (List.Perm.refl _) (List.pairwise_map.mpr sorted)

theorem Lists.perm {limit : Nat} {wanted wanted' listed : List A}
    (lists : Lists limit key wanted listed) (same : wanted.Perm wanted') :
    Lists limit key wanted' listed := by
  have ranks : ranking (wanted'.map key) = ranking (wanted.map key) := by
    apply ranking_eq
    · exact (List.perm_insertionSort _ _).trans (same.map key)
    · exact List.pairwise_insertionSort _ _
  refine ⟨lists.descending, lists.once.trans same.subperm, ?_⟩
  rw [ranks, ← lists.complete]
  exact ⟨fun told => told.trans same.symm, fun told => told.trans same⟩

theorem split_at {ranked : List A} {n : Nat} {last : A} (ends : ranked[n]? = some last) :
    ∃ front rest, ranked = front ++ last :: rest ∧ front.length = n := by
  obtain ⟨inside, rfl⟩ := List.getElem?_eq_some_iff.mp ends
  refine ⟨ranked.take n, ranked.drop (n + 1), ?_, ?_⟩
  · rw [← List.drop_eq_getElem_cons inside, List.take_append_drop]
  · rw [List.length_take]
    omega

/-- Where the next row has the last key again, asking for smaller keys loses it. -/
theorem length_filter_of_tie {last : A} {rest : List A}
    (tie : (rest.map key).head? = some (key last)) :
    (rest.filter fun b => key b < key last).length < rest.length := by
  cases rest with
  | nil => cases tie
  | cons first others =>
      rw [List.map_cons, List.head?_cons, Option.some.injEq] at tie
      rw [List.filter_cons_of_neg (by simp [tie]), List.length_cons]
      exact Nat.lt_succ_of_le (List.length_filter_le _ _)

theorem filter_of_apart {last : A} {rest : List A}
    (sorted : (last :: rest).Pairwise fun a b => key b ≤ key a)
    (apart : (rest.map key).head? ≠ some (key last)) :
    rest.filter (fun b => key b < key last) = rest := by
  obtain ⟨under, restSorted⟩ := List.pairwise_cons.mp sorted
  rw [List.filter_eq_self]
  intro b member
  cases rest with
  | nil => cases member
  | cons first others =>
      rw [List.map_cons, List.head?_cons, ne_eq, Option.some.injEq] at apart
      have less := lt_of_le_of_ne (under first List.mem_cons_self) apart
      rw [decide_eq_true_eq]
      rcases List.mem_cons.mp member with rfl | behind
      · exact less
      · exact ((List.pairwise_cons.mp restSorted).1 b behind).trans_lt less

/-- The rows after a full page, against those that the page leaves. -/
theorem lists_page {limit : Nat} (positive : 0 < limit) {ranked listed : List A} {last : A}
    (sorted : ranked.Pairwise fun a b => key b ≤ key a) (ends : ranked[limit - 1]? = some last)
    (rest : Lists limit key (ranked.filter fun b => key b < key last) listed) :
    Lists limit key ranked (ranked.take limit ++ listed) := by
  have ranks := ranking_sorted sorted
  obtain ⟨front, left, rfl, width⟩ := split_at ends
  obtain ⟨-, lastSorted, crossed⟩ := List.pairwise_append.mp sorted
  have gathered : front ++ last :: left = (front ++ [last]) ++ left := by simp
  have page : (front ++ last :: left).take limit = front ++ [last] := by
    rw [gathered]
    apply List.take_left'
    rw [List.length_append, List.length_singleton]
    omega
  have above : ∀ a ∈ front ++ [last], key last ≤ key a := by
    intro a member
    rcases List.mem_append.mp member with early | only
    · exact crossed a early last List.mem_cons_self
    · rw [List.mem_singleton.mp only]
  have kept : (front ++ last :: left).filter (fun b => key b < key last) =
      left.filter fun b => key b < key last := by
    have none : (front ++ [last]).filter (fun b => key b < key last) = [] := by
      rw [List.filter_eq_nil_iff]
      intro a member
      simp [above a member]
    rw [gathered, List.filter_append, none, List.nil_append]
  rw [kept] at rest
  have later : ∀ b ∈ listed, key b < key last := by
    intro b member
    have inside := List.mem_filter.mp (rest.once.subset member)
    exact of_decide_eq_true inside.2
  rw [page]
  refine ⟨?_, ?_, ?_⟩
  · apply List.pairwise_append.mpr
    refine ⟨?_, rest.descending, ?_⟩
    · rw [gathered] at sorted
      exact (List.pairwise_append.mp sorted).1
    · intro a early b late
      exact (later b late).le.trans (above a early)
  · rw [gathered, List.subperm_append_left]
    exact rest.once.trans List.filter_sublist.subperm
  · rw [ranks, List.map_append, List.map_cons,
      straddles_page (by rw [List.length_map, width]; omega), gathered, List.perm_append_left_iff]
    by_cases tie : (left.map key).head? = some (key last)
    · have lost : listed.length < left.length :=
        rest.once.length_le.trans_lt (length_filter_of_tie tie)
      constructor
      · intro whole
        exact absurd whole.length_eq lost.ne
      · intro apart
        exact absurd (Or.inl tie) apart
    · have leftSorted := (List.pairwise_cons.mp lastSorted).2
      rw [filter_of_apart lastSorted tie] at rest
      rw [rest.complete, ranking_sorted leftSorted, or_iff_right tie]

/-- Following the cursor ends, its rows descend and none comes twice; all rows come
unless a key straddles two pages. -/
theorem Engine.follow_lists (engine : Engine key) {limit : Nat} (positive : 0 < limit)
    (rows : List A) (steps : Nat) (cursor : Option K)
    (enough : (below key cursor rows).length < steps) :
    ∃ listed, engine.follow limit rows steps cursor = some listed ∧
      Lists limit key (below key cursor rows) listed := by
  induction steps generalizing cursor with
  | zero => omega
  | succ steps ih =>
      have same := engine.perm cursor (below key cursor rows)
      have sorted := engine.descending cursor (below key cursor rows)
      have size := same.length_eq
      rw [Engine.follow]
      by_cases full : limit ≤ (engine.arrange cursor (below key cursor rows)).length
      · obtain ⟨last, ends⟩ : ∃ last,
            (engine.arrange cursor (below key cursor rows))[limit - 1]? = some last :=
          ⟨_, List.getElem?_eq_getElem (by omega)⟩
        have member : last ∈ below key cursor rows :=
          same.mem_iff.mp (List.mem_of_getElem? ends)
        have onward : next key limit (engine.page limit rows cursor) = some (key last) := by
          have width : (engine.page limit rows cursor).length = limit := by
            rw [Engine.page, List.length_take, Nat.min_eq_left full]
          rw [next, if_pos width, List.getLast?_eq_getElem?, width, Engine.page,
            List.getElem?_take_of_lt (by omega), ends]
          rfl
        have fewer : (below key (some (key last)) rows).length < steps := by
          rw [below_below member]
          have strict : ((below key cursor rows).filter fun b => key b < key last).length <
              (below key cursor rows).length := by
            apply List.length_filter_lt_length_iff_exists.mpr
            exact ⟨last, member, by simp⟩
          omega
        obtain ⟨listed, followed, lists⟩ := ih (some (key last)) fewer
        rw [below_below member] at lists
        have page := lists_page positive sorted ends (lists.perm (same.symm.filter _))
        rw [onward]
        dsimp only
        rw [followed]
        exact ⟨_, rfl, page.perm same⟩
      · have short : (engine.page limit rows cursor).length ≠ limit := by
          rw [Engine.page, List.length_take]
          omega
        have whole : engine.page limit rows cursor =
            engine.arrange cursor (below key cursor rows) := by
          rw [Engine.page, List.take_of_length_le (by omega)]
        rw [next, if_neg short, whole]
        refine ⟨_, rfl, sorted, same.subperm, ?_⟩
        rw [engine.ranked cursor]
        exact iff_of_true same (straddles_short (by rw [List.length_map]; omega))

end PrivateBtc.Library.Keyset

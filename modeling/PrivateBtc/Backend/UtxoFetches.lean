/- PrivateBtc/Backend/UtxoFetches
   digest: The requests behind one answer for the UTXOs, and how many they are. -/

import PrivateBtc.Backend.Payments

set_option autoImplicit false
set_option relaxedAutoImplicit false

namespace PrivateBtc.Backend.UtxoFetches

open Library.JsText
open Database Payments

/-- What is asked next: the list, the fee estimates, or the transactions of the UTXOs in `rest`. -/
inductive Fetch where
  | utxos
  | feeEstimates (allUtxos : List Utxo)
  | transactions (fetched rest others : List Utxo) (feeRate : ℚ)

/-- The explorer lists UTXOs without their scripts; a transaction has one for each output. -/
inductive FetchReply where
  | utxos (reply : Except String (List Utxo))
  | feeEstimates (rate : Option ℚ)
  | transaction (reply : Except String (List Text))

/-- What the payout is told in the end. -/
abbrev Fetched := Except String (List Utxo × ℚ)

def askTransactions (fetched others : List Utxo) (feeRate : ℚ) : List Utxo → Fetch ⊕ Fetched
  | [] => .inr (.ok (fetched ++ others, feeRate))
  | rest => .inl (.transactions fetched rest others feeRate)

variable (cfg : Config) (auth : WithdrawalAuthorization)

/-- `fetchCovenantUtxos` asks for every listed transaction, `sendBitcoinToAddress` for those of
the UTXOs it has selected. -/
def resumeFetch : Fetch → FetchReply → Option (Fetch ⊕ Fetched)
  | .utxos, .utxos (.error message) => some (.inr (.error message))
  | .utxos, .utxos (.ok allUtxos) =>
      if cfg.useCovenants then some (askTransactions [] [] 1 allUtxos)
      else if allUtxos.isEmpty then some (.inr (.ok ([], 1)))
      else some (.inl (.feeEstimates allUtxos))
  | .feeEstimates allUtxos, .feeEstimates rate =>
      let feeRate := rate.getD 1
      let sorted := largestFirst allUtxos
      match selectUtxos (estimatedFee feeRate) auth.amountSats [] sorted with
      | some selected =>
          some (askTransactions [] (sorted.drop selected.length) feeRate selected)
      | none => some (.inr (.ok (sorted, feeRate)))
  | .transactions fetched (utxo :: rest) others feeRate, .transaction (.ok scripts) =>
      match scripts[utxo.vout]? with
      | some scriptPubKey =>
          some (askTransactions (fetched ++ [{ utxo with scriptPubKey }]) others feeRate rest)
      | none => some (.inr (.error "Cannot read properties of undefined (reading 'scriptpubkey')"))
  | .transactions _ (_ :: _) _ _, .transaction (.error message) => some (.inr (.error message))
  | _, _ => none

/-- The replies lead from `fetch` to what the payout is told. -/
inductive Fetches : Fetch → List FetchReply → Fetched → Prop where
  | ends {fetch : Fetch} {reply : FetchReply} {told : Fetched}
      (went : resumeFetch cfg auth fetch reply = some (.inr told)) : Fetches fetch [reply] told
  | asks {fetch later : Fetch} {reply : FetchReply} {replies : List FetchReply} {told : Fetched}
      (went : resumeFetch cfg auth fetch reply = some (.inl later))
      (rest : Fetches later replies told) : Fetches fetch (reply :: replies) told

/-- No list among the replies has more than `n` UTXOs. -/
def Short (n : Nat) (replies : List FetchReply) : Prop :=
  ∀ allUtxos, .utxos (.ok allUtxos) ∈ replies → allUtxos.length ≤ n

/-- The requests still to be answered, if the list has `n` UTXOs at most. -/
def toAsk (n : Nat) : Fetch → Nat
  | .utxos => n + 2
  | .feeEstimates allUtxos => allUtxos.length + 1
  | .transactions _ rest _ _ => rest.length

theorem selectUtxos_prefix {fee : Nat → Int} {amount : Int} {utxos selected chosen : List Utxo}
    (found : selectUtxos fee amount selected utxos = some chosen) :
    ∃ taken rest, chosen = selected ++ taken ∧ utxos = taken ++ rest := by
  induction utxos generalizing selected with
  | nil => cases found
  | cons utxo utxos ih =>
      rw [selectUtxos] at found
      split_ifs at found
      · cases found
        exact ⟨[utxo], utxos, rfl, rfl⟩
      · obtain ⟨taken, rest, rfl, rfl⟩ := ih found
        exact ⟨utxo :: taken, rest, by simp, rfl⟩

theorem askTransactions_later {fetched others rest : List Utxo} {feeRate : ℚ} {later : Fetch}
    (asks : askTransactions fetched others feeRate rest = .inl later) :
    later = .transactions fetched rest others feeRate := by
  cases rest with
  | nil => cases asks
  | cons utxo rest =>
      cases asks
      rfl

variable {cfg auth} {fetch later : Fetch} {reply : FetchReply} {replies : List FetchReply}
  {told : Fetched} {n : Nat}

theorem resumeFetch_lowers (went : resumeFetch cfg auth fetch reply = some (.inl later))
    (short : Short n [reply]) : toAsk n later < toAsk n fetch := by
  unfold resumeFetch at went
  split at went
  · cases went
  · next allUtxos =>
    have bound := short allUtxos (List.mem_singleton_self _)
    split_ifs at went with covenants empty
    · rw [Option.some.injEq] at went
      rw [askTransactions_later went, toAsk, toAsk]
      omega
    · simp at went
    · cases went
      rw [toAsk, toAsk]
      omega
  · next allUtxos rate =>
    dsimp only at went
    split at went
    · next selected found =>
      rw [Option.some.injEq] at went
      obtain ⟨taken, rest, chosen, whole⟩ := selectUtxos_prefix found
      have lengths := congrArg List.length whole
      rw [length_largestFirst, List.length_append] at lengths
      rw [askTransactions_later went, chosen, List.nil_append, toAsk, toAsk]
      omega
    · cases went
  · next utxo rest others feeRate scripts =>
    split at went
    · rw [Option.some.injEq] at went
      rw [askTransactions_later went, toAsk, toAsk, List.length_cons]
      exact Nat.lt_succ_self _
    · cases went
  · cases went
  · cases went

theorem toAsk_pos {next : Fetch ⊕ Fetched} (went : resumeFetch cfg auth fetch reply = some next) :
    0 < toAsk n fetch := by
  cases fetch with
  | utxos => exact Nat.succ_pos _
  | feeEstimates allUtxos => exact Nat.succ_pos _
  | transactions fetched rest others feeRate =>
      cases rest with
      | nil => cases reply <;> cases went
      | cons utxo rest => exact Nat.succ_pos _

theorem Fetches.length_le (fetches : Fetches cfg auth fetch replies told)
    (short : Short n replies) : replies.length ≤ toAsk n fetch := by
  induction fetches with
  | ends went => exact toAsk_pos went
  | @asks fetch later reply replies told went rest ih =>
      have first : Short n [reply] := fun allUtxos member =>
        short allUtxos (List.mem_cons.mpr (Or.inl (List.mem_singleton.mp member)))
      have bound := ih fun allUtxos member => short allUtxos (List.mem_cons_of_mem _ member)
      exact bound.trans_lt (resumeFetch_lowers went first)

/-- A list of `n` UTXOs takes `n + 2` requests at most. -/
theorem Fetches.requests_le (fetches : Fetches cfg auth .utxos replies told)
    (short : Short n replies) : replies.length ≤ n + 2 := fetches.length_le short

section Delivery

def unscripted (utxo : Utxo) : Utxo := { utxo with scriptPubKey := [] }

/-- The UTXOs that a fetch has with it. -/
def carried : Fetch ⊕ Fetched → List Utxo
  | .inl .utxos => []
  | .inl (.feeEstimates allUtxos) => allUtxos
  | .inl (.transactions fetched rest others _) => fetched ++ rest ++ others
  | .inr (.ok (utxos, _)) => utxos
  | .inr (.error _) => []

/-- The same UTXOs, whatever their order and their scripts. -/
def Alike (left right : List Utxo) : Prop := (left.map unscripted).Perm (right.map unscripted)

theorem askTransactions_carried (fetched others rest : List Utxo) (feeRate : ℚ) :
    carried (askTransactions fetched others feeRate rest) = fetched ++ rest ++ others := by
  cases rest with
  | nil => simp [askTransactions, carried]
  | cons utxo rest => rfl

theorem resumeFetch_carried {next : Fetch ⊕ Fetched} (begun : fetch ≠ .utxos)
    (went : resumeFetch cfg auth fetch reply = some next)
    (fine : ∀ message, next ≠ .inr (.error message)) :
    Alike (carried next) (carried (.inl fetch)) := by
  unfold resumeFetch at went
  split at went
  · exact absurd rfl begun
  · exact absurd rfl begun
  · next allUtxos rate =>
    have sorted : Alike (largestFirst allUtxos) allUtxos :=
      (List.perm_insertionSort _ allUtxos).map unscripted
    dsimp only at went
    split at went
    · next selected found =>
      obtain ⟨taken, rest, rfl, whole⟩ := selectUtxos_prefix found
      cases went
      rw [askTransactions_carried, whole]
      simp only [List.nil_append, List.drop_left]
      rw [← whole]
      exact sorted
    · cases went
      exact sorted
  · next fetched utxo rest others feeRate scripts =>
    split at went
    · cases went
      rw [askTransactions_carried, Alike, carried]
      simp [unscripted]
    · cases went
      exact absurd rfl (fine _)
  · cases went
    exact absurd rfl (fine _)
  · cases went

theorem resumeFetch_begun (went : resumeFetch cfg auth fetch reply = some (.inl later)) :
    later ≠ .utxos := by
  rintro rfl
  unfold resumeFetch at went
  split at went
  · cases went
  · split_ifs at went
    · rw [Option.some.injEq] at went
      cases askTransactions_later went
    · simp at went
    · cases went
  · dsimp only at went
    split at went
    · rw [Option.some.injEq] at went
      cases askTransactions_later went
    · cases went
  · split at went
    · rw [Option.some.injEq] at went
      cases askTransactions_later went
    · cases went
  · cases went
  · cases went

theorem Fetches.carries (fetches : Fetches cfg auth fetch replies told) (begun : fetch ≠ .utxos)
    {utxos : List Utxo} {feeRate : ℚ} (fine : told = .ok (utxos, feeRate)) :
    Alike utxos (carried (.inl fetch)) := by
  induction fetches with
  | ends went =>
      subst fine
      exact resumeFetch_carried begun went (by simp)
  | asks went rest ih =>
      exact (ih (resumeFetch_begun went) fine).trans (resumeFetch_carried begun went (by simp))

theorem resumeFetch_listed {next : Fetch ⊕ Fetched}
    (went : resumeFetch cfg auth .utxos reply = some next)
    (fine : ∀ message, next ≠ .inr (.error message)) :
    ∃ allUtxos, reply = .utxos (.ok allUtxos) ∧ Alike (carried next) allUtxos := by
  cases reply with
  | utxos answer =>
      cases answer with
      | error message =>
          cases went
          exact absurd rfl (fine _)
      | ok allUtxos =>
          refine ⟨allUtxos, rfl, ?_⟩
          simp only [resumeFetch] at went
          by_cases covenants : cfg.useCovenants
          · rw [if_pos covenants] at went
            cases went
            rw [askTransactions_carried, List.nil_append, List.append_nil]
            exact .refl _
          · rw [if_neg covenants] at went
            cases allUtxos with
            | nil =>
                cases went
                exact .refl _
            | cons utxo utxos =>
                cases went
                exact .refl _
  | feeEstimates rate => cases went
  | transaction answer => cases went

/-- The payout is told the UTXOs of the list that was answered. -/
theorem fetches_listed {utxos : List Utxo} {feeRate : ℚ}
    (fetches : Fetches cfg auth .utxos replies (.ok (utxos, feeRate))) :
    ∃ allUtxos rest, replies = .utxos (.ok allUtxos) :: rest ∧ Alike utxos allUtxos := by
  cases fetches with
  | ends went =>
      obtain ⟨allUtxos, rfl, alike⟩ := resumeFetch_listed went (by simp)
      exact ⟨allUtxos, [], rfl, alike⟩
  | asks went rest =>
      obtain ⟨allUtxos, rfl, alike⟩ := resumeFetch_listed went (by simp)
      exact ⟨allUtxos, _, rfl, (rest.carries (resumeFetch_begun went) rfl).trans alike⟩

end Delivery

end PrivateBtc.Backend.UtxoFetches

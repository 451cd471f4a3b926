/- PrivateBtc/Backend/HtlcService
   digest: The off-chain HTLCs behind their locks; each leaves pending once and only with cause. -/

import PrivateBtc.Backend.Http
import PrivateBtc.Backend.Starknet
import PrivateBtc.Library.Double
import PrivateBtc.Library.GuardedRun

set_option autoImplicit false
set_option relaxedAutoImplicit false

namespace PrivateBtc.Backend.HtlcService

open Library Library.JsText Library.Outcome
open Http Starknet

inductive HtlcStatus where
  | pending
  | claimed
  | refunded
  deriving DecidableEq

structure HtlcRow where
  id : Text
  sender : Text
  receiver : Text
  amount : Text
  hashlock : Text
  timelock : Int
  status : HtlcStatus
  createdAt : Nat

def htlcSchema : Schema HtlcRow where
  check _ := true
  clash a b := a.id == b.id
  clash_symm _ _ := BEq.comm

abbrev Htlcs := Table htlcSchema

abbrev Fields := List (String × Option Field)

/-- starknet.js, zod, and the readings of texts that depend on all of Unicode or of `Number`. -/
structure Environment where
  computePoseidonHash : Text → Text → Except String Text
  schemaError : Fields → String
  toLowerCase : Text → Text
  number : Text → Double

/-- The database statements of a request that throw, with their messages. -/
structure Faults where
  select : Option String
  write : Option String

def orThrow : Option String → Except String Unit
  | some message => .error message
  | none => .ok ()

def byId (htlcs : Htlcs) (htlcId : Text) : Option HtlcRow := htlcs.find? fun h => h.id == htlcId

def setStatus (htlcs : Htlcs) (htlcId : Text) (status : HtlcStatus) : Htlcs :=
  htlcs.modify (fun h => h.id == htlcId) (fun h => { h with status }) ⟨fun _ => rfl, fun _ _ => rfl⟩

/-- The clock in seconds, the random bytes and the identifier that a creation draws. -/
structure Draw where
  nowSecs : Nat
  preimage : List UInt8
  uuid : Text

variable (env : Environment)

def create (htlcs : Htlcs) (draw : Draw) (faults : Faults) (sender receiver amount : Text)
    (timelock : Int) : Except String Htlcs := do
  let preimage := '0' :: 'x' :: Hex.encode draw.preimage
  let hashlock ← env.computePoseidonHash preimage ['0']
  orThrow faults.write
  match htlcs.insert
      ⟨draw.uuid, sender, receiver, amount, hashlock, timelock, .pending, draw.nowSecs⟩ with
  | .ok htlcs => pure htlcs
  | .error _ => throw "UNIQUE constraint failed: htlcs.id"

/-- /^[0-9]+$/ or /^0x[0-9a-fA-F]+$/ -/
def isNumeral (preimage : Text) : Bool :=
  (!preimage.isEmpty && preimage.all fun c => (digitIn 10 c).isSome) ||
    match preimage with
    | '0' :: 'x' :: digits => !digits.isEmpty && digits.all fun c => (digitIn 16 c).isSome
    | _ => false

/-- The function that `claim` runs under its lock; it has no `await`. -/
def claim (htlcs : Htlcs) (faults : Faults) (htlcId preimage : Text) : Except String Htlcs := do
  orThrow faults.select
  match byId htlcs htlcId with
  | none => throw "HTLC not found"
  | some htlc =>
      match htlc.status with
      | .claimed => throw "Already claimed"
      | .refunded => throw "Already refunded"
      | .pending =>
          if !isNumeral preimage then throw "Invalid preimage — format mismatch"
          let computed ← env.computePoseidonHash preimage ['0']
          if env.toLowerCase computed ≠ env.toLowerCase htlc.hashlock then
            throw "Invalid preimage — hashlock mismatch"
          orThrow faults.write
          pure (setStatus htlcs htlcId .claimed)

/-- The function that `refund` runs under its lock; it has no `await`. -/
def refund (htlcs : Htlcs) (now : Nat) (faults : Faults) (htlcId senderAddress : Text) :
    Except String Htlcs := do
  orThrow faults.select
  match byId htlcs htlcId with
  | none => throw "HTLC not found"
  | some htlc =>
      if env.toLowerCase htlc.sender ≠ env.toLowerCase senderAddress then throw "Not sender"
      match htlc.status with
      | .claimed => throw "Already claimed"
      | .refunded => throw "Already refunded"
      | .pending =>
          let nowSec : Int := (now / 1000 : Nat)
          if nowSec < htlc.timelock then
            throw s!"Timelock not expired — {htlc.timelock - nowSec}s remaining"
          orThrow faults.write
          pure (setStatus htlcs htlcId .refunded)

/-- The `catch` of each route. -/
def createError (message : String) : Rejection := ⟨400, message⟩

def claimError (message : String) : Rejection :=
  ⟨if mentions message "Resource is locked" then 409
    else if mentions message "Already" then 409
    else if mentions message "Invalid preimage" then 401
    else if mentions message "not found" then 404 else 400, message⟩

def refundError (message : String) : Rejection :=
  ⟨if mentions message "Resource is locked" then 409
    else if mentions message "Timelock not expired" then 403
    else if mentions message "Already" then 409
    else if mentions message "not found" then 404 else 400, message⟩

/-- z.string().min(1) -/
def nonEmpty : Option Field → Option Text
  | some (.text value) => if value.isEmpty then none else some value
  | _ => none

/-- z.number().int().positive().default(1800) -/
def positiveInt : Option Field → Option Int
  | some (.number value) => value.toBigInt.filter fun n => decide (0 < n)
  | some (.text _) => none
  | none => some 1800

structure CreateBody where
  headers : Headers
  sender : Option Field
  receiver : Option Field
  amount : Option Field
  timelockSeconds : Option Field

def CreateBody.fields (body : CreateBody) : Fields :=
  [("sender", body.sender), ("receiver", body.receiver), ("amount", body.amount),
    ("timelockSeconds", body.timelockSeconds)]

structure ClaimBody where
  headers : Headers
  htlcId : Option Field
  preimage : Option Field

def ClaimBody.fields (body : ClaimBody) : Fields :=
  [("htlcId", body.htlcId), ("preimage", body.preimage)]

structure RefundBody where
  headers : Headers
  htlcId : Option Field
  senderAddress : Option Field

def RefundBody.fields (body : RefundBody) : Fields :=
  [("htlcId", body.htlcId), ("senderAddress", body.senderAddress)]

def isValidStarknetAddress (address : Text) : Bool := CryptoService.isHex 63 64 address

def isValidAmount (amount : Text) : Bool :=
  match env.number amount with
  | .finite value => decide (0 < value)
  | _ => false

def isValidTimelock (nowSecs : Nat) (timelock : Int) : Bool :=
  decide (nowSecs < timelock) && decide (timelock < nowSecs + 10 * 365 * 24 * 60 * 60)

def orCatch {A : Type} (error : String → Rejection) : Except String A → Except Rejection A
  | .ok a => .ok a
  | .error message => .error (error message)

def postCreate (htlcs : Htlcs) (draw : Draw) (faults : Faults) (body : CreateBody) :
    Except Rejection Htlcs := do
  validateBody body.headers body.fields
  match nonEmpty body.sender, nonEmpty body.receiver, nonEmpty body.amount,
      positiveInt body.timelockSeconds with
  | some sender, some receiver, some amount, some timelock => do
      refuse (!isValidStarknetAddress receiver) 400 "Invalid receiver address"
      refuse (!isValidAmount env amount) 400 "Amount must be a positive number"
      refuse (!isValidTimelock draw.nowSecs timelock) 400
        "Timelock must be a future Unix timestamp"
      orCatch createError (create env htlcs draw faults sender receiver amount timelock)
  | _, _, _, _ => throw (createError (env.schemaError body.fields))

def ClaimBody.validate (body : ClaimBody) : Except Rejection (Text × Text) := do
  validateBody body.headers body.fields
  match nonEmpty body.htlcId, nonEmpty body.preimage with
  | some htlcId, some preimage => pure (htlcId, preimage)
  | _, _ => throw (claimError (env.schemaError body.fields))

def RefundBody.validate (body : RefundBody) : Except Rejection (Text × Text) := do
  validateBody body.headers [("htlcId", body.htlcId)]
  match nonEmpty body.htlcId, nonEmpty body.senderAddress with
  | some htlcId, some senderAddress => pure (htlcId, senderAddress)
  | _, _ => throw (refundError (env.schemaError body.fields))

/-- A request whose function has run, before and after its lock is released. -/
inductive Progress where
  | held (key : Text) (outcome : Except Rejection Unit)
  | answered (outcome : Except Rejection Unit)

def Progress.outcome : Progress → Except Rejection Unit
  | held _ outcome => outcome
  | answered outcome => outcome

/-- The rows, the lock manager's two maps, and the requests. -/
structure State where
  htlcs : Htlcs
  locks : Text → Bool
  timeouts : Text → Bool
  requests : Nat → Option Progress

def become (s : State) (id : Nat) (progress : Progress) : State :=
  { s with requests := Function.update s.requests id (some progress) }

def releaseLock (s : State) (key : Text) : State :=
  { s with
    locks := Function.update s.locks key false
    timeouts := Function.update s.timeouts key false }

/-- `withLock` up to the `await` that gives the turn back. -/
def withLock (s : State) (id : Nat) (key : Text) (error : String → Rejection)
    (fn : Htlcs → Except String Htlcs) : State :=
  if s.locks key then
    become s id (.answered
      (.error (error "Resource is locked — concurrent operation in progress")))
  else
    let s := { s with
      locks := Function.update s.locks key true
      timeouts := Function.update s.timeouts key true }
    match fn s.htlcs with
    | .ok htlcs => become { s with htlcs } id (.held key (.ok ()))
    | .error message => become s id (.held key (.error (error message)))

def claimKey (htlcId : Text) : Text := "htlc:claim:".toList ++ htlcId

def refundKey (htlcId : Text) : Text := "htlc:refund:".toList ++ htlcId

/-- A request comes, one gets its turn back, or the 30 seconds of a lock end. -/
inductive Label where
  | create (id : Nat) (draw : Draw) (faults : Faults) (body : CreateBody)
  | claim (id : Nat) (faults : Faults) (body : ClaimBody)
  | refund (id : Nat) (now : Nat) (faults : Faults) (body : RefundBody)
  | resume (id : Nat)
  | timeout (key : Text)

def serveCreate (s : State) (id : Nat) (draw : Draw) (faults : Faults) (body : CreateBody) :
    State :=
  match postCreate env s.htlcs draw faults body with
  | .ok htlcs => become { s with htlcs } id (.answered (.ok ()))
  | .error rejection => become s id (.answered (.error rejection))

def serveClaim (s : State) (id : Nat) (faults : Faults) (body : ClaimBody) : State :=
  match body.validate env with
  | .ok (htlcId, preimage) => withLock s id (claimKey htlcId) claimError fun htlcs =>
      claim env htlcs faults htlcId preimage
  | .error rejection => become s id (.answered (.error rejection))

def serveRefund (s : State) (id : Nat) (now : Nat) (faults : Faults) (body : RefundBody) : State :=
  match body.validate env with
  | .ok (htlcId, senderAddress) => withLock s id (refundKey htlcId) refundError fun htlcs =>
      refund env htlcs now faults htlcId senderAddress
  | .error rejection => become s id (.answered (.error rejection))

/-- The request that a label brings. -/
def Label.request : Label → Option Nat
  | create id _ _ _ | claim id _ _ | refund id _ _ _ => some id
  | resume _ | timeout _ => none

def step (s : State) : Label → Option State
  | .create id draw faults body =>
      if (s.requests id).isSome then none else some (serveCreate env s id draw faults body)
  | .claim id faults body =>
      if (s.requests id).isSome then none else some (serveClaim env s id faults body)
  | .refund id now faults body =>
      if (s.requests id).isSome then none else some (serveRefund env s id now faults body)
  | .resume id =>
      match s.requests id with
      | some (.held key outcome) => some (become (releaseLock s key) id (.answered outcome))
      | _ => none
  | .timeout key => if s.timeouts key then some (releaseLock s key) else none

variable {env}

/-- Why a request may settle a row. -/
inductive Cause (env : Environment) (label : Label) (h : HtlcRow) : HtlcStatus → Prop where
  | claimed {id : Nat} {faults : Faults} {body : ClaimBody} {preimage computed : Text}
      (asked : label = .claim id faults body) (named : body.htlcId = some (.text h.id))
      (given : body.preimage = some (.text preimage))
      (hashed : env.computePoseidonHash preimage ['0'] = .ok computed)
      (hashlock : env.toLowerCase computed = env.toLowerCase h.hashlock) :
      Cause env label h .claimed
  | refunded {id now : Nat} {faults : Faults} {body : RefundBody} {senderAddress : Text}
      (asked : label = .refund id now faults body) (named : body.htlcId = some (.text h.id))
      (given : body.senderAddress = some (.text senderAddress))
      (sender : env.toLowerCase h.sender = env.toLowerCase senderAddress)
      (expired : h.timelock ≤ (now / 1000 : Nat)) : Cause env label h .refunded

/-- What a step makes of a row. -/
inductive Change (env : Environment) (label : Label) (h : HtlcRow) : HtlcRow → Prop where
  | kept : Change env label h h
  | settled {status : HtlcStatus} (pending : h.status = .pending)
      (cause : Cause env label h status) : Change env label h { h with status }

def outcomeOf (s : State) (id : Nat) : Option (Except Rejection Unit) :=
  (s.requests id).map Progress.outcome

/-- What a step makes of the table. -/
inductive Effect (env : Environment) (label : Label) (s s' : State) : Prop where
  | same (rows : s'.htlcs = s.htlcs)
  | created (row : HtlcRow) (id : Nat) (pending : row.status = .pending)
      (rows : s'.htlcs.rows = s.htlcs.rows ++ [row]) (brought : label.request = some id)
      (accepted : outcomeOf s' id = some (.ok ()))
  | settled (h : HtlcRow) (status : HtlcStatus) (id : Nat) (member : h ∈ s.htlcs.rows)
      (pending : h.status = .pending) (cause : Cause env label h status)
      (rows : s'.htlcs = setStatus s.htlcs h.id status) (brought : label.request = some id)
      (accepted : outcomeOf s' id = some (.ok ()))

theorem orThrow_ok {fault : Option String} {u : Unit} : orThrow fault = .ok u ↔ fault = none := by
  cases fault <;> simp [orThrow]

@[simp] theorem become_htlcs (s : State) (id : Nat) (progress : Progress) :
    (become s id progress).htlcs = s.htlcs := rfl

@[simp] theorem releaseLock_htlcs (s : State) (key : Text) : (releaseLock s key).htlcs = s.htlcs :=
  rfl

@[simp] theorem outcomeOf_become (s : State) (id : Nat) (progress : Progress) :
    outcomeOf (become s id progress) id = some progress.outcome := by
  simp [outcomeOf, become]

theorem byId_some {htlcs : Htlcs} {htlcId : Text} {h : HtlcRow}
    (found : byId htlcs htlcId = some h) : h ∈ htlcs.rows ∧ h.id = htlcId := by
  obtain ⟨member, same⟩ := Table.find?_some found
  exact ⟨member, beq_iff_eq.mp same⟩

/-- An identifier has one row. -/
theorem same_row (htlcs : Htlcs) {a b : HtlcRow} (a_mem : a ∈ htlcs.rows) (b_mem : b ∈ htlcs.rows)
    (same : a.id = b.id) : a = b :=
  htlcs.eq_of_clash a_mem b_mem (beq_iff_eq.mpr same)

theorem byId_of_mem {htlcs : Htlcs} {h : HtlcRow} (member : h ∈ htlcs.rows) :
    byId htlcs h.id = some h := by
  refine Table.find?_of_mem member (beq_self_eq_true h.id) ?_
  intro a b first second
  exact beq_iff_eq.mpr ((beq_iff_eq.mp first).trans (beq_iff_eq.mp second).symm)

theorem mem_setStatus {htlcs : Htlcs} {htlcId : Text} {status : HtlcStatus} {h' : HtlcRow} :
    h' ∈ (setStatus htlcs htlcId status).rows ↔
      ∃ h ∈ htlcs.rows, h' = if h.id == htlcId then { h with status } else h := by
  simp only [setStatus, Table.modify, List.mem_map, eq_comm]

theorem claim_ok {htlcs htlcs' : Htlcs} {faults : Faults} {htlcId preimage : Text}
    (claimed : claim env htlcs faults htlcId preimage = .ok htlcs') :
    ∃ h computed, byId htlcs htlcId = some h ∧ h.status = .pending ∧
      isNumeral preimage = true ∧ env.computePoseidonHash preimage ['0'] = .ok computed ∧
      env.toLowerCase computed = env.toLowerCase h.hashlock ∧
      htlcs' = setStatus htlcs htlcId .claimed := by
  rw [claim, bind_eq_ok] at claimed
  obtain ⟨-, -, claimed⟩ := claimed
  cases found : byId htlcs htlcId with
  | none => rw [found] at claimed; cases claimed
  | some h =>
      simp only [found] at claimed
      cases status : h.status with
      | claimed => rw [status] at claimed; cases claimed
      | refunded => rw [status] at claimed; cases claimed
      | pending =>
          simp only [status] at claimed
          split_ifs at claimed with malformed
          · cases claimed
          obtain ⟨computed, hashed, claimed⟩ := bind_eq_ok.mp claimed
          split_ifs at claimed with differs
          · cases claimed
          obtain ⟨-, -, done⟩ := bind_eq_ok.mp claimed
          cases done
          exact ⟨h, computed, rfl, status, by simpa using malformed, hashed,
            not_not.mp differs, rfl⟩

/-- Where nothing throws, a pending row is claimed by the numerals that hash to its hashlock. -/
theorem claim_accepts {htlcs : Htlcs} {htlcId preimage : Text} {h : HtlcRow}
    (found : byId htlcs htlcId = some h) (pending : h.status = .pending) :
    (∃ done, claim env htlcs ⟨none, none⟩ htlcId preimage = .ok done) ↔
      isNumeral preimage = true ∧ ∃ computed, env.computePoseidonHash preimage ['0'] =
        .ok computed ∧ env.toLowerCase computed = env.toLowerCase h.hashlock := by
  constructor
  · rintro ⟨done, claimed⟩
    obtain ⟨row, computed, same, -, numeral, hashed, hashlock, -⟩ := claim_ok claimed
    rw [found, Option.some.injEq] at same
    subst same
    exact ⟨numeral, computed, hashed, hashlock⟩
  · rintro ⟨numeral, computed, hashed, hashlock⟩
    refine ⟨setStatus htlcs htlcId .claimed, ?_⟩
    simp [claim, orThrow, found, pending, numeral, hashed, hashlock]

theorem refund_ok {htlcs htlcs' : Htlcs} {now : Nat} {faults : Faults}
    {htlcId senderAddress : Text}
    (refunded : refund env htlcs now faults htlcId senderAddress = .ok htlcs') :
    ∃ h, byId htlcs htlcId = some h ∧ h.status = .pending ∧
      env.toLowerCase h.sender = env.toLowerCase senderAddress ∧
      h.timelock ≤ (now / 1000 : Nat) ∧ htlcs' = setStatus htlcs htlcId .refunded := by
  rw [refund, bind_eq_ok] at refunded
  obtain ⟨-, -, refunded⟩ := refunded
  cases found : byId htlcs htlcId with
  | none => rw [found] at refunded; cases refunded
  | some h =>
      simp only [found] at refunded
      by_cases other : env.toLowerCase h.sender ≠ env.toLowerCase senderAddress
      · rw [if_pos other] at refunded
        cases refunded
      rw [if_neg other] at refunded
      cases status : h.status with
      | claimed => rw [status] at refunded; cases refunded
      | refunded => rw [status] at refunded; cases refunded
      | pending =>
          simp only [status] at refunded
          split_ifs at refunded with early
          · cases refunded
          obtain ⟨-, -, done⟩ := bind_eq_ok.mp refunded
          cases done
          exact ⟨h, rfl, status, not_not.mp other, not_lt.mp early, rfl⟩

/-- A creation leaves its row, the only one with its identifier. -/
theorem create_row {htlcs htlcs' : Htlcs} {draw : Draw} {faults : Faults}
    {sender receiver amount : Text} {timelock : Int}
    (created : create env htlcs draw faults sender receiver amount timelock = .ok htlcs') :
    ∃ hashlock row, env.computePoseidonHash ('0' :: 'x' :: Hex.encode draw.preimage) ['0'] =
        .ok hashlock ∧
      row = ⟨draw.uuid, sender, receiver, amount, hashlock, timelock, .pending, draw.nowSecs⟩ ∧
      htlcs'.rows = htlcs.rows ++ [row] := by
  obtain ⟨hashlock, hashed, created⟩ := bind_eq_ok.mp created
  obtain ⟨-, -, created⟩ := bind_eq_ok.mp created
  split at created
  · next inserted =>
      cases created
      exact ⟨hashlock, _, hashed, rfl, Table.insert_rows inserted⟩
  · cases created

theorem create_ok {htlcs htlcs' : Htlcs} {draw : Draw} {faults : Faults}
    {sender receiver amount : Text} {timelock : Int}
    (created : create env htlcs draw faults sender receiver amount timelock = .ok htlcs') :
    ∃ row, row.status = .pending ∧ htlcs'.rows = htlcs.rows ++ [row] := by
  obtain ⟨hashlock, row, -, rfl, rows⟩ := create_row created
  exact ⟨_, rfl, rows⟩

theorem postCreate_ok {htlcs htlcs' : Htlcs} {draw : Draw} {faults : Faults} {body : CreateBody}
    (created : postCreate env htlcs draw faults body = .ok htlcs') :
    ∃ row, row.status = .pending ∧ htlcs'.rows = htlcs.rows ++ [row] := by
  obtain ⟨-, -, created⟩ := bind_eq_ok.mp created
  split at created
  · simp only [bind_eq_ok] at created
    obtain ⟨-, -, -, -, -, -, created⟩ := created
    unfold orCatch at created
    split at created
    · next made =>
        cases created
        exact create_ok made
    · cases created
  · cases created

theorem nonEmpty_some {field : Option Field} {value : Text} (given : nonEmpty field = some value) :
    field = some (.text value) := by
  unfold nonEmpty at given
  split at given
  · split_ifs at given
    cases given
    rfl
  · cases given

theorem ClaimBody.validate_ok {body : ClaimBody} {htlcId preimage : Text}
    (valid : body.validate env = .ok (htlcId, preimage)) :
    body.htlcId = some (.text htlcId) ∧ body.preimage = some (.text preimage) := by
  obtain ⟨-, -, valid⟩ := bind_eq_ok.mp valid
  split at valid
  · next named given =>
      cases valid
      exact ⟨nonEmpty_some named, nonEmpty_some given⟩
  · cases valid

theorem RefundBody.validate_ok {body : RefundBody} {htlcId senderAddress : Text}
    (valid : body.validate env = .ok (htlcId, senderAddress)) :
    body.htlcId = some (.text htlcId) ∧ body.senderAddress = some (.text senderAddress) := by
  obtain ⟨-, -, valid⟩ := bind_eq_ok.mp valid
  split at valid
  · next named given =>
      cases valid
      exact ⟨nonEmpty_some named, nonEmpty_some given⟩
  · cases valid

/-- Under a lock the function runs once or not at all; what it throws leaves the rows. -/
theorem withLock_cases (s : State) (id : Nat) (key : Text) (error : String → Rejection)
    (fn : Htlcs → Except String Htlcs) :
    (withLock s id key error fn).htlcs = s.htlcs ∨
      fn s.htlcs = .ok (withLock s id key error fn).htlcs ∧
        outcomeOf (withLock s id key error fn) id = some (.ok ()) := by
  unfold withLock
  split_ifs with locked
  · exact Or.inl rfl
  · dsimp only
    cases ran : fn s.htlcs with
    | ok htlcs => exact Or.inr ⟨rfl, outcomeOf_become _ _ _⟩
    | error message => exact Or.inl rfl

theorem claim_effect {s : State} {id : Nat} {faults : Faults} {body : ClaimBody} :
    Effect env (.claim id faults body) s (serveClaim env s id faults body) := by
  cases valid : body.validate env with
  | error rejection =>
      rw [serveClaim, valid]
      exact .same rfl
  | ok asked =>
      obtain ⟨htlcId, preimage⟩ := asked
      rw [serveClaim, valid]
      dsimp only
      rcases withLock_cases s id (claimKey htlcId) claimError
        (fun htlcs => claim env htlcs faults htlcId preimage) with kept | ⟨ran, accepted⟩
      · exact .same kept
      · obtain ⟨named, given⟩ := ClaimBody.validate_ok valid
        obtain ⟨h, computed, found, pending, -, hashed, hashlock, written⟩ := claim_ok ran
        obtain ⟨member, rfl⟩ := byId_some found
        exact .settled h .claimed id member pending (.claimed rfl named given hashed hashlock)
          written rfl accepted

theorem refund_effect {s : State} {id now : Nat} {faults : Faults} {body : RefundBody} :
    Effect env (.refund id now faults body) s (serveRefund env s id now faults body) := by
  cases valid : body.validate env with
  | error rejection =>
      rw [serveRefund, valid]
      exact .same rfl
  | ok asked =>
      obtain ⟨htlcId, senderAddress⟩ := asked
      rw [serveRefund, valid]
      dsimp only
      rcases withLock_cases s id (refundKey htlcId) refundError
        (fun htlcs => refund env htlcs now faults htlcId senderAddress) with kept | ⟨ran, accepted⟩
      · exact .same kept
      · obtain ⟨named, given⟩ := RefundBody.validate_ok valid
        obtain ⟨h, found, pending, sender, expired, written⟩ := refund_ok ran
        obtain ⟨member, rfl⟩ := byId_some found
        exact .settled h .refunded id member pending (.refunded rfl named given sender expired)
          written rfl accepted

theorem create_effect {s : State} {id : Nat} {draw : Draw} {faults : Faults} {body : CreateBody} :
    Effect env (.create id draw faults body) s (serveCreate env s id draw faults body) := by
  cases made : postCreate env s.htlcs draw faults body with
  | error rejection =>
      rw [serveCreate, made]
      exact .same rfl
  | ok htlcs =>
      rw [serveCreate, made]
      obtain ⟨row, pending, rows⟩ := postCreate_ok made
      exact .created row id pending rows rfl (outcomeOf_become _ _ _)

/-- What a step does, with what it asks of the request. -/
inductive Stepped (env : Environment) (s : State) : Label → State → Prop where
  | create {id : Nat} {draw : Draw} {faults : Faults} {body : CreateBody}
      (free : s.requests id = none) :
      Stepped env s (.create id draw faults body) (serveCreate env s id draw faults body)
  | claim {id : Nat} {faults : Faults} {body : ClaimBody} (free : s.requests id = none) :
      Stepped env s (.claim id faults body) (serveClaim env s id faults body)
  | refund {id now : Nat} {faults : Faults} {body : RefundBody} (free : s.requests id = none) :
      Stepped env s (.refund id now faults body) (serveRefund env s id now faults body)
  | resume {id : Nat} {key : Text} {outcome : Except Rejection Unit}
      (held : s.requests id = some (.held key outcome)) :
      Stepped env s (.resume id) (become (releaseLock s key) id (.answered outcome))
  | timeout {key : Text} : Stepped env s (.timeout key) (releaseLock s key)

theorem step_stepped {s s' : State} {label : Label} (stepped : step env s label = some s') :
    Stepped env s label s' := by
  cases label with
  | create id draw faults body =>
      rw [step] at stepped
      split_ifs at stepped with free
      cases stepped
      exact .create (Option.not_isSome_iff_eq_none.mp free)
  | claim id faults body =>
      rw [step] at stepped
      split_ifs at stepped with free
      cases stepped
      exact .claim (Option.not_isSome_iff_eq_none.mp free)
  | refund id now faults body =>
      rw [step] at stepped
      split_ifs at stepped with free
      cases stepped
      exact .refund (Option.not_isSome_iff_eq_none.mp free)
  | resume id =>
      rw [step] at stepped
      split at stepped
      · next key outcome held =>
          cases stepped
          exact .resume held
      · cases stepped
  | timeout key =>
      rw [step] at stepped
      split_ifs at stepped
      cases stepped
      exact .timeout

theorem step_effect {s s' : State} {label : Label} (stepped : step env s label = some s') :
    Effect env label s s' := by
  cases step_stepped stepped with
  | create free => exact create_effect
  | claim free => exact claim_effect
  | refund free => exact refund_effect
  | resume held => exact .same rfl
  | timeout => exact .same rfl

/-- Every row of a table has one successor, and a new row starts as pending. -/
theorem Effect.rows {s s' : State} {label : Label} (effect : Effect env label s s') :
    (∀ h ∈ s.htlcs.rows, ∃ h' ∈ s'.htlcs.rows, Change env label h h') ∧
      ∀ h' ∈ s'.htlcs.rows, h'.status = .pending ∨
        ∃ h ∈ s.htlcs.rows, Change env label h h' := by
  cases effect with
  | same rows =>
      rw [rows]
      exact ⟨fun h member => ⟨h, member, .kept⟩, fun h member => .inr ⟨h, member, .kept⟩⟩
  | created row id pending rows brought accepted =>
      rw [rows]
      refine ⟨fun h member => ⟨h, List.mem_append_left _ member, .kept⟩, ?_⟩
      intro h' member
      rcases List.mem_append.mp member with old | fresh
      · exact Or.inr ⟨h', old, .kept⟩
      · rw [List.mem_singleton.mp fresh]
        exact Or.inl pending
  | settled h₀ status id member₀ pending cause rows brought accepted =>
      rw [rows]
      have successor : ∀ h ∈ s.htlcs.rows,
          Change env label h (if h.id == h₀.id then { h with status } else h) := by
        intro h member
        by_cases same : h.id = h₀.id
        · rw [if_pos (beq_iff_eq.mpr same)]
          cases same_row s.htlcs member member₀ same
          exact .settled pending cause
        · rw [if_neg (by simpa using same)]
          exact .kept
      refine ⟨fun h member => ⟨_, mem_setStatus.mpr ⟨h, member, rfl⟩, successor h member⟩, ?_⟩
      intro h' member'
      obtain ⟨h, member, rfl⟩ := mem_setStatus.mp member'
      exact Or.inr ⟨h, member, successor h member⟩

/-- A settled row stays in the table as it is. -/
theorem step_terminal {s s' : State} {label : Label} (stepped : step env s label = some s')
    {h : HtlcRow} (member : h ∈ s.htlcs.rows) (settled : h.status ≠ .pending) :
    h ∈ s'.htlcs.rows := by
  obtain ⟨h', member', change⟩ := (step_effect stepped).rows.1 h member
  cases change with
  | kept => exact member'
  | settled pending => exact absurd pending settled

theorem run_terminal {s s' : State} {labels : List Label}
    (ran : GuardedRun.run (step env) s labels = some s') {h : HtlcRow} (member : h ∈ s.htlcs.rows)
    (settled : h.status ≠ .pending) : h ∈ s'.htlcs.rows := by
  refine GuardedRun.run_preserves (fun s => h ∈ s.htlcs.rows) ?_ ran member
  intro s label s' member stepped
  exact step_terminal stepped member settled

/-- A request that is served takes its own entry and no other. -/
theorem withLock_requests (s : State) (id : Nat) (key : Text) (error : String → Rejection)
    (fn : Htlcs → Except String Htlcs) :
    ∃ progress, (withLock s id key error fn).requests =
      Function.update s.requests id (some progress) := by
  unfold withLock
  split_ifs with locked
  · exact ⟨_, rfl⟩
  · dsimp only
    cases fn s.htlcs with
    | ok htlcs => exact ⟨_, rfl⟩
    | error message => exact ⟨_, rfl⟩

theorem serveCreate_requests (s : State) (id : Nat) (draw : Draw) (faults : Faults)
    (body : CreateBody) : ∃ progress, (serveCreate env s id draw faults body).requests =
      Function.update s.requests id (some progress) := by
  unfold serveCreate
  cases postCreate env s.htlcs draw faults body with
  | ok htlcs => exact ⟨_, rfl⟩
  | error rejection => exact ⟨_, rfl⟩

theorem serveClaim_requests (s : State) (id : Nat) (faults : Faults) (body : ClaimBody) :
    ∃ progress, (serveClaim env s id faults body).requests =
      Function.update s.requests id (some progress) := by
  unfold serveClaim
  cases body.validate env with
  | ok asked => exact withLock_requests _ _ _ _ _
  | error rejection => exact ⟨_, rfl⟩

theorem serveRefund_requests (s : State) (id now : Nat) (faults : Faults) (body : RefundBody) :
    ∃ progress, (serveRefund env s id now faults body).requests =
      Function.update s.requests id (some progress) := by
  unfold serveRefund
  cases body.validate env with
  | ok asked => exact withLock_requests _ _ _ _ _
  | error rejection => exact ⟨_, rfl⟩

theorem step_served {s s' : State} {label : Label} (stepped : step env s label = some s')
    {id : Nat} (brought : label.request = some id) : s.requests id = none ∧
      ∃ progress, s'.requests = Function.update s.requests id (some progress) := by
  cases step_stepped stepped with
  | @create own draw faults body free =>
      cases brought
      exact ⟨free, serveCreate_requests s id draw faults body⟩
  | @claim own faults body free =>
      cases brought
      exact ⟨free, serveClaim_requests s id faults body⟩
  | @refund own now faults body free =>
      cases brought
      exact ⟨free, serveRefund_requests s id now faults body⟩
  | resume held => cases brought
  | timeout => cases brought

/-- What a request came to, it stays. -/
theorem step_outcome {s s' : State} {label : Label} (stepped : step env s label = some s')
    {id : Nat} {outcome : Except Rejection Unit} (decided : outcomeOf s id = some outcome) :
    outcomeOf s' id = some outcome := by
  cases brought : label.request with
  | some taken =>
      obtain ⟨free, progress, requests⟩ := step_served stepped brought
      have other : id ≠ taken := by
        rintro rfl
        rw [outcomeOf, free] at decided
        cases decided
      rw [outcomeOf, requests, Function.update_of_ne other]
      exact decided
  | none =>
      cases step_stepped stepped with
      | create | claim | refund => cases brought
      | @resume resumed key result held =>
          by_cases same : id = resumed
          · subst same
            rw [outcomeOf, held] at decided
            rw [outcomeOf_become]
            exact decided
          · have kept : outcomeOf (become (releaseLock s key) resumed (.answered result)) id =
                outcomeOf s id :=
              congrArg (Option.map _) (Function.update_of_ne same _ s.requests)
            rw [kept]
            exact decided
      | timeout => exact decided

theorem run_outcome {s s' : State} {labels : List Label}
    (ran : GuardedRun.run (step env) s labels = some s') {id : Nat}
    {outcome : Except Rejection Unit} (decided : outcomeOf s id = some outcome) :
    outcomeOf s' id = some outcome := by
  refine GuardedRun.run_preserves (fun s => outcomeOf s id = some outcome) ?_ ran decided
  intro s label s' decided stepped
  exact step_outcome stepped decided

def leaves (s s' : State) (htlcId : Text) : Bool :=
  (s.htlcs.rows.any fun h => h.id == htlcId && h.status = .pending) &&
    s'.htlcs.rows.any fun h => h.id == htlcId && h.status ≠ .pending

/-- How often the row with this identifier leaves `pending` along the run. -/
def departures (env : Environment) (htlcId : Text) (s : State) : List Label → Nat
  | [] => 0
  | label :: labels =>
      match step env s label with
      | none => 0
      | some s' => (leaves s s' htlcId).toNat + departures env htlcId s' labels

theorem leaves_iff {s s' : State} {htlcId : Text} : leaves s s' htlcId = true ↔
    (∃ h ∈ s.htlcs.rows, h.id = htlcId ∧ h.status = .pending) ∧
      ∃ h ∈ s'.htlcs.rows, h.id = htlcId ∧ h.status ≠ .pending := by
  simp [leaves]

/-- The row is settled already: it does not leave `pending` any more. -/
theorem departures_settled {s : State} (labels : List Label) {h : HtlcRow}
    (member : h ∈ s.htlcs.rows) (settled : h.status ≠ .pending) :
    departures env h.id s labels = 0 := by
  induction labels generalizing s with
  | nil => rfl
  | cons label labels ih =>
      rw [departures]
      cases stepped : step env s label with
      | none => rfl
      | some s' =>
          have stays : leaves s s' h.id = false := by
            rw [Bool.eq_false_iff]
            intro left
            obtain ⟨⟨row, row_mem, named, pending⟩, -⟩ := leaves_iff.mp left
            rw [same_row s.htlcs row_mem member named] at pending
            exact settled pending
          simp only [stays, Bool.toNat_false, Nat.zero_add]
          exact ih (step_terminal stepped member settled)

theorem departures_le (htlcId : Text) (s : State) (labels : List Label) :
    departures env htlcId s labels ≤ 1 := by
  induction labels generalizing s with
  | nil => exact Nat.zero_le _
  | cons label labels ih =>
      rw [departures]
      cases step env s label with
      | none => exact Nat.zero_le _
      | some s' =>
          dsimp only
          cases left : leaves s s' htlcId with
          | false =>
              rw [Bool.toNat_false, Nat.zero_add]
              exact ih s'
          | true =>
              obtain ⟨-, h, member, rfl, settled⟩ := leaves_iff.mp left
              rw [departures_settled labels member settled]
              exact le_refl 1

/-- A step without a request, or one whose request is rejected, leaves the table. -/
theorem Effect.rejected {s s' : State} {label : Label} (effect : Effect env label s s')
    (refused : ∀ id, label.request = some id → outcomeOf s' id ≠ some (.ok ())) :
    s'.htlcs = s.htlcs := by
  cases effect with
  | same rows => exact rows
  | created row id pending rows brought accepted => exact absurd accepted (refused id brought)
  | settled h status id member pending cause rows brought accepted =>
      exact absurd accepted (refused id brought)

/-- A request that is rejected in the end has changed no row when it came. -/
theorem rejected_unchanged {s s' final : State} {label : Label} {later : List Label}
    (stepped : step env s label = some s') {id : Nat} (brought : label.request = some id)
    (ran : GuardedRun.run (step env) s' later = some final) {rejection : Rejection}
    (rejected : outcomeOf final id = some (.error rejection)) : s'.htlcs = s.htlcs := by
  apply (step_effect stepped).rejected
  intro other same accepted
  rw [brought, Option.some.injEq] at same
  subst same
  rw [run_outcome ran accepted] at rejected
  cases rejected

/-- Each HTLC leaves `pending` at most once, by a claim with its preimage or by its sender's refund
after the timelock, and keeps what it came to; a rejected request changes no row. -/
theorem htlc_lifecycle (env : Environment) (s : State) (labels : List Label) :
    (∀ htlcId, departures env htlcId s labels ≤ 1) ∧
    ∀ s₁, GuardedRun.run (step env) s labels = some s₁ →
      (∀ h ∈ s.htlcs.rows, h.status ≠ .pending → h ∈ s₁.htlcs.rows) ∧
      ∀ label s₂, step env s₁ label = some s₂ →
        (∀ h ∈ s₁.htlcs.rows, ∃ h' ∈ s₂.htlcs.rows, Change env label h h') ∧
        (∀ h' ∈ s₂.htlcs.rows, h'.status = .pending ∨
          ∃ h ∈ s₁.htlcs.rows, Change env label h h') ∧
        (label.request = none → s₂.htlcs = s₁.htlcs) ∧
        ∀ id, label.request = some id → ∀ later s₃ rejection,
          GuardedRun.run (step env) s₂ later = some s₃ →
          outcomeOf s₃ id = some (.error rejection) → s₂.htlcs = s₁.htlcs := by
  refine ⟨fun htlcId => departures_le htlcId s labels, fun s₁ ran => ⟨?_, ?_⟩⟩
  · intro h member settled
    exact run_terminal ran member settled
  · intro label s₂ stepped
    have effect := step_effect stepped
    refine ⟨effect.rows.1, effect.rows.2, ?_, ?_⟩
    · intro none
      apply effect.rejected
      intro id brought
      rw [none] at brought
      cases brought
    · intro id brought later s₃ rejection rest rejected
      exact rejected_unchanged stepped brought rest rejected

/-- The hash that keeps its first argument, and messages and numbers that play no part. -/
def plainEnvironment : Environment where
  computePoseidonHash preimage _ := .ok preimage
  schemaError _ := "Required"
  toLowerCase := toLowerCase
  number _ := .nan

/-- One HTLC with the hashlock 0xab, which runs out at second 5. -/
def oneHtlc : State where
  htlcs :=
    { rows := [⟨['h'], ['a'], ['b'], ['1'], ['0', 'x', 'a', 'b'], 5, .pending, 0⟩]
      checked := fun _ _ => rfl
      distinct := List.pairwise_singleton _ _ }
  locks _ := false
  timeouts _ := false
  requests _ := none

def claimBody (preimage : Text) : ClaimBody :=
  ⟨⟨applicationJson, false⟩, some (.text ['h']), some (.text preimage)⟩

def refundBody : RefundBody :=
  ⟨⟨applicationJson, false⟩, some (.text ['h']), some (.text ['A'])⟩

/-- A wrong claim, then one with the preimage; the sender's refund comes while it holds its lock. -/
def claimFirst : List Label :=
  [.claim 0 ⟨none, none⟩ (claimBody ['7']), .resume 0,
    .claim 1 ⟨none, none⟩ (claimBody ['0', 'x', 'A', 'B']), .refund 2 9000 ⟨none, none⟩ refundBody]

theorem htlc_lifecycle_claimed : departures plainEnvironment ['h'] oneHtlc claimFirst = 1 ∧
    ∃ s, GuardedRun.run (step plainEnvironment) oneHtlc claimFirst = some s ∧
      (s.htlcs.rows.map fun h => h.status) = [.claimed] ∧
      (match s.requests 0, s.requests 2 with
        | some (.answered (.error wrong)), some (.held _ (.error late)) =>
            (wrong.status, late.error)
        | _, _ => (0, "")) = (401, "Already claimed") ∧
      ∀ label s', step plainEnvironment s label = some s' → ∀ h ∈ s.htlcs.rows,
        ∃ h' ∈ s'.htlcs.rows, Change plainEnvironment label h h' := by
  have ran : (GuardedRun.run (step plainEnvironment) oneHtlc claimFirst).map (fun s =>
      (s.htlcs.rows.map (fun h => h.status),
        match s.requests 0, s.requests 2 with
          | some (.answered (.error wrong)), some (.held _ (.error late)) =>
              (wrong.status, late.error)
          | _, _ => (0, ""))) = some ([.claimed], (401, "Already claimed")) := by
    decide +kernel
  obtain ⟨s, ran, same⟩ := Option.map_eq_some_iff.mp ran
  obtain ⟨statuses, answers⟩ := Prod.mk.inj same
  have lifecycle := htlc_lifecycle plainEnvironment oneHtlc claimFirst
  refine ⟨by decide +kernel, s, ran, statuses, answers, ?_⟩
  intro label s' stepped
  exact ((lifecycle.2 s ran).2 label s' stepped).1

end PrivateBtc.Backend.HtlcService

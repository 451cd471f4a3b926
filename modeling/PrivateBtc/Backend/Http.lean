/- PrivateBtc/Backend/Http
   digest: Rejections, the body validation of the routes, and what a handler leaves when it waits. -/

import PrivateBtc.Backend.CryptoService
import PrivateBtc.Backend.Database

set_option autoImplicit false
set_option relaxedAutoImplicit false

namespace PrivateBtc.Backend.Http

open Library Library.JsText Library.Outcome
open Database

/-- An answer with an error status. -/
structure Rejection where
  status : Nat
  error : String

def refuse (condition : Bool) (status : Nat) (error : String) : Except Rejection Unit :=
  if condition then .error ⟨status, error⟩ else .ok ()

/-- What an exception becomes in the `catch` of a route. -/
def internalError {A : Type} : Except String A → Except Rejection A
  | .ok a => .ok a
  | .error message => .error ⟨500, message⟩

/-- The fields of a body that a route names are read; `others` says whether there are more. -/
structure Headers where
  contentType : Text
  others : Bool

inductive Field where
  | text (value : Text)
  | number (value : Double)

def Field.blank : Option Field → Bool
  | some (.text value) => (trim value).isEmpty
  | some (.number _) => false
  | none => true

def applicationJson : Text :=
  ['a', 'p', 'p', 'l', 'i', 'c', 'a', 't', 'i', 'o', 'n', '/', 'j', 's', 'o', 'n']

def validateFields : List (String × Option Field) → Except Rejection Unit
  | [] => .ok ()
  | (name, value) :: rest => do
      refuse (Field.blank value) 400 s!"Missing required field: {name}"
      validateFields rest

def validateBody (headers : Headers) (fields : List (String × Option Field)) :
    Except Rejection Unit := do
  refuse (!includes applicationJson headers.contentType) 400 "Content-Type must be application/json"
  refuse (!headers.others && fields.all fun field => field.2.isNone) 400
    "Request body cannot be empty"
  validateFields fields

/-- The middleware `validateTxHash`. -/
def validateTxHash (txHash : Text) : Except Rejection Unit :=
  refuse (!CryptoService.isHex 63 64 txHash) 400 "Invalid Starknet transaction hash format"

/-- The clock in milliseconds and the randomness of one turn. -/
structure Moment where
  now : Nat
  random : CryptoService.Random

def Moment.nowSecs (moment : Moment) : Nat := moment.now / 1000

/-- What one turn of a handler leaves: the database, and a wait or an answer. -/
structure Turn (Task Answer : Type) where
  db : Db
  next : Option Task := none
  answer : Option (Except Rejection Answer) := none

namespace Turn

variable {Task Answer : Type}

def wait (db : Db) (task : Task) : Turn Task Answer := { db, next := some task }

def reply (db : Db) (answer : Answer) : Turn Task Answer := { db, answer := some (.ok answer) }

def reject (db : Db) (rejection : Rejection) : Turn Task Answer :=
  { db, answer := some (.error rejection) }

/-- A handler that fails before it writes. -/
def orReject {A : Type} (db : Db) (x : Except Rejection A) (continue_ : A → Turn Task Answer) :
    Turn Task Answer :=
  match x with
  | .ok a => continue_ a
  | .error rejection => reject db rejection

/-- The turn of an atomic write: the answer needs the written database. -/
def commit (db : Db) (written : Except Rejection Db) (answer : Answer) : Turn Task Answer :=
  match written with
  | .ok db' => reply db' answer
  | .error rejection => reject db rejection

end Turn

@[simp] theorem refuse_ok {condition : Bool} {status : Nat} {error : String} {u : Unit} :
    refuse condition status error = .ok u ↔ condition = false := by
  cases condition <;> simp [refuse]

@[simp] theorem internalError_ok {A : Type} {x : Except String A} {a : A} :
    internalError x = .ok a ↔ x = .ok a := by
  cases x <;> simp [internalError]

end PrivateBtc.Backend.Http

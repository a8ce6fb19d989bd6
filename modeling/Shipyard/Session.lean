import Shipyard.Identifiers
import Shipyard.Instant
import Shipyard.Table

/-!
# Sessions

Who is logged in, and until when. A session ends at its last moment, not after it.
-/

namespace Shipyard

structure Session where
  user : UserId
  login : String
  expiresAt : Instant
deriving DecidableEq, Repr

/-- A session that starts now and lasts so many seconds. -/
def Session.lasting (user : UserId) (login : String) (now : Instant) (seconds : Int) :
    Except Fault Session :=
  (now.later seconds).map fun expiresAt => ⟨user, login, expiresAt⟩

def Session.hasExpired (s : Session) (now : Instant) : Bool := !now.before s.expiresAt

structure Sessions where
  table : Table String Session
  down : Bool

namespace Sessions

inductive Error
  | unavailable (reason : String)
deriving DecidableEq, Repr

def Error.message : Error → String
  | .unavailable r => "Session store unavailable: " ++ r

def empty : Sessions := ⟨.empty, false⟩

def put (s : Sessions) (id : String) (session : Session) : Sessions :=
  { s with table := s.table.put id session }

def remove (s : Sessions) (id : String) : Sessions := { s with table := s.table.erase id }

def find (s : Sessions) (id : String) : Except Error (Option Session) :=
  if s.down then .error (.unavailable "store is not reachable") else .ok (s.table.find? id)

end Sessions

/-- Whom a session belongs to. -/
structure Identity where
  user : UserId
  login : String
deriving DecidableEq, Repr

inductive IdentityError
  | sessionNotFound
  | sessionExpired
  | store (cause : Sessions.Error)
deriving DecidableEq, Repr

def IdentityError.message : IdentityError → String
  | .sessionNotFound => "Session not found"
  | .sessionExpired => "Session expired"
  | .store cause => cause.message

def Sessions.whoami (s : Sessions) (id : String) (now : Instant) :
    Except IdentityError Identity :=
  match s.find id with
  | .error e => .error (.store e)
  | .ok none => .error .sessionNotFound
  | .ok (some session) =>
    if session.hasExpired now then .error .sessionExpired
    else .ok ⟨session.user, session.login⟩

end Shipyard

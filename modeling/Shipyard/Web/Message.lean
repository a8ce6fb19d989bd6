import Shipyard.Text.Utf8

/-!
# Requests and responses

Header values are bytes. The names of a request's headers are compared without regard to case, and
of several headers with one name the first counts.
-/

namespace Shipyard.Web

structure Request where
  method : String
  /-- What is asked for: a path or an address as a whole. -/
  target : String
  headers : List (String × Bytes)
  body : Bytes

structure Response where
  status : Nat
  headers : List (String × String)
  body : Bytes
deriving DecidableEq

def lowered (name : String) : String := name.map Char.toLower

def Request.header? (r : Request) (name : String) : Option Bytes :=
  (r.headers.find? fun h => lowered h.1 = name).map (·.2)

/-- Printable ASCII and tabs. -/
def isVisible (b : UInt8) : Bool := (32 ≤ b && b < 127) || b = 9

/-- A header value as a text, if it is visible throughout. -/
def visible? (value : Bytes) : Option String :=
  if value.all isVisible then Text.ofBytes? value else none

/-- What a header value may hold: everything but controls, of which a tab is allowed. -/
def isLegal (b : UInt8) : Bool := (32 ≤ b && b ≠ 127) || b = 9

def Response.empty (status : Nat) : Response := ⟨status, [], []⟩

def Response.withoutBody (r : Response) : Response := { r with body := [] }

end Shipyard.Web

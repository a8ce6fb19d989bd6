import Shipyard.Gateway.Cookie
import Shipyard.Job
import Shipyard.Json.Printer
import Shipyard.Web.Message

/-!
# The check at the edge

A request comes in with a session cookie and goes on with the identity of its user in its headers;
the cookie and other credentials are taken off. Every failure gives one and the same refusal, so
that nobody learns what was wrong. An identity that cannot stand in a header is an error of its
own.
-/

namespace Shipyard.Gateway

def userHeader : String := "x-user-uuid"

def loginHeader : String := "x-user-login"

/-- The headers of a request, by lower-case name, repeated ones joined. -/
structure CheckRequest where
  headers : Table String String

namespace CheckRequest

/-- Cookies are joined as cookies, other headers as lists. -/
def joint (name : String) : String := if name = "cookie" then "; " else ", "

def addHeader (r : CheckRequest) (header : String × String) : CheckRequest :=
  let name := Web.lowered header.1
  match r.headers.find? name with
  | some value => ⟨r.headers.put name (value ++ joint name ++ header.2)⟩
  | none => ⟨r.headers.put name header.2⟩

def ofHeaders (headers : List (String × String)) : CheckRequest := headers.foldl addHeader ⟨.empty⟩

def header? (r : CheckRequest) (name : String) : Option String :=
  r.headers.find? (Web.lowered name)

end CheckRequest

inductive Decision
  | allow (identity : Identity)
  | deny
deriving DecidableEq, Repr

namespace Decision

def verdict : Decision → String
  | .allow _ => "allowed"
  | .deny => "denied"

def isAllowed : Decision → Bool
  | .allow _ => true
  | .deny => false

/-- Headers that a request gets when it goes on. -/
def added (i : Identity) : List (String × String) :=
  [(userHeader, i.user.text), (loginHeader, i.login)]

/-- Headers that it loses. -/
def removed : List String := ["cookie", "authorization"]

def deniedStatus : Nat := 403

def deniedBody : String :=
  (Json.Value.object [("error", .text "Missing or invalid session")]).print

def deniedHeaders : List (String × String) :=
  [("content-type", "application/json"), ("x-auth-status", "denied")]

end Decision

/-- Decides on a request by the session that its cookies name. -/
def decide (r : CheckRequest) : Job Decision :=
  match (r.header? "cookie").bind sessionToken? with
  | none => .done .deny
  | some token =>
    .ask (.whoami token) fun
      | .ok identity => .done (.allow identity)
      | .error _ => .done .deny

/-- Decides, and counts the verdict. -/
def check (r : CheckRequest) : Job Decision :=
  (decide r).bind fun d => .ask (.count (.checks d.isAllowed) 1) fun _ => .done d

/-- Whether a text can stand in a header. -/
def isHeaderValue (s : String) : Bool := (Text.bytes s).all Web.isLegal

/-- The decision as a response: the headers to take off are named in a header. -/
def respond : Decision → Web.Response
  | .deny => ⟨Decision.deniedStatus, Decision.deniedHeaders, Text.bytes Decision.deniedBody⟩
  | .allow i =>
    if isHeaderValue i.user.text && isHeaderValue i.login then
      ⟨200, Decision.added i ++
        [("x-envoy-auth-headers-to-remove", ",".intercalate Decision.removed)], []⟩
    else .empty 500

/-- Every method and every path is a check. -/
def serve (r : Web.Request) : Job Web.Response :=
  (check (.ofHeaders (r.headers.map fun h => (h.1, Text.lossy h.2)))).bind fun d =>
    let response := respond d
    .done (if r.method = "HEAD" then response.withoutBody else response)

end Shipyard.Gateway

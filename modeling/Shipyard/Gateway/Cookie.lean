import Shipyard.Text.Blank
import Shipyard.Text.Percent

/-!
# Session cookies

A cookie header is a list of pairs of a name and a value. The first pair with the name of the
session cookie counts. Its value may stand between double quotes and may hold escapes; a value
that does not decode is taken as it is.
-/

namespace Shipyard.Gateway

def sessionCookie : String := "X-Session-Uuid"

/-- The pieces between the marks. -/
def pieces (mark : Char) : List Char → List (List Char)
  | [] => [[]]
  | c :: cs =>
    if c = mark then [] :: pieces mark cs
    else
      match pieces mark cs with
      | [] => [[c]]
      | p :: ps => (c :: p) :: ps

/-- Name and value of a piece, divided by its first equals sign. -/
def pair? (piece : List Char) : Option (List Char × List Char) :=
  let p := Text.trim piece
  match p.dropWhile (· ≠ '=') with
  | [] => none
  | _ :: value => some (p.takeWhile (· ≠ '='), value)

/-- Takes off one quote from either end, if there are two. -/
def unquote : List Char → List Char
  | '"' :: cs => if cs.getLast? = some '"' then cs.dropLast else '"' :: cs
  | cs => cs

/-- The value of a piece that names the session. -/
def sessionValue? (piece : List Char) : Option (List Char) :=
  match pair? piece with
  | some (name, value) =>
    if Text.trim name = sessionCookie.toList then some (unquote (Text.trim value)) else none
  | none => none

/-- An empty value is no token. -/
def tokenOf (raw : List Char) : Option String :=
  if raw.isEmpty then none
  else some ((Text.percentDecode? (String.ofList raw)).getD (String.ofList raw))

def sessionToken? (cookie : String) : Option String :=
  ((pieces ';' cookie.toList).findSome? sessionValue?).bind tokenOf

end Shipyard.Gateway

import Shipyard.Text.Digits

/-!
# Addresses on the web

An address is a scheme, a host with or without a port, and what is asked for there. A request is
sent to an address. It arrives with a target, which is a path or an address as a whole.
-/

namespace Shipyard.Web

def isSchemeChar (c : Char) : Bool :=
  c.isAlphanum || c = '+' || c = '-' || c = '.' || c = '~'

/-- What follows the scheme of an address. -/
def afterScheme? (text : List Char) : Option (List Char) :=
  match text.dropWhile isSchemeChar with
  | ':' :: '/' :: '/' :: rest => some rest
  | _ => none

/-- What belongs to the host, before a path, a query or a fragment. -/
def isOfHost (c : Char) : Bool := c ≠ '/' && c ≠ '?' && c ≠ '#'

/-- The path of a target, without query and fragment. -/
def targetPath (target : String) : List Char :=
  let text := target.toList
  let path :=
    if text.head? = some '/' then text
    else
      match afterScheme? text with
      | some rest => rest.dropWhile isOfHost
      | none => text
  path.takeWhile fun c => c ≠ '?' && c ≠ '#'

/-- A port is a number of 16 bits, or left out. -/
def isPort (digits : List Char) : Bool :=
  digits.all Char.isDigit && Text.valueOf digits ≤ 65535

/-- Characters that the name of a host may have. -/
def isHostChar (c : Char) : Bool :=
  ' ' < c && c ≠ '\x7F' && !("#%/:<>?@[\\]^|".toList.contains c)

/-- Whether a request can be sent to an address. Tabs and line ends in it do not count, and a user
before the host is allowed. -/
def isAddress (text : String) : Bool :=
  match afterScheme? (text.toList.filter fun c => c ≠ '\t' && c ≠ '\n' && c ≠ '\r') with
  | none => false
  | some rest =>
    let authority := rest.takeWhile fun c => isOfHost c && c ≠ '\\'
    let place := (authority.reverse.takeWhile (· ≠ '@')).reverse
    let host := place.takeWhile (· ≠ ':')
    !host.isEmpty && host.all isHostChar && isPort ((place.dropWhile (· ≠ ':')).drop 1)

end Shipyard.Web

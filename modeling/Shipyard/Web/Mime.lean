/-!
# Media types

A media type is a type, a slash and a subtype, both of token characters, and parameters. A subtype
may end in a suffix after a plus sign.
-/

namespace Shipyard.Web.Mime

def isToken (c : Char) : Bool := c.isAlphanum || "!#$%&'*+-.^_`|~".toList.contains c

/-- What may stand between quotes. -/
def isQuotable (c : Char) : Bool := 31 < c.toNat && c.toNat ≠ 127

/-- What follows the first character of a quoted value, from behind its closing quote on. -/
def afterQuoted? : List Char → Option (List Char)
  | [] => none
  | c :: cs => if c = '"' then some cs else if isQuotable c then afterQuoted? cs else none

/-- A value of a parameter, with the semicolon after it. The first character between quotes is
always part of the value. -/
def afterValue? : List Char → Option (List Char)
  | '"' :: c :: cs =>
    if isQuotable c then
      match (afterQuoted? cs).map (·.dropWhile (· = ' ')) with
      | some [] => some []
      | some (';' :: rest) => some rest
      | _ => none
    else none
  | cs =>
    match cs.takeWhile isToken, cs.dropWhile isToken with
    | _, [] => some []
    | _ :: _, ';' :: rest => some rest
    | _, _ => none

/-- Whether parameters are well formed. Fuel is their length. -/
def paramsFit : Nat → List Char → Bool
  | 0, _ => true
  | n + 1, cs =>
    match cs with
    | [] => true
    | ' ' :: rest => paramsFit n rest
    | cs =>
      match cs.takeWhile isToken, cs.dropWhile isToken with
      | _ :: _, '=' :: value =>
        match afterValue? value with
        | some rest => paramsFit n rest
        | none => false
      | _, _ => false

/-- Type and subtype of a well-formed text. -/
def parse? (s : String) : Option (List Char × List Char) :=
  let kind := s.toList.takeWhile isToken
  match kind, s.toList.dropWhile isToken with
  | _ :: _, '/' :: rest =>
    let subtype := rest.takeWhile isToken
    match subtype, rest.dropWhile isToken with
    | _, [] => some (kind, subtype)
    | _ :: _, ';' :: params =>
      if paramsFit (params.length + 1) params then some (kind, subtype) else none
    | _, _ => none
  | _, _ => none

/-- A subtype divided at its last plus sign, unless that begins it. -/
def parts (subtype : List Char) : List Char × Option (List Char) :=
  let suffix := (subtype.reverse.takeWhile (· ≠ '+')).reverse
  let base := subtype.take (subtype.length - suffix.length - 1)
  if suffix.length < subtype.length ∧ base ≠ [] then (base, some suffix) else (subtype, none)

def lower (cs : List Char) : List Char := cs.map Char.toLower

/-- Whether a media type is JSON, or written in JSON by its suffix. -/
def isJson (s : String) : Bool :=
  match parse? s with
  | none => false
  | some (kind, subtype) =>
    let (base, suffix) := parts (lower subtype)
    lower kind = "application".toList && (base = "json".toList || suffix = some "json".toList)

end Shipyard.Web.Mime

import Shipyard.Json.Printer
import Shipyard.Json.Record
import Shipyard.Outbox
import Shipyard.Web.Address

/-!
# Notices through a bot

A bot posts a message to a chat through an interface over HTTP. The other side answers in JSON
whether it took the message. How a request gets there and back is left open: a transport maps it
to an answer, or to the reason why there is none.
-/

namespace Shipyard.Notice

structure Bot where
  baseUrl : String
  token : String
  chat : String

/-- What is sent. -/
structure Post where
  url : String
  contentType : String
  body : Bytes
deriving DecidableEq, Repr

structure Answer where
  status : Nat
  body : Bytes
deriving DecidableEq, Repr

abbrev Transport : Type := Post → Except String Answer

namespace Bot

def standardUrl : String := "https://api.telegram.org"

def name : String := "telegram"

/-- The base without slashes at its end. -/
def trimmedBase (b : Bot) : String :=
  String.ofList (b.baseUrl.toList.reverse.dropWhile (· = '/')).reverse

def post (b : Bot) (text : String) : Post where
  url := b.trimmedBase ++ "/bot" ++ b.token ++ "/sendMessage"
  contentType := "application/json"
  body := (Json.Value.object [("chat_id", .text b.chat), ("text", .text text)]).bytes

/-- What the other side says about a message. -/
structure Report where
  ok : Bool
  description : Option String
deriving DecidableEq, Repr

namespace Report

structure Draft where
  ok : Option Bool
  description : Option (Option String)

def record : Json.Record Draft Report where
  name := "TelegramResponse"
  blank := ⟨none, none⟩
  fields := [
    .ofCodec "ok" Json.Codec.boolean Draft.ok fun s x => { s with ok := some x },
    { Json.Field.ofCodec "description" Json.Codec.text.optional Draft.description
        fun s x => { s with description := some x } with omissible := true }]
  finish s := do
    let ok ← Json.Record.needed "ok" s.ok
    .ok { ok, description := s.description.join }

end Report

def judge (a : Answer) : Except ChannelError Unit :=
  match Report.record.codec.decode a.body with
  | .error _ => .error (.rejected a.status "unreadable response")
  | .ok report =>
    if report.ok && 200 ≤ a.status && a.status < 300 then .ok ()
    else .error (.rejected a.status (report.description.getD "no description"))

/-- Sends a text. A post that goes to no address is not sent at all. -/
def send (transport : Transport) (b : Bot) (text : String) : Except ChannelError Unit :=
  if Web.isAddress (b.post text).url then
    match transport (b.post text) with
    | .error reason => .error (.request reason)
    | .ok a => judge a
  else .error (.request "builder error")

/-- A network on which nothing can be reached. -/
def unreachable : Transport := fun _ => .error "error sending request"

/-- The bot without its token, for logs. -/
def summary (b : Bot) : String :=
  "TelegramChannel \x7b base_url: " ++ Text.quoted b.baseUrl ++ ", chat_id: " ++
    Text.quoted b.chat ++ ", .. \x7d"

end Bot
end Shipyard.Notice

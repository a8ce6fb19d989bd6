import Shipyard.Span
import Shipyard.Text.Blank
import Shipyard.Text.Quoted

/-!
# Settings

What the service reads from its variables when it starts. A blank variable counts as not set, and
what is not set has a default. The first variable with a value that does not do is named.
-/

namespace Shipyard

namespace Settings

inductive LogFormat
  | pretty
  | json
deriving DecidableEq, Repr

def LogFormat.name : LogFormat → String
  | .pretty => "pretty"
  | .json => "json"

/-- A bot that sends notices, and the chat it sends them to. -/
structure Bot where
  token : String
  chat : String
deriving DecidableEq, Repr

inductive Reason
  | noFormat
  | invalidDigit
  | tooLarge
  | zero
deriving DecidableEq, Repr

def Reason.message : Reason → String
  | .noFormat => "expected `pretty` or `json`"
  | .invalidDigit => "invalid digit found in string"
  | .tooLarge => "number too large to fit in target type"
  | .zero => "must be at least 1"

structure Error where
  name : String
  value : String
  reason : Reason
deriving DecidableEq, Repr

def Error.message (e : Error) : String :=
  "Invalid value for " ++ e.name ++ ": " ++ Text.quoted e.value ++
    " (" ++ e.reason.message ++ ")"

end Settings

structure Settings where
  host : String
  port : Nat
  gatewayPort : Nat
  logLevel : String
  logFormat : Settings.LogFormat
  database : Option String
  partitions : Nat
  maxAttempts : Nat
  deadline : Span
  buildUnit : Span
  bot : Option Settings.Bot
deriving DecidableEq, Repr

namespace Settings

def defaults : Settings :=
  { host := "0.0.0.0"
    port := 3000
    gatewayPort := 3001
    logLevel := "info"
    logFormat := .pretty
    database := none
    partitions := 4
    maxAttempts := 5
    deadline := .ofSeconds 5
    buildUnit := .ofSeconds 1
    bot := none }

/-- Where variables come from. -/
abbrev Source : Type := String → Option String

/-- The value of a variable that is not blank. -/
def Source.get (source : Source) (name : String) : Option String :=
  (source name).filter fun v => !(Text.trimmed v).isEmpty

/-- A number below a limit, possibly with a plus sign. Digits are judged one by one, so the
first fault from the left is the reason. -/
def digitsBelow (limit : Nat) : Nat → List Char → Except Reason Nat
  | n, [] => .ok n
  | n, c :: cs =>
    if c.isDigit = false then .error .invalidDigit
    else if 10 * n + (c.toNat - 48) < limit then digitsBelow limit (10 * n + (c.toNat - 48)) cs
    else .error .tooLarge

def numberBelow (limit : Nat) (s : String) : Except Reason Nat :=
  match Text.trim s.toList with
  | ['+'] => .error .invalidDigit
  | '+' :: cs => digitsBelow limit 0 cs
  | cs => digitsBelow limit 0 cs

def number (source : Source) (name : String) (limit default : Nat) : Except Error Nat :=
  match source.get name with
  | none => .ok default
  | some v => (numberBelow limit v).mapError fun r => ⟨name, v, r⟩

def positive (name : String) (n : Nat) : Except Error Nat :=
  if n = 0 then .error ⟨name, Text.decimal n, .zero⟩ else .ok n

def millis (source : Source) (name : String) (default : Span) : Except Error Span :=
  (number source name 0x10000000000000000 (default.nanos / 1000000)).map .ofMillis

def sameLetters (s t : String) : Bool := s.map Char.toLower = t

def format (source : Source) : Except Error LogFormat :=
  match source.get "LOG_FORMAT" with
  | none => .ok defaults.logFormat
  | some v =>
    if sameLetters v "json" then .ok .json
    else if sameLetters v "pretty" then .ok .pretty
    else .error ⟨"LOG_FORMAT", v, .noFormat⟩

/-- The bot is set only if both its variables are. -/
def bot? (source : Source) : Option Bot := do
  let token ← source.get "TELEGRAM_BOT_TOKEN"
  let chat ← source.get "TELEGRAM_CHAT_ID"
  some ⟨token, chat⟩

def read (source : Source) : Except Error Settings := do
  let logFormat ← format source
  let port ← number source "PORT" 0x10000 defaults.port
  let gatewayPort ← number source "GATEWAY_PORT" 0x10000 defaults.gatewayPort
  let partitions ← number source "BUS_PARTITIONS" 0x100000000 defaults.partitions
  let partitions ← positive "BUS_PARTITIONS" partitions
  let maxAttempts ← number source "CONSUMER_MAX_ATTEMPTS" 0x100000000 defaults.maxAttempts
  let maxAttempts ← positive "CONSUMER_MAX_ATTEMPTS" maxAttempts
  let deadline ← millis source "RPC_TIMEOUT_MS" defaults.deadline
  let buildUnit ← millis source "ASSEMBLY_TIME_UNIT_MS" defaults.buildUnit
  .ok {
    host := (source.get "HOST").getD defaults.host
    logLevel := (source.get "RUST_LOG").getD defaults.logLevel
    database := source.get "DATABASE_URL"
    bot := bot? source
    port, gatewayPort, logFormat, partitions, maxAttempts, deadline, buildUnit }

def address (host : String) (port : Nat) : String := host ++ ":" ++ Text.decimal port

def addr (s : Settings) : String := address s.host s.port

def gatewayAddr (s : Settings) : String := address s.host s.gatewayPort

/-- The bot without its token, for logs. -/
def botText : Option Bot → String
  | none => "None"
  | some b => "Some(TelegramConfig \x7b chat_id: " ++ Text.quoted b.chat ++ ", .. \x7d)"

end Settings
end Shipyard

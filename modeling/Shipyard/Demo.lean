import Shipyard.World

/-!
# Demonstration data

A small catalogue and one session, to try the service out.
-/

namespace Shipyard.Demo

def part (n : Nat) (name : String) (price : Money) (quantity : Int) : Part :=
  { id := ⟨"4d3c1b2a-0000-4000-8000-" ++ Text.padded 12 n⟩, name, price, quantity }

def parts : List Part := [
  part 1 "Main engine" ⟨100, by omega⟩ 50,
  part 2 "Hull section" ⟨200, by omega⟩ 20,
  part 3 "Porthole" ⟨35, by omega⟩ 100,
  part 4 "Fuel tank" ⟨80, by omega⟩ 0]

def sessionId : String := "sess-123"

/-- The session ends after a day. -/
def session (now : Instant) : Session := ⟨⟨"u1"⟩, "alice", now.plusSeconds 86400⟩

def seed (w : World) : World :=
  { w with
    stock := parts.foldl Stock.upsert w.stock
    sessions := w.sessions.put sessionId (session w.today) }

end Shipyard.Demo

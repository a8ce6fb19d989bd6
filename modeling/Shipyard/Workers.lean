import Shipyard.Assembly
import Shipyard.Fulfilment.BuildCompletion
import Shipyard.Notice

/-!
# The workers

The four consumers that move paid orders on, and what it is to run them until a shutdown.
-/

namespace Shipyard

namespace Workers

def orderService (calls : ServiceCalls) (config : Consumer.Config) : Consumer :=
  ⟨Fulfilment.buildGroup, .assembled, Fulfilment.buildHandler calls, config⟩

def assembly (build : Assembly.Config) (config : Consumer.Config) : Consumer :=
  ⟨Assembly.group, .paid, Assembly.handler build, config⟩

def paidNotices (channel : Notice.Channel) (config : Consumer.Config) : Consumer :=
  ⟨Notice.paidGroup, .paid, Notice.paidHandler channel, config⟩

def assembledNotices (channel : Notice.Channel) (config : Consumer.Config) : Consumer :=
  ⟨Notice.assembledGroup, .assembled, Notice.assembledHandler channel, config⟩

def all (calls : ServiceCalls) (build : Assembly.Config) (channel : Notice.Channel)
    (config : Consumer.Config) : List Consumer :=
  [orderService calls config, assembly build config, paidNotices channel config,
    assembledNotices channel config]

/-- A consumer at work, or a job beside it that yields nothing. -/
abbrev Thread : Type := Consumer.Worker ⊕ Job Unit

def machine : Machine Thread := Consumer.Worker.machine.either (Job.machine Unit)

/-- Raises a signal after a span of time. -/
def stopper (signal : Signal) (length : Span) : Job Unit :=
  (Job.sleep length none).bind fun _ => .ask (.raise signal) .done

/-- A signal that nothing in the world knows yet. -/
def freshSignal (w : World) : Signal := ⟨(w.raised.map Signal.number).foldl max 0 + 1⟩

/-- Runs consumers until a shutdown after a span of time, and waits for their ends. -/
def run (consumers : List Consumer) (length : Span) (t : Turn) : Turn :=
  let signal := freshSignal t.world
  let threads := consumers.map fun c => Sum.inl (c.start .forever (some signal) t.world)
  .start (Pool.finish machine t (.inr (stopper signal length) :: threads)).1.world

end Workers
end Shipyard

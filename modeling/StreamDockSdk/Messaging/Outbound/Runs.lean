import StreamDockSdk.Automaton.System
import StreamDockSdk.Automaton.Calls
import StreamDockSdk.Messaging.Outbound

namespace StreamDockSdk.Messaging

/-! # Threads that use an `OutboundCommandQueue`

Every call of `cancel`, `_start_send`, `_finish` and `shutdown` runs on a thread
of its own, also where an observer makes it, and so does every deadline watcher.
A `BaseException` of an observer ends the thread.
-/

structure OutboundWorld (Command : Type) where
  commands : CommandState Command := {}
  threads : List (List CommandOp) := []
  /-- The threads that discarded the queue in `shutdown`, with what they removed. -/
  discards : List (Nat × List Nat) := []

inductive OutboundLabel (Command : Type) where
  | tick
  /-- `starts` is false where the watcher's thread cannot be started. -/
  | sendAsync (command : Command) (deadline : Option Nat) (starts : Bool)
  | receive
  | cancel (completion : Nat)
  | startSend (completion : Nat)
  | finish (completion : Nat) (error : Outcome)
  | stopAccepting
  | shutdown
  | run (thread : Nat) (choice : Choice)
deriving DecidableEq, Repr

namespace OutboundWorld

variable {Command Key : Type} [Inhabited Command] [BEq Key]
variable (config : OutboundConfig Command Key) (world : OutboundWorld Command)

/-- A thread of its own begins a call. -/
def call (stack : List CommandOp) : OutboundWorld Command :=
  { world with threads := world.threads ++ [stack] }

/-- A call on a completion that exists. -/
def callOn (completion : Nat) (op : CommandOp) : Option (OutboundWorld Command) :=
  if completion < world.commands.futures.length then some (world.call [op]) else none

def sendAsync (command : Command) (deadline : Option Nat) (starts : Bool) :
    OutboundWorld Command :=
  let sent := world.commands.sendAsync config command deadline starts world.threads.length
  { world with
    commands := sent.state
    threads := if sent.watcher then world.threads ++ [[.watchDeadlines]] else world.threads }

/-- The discard that the operation makes on the thread. -/
def discarding (index : Nat) : CommandOp → List (Nat × List Nat)
  | .discardQueue => [(index, world.commands.completions)]
  | _ => []

def run (index : Nat) (choice : Choice) : Option (OutboundWorld Command) :=
  match world.threads[index]? with
  | some (op :: rest) =>
      match choice, op with
      | .raises, .observe _ =>
          some { world with threads := Automaton.resume world.threads index [] }
      | .raises, _ => none
      | choice, op =>
          (world.commands.advance choice op).map fun (commands, calls) => { world with
            commands
            threads := Automaton.resume world.threads index (calls ++ rest)
            discards := world.discards ++ world.discarding index op }
  | _ => none

def step : OutboundLabel Command → Option (OutboundWorld Command)
  | .tick => some { world with commands := { world.commands with clock := world.commands.clock + 1 } }
  | .sendAsync command deadline starts => some (world.sendAsync config command deadline starts)
  | .receive => world.commands.receive.map fun (commands, _) => { world with commands }
  | .cancel completion => world.callOn completion (.cancel completion)
  | .startSend completion => world.callOn completion (.startSend completion)
  | .finish completion error => world.callOn completion (.finish completion error)
  | .stopAccepting => some (world.call [.stopAccepting])
  | .shutdown => some (world.call [.stopAccepting, .drain])
  | .run thread choice => world.run thread choice

end OutboundWorld

variable {Command Key : Type} [Inhabited Command] [BEq Key]

/-- Every run of threads that use one queue. -/
def outboundSystem (config : OutboundConfig Command Key) :
    Automaton.System (OutboundWorld Command) (OutboundLabel Command) where
  initial world := world = {}
  step := OutboundWorld.step config

end StreamDockSdk.Messaging

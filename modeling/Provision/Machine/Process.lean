import Provision.Console.Write
import Provision.Failure
import Provision.Machine.World

/-!
# Process — running commands on a host

Whatever is done on a host is logged in order: what is written to the console, which processes are
started and which commands cannot be.  In a verbose tone a command is echoed before it is started.
This file defines:

* `Activity` — an entry of the log;
* `Logged` — a value with the log of the activities that led to it;
* `World.launch` — start a command after its echo, and `World.interactive` — run it on the console;
* `World.checked` — the same, where any end but success is a failure;
* `World.captured` — run a command for its output.
-/

namespace Provision

/-! ## Logs -/

inductive Activity where
  | wrote (write : Write)
  | started (process : Process)
  | refused (command : Command)
  deriving DecidableEq, Repr

/-- A value and the activities that led to it. -/
structure Logged (α : Type) where
  value : α
  log : List Activity
  deriving Repr

namespace Logged

variable {α β : Type}

def quietly (value : α) : Logged α :=
  ⟨value, []⟩

def map (f : α → β) (l : Logged α) : Logged β :=
  ⟨f l.value, l.log⟩

end Logged

def writesOf (log : List Activity) : List Write :=
  log.filterMap fun
    | .wrote write => some write
    | _ => none

def processesOf (log : List Activity) : List Process :=
  log.filterMap fun
    | .started process => some process
    | _ => none

/-! ## Commands -/

/-- The failure of a command that is not started. -/
def Command.refusal (c : Command) (e : StartError) : Failure :=
  .command c.display e.text

/-- The failure of a command that ends badly. -/
def Command.badEnd (c : Command) (status : ExitStatus) : Failure :=
  .manager ("'" ++ c.display ++ "' exited with " ++ status.text)

/-- Turn any end but success into a failure. -/
def Command.judge (c : Command) (status : ExitStatus) : Except Failure Unit :=
  if status.isSuccess then .ok () else .error (c.badEnd status)

/-- The echo of a command, in a tone that has it. -/
def Command.echo (tone : Tone) (c : Command) : List Activity :=
  (tone.echo c.display).map .wrote

namespace World

/-- Start a command after its echo; of the effect, `shown` is the output that goes to the
console. -/
def launch (w : World) (tone : Tone) (shown : Effect → List Write) (c : Command) :
    Logged (Except Failure Effect) :=
  match w.start c with
  | .error e => ⟨.error (c.refusal e), c.echo tone ++ [.refused c]⟩
  | .ok (process, effect) =>
      ⟨.ok effect, c.echo tone ++ .started process :: (shown effect).map .wrote⟩

def interactive (w : World) (tone : Tone) (c : Command) : Logged (Except Failure ExitStatus) :=
  (w.launch tone (fun effect => [.child effect.stdout]) c).map fun r =>
    r.map fun effect => effect.status

/-- Run a command on the console; it has to succeed. -/
def checked (w : World) (tone : Tone) (c : Command) : Logged (Except Failure Unit) :=
  (w.interactive tone c).map fun r => r.bind (Command.judge c)

def captured (w : World) (tone : Tone) (c : Command) : Logged (Except Failure Effect) :=
  w.launch tone (fun _ => []) c

end World
end Provision

import Provision.Installer.Basic
import Provision.Machine.Workshop
import Provision.Manager.Basic
import Provision.Settings

/-!
# Setup — one setup of one host

The platform is announced and its package manager chosen, the requested names are validated, and
then the plan is listed or carried out with the package manager, the workshop and the operator of
the host.  This file defines:

* `announce` — the words on a platform and its package manager;
* `Plan.list` — the listing of a plan;
* `Signal` — when the operator interrupts a setup;
* `Session`, `Host`, `Host.surroundings` — a host as the surroundings of the installer;
* `Setup.run` — the whole setup, with its log and the input that is left;
* `Failure.report`, `exitCode` — how the outcome is reported.
-/

namespace Provision

/-! ## The platform -/

/-- What is said about a platform when it is met. -/
def greeting (tone : Tone) (platform : Platform) : List Write :=
  if platform ≠ .unknown ∧ tone.quiet = false then
    [.info ("host os \"" ++ platform.name ++ "\" detected")]
  else []

/-- What is said about a platform that is rejected. -/
def rejection (platform : Platform) (failure : Failure) : List Write :=
  platform.hint.toList.map .warning ++ [.error failure.message]

/-- Announce a platform: what is said, and the package manager for it. -/
def announce (tone : Tone) (platform : Platform) : Except Failure Backend × List Write :=
  match platform.backend with
  | .ok backend => (.ok backend, greeting tone platform)
  | .error failure => (.error failure, greeting tone platform ++ rejection platform failure)

/-! ## The listing -/

/-- The title of the list of a plan. -/
def Backend.title (backend : Backend) : String :=
  "Packages to set up with " ++ backend.manager

/-- List a plan: its rows under a title.  It fails at the first identifier that names no tool, after
all rows. -/
def Plan.list (tone : Tone) (backend : Backend) (plan : Plan) : Except Failure Unit × List Write :=
  let rows := tone.header backend.title ++ plan.map fun step => .row 1 step.row
  match plan.unsupported? with
  | none => (.ok (), rows)
  | some id =>
      (.error (.configuration
          ("package " ++ id ++ " can not be installed with " ++ backend.manager)),
        rows)

/-! ## Sessions -/

/-- When a setup is interrupted, by the number of polls before and the commands that were
started. -/
abbrev Signal := Nat → List (List String) → Bool

namespace Signal

/-- The setup is never interrupted. -/
def never : Signal :=
  fun _ _ => false

end Signal

/-- The state of a setup: the input that is left, the number of polls, and the log. -/
structure Session where
  input : Input
  polls : Nat
  log : List Activity
  deriving Repr

namespace Session

/-- Append the log of an operation, and take its value. -/
def take {α : Type} (s : Session) (l : Logged α) : α × Session :=
  (l.value, { s with log := s.log ++ l.log })

def say (s : Session) (writes : List Write) : Session :=
  { s with log := s.log ++ writes.map .wrote }

/-- The commands that were started so far. -/
def commands (s : Session) : List (List String) :=
  (processesOf s.log).map Process.argv

end Session

/-! ## The host -/

/-- A host with the package manager, the scripts directory, the operator and the tone of a setup. -/
structure Host where
  world : World
  backend : Backend
  scriptsDir : String
  operator : Operator
  tone : Tone
  interrupted : Signal

/-- The host answers the requests of the installer. -/
def Host.surroundings (host : Host) : Surroundings Session where
  answer
    | .poll, s => (host.interrupted s.polls s.commands, { s with polls := s.polls + 1 })
    | .available, s => s.take (host.backend.isAvailable host.world host.tone)
    | .bootstrap, s => s.take (host.backend.bootstrap host.world host.tone)
    | .update, s => s.take (host.backend.update host.world host.tone)
    | .check package, s => s.take (host.backend.isInstalled host.world host.tone package none)
    | .install package, s => s.take (host.backend.install host.world host.tone package)
    | .upgrade package, s => s.take (host.backend.upgrade host.world host.tone package)
    | .ask question, s =>
        let reply := host.operator.reply host.tone question s.input
        (reply.answer, { s.say reply.writes with input := reply.rest })
    | .probe probe, s => s.take (Workshop.isBuilt host.world host.tone probe)
    | .build script, s => s.take (Workshop.build host.world host.tone host.scriptsDir script)
    | .inform message, s => ((), s.say (host.tone.info message))

/-! ## The setup -/

structure Outcome where
  result : Except Failure Unit
  session : Session

namespace Setup

def begin (world : World) : Session :=
  ⟨Text.inputLines world.stdin, 0, []⟩

/-- The host of a setup. -/
def hostOf (backend : Backend) (settings : Settings) (world : World) (interrupted : Signal) :
    Host :=
  ⟨world, backend, settings.scriptsDir, settings.operator, settings.tone, interrupted⟩

def carryOut (host : Host) (plan : Plan) (s : Session) : Outcome :=
  let run := (Installer.install host.backend plan).run host.surroundings
    (s.say (host.tone.info "installing packages"))
  ⟨run.result, run.state⟩

def list (tone : Tone) (backend : Backend) (plan : Plan) (s : Session) : Outcome :=
  let (result, writes) := plan.list tone backend
  ⟨result, s.say writes⟩

/-- Set up a host whose platform has a package manager. -/
def runWith (backend : Backend) (settings : Settings) (world : World) (interrupted : Signal)
    (s : Session) : Outcome :=
  match PackageName.validateAll settings.packages with
  | .error failure => ⟨.error failure, s⟩
  | .ok _ =>
      let plan := backend.plan settings.packages
      if settings.listOnly then list settings.tone backend plan s
      else carryOut (hostOf backend settings world interrupted) plan s

def run (platform : Platform) (settings : Settings) (world : World) (interrupted : Signal) :
    Outcome :=
  let (chosen, writes) := announce settings.tone platform
  let s := (begin world).say writes
  match chosen with
  | .error failure => ⟨.error failure, s⟩
  | .ok backend => runWith backend settings world interrupted s

end Setup

/-! ## The report -/

/-- The last words on a failure; in a verbose tone they name its causes.  A rejected platform has
been reported when it was announced. -/
def Failure.report (tone : Tone) (failure : Failure) : List Write :=
  match failure with
  | .unsupportedPlatform _ => []
  | _ =>
      let causes := if tone.verbose then
          failure.sources.map fun source => Write.cause source.message
        else []
      .error failure.message :: causes ++ [.error "unsuccessful setup process"]

def exitCode (result : Except Failure Unit) : Nat :=
  match result with
  | .ok _ => 0
  | .error _ => 1

/-- The outcome with the report of its failure in the log. -/
def Outcome.reported (tone : Tone) (o : Outcome) : Outcome :=
  match o.result with
  | .ok _ => o
  | .error failure => { o with session := o.session.say (failure.report tone) }

end Provision

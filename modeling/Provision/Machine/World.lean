import Provision.Machine.Command
import Provision.Machine.Disk

/-!
# World — a host with programs that follow rules

The programs of a host are given by rules: by its arguments a program writes some output and ends in
some way.  It changes nothing, so that the same command has the same effect each time.  This file
defines:

* `ExitStatus` — how a process ends, in words by `ExitStatus.text`;
* `Program`, `World` — the programs, the disk and the standard input of a host;
* `World.start` — what comes of starting a command.
-/

namespace Provision

/-! ## Ends of processes -/

inductive ExitStatus where
  /-- The process ends by itself with a code, of which the system keeps eight bits. -/
  | exited (code : UInt8)
  | signalled (number : Nat)
  deriving DecidableEq, Repr

namespace ExitStatus

/-- A process succeeds by ending with code zero. -/
def isSuccess (status : ExitStatus) : Bool :=
  status = exited 0

/-- The names of the signals, from number 1 on.  Those after number 31 have none. -/
def signalNames : List String :=
  ["SIGHUP", "SIGINT", "SIGQUIT", "SIGILL", "SIGTRAP", "SIGABRT", "SIGBUS", "SIGFPE", "SIGKILL",
    "SIGUSR1", "SIGSEGV", "SIGUSR2", "SIGPIPE", "SIGALRM", "SIGTERM", "SIGSTKFLT", "SIGCHLD",
    "SIGCONT", "SIGSTOP", "SIGTSTP", "SIGTTIN", "SIGTTOU", "SIGURG", "SIGXCPU", "SIGXFSZ",
    "SIGVTALRM", "SIGPROF", "SIGWINCH", "SIGIO", "SIGPWR", "SIGSYS"]

/-- The name of a signal in brackets, if it has one. -/
def signalName : Nat → String
  | 0 => ""
  | n + 1 =>
      match signalNames[n]? with
      | some name => " (" ++ name ++ ")"
      | none => ""

def text : ExitStatus → String
  | exited code => "exit status: " ++ toString code.toNat
  | signalled number => "signal: " ++ toString number ++ signalName number

end ExitStatus

/-! ## Programs -/

structure Effect where
  stdout : List UInt8
  stderr : List UInt8
  status : ExitStatus
  deriving DecidableEq, Repr

/-- What a program does when its arguments, with single blanks between them, are `args`; or
always. -/
structure Rule where
  args : Option String
  effect : Effect
  deriving DecidableEq, Repr

inductive Program where
  /-- A file that must not be executed. -/
  | noexec
  /-- A program that follows the first rule that applies. -/
  | rules (rules : List Rule)
  deriving DecidableEq, Repr

/-- A process that no rule speaks about ends well and prints nothing. -/
def Effect.silent : Effect :=
  ⟨[], [], .exited 0⟩

def Rule.applies (r : Rule) (args : List String) : Bool :=
  match r.args with
  | none => true
  | some text => text = String.intercalate " " args

def Rule.effectOf (rules : List Rule) (args : List String) : Effect :=
  match rules.find? fun r => r.applies args with
  | some r => r.effect
  | none => .silent

/-! ## Hosts -/

structure World where
  programs : List (String × Program)
  disk : Disk
  stdin : List UInt8
  deriving DecidableEq, Repr

inductive StartError where
  | nulByte
  | notFound
  | notPermitted
  deriving DecidableEq, Repr

def StartError.text : StartError → String
  | nulByte => "nul byte found in provided data"
  | notFound => "No such file or directory (os error 2)"
  | notPermitted => "Permission denied (os error 13)"

/-- A process that was started: the directory and the program with its arguments. -/
structure Process where
  directory : Location
  argv : List String
  deriving DecidableEq, Repr

namespace World

/-- The program with a name; none has the empty name. -/
def program? (w : World) (name : String) : Option Program :=
  if name.isEmpty then none else w.programs.lookup name

/-- There is a program with this name that can be executed. -/
def hasProgram (w : World) (name : String) : Bool :=
  match w.program? name with
  | some (.rules _) => true
  | _ => false

def directoryOf (w : World) (c : Command) : Option Location :=
  match c.directory with
  | none => some w.disk.home
  | some path => w.disk.directory? path

/-- Start a command: the process with its effect, or the reason why there is none. -/
def start (w : World) (c : Command) : Except StartError (Process × Effect) :=
  if c.hasNull then .error .nulByte
  else
    match w.directoryOf c with
    | none => .error .notFound
    | some directory =>
        match w.program? c.program with
        | none => .error .notFound
        | some .noexec => .error .notPermitted
        | some (.rules rules) => .ok (⟨directory, c.argv⟩, Rule.effectOf rules c.args)

end World
end Provision

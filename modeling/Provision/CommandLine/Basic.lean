import Provision.CommandLine.Help
import Provision.Setup

/-!
# CommandLine — a setup from its command line to its exit code

The arguments either give settings, with which the host is set up and the outcome is reported; or
they are answered themselves, by the usage, the version or nothing.  This file defines:

* `Rejection.reply`, `Rejection.complaint?` — the answer to arguments without settings;
* `CommandLine.run` — the log of a whole call, and its exit code.
-/

namespace Provision
namespace CommandLine

def versionLine : String :=
  "hydra-setup 0.3.0"

def Rejection.reply (env : Environment) : Rejection → List Write
  | .help detailed => [.row 0 (Help.text detailed env)]
  | .version => [.row 0 versionLine]
  | _ => []

/-- What is wrong with arguments, for the error stream; asking for help or the version is no
mistake. -/
def Rejection.complaint? : Rejection → Option String
  | .help _ => none
  | .version => none
  | .unknownArgument => some "error: unexpected argument"
  | .argumentConflict => some "error: an argument cannot be used multiple times"
  | .invalidValue => some "error: invalid value for an argument"
  | .tooManyValues => some "error: unexpected value for an argument"

structure Finish where
  exitCode : Nat
  log : List Activity

/-- What a call prints, without colours. -/
def Finish.output (f : Finish) : List UInt8 :=
  render false (writesOf f.log)

/-- Set up a host with the settings of a call and report the outcome. -/
def runSettings (platform : Platform) (settings : Settings) (world : World) : Finish :=
  let outcome := (Setup.run platform settings world Signal.never).reported settings.tone
  ⟨exitCode outcome.result, outcome.session.log⟩

/-- A call on a host that nobody interrupts. -/
def run (platform : Platform) (args : List String) (env : Environment) (world : World) : Finish :=
  match Options.parse args env with
  | .error rejection => ⟨rejection.exitCode, (rejection.reply env).map .wrote⟩
  | .ok options => runSettings platform options.settings world

end CommandLine
end Provision

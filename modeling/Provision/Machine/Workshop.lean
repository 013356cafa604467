import Provision.Machine.Process
import Provision.Toolchain.Routine

/-!
# Workshop — probes and build scripts on a host

A build script is looked for below the scripts directory and is started in that directory, so its
path leads to the same file both times.
-/

namespace Provision
namespace Workshop

def scriptPath (scriptsDir : String) (script : Script) : String :=
  Path.join scriptsDir script.path

/-- A tool is built if its program can be started and reports the marker, with whatever exit
status. -/
def isBuilt (w : World) (tone : Tone) (probe : Probe) : Logged Bool :=
  (w.captured tone (.direct probe.program ["--version"])).map fun
    | .ok effect => probe.recognises (Text.Utf8.lossy effect.stdout)
    | .error _ => false

def command (scriptsDir : String) (script : Script) : Command :=
  (Command.direct script.interpreter [script.path]).within scriptsDir

/-- Run a build script, if it is there. -/
def build (w : World) (tone : Tone) (scriptsDir : String) (script : Script) :
    Logged (Except Failure Unit) :=
  if w.disk.isFile (scriptPath scriptsDir script) then w.checked tone (command scriptsDir script)
  else .quietly (.error (.scriptMissing (scriptPath scriptsDir script)))

end Workshop
end Provision

/-!
# Routine — how one tool gets onto a host

A tool comes either from packages of the package manager, or from a build script that runs unless
the tool is found already built.  This file defines:

* `Probe` — how a built tool is recognised, and `Probe.recognises`;
* `Script` — a build script and the program that interprets it;
* `Routine` — the two ways, and `Routine.describe`, one line on a routine.
-/

namespace Provision

/-! ## Parts of a routine -/

/-- A tool counts as built when the version report of `program` contains `marker`. -/
structure Probe where
  program : String
  marker : String
  deriving DecidableEq, Repr

/-- A build script, as a path below the scripts directory. -/
structure Script where
  interpreter : String
  path : String
  deriving DecidableEq, Repr

/-- `part` occurs in `text` as consecutive characters. -/
def occursIn (part : List Char) : List Char → Bool
  | [] => part.isEmpty
  | c :: text => part.isPrefixOf (c :: text) || occursIn part text

/-- A version report shows that the tool is built. -/
def Probe.recognises (probe : Probe) (report : List Char) : Bool :=
  occursIn probe.marker.toList report

/-! ## Routines -/

inductive Routine where
  /-- Install or upgrade each package, in order. -/
  | managed (packages : List String)
  /-- Unless the probe finds the tool, provide the packages needed and run the script. -/
  | fromSource (probe : Probe) (needs : List String) (script : Script)
  deriving DecidableEq, Repr

def Routine.describe : Routine → String
  | managed packages => "install or upgrade " ++ String.intercalate ", " packages
  | fromSource _ [] script => "build from source with " ++ script.path
  | fromSource _ needs script =>
      "build from source with " ++ script.path ++ " (needs " ++ String.intercalate ", " needs ++ ")"

end Provision

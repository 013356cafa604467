import Provision.Console.Prompt
import Provision.Toolchain.Tool

/-!
# Settings — what one setup is to do

`Settings` says how a setup talks, whether it only lists its plan, where the build scripts are, and
which identifiers are requested, in order.
-/

namespace Provision

structure Settings where
  assumeYes : Bool := false
  quiet : Bool := false
  verbose : Bool := false
  listOnly : Bool := false
  scriptsDir : String := "."
  packages : List String := Tool.standard
  deriving DecidableEq, Repr

namespace Settings

def tone (s : Settings) : Tone :=
  ⟨s.quiet, s.verbose⟩

def operator (s : Settings) : Operator :=
  if s.assumeYes then .assumeYes else .console

/-- A setup that lists its plan or has a standing yes never reads an answer. -/
def readsAnswers (s : Settings) : Bool :=
  !s.listOnly && !s.assumeYes

end Settings
end Provision

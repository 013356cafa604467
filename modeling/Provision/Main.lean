import Provision.CommandLine.Basic

/-!
# Main — the command line

The command line rehearses a setup of a Linux host on which no program can be started: arguments,
listings, questions and reports are those of a setup, and every command fails to start.
-/

namespace Provision

/-- A host without programs, with some standard input. -/
def bareHost (stdin : List UInt8) : World :=
  ⟨[], Disk.ofPaths [] [] [], stdin⟩

/-- The standard input, read only by a setup that reads answers. -/
def answersFor (args : List String) (env : CommandLine.Environment) : IO (List UInt8) := do
  match CommandLine.Options.parse args env with
  | .error rejection =>
      for complaint in rejection.complaint? do
        IO.eprintln complaint
      return []
  | .ok options =>
      if options.settings.readsAnswers then
        return (← (← IO.getStdin).readBinToEnd).data.toList
      else return []

end Provision

def main (args : List String) : IO UInt32 := do
  let env : Provision.CommandLine.Environment :=
    ⟨← IO.getEnv "HYDRA_SETUP_YES", ← IO.getEnv "HYDRA_SETUP_SCRIPTS_DIR"⟩
  let stdin ← Provision.answersFor args env
  let finish := Provision.CommandLine.run .linux args env (Provision.bareHost stdin)
  (← IO.getStdout).write ⟨finish.output.toArray⟩
  return finish.exitCode.toUInt32

import Provision.Proofs.Launch
import Provision.Proofs.Path

/-!
# Construction — the build script that is looked for is the one that is run

A build script is looked for from the working directory, by the path that joins the scripts
directory with its own.  It is run in the scripts directory, by its own path alone.  Since joining
paths is associative, both name one file, whatever the two paths look like.  This file defines:

* `Workshop.build_of_missing`, `build_of_found` — the two ways in which a build can go;
* `Workshop.build_ok_iff` — when a build succeeds;
* `Workshop.exists_file` — a process that was started finds the file that was looked for;
* `Workshop.Faithful`, `build_faithful` — every build keeps to this.
-/

namespace Provision
namespace Workshop

variable {w : World} {tone : Tone} {scriptsDir : String} {script : Script}

/-! ## The ways of a build -/

theorem build_of_missing (h : w.disk.isFile (scriptPath scriptsDir script) = false) :
    build w tone scriptsDir script =
      .quietly (.error (.scriptMissing (scriptPath scriptsDir script))) := by
  simp [build, h]

theorem build_of_found (h : w.disk.isFile (scriptPath scriptsDir script) = true) :
    build w tone scriptsDir script = w.checked tone (command scriptsDir script) := by
  simp [build, h]

/-- A script that was found is run by one command. -/
theorem trace_build (h : w.disk.isFile (scriptPath scriptsDir script) = true) :
    (command scriptsDir script).Trace w tone (build w tone scriptsDir script).log := by
  rw [build_of_found h]
  exact trace_checked

/-- A build succeeds when the script is there, and is started, and ends with code zero. -/
theorem build_ok_iff :
    (build w tone scriptsDir script).value = .ok () ↔
      w.disk.isFile (scriptPath scriptsDir script) = true ∧
        ∃ process effect, w.start (command scriptsDir script) = .ok (process, effect) ∧
          effect.status = .exited 0 := by
  cases hfile : w.disk.isFile (scriptPath scriptsDir script) with
  | false =>
      rw [build_of_missing hfile]
      simp [Logged.quietly]
  | true =>
      rw [build_of_found hfile, checked_ok_iff]
      simp

/-! ## The script -/

/-- The command of a build is attempted in the scripts directory. -/
theorem directoryOf_command :
    w.directoryOf (command scriptsDir script) = w.disk.directory? scriptsDir := by
  simp [World.directoryOf, command, Command.within]

theorem startedAs_of_build {process : Process}
    (h : process ∈ processesOf (build w tone scriptsDir script).log) :
    w.disk.isFile (scriptPath scriptsDir script) = true ∧
      (command scriptsDir script).StartedAs w process := by
  cases hfile : w.disk.isFile (scriptPath scriptsDir script) with
  | false =>
      rw [build_of_missing hfile] at h
      cases h
  | true =>
      rcases traced_build.issues process (mem_processesOf.1 h) with ⟨c, hc, hstarted⟩
      cases hc
      exact ⟨rfl, hstarted⟩

/-- From the directory of the process its path leads to the file that was looked for. -/
theorem exists_file {process : Process} (hpath : script.path ≠ "")
    (h : process ∈ processesOf (build w tone scriptsDir script).log) :
    ∃ file, w.disk.isFileAt file = true ∧
      w.disk.resolve w.disk.home (scriptPath scriptsDir script) = some file ∧
      w.disk.resolve process.directory script.path = some file := by
  rcases startedAs_of_build h with ⟨hfile, hstarted⟩
  have hdirectory : w.disk.directory? scriptsDir = some process.directory :=
    directoryOf_command.symm.trans hstarted.directory
  have hscripts : w.disk.resolve w.disk.home scriptsDir = some process.directory :=
    (Option.filter_eq_some_iff.1 hdirectory).1
  have hsame : w.disk.resolve w.disk.home (scriptPath scriptsDir script) =
      w.disk.resolve process.directory script.path :=
    Disk.resolve_join_of_resolve hscripts hpath
  unfold Disk.isFile at hfile
  split at hfile
  · next file hfound =>
      exact ⟨file, hfile, hfound, hsame.symm.trans hfound⟩
  · cases hfile

/-- How a build goes, with a scripts directory that has a path. -/
structure Faithful (w : World) (tone : Tone) (scriptsDir : String) (script : Script) : Prop where
  /-- Without a regular file nothing is started, and in no tone is anything written. -/
  missing : w.disk.isFile (scriptPath scriptsDir script) = false →
    (build w tone scriptsDir script).value =
        .error (.scriptMissing (scriptPath scriptsDir script)) ∧
      attemptsOf (build w tone scriptsDir script).log = [] ∧
      writesOf (build w tone scriptsDir script).log = []
  /-- Otherwise its interpreter is started once, or that is attempted, with the path of the
  script. -/
  attempted : w.disk.isFile (scriptPath scriptsDir script) = true →
    ∃ process?, attemptsOf (build w tone scriptsDir script).log =
      [⟨[script.interpreter, script.path], process?⟩]
  /-- Whatever comes of the attempt, it is made in the scripts directory. -/
  placed :
    (∀ c, .refused c ∈ (build w tone scriptsDir script).log → c.directory = some scriptsDir) ∧
    ∀ process ∈ processesOf (build w tone scriptsDir script).log,
      w.disk.directory? scriptsDir = some process.directory
  /-- From the working directory by way of the scripts directory, or at once: it is the same
  path. -/
  joined : ∀ cwd, Path.join (Path.join cwd scriptsDir) script.path =
    Path.join cwd (scriptPath scriptsDir script)
  /-- So it leads to the same place, by whatever path the working directory is reached. -/
  located : ∀ base cwd, w.disk.resolve base cwd = some w.disk.home →
    w.disk.resolve base (Path.join (Path.join cwd scriptsDir) script.path) =
      w.disk.resolve w.disk.home (scriptPath scriptsDir script)
  /-- A process that was started finds there, by the path it was given, the file that was looked
  for. -/
  found : script.path ≠ "" → ∀ process ∈ processesOf (build w tone scriptsDir script).log,
    ∃ file, w.disk.isFileAt file = true ∧
      w.disk.resolve w.disk.home (scriptPath scriptsDir script) = some file ∧
      w.disk.resolve process.directory script.path = some file
  succeeded : (build w tone scriptsDir script).value = .ok () ↔
    w.disk.isFile (scriptPath scriptsDir script) = true ∧
      ∃ process effect, w.start (command scriptsDir script) = .ok (process, effect) ∧
        effect.status = .exited 0

/-- A build runs the very script that it has looked for, or none. -/
theorem build_faithful (w : World) (tone : Tone) (script : Script) (hscripts : scriptsDir ≠ "") :
    Faithful w tone scriptsDir script := by
  refine
    { missing := ?_
      attempted := ?_
      placed := ⟨?_, ?_⟩
      joined := fun cwd => Path.join_assoc cwd scriptsDir script.path
      located := ?_
      found := fun hpath _ hprocess => exists_file hpath hprocess
      succeeded := build_ok_iff }
  · intro hfile
    rw [build_of_missing hfile]
    exact ⟨rfl, rfl, rfl⟩
  · intro hfile
    rcases (trace_build hfile).attempts with ⟨process?, hattempts, -⟩
    exact ⟨process?, hattempts⟩
  · intro c hc
    cases hfile : w.disk.isFile (scriptPath scriptsDir script) with
    | false =>
        rw [build_of_missing hfile] at hc
        cases hc
    | true =>
        rw [(trace_build hfile).eq_of_refused hc]
        rfl
  · intro process hprocess
    exact directoryOf_command.symm.trans (startedAs_of_build hprocess).2.directory
  · intro base cwd hcwd
    rw [Path.join_assoc]
    exact Disk.resolve_join_of_resolve hcwd (Path.join_ne_empty hscripts)

/-- A host with a shell and one build script, whose working directory is not the root. -/
def atelier : World where
  programs := [("sh", .rules [])]
  disk := Disk.ofPaths [['h'], ['w']] ["scripts/mac/install.sh"] []
  stdin := []

/-- There the script is run from a scripts directory with a slash at its end, and found from the
root as well. -/
theorem build_faithful_atelier :
    "./scripts/" ≠ "" ∧
      (build atelier {} "./scripts/" ⟨"sh", "mac/install.sh"⟩).value = .ok () ∧
      attemptsOf (build atelier {} "./scripts/" ⟨"sh", "mac/install.sh"⟩).log =
        [⟨["sh", "mac/install.sh"],
          some ⟨[['h'], ['w'], "scripts".toList], ["sh", "mac/install.sh"]⟩⟩] ∧
      atelier.disk.resolve [] (Path.join (Path.join "/h/./w" "./scripts/") "mac/install.sh") =
        atelier.disk.resolve atelier.disk.home "./scripts/mac/install.sh" := by
  have hne : "./scripts/" ≠ "" := by decide
  have hfaithful : Faithful atelier {} "./scripts/" ⟨"sh", "mac/install.sh"⟩ :=
    build_faithful _ _ _ hne
  have hfile : atelier.disk.isFile "./scripts/mac/install.sh" = true := by decide
  have hcwd : atelier.disk.resolve [] "/h/./w" = some atelier.disk.home := by decide
  exact ⟨hne, hfaithful.succeeded.2 ⟨hfile, _, _, rfl, rfl⟩, rfl,
    hfaithful.located [] "/h/./w" hcwd⟩

end Workshop
end Provision

import Provision.Proofs.Confinement
import Provision.Proofs.Installation
import Provision.Proofs.Path

/-!
# Footprint — what of a host a setup looks at

A setup starts a few programs and looks for a few build scripts, and its package manager decides
which.  Hosts that agree on these cannot be told apart by it, whatever other programs and files they
have.  Only the working directory shows, and that in nothing but the directories in which processes
are started.  This file defines:

* `World.perform` — what comes of a program, wherever it is started;
* `Backend.programs`, `Backend.scripts`, `Backend.Shares` — what a setup with a package manager
  looks at, and hosts that have it in common;
* `Activity.seen`, `World.Aligned` — a view of the directories of processes, and hosts that look the
  same through it;
* `Logged.Same`, `Host.same_serve` — requests that two hosts serve alike;
* `Host.seen_answer` — two hosts answer alike as long as their sessions look the same;
* `Unaffected`, `run_unaffected` — setups of hosts that have all this in common.
-/

namespace Provision

variable {α β : Type}

/-! ## Programs -/

namespace World

/-- What comes of a program with some arguments, wherever it is started. -/
def perform (w : World) (name : String) (args : List String) : Except StartError Effect :=
  match w.program? name with
  | none => .error .notFound
  | some .noexec => .error .notPermitted
  | some (.rules rules) => .ok (Rule.effectOf rules args)

variable {w other : World} {name : String} {c : Command} {directory : Location}

theorem perform_congr (h : w.program? name = other.program? name) (args : List String) :
    w.perform name args = other.perform name args := by
  simp only [perform, h]

/-- A program is there if it can be started, with whatever arguments. -/
theorem hasProgram_eq_isOk : w.hasProgram name = (w.perform name []).isOk := by
  cases hprogram : w.program? name with
  | none =>
      simp [hasProgram, perform, hprogram, Except.isOk, Except.toBool]
  | some program =>
      cases program <;> simp [hasProgram, perform, hprogram, Except.isOk, Except.toBool]

/-- With a directory to start in, a command comes to what its program does. -/
theorem start_eq (hnull : c.hasNull = false) (hdirectory : w.directoryOf c = some directory) :
    w.start c = (w.perform c.program c.args).map fun effect => (⟨directory, c.argv⟩, effect) := by
  cases hprogram : w.program? c.program with
  | none =>
      simp [start, perform, hnull, hdirectory, hprogram, Except.map]
  | some program =>
      cases program <;> simp [start, perform, hnull, hdirectory, hprogram, Except.map]

theorem start_of_nowhere (h : w.directoryOf c = none) :
    w.start c = .error (if c.hasNull then .nulByte else .notFound) := by
  cases hnull : c.hasNull <;> simp [start, hnull, h]

end World

/-! ## What a package manager looks at -/

namespace Backend

/-- The programs that a setup starts or looks for. -/
def programs : Backend → List String
  | apt => ["lsb_release", "sudo", "dpkg", "x86_64-elf-ld", "x86_64-elf-gcc", "bash"]
  | homebrew => ["brew", "sh", "grub-mkrescue"]

/-- The build scripts that a setup looks for. -/
def scripts : Backend → List Script
  | apt =>
      [⟨"bash", "linux/install_x86_64-elf-binutils.sh"⟩,
        ⟨"bash", "linux/install_x86_64-elf-gcc.sh"⟩]
  | homebrew => [⟨"sh", "mac/install_grub2.sh"⟩]

/-- The hosts have in common what a setup looks at, with this scripts directory. -/
structure Shares (backend : Backend) (scriptsDir : String) (w other : World) : Prop where
  /-- With all arguments the programs do the same, also where they are missing or must not be
  executed. -/
  programs : ∀ name ∈ backend.programs, ∀ args, w.perform name args = other.perform name args
  scripts : ∀ script ∈ backend.scripts,
    w.disk.isFile (Workshop.scriptPath scriptsDir script) =
      other.disk.isFile (Workshop.scriptPath scriptsDir script)

variable {backend : Backend} {ids : List String} {script : Script}

/-- The routines of the catalogue need nothing else. -/
theorem Assigns.looked {probe : Probe} {needs : List String}
    (h : backend.Assigns ids (.fromSource probe needs script)) :
    probe.program ∈ backend.programs ∧ script.interpreter ∈ backend.programs ∧
      script ∈ backend.scripts := by
  rcases h with ⟨id, -, tool, -, hroutine⟩
  cases backend <;> cases tool <;> cases hroutine <;> decide

theorem relative_of_mem_scripts (h : script ∈ backend.scripts) :
    Path.isAbsolute script.path.toList = false := by
  have hall : ∀ b : Backend, ∀ s ∈ b.scripts, Path.isAbsolute s.path.toList = false := by
    intro b
    cases b <;> decide
  exact hall backend script h

end Backend

/-! ## Views of the directories -/

/-- The activity, with the directory of its process as it looks through a view. -/
def Activity.seen (view : Location → Location) : Activity → Activity
  | .started process => .started ⟨view process.directory, process.argv⟩
  | activity => activity

section Seen

variable {view : Location → Location} {log log' : List Activity}

theorem writesOf_seen (log : List Activity) :
    writesOf (log.map (Activity.seen view)) = writesOf log := by
  induction log with
  | nil =>
      rfl
  | cons activity log ih =>
      cases activity <;> simpa [writesOf, Activity.seen] using ih

theorem argv_seen (log : List Activity) :
    (processesOf (log.map (Activity.seen view))).map Process.argv =
      (processesOf log).map Process.argv := by
  induction log with
  | nil =>
      rfl
  | cons activity log ih =>
      cases activity <;> simpa [processesOf, Activity.seen] using ih

theorem map_seen_id (log : List Activity) : log.map (Activity.seen id) = log := by
  have hsame : Activity.seen id = id := by
    funext activity
    cases activity <;> rfl
  simp [hsame]

end Seen

/-- The hosts look the same through the view, in the working directory and wherever a path leads on
both. -/
structure World.Aligned (view : Location → Location) (w other : World) : Prop where
  home : view w.disk.home = view other.disk.home
  directory : ∀ {path directory directory'}, w.disk.directory? path = some directory →
    other.disk.directory? path = some directory' → view directory = view directory'

/-- Who does not look at directories sees no difference. -/
theorem World.aligned_const {w other : World} : w.Aligned (fun _ => []) other :=
  ⟨rfl, fun _ _ => rfl⟩

/-- With one working directory there is none, for it is paths that decide where they lead. -/
theorem World.aligned_id {w other : World} (h : w.disk.home = other.disk.home) :
    w.Aligned id other := by
  refine ⟨h, ?_⟩
  intro path directory directory' hdirectory hdirectory'
  calc
    directory = Path.destination w.disk.home path.toList :=
          Disk.eq_destination_of_directory? hdirectory
    _ = Path.destination other.disk.home path.toList := by rw [h]
    _ = directory' := (Disk.eq_destination_of_directory? hdirectory').symm

/-! ## Commands on two hosts -/

/-- On both hosts the command is refused for the same reason, or it is started with the same
effect. -/
inductive Command.StartsAlike (view : Location → Location) (w other : World) (c : Command) :
    Prop where
  | refused {e : StartError} (h : w.start c = .error e) (h' : other.start c = .error e)
  | started {directory directory' : Location} {effect : Effect}
      (h : w.start c = .ok (⟨directory, c.argv⟩, effect))
      (h' : other.start c = .ok (⟨directory', c.argv⟩, effect))
      (hview : view directory = view directory')

/-- The same value, and the same log as far as it is seen. -/
structure Logged.Same (view : Location → Location) (l l' : Logged α) : Prop where
  value : l.value = l'.value
  log : l.log.map (Activity.seen view) = l'.log.map (Activity.seen view)

theorem Logged.same_quietly {view : Location → Location} {value value' : α} (h : value = value') :
    (quietly value).Same view (quietly value') :=
  ⟨h, rfl⟩

theorem Logged.Same.map {view : Location → Location} {l l' : Logged α} (f : α → β)
    (h : l.Same view l') : (l.map f).Same view (l'.map f) :=
  ⟨congrArg f h.value, h.log⟩

section Commands

variable {view : Location → Location} {w other : World} {tone : Tone} {c : Command}
  {directory directory' : Location}

theorem startsAlike_of_directories
    (hprogram : ∀ args, w.perform c.program args = other.perform c.program args)
    (hdirectory : w.directoryOf c = some directory)
    (hdirectory' : other.directoryOf c = some directory')
    (hview : view directory = view directory') : c.StartsAlike view w other := by
  cases hnull : c.hasNull with
  | true =>
      have hrefused : ∀ w : World, w.start c = .error .nulByte := by
        intro w
        simp [World.start, hnull]
      exact .refused (hrefused w) (hrefused other)
  | false =>
      have hstart := World.start_eq hnull hdirectory
      have hstart' := World.start_eq hnull hdirectory'
      rw [← hprogram] at hstart'
      cases hperform : w.perform c.program c.args with
      | error e =>
          rw [hperform] at hstart hstart'
          exact .refused hstart hstart'
      | ok effect =>
          rw [hperform] at hstart hstart'
          exact .started hstart hstart' hview

/-- Without a directory of its own a command depends on its program only. -/
theorem startsAlike_of_home (haligned : w.Aligned view other) (hc : c.directory = none)
    (hprogram : ∀ args, w.perform c.program args = other.perform c.program args) :
    c.StartsAlike view w other := by
  have hdirectory : w.directoryOf c = some w.disk.home := by simp [World.directoryOf, hc]
  have hdirectory' : other.directoryOf c = some other.disk.home := by simp [World.directoryOf, hc]
  exact startsAlike_of_directories hprogram hdirectory hdirectory' haligned.home

theorem same_launch (h : c.StartsAlike view w other) (shown : Effect → List Write) :
    (w.launch tone shown c).Same view (other.launch tone shown c) := by
  cases h with
  | refused h h' =>
      exact ⟨by simp [World.launch, h, h'], by simp [World.launch, h, h']⟩
  | started h h' hview =>
      exact ⟨by simp [World.launch, h, h'], by simp [World.launch, h, h', Activity.seen, hview]⟩

theorem same_captured (h : c.StartsAlike view w other) :
    (w.captured tone c).Same view (other.captured tone c) :=
  same_launch h _

theorem same_checked (h : c.StartsAlike view w other) :
    (w.checked tone c).Same view (other.checked tone c) :=
  ((same_launch h _).map _).map _

/-- The validation of a name does not depend on the host. -/
theorem same_validated {package : String} {l l' : Logged (Except Failure α)} (h : l.Same view l') :
    Logged.Same view
      (match PackageName.validate package with
        | .error failure => .quietly (.error failure)
        | .ok _ => l)
      (match PackageName.validate package with
        | .error failure => .quietly (.error failure)
        | .ok _ => l') := by
  cases PackageName.validate package with
  | error failure =>
      exact Logged.same_quietly rfl
  | ok =>
      exact h

end Commands

/-! ## Operations on two hosts -/

section Operations

variable {view : Location → Location} {w other : World} {tone : Tone} {backend : Backend}
  {scriptsDir package : String}

/-- The commands of the package managers are for programs that are looked at. -/
theorem Backend.looked_of_command? {r : Request} {c : Command} (h : backend.command? w r = some c) :
    c.program ∈ backend.programs ∧ c.directory = none := by
  cases backend with
  | apt =>
      cases r <;> cases h <;>
        simp [Command.direct, Apt.command, Command.elevated, Backend.programs]
  | homebrew =>
      cases r with
      | bootstrap =>
          cases hfound : Homebrew.isAvailable w with
          | true =>
              simp [Backend.command?, hfound] at h
          | false =>
              have hshell : c = .shell false Homebrew.installLine := by
                simpa [Backend.command?, hfound] using h.symm
              simp [hshell, Command.shell, Command.program?, Command.direct, Backend.programs]
      | _ =>
          cases h <;> simp [Homebrew.command, Command.direct, Backend.programs]

theorem Backend.Shares.startsAlike (hshares : backend.Shares scriptsDir w other)
    (haligned : w.Aligned view other) {r : Request} {c : Command}
    (hc : backend.command? w r = some c) :
    c.StartsAlike view w other := by
  rcases Backend.looked_of_command? hc with ⟨hprogram, hdirectory⟩
  exact startsAlike_of_home haligned hdirectory (hshares.programs c.program hprogram)

namespace Backend

/-- Homebrew is there on both hosts or on none. -/
theorem Shares.isAvailable_eq (hshares : Backend.homebrew.Shares scriptsDir w other) :
    Homebrew.isAvailable w = Homebrew.isAvailable other := by
  simp only [Homebrew.isAvailable, World.hasProgram_eq_isOk, hshares.programs "brew" (by decide)]

theorem same_isAvailable (hshares : backend.Shares scriptsDir w other)
    (haligned : w.Aligned view other) :
    (backend.isAvailable w tone).Same view (backend.isAvailable other tone) := by
  cases backend with
  | apt =>
      have hstarts := hshares.startsAlike haligned (r := .available) rfl
      simp only [isAvailable, Apt.isAvailable]
      exact (same_captured hstarts).map _
  | homebrew =>
      exact Logged.same_quietly hshares.isAvailable_eq

theorem same_bootstrap (hshares : backend.Shares scriptsDir w other)
    (haligned : w.Aligned view other) :
    (backend.bootstrap w tone).Same view (backend.bootstrap other tone) := by
  cases backend with
  | apt =>
      exact Logged.same_quietly rfl
  | homebrew =>
      have hbrew : Homebrew.isAvailable w = Homebrew.isAvailable other := hshares.isAvailable_eq
      cases hfound : Homebrew.isAvailable w with
      | true =>
          simp only [bootstrap, Homebrew.bootstrap, ← hbrew, hfound, if_true]
          exact Logged.same_quietly rfl
      | false =>
          have hcommand : command? w homebrew .bootstrap =
              some (.shell false Homebrew.installLine) := by
            simp [command?, hfound]
          simp only [bootstrap, Homebrew.bootstrap, ← hbrew, hfound, Bool.false_eq_true, if_false]
          exact same_checked (hshares.startsAlike haligned hcommand)

theorem same_update (hshares : backend.Shares scriptsDir w other)
    (haligned : w.Aligned view other) :
    (backend.update w tone).Same view (backend.update other tone) := by
  cases backend with
  | apt | homebrew =>
      exact same_checked (hshares.startsAlike haligned (r := .update) rfl)

theorem same_isInstalled (hshares : backend.Shares scriptsDir w other)
    (haligned : w.Aligned view other) {version : Option String} :
    (backend.isInstalled w tone package version).Same view
      (backend.isInstalled other tone package version) := by
  cases backend with
  | apt | homebrew =>
      have hstarts := hshares.startsAlike haligned (r := .check package) rfl
      exact same_validated ((same_captured hstarts).map _)

theorem same_install (hshares : backend.Shares scriptsDir w other)
    (haligned : w.Aligned view other) :
    (backend.install w tone package).Same view (backend.install other tone package) := by
  cases backend with
  | apt | homebrew =>
      have hstarts := hshares.startsAlike haligned (r := .install package) rfl
      exact same_validated (same_checked hstarts)

theorem same_upgrade (hshares : backend.Shares scriptsDir w other)
    (haligned : w.Aligned view other) :
    (backend.upgrade w tone package).Same view (backend.upgrade other tone package) := by
  cases backend with
  | apt | homebrew =>
      have hstarts := hshares.startsAlike haligned (r := .upgrade package) rfl
      exact same_validated (same_checked hstarts)

end Backend

namespace Workshop

theorem same_isBuilt (hshares : backend.Shares scriptsDir w other)
    (haligned : w.Aligned view other) {probe : Probe} (h : probe.program ∈ backend.programs) :
    (isBuilt w tone probe).Same view (isBuilt other tone probe) :=
  (same_captured (startsAlike_of_home haligned rfl (hshares.programs probe.program h))).map _

/-- A script that is there lies below a directory, so that it can be started on both hosts or on
none. -/
theorem startsAlike_command (hshares : backend.Shares scriptsDir w other)
    (haligned : w.Aligned view other) {script : Script} (hscript : script ∈ backend.scripts)
    (hprogram : script.interpreter ∈ backend.programs)
    (hfile : w.disk.isFile (scriptPath scriptsDir script) = true) :
    (command scriptsDir script).StartsAlike view w other := by
  by_cases hempty : scriptsDir = ""
  · -- the empty path is no directory anywhere
    have hnowhere : ∀ w : World, w.directoryOf (command scriptsDir script) = none := by
      intro w
      simp [World.directoryOf, command, Command.within, Disk.directory?, Disk.resolve, hempty]
    exact .refused (World.start_of_nowhere (hnowhere w)) (World.start_of_nowhere (hnowhere other))
  · have hrelative := Backend.relative_of_mem_scripts hscript
    have hfile' : other.disk.isFile (scriptPath scriptsDir script) = true :=
      (hshares.scripts script hscript).symm.trans hfile
    rcases Disk.directory?_of_isFile_join hempty hrelative hfile with ⟨directory, hdirectory⟩
    rcases Disk.directory?_of_isFile_join hempty hrelative hfile' with ⟨directory', hdirectory'⟩
    exact startsAlike_of_directories (hshares.programs script.interpreter hprogram) hdirectory
      hdirectory' (haligned.directory hdirectory hdirectory')

theorem same_build (hshares : backend.Shares scriptsDir w other)
    (haligned : w.Aligned view other) {script : Script} (hscript : script ∈ backend.scripts)
    (hprogram : script.interpreter ∈ backend.programs) :
    (build w tone scriptsDir script).Same view (build other tone scriptsDir script) := by
  unfold build
  rw [← hshares.scripts script hscript]
  split
  · exact same_checked (startsAlike_command hshares haligned hscript hprogram ‹_›)
  · exact Logged.same_quietly rfl

end Workshop

end Operations

/-! ## Requests to two hosts -/

/-- The host as it would be in another world. -/
def Host.inWorld (host : Host) (w : World) : Host :=
  { host with world := w }

/-- The session, with its log as it looks through a view. -/
def Session.seen (view : Location → Location) (s : Session) : Session :=
  { s with log := s.log.map (Activity.seen view) }

section Sessions

variable {view : Location → Location} {s s' : Session}

theorem Session.input_of_seen (h : s.seen view = s'.seen view) : s.input = s'.input := by
  simpa only [Session.seen] using congrArg Session.input h

theorem Session.polls_of_seen (h : s.seen view = s'.seen view) : s.polls = s'.polls := by
  simpa only [Session.seen] using congrArg Session.polls h

theorem Session.log_of_seen (h : s.seen view = s'.seen view) :
    s.log.map (Activity.seen view) = s'.log.map (Activity.seen view) := by
  simpa only [Session.seen] using congrArg Session.log h

/-- In whatever directories processes were started, the commands are the same. -/
theorem Session.commands_of_seen (h : s.seen view = s'.seen view) : s.commands = s'.commands := by
  calc
    s.commands = (s.seen view).commands := (argv_seen s.log).symm
    _ = (s'.seen view).commands := by rw [h]
    _ = s'.commands := argv_seen s'.log

end Sessions

namespace Host

open Installer

variable {view : Location → Location} {host : Host} {other : World} {ids : List String}
  {r : Request} {s s' : Session}

/-- The requests of a run are served alike on hosts that share what its package manager looks at. -/
theorem same_serve (hshares : host.backend.Shares host.scriptsDir host.world other)
    (haligned : host.world.Aligned view other) (hr : Within host.backend ids r)
    (hs : s.seen view = s'.seen view) :
    (host.serve s r).Same view ((host.inWorld other).serve s' r) := by
  cases r with
  | poll =>
      -- the flag is raised by the polls and the commands, and there are the same
      apply Logged.same_quietly
      rw [Session.polls_of_seen hs, Session.commands_of_seen hs]
      rfl
  | ask question =>
      simp only [serve]
      rw [Session.input_of_seen hs]
      exact ⟨rfl, rfl⟩
  | inform =>
      exact ⟨rfl, rfl⟩
  | available =>
      exact Backend.same_isAvailable hshares haligned
  | bootstrap =>
      exact Backend.same_bootstrap hshares haligned
  | update =>
      exact Backend.same_update hshares haligned
  | check package =>
      exact Backend.same_isInstalled hshares haligned
  | install package =>
      exact Backend.same_install hshares haligned
  | upgrade package =>
      exact Backend.same_upgrade hshares haligned
  | probe probe =>
      rcases hr.probe with ⟨needs, script, hassigned⟩
      exact Workshop.same_isBuilt hshares haligned hassigned.looked.1
  | build script =>
      rcases hr.build with ⟨probe, needs, hassigned⟩
      exact Workshop.same_build hshares haligned hassigned.looked.2.2 hassigned.looked.2.1

/-- What input is left does not depend on the host. -/
theorem inputLeft_inWorld (input : Input) (r : Request) :
    (host.inWorld other).inputLeft input r = host.inputLeft input r := by
  cases r <;> rfl

theorem seen_answer (hshares : host.backend.Shares host.scriptsDir host.world other)
    (haligned : host.world.Aligned view other) (hr : Within host.backend ids r)
    (hs : s.seen view = s'.seen view) :
    (host.surroundings.answer r s).1 = ((host.inWorld other).surroundings.answer r s').1 ∧
      (host.surroundings.answer r s).2.seen view =
        ((host.inWorld other).surroundings.answer r s').2.seen view := by
  have hserve := same_serve hshares haligned hr hs
  rw [answer_eq_serve, answer_eq_serve]
  refine ⟨hserve.value, ?_⟩
  simp only [next, Session.seen, List.map_append, Session.input_of_seen hs,
    Session.polls_of_seen hs, Session.log_of_seen hs, hserve.log, inputLeft_inWorld]

end Host

/-! ## The whole setup -/

/-- What two setups have in common. -/
structure Unaffected (w other : World) (o o' : Outcome) : Prop where
  result : o.result = o'.result
  /-- The writes are the same, and so are the bytes that any console shows of them. -/
  writes : writesOf o.session.log = writesOf o'.session.log
  input : o.session.input = o'.session.input
  commands : (processesOf o.session.log).map Process.argv =
    (processesOf o'.session.log).map Process.argv
  /-- With one working directory the processes are also started in the same places. -/
  processes : w.disk.home = other.disk.home → processesOf o.session.log = processesOf o'.session.log

namespace Setup

open Installer

section Unaffected

variable {platform : Platform} {backend : Backend} {settings : Settings} {w other : World}
  {view : Location → Location}

theorem seen_run (interrupted : Signal) (hplatform : platform.backend = .ok backend)
    (hinput : w.stdin = other.stdin) (hshares : backend.Shares settings.scriptsDir w other)
    (haligned : w.Aligned view other) :
    (run platform settings w interrupted).result =
        (run platform settings other interrupted).result ∧
      (run platform settings w interrupted).session.seen view =
        (run platform settings other interrupted).session.seen view := by
  have hbegin : begin w = begin other := by simp only [begin, hinput]
  cases hinstalls : installs platform settings with
  | none =>
      simp only [run_of_not_installs hinstalls, hbegin, and_self]
  | some served =>
      have hserved : served = backend :=
        Except.ok.inj ((installs_eq_some_iff.1 hinstalls).1.symm.trans hplatform)
      subst hserved
      have hready : ready settings.tone platform w = ready settings.tone platform other := by
        simp only [ready, hbegin]
      have hrelated := Procedure.run_related
        (fun r hr s s' => (hostOf served settings w interrupted).seen_answer hshares haligned hr)
        (install served (served.plan settings.packages)) (fun es result => within_of_course)
        (congrArg (Session.seen view) hready)
      simp only [run_of_installs hinstalls]
      exact ⟨hrelated.result, hrelated.state⟩

/-- A setup depends on nothing of a host but the few programs and scripts that its package manager
looks at. -/
theorem run_unaffected (interrupted : Signal) (hplatform : platform.backend = .ok backend)
    (hinput : w.stdin = other.stdin) (hshares : backend.Shares settings.scriptsDir w other) :
    Unaffected w other (run platform settings w interrupted)
      (run platform settings other interrupted) := by
  rcases seen_run interrupted hplatform hinput hshares World.aligned_const with
    ⟨hresult, hseen⟩
  have hlog := congrArg Session.log hseen
  refine ⟨hresult, ?_, ?_, ?_, ?_⟩
  · simpa only [Session.seen, writesOf_seen] using congrArg writesOf hlog
  · exact Session.input_of_seen hseen
  · exact Session.commands_of_seen hseen
  · intro hhome
    have hplaced := (seen_run interrupted hplatform hinput hshares
      (World.aligned_id hhome)).2
    simpa only [Session.seen, map_seen_id] using congrArg (fun s => processesOf s.log) hplaced

end Unaffected

/-- An Ubuntu host with the build script of the cross compiler, and with something else by its
name. -/
def plainUbuntu : World where
  programs :=
    [("lsb_release", .rules [⟨none, ⟨Text.bytes "Ubuntu\n", [], .exited 0⟩⟩]), ("sudo", .rules []),
      ("dpkg", .rules []), ("x86_64-elf-gcc", .rules []), ("bash", .rules [])]
  disk := Disk.ofPaths [] ["linux/install_x86_64-elf-gcc.sh"] []
  stdin := []

/-- The same host with a Homebrew, an `apt` that cannot be started, and more files. -/
def clutteredUbuntu : World where
  programs :=
    [("apt", .noexec), ("brew", .rules []), ("curl", .rules []), ("grub-mkrescue", .rules [])] ++
      plainUbuntu.programs
  disk :=
    Disk.ofPaths [] ["mac/install_grub2.sh", "linux/install_x86_64-elf-gcc.sh", "notes"] ["home"]
  stdin := []

/-- A setup of the cross compiler that asks nobody. -/
def unattendedGcc : Settings :=
  { assumeYes := true, packages := ["cross-gcc"] }

/-- Such a setup ends well on the one host, and so it does the same on the other. -/
theorem run_unaffected_cluttered :
    Platform.linux.backend = .ok .apt ∧ plainUbuntu.stdin = clutteredUbuntu.stdin ∧
      Backend.apt.Shares unattendedGcc.scriptsDir plainUbuntu clutteredUbuntu ∧
        (run .linux unattendedGcc clutteredUbuntu .never).result = .ok () ∧
          processesOf (run .linux unattendedGcc clutteredUbuntu .never).session.log =
            [⟨[], ["lsb_release", "-is"]⟩, ⟨[], ["sudo", "apt", "update"]⟩,
              ⟨[], ["x86_64-elf-gcc", "--version"]⟩,
              ⟨[], ["bash", "linux/install_x86_64-elf-gcc.sh"]⟩] := by
  have hprograms : ∀ name ∈ Backend.apt.programs,
      plainUbuntu.program? name = clutteredUbuntu.program? name := by decide
  have hshares : Backend.apt.Shares unattendedGcc.scriptsDir plainUbuntu clutteredUbuntu :=
    ⟨fun name hname => World.perform_congr (hprograms name hname), by decide⟩
  have hunaffected : Unaffected plainUbuntu clutteredUbuntu
      (run .linux unattendedGcc plainUbuntu .never)
      (run .linux unattendedGcc clutteredUbuntu .never) :=
    run_unaffected .never rfl rfl hshares
  have hok : (run .linux unattendedGcc plainUbuntu .never).result = .ok () := rfl
  have hprocesses : processesOf (run .linux unattendedGcc plainUbuntu .never).session.log =
      [⟨[], ["lsb_release", "-is"]⟩, ⟨[], ["sudo", "apt", "update"]⟩,
        ⟨[], ["x86_64-elf-gcc", "--version"]⟩,
        ⟨[], ["bash", "linux/install_x86_64-elf-gcc.sh"]⟩] := by decide
  exact ⟨rfl, rfl, hshares, hunaffected.result.symm.trans hok,
    (hunaffected.processes rfl).symm.trans hprocesses⟩

end Setup
end Provision

import Provision.Proofs.Attribution
import Provision.Proofs.Launch

/-!
# Confinement — what is typed in does not reach a command line

A setup starts commands of a few fixed forms.  The names in them come from the routines of the tools
that were requested, and never from the request itself; and since all these names are valid, a setup
that got past the validation of its request fails no more on account of a name.  This file defines:

* `Apt.Starts`, `Homebrew.Starts` — the processes that a setup can start for a request;
* `Setback.sources`, `sources_of_run` — a failing run holds at most the failure of one call;
* `Confined`, `Setup.run_confined` — every setup keeps to this.
-/

namespace Provision

/-! ## The catalogue -/

namespace Backend

variable {backend : Backend}

/-- Every package of a routine has a valid name. -/
theorem validate_of_mem_packages {tool : Tool} {package : String}
    (h : package ∈ (backend.routine tool).packages) : PackageName.validate package = .ok () := by
  have hall : ∀ b : Backend, ∀ t ∈ Tool.all, ∀ p ∈ (b.routine t).packages,
      PackageName.fault? p = none := by
    intro b
    cases b <;> decide
  have hfault : PackageName.fault? package = none := hall backend tool tool.mem_all package h
  rw [PackageName.validate, hfault]

/-- With apt all build scripts are for `bash`. -/
theorem interpreter_of_apt {tool : Tool} {probe : Probe} {needs : List String} {script : Script}
    (h : apt.routine tool = .fromSource probe needs script) : script.interpreter = "bash" := by
  cases tool <;> cases h <;> rfl

/-- With Homebrew one tool is built from source. -/
theorem eq_macGrub_of_homebrew {tool : Tool} {probe : Probe} {needs : List String} {script : Script}
    (h : homebrew.routine tool = .fromSource probe needs script) :
    .fromSource probe needs script = macGrub := by
  cases tool <;> cases h
  rfl

end Backend

/-! ## The processes of a setup -/

/-- The processes that a setup with apt can start, when `ids` are requested. -/
inductive Apt.Starts (ids : List String) (scriptsDir : String) (disk : Disk) : Process → Prop where
  | identify : Starts ids scriptsDir disk ⟨disk.home, ["lsb_release", "-is"]⟩
  | update : Starts ids scriptsDir disk ⟨disk.home, ["sudo", "apt", "update"]⟩
  | query {routine : Routine} {package : String} (h : Backend.apt.Assigns ids routine)
      (hpackage : package ∈ routine.packages) :
      Starts ids scriptsDir disk ⟨disk.home, ["dpkg", "-l", package]⟩
  | install {routine : Routine} {package : String} (h : Backend.apt.Assigns ids routine)
      (hpackage : package ∈ routine.packages) :
      Starts ids scriptsDir disk ⟨disk.home, ["sudo", "apt", "install", "-y", package]⟩
  | upgrade {routine : Routine} {package : String} (h : Backend.apt.Assigns ids routine)
      (hpackage : package ∈ routine.packages) :
      Starts ids scriptsDir disk ⟨disk.home, ["sudo", "apt", "upgrade", "-y", package]⟩
  | probe {probe : Probe} {needs : List String} {script : Script}
      (h : Backend.apt.Assigns ids (.fromSource probe needs script)) :
      Starts ids scriptsDir disk ⟨disk.home, [probe.program, "--version"]⟩
  /-- Only a build script is started elsewhere than in the working directory. -/
  | build {probe : Probe} {needs : List String} {script : Script} {directory : Location}
      (h : Backend.apt.Assigns ids (.fromSource probe needs script))
      (hdirectory : disk.directory? scriptsDir = some directory) :
      Starts ids scriptsDir disk ⟨directory, ["bash", script.path]⟩

/-- The processes that a setup with Homebrew can start, when `ids` are requested. -/
inductive Homebrew.Starts (ids : List String) (scriptsDir : String) (w : World) :
    Process → Prop where
  /-- Homebrew is installed by its own script only where it is not found. -/
  | bootstrap (h : w.hasProgram "brew" = false) :
      Starts ids scriptsDir w ⟨w.disk.home, ["sh", "-c", installLine]⟩
  | update : Starts ids scriptsDir w ⟨w.disk.home, ["brew", "update"]⟩
  | query : Starts ids scriptsDir w ⟨w.disk.home, ["brew", "list", "--versions"]⟩
  | install {routine : Routine} {package : String} (h : Backend.homebrew.Assigns ids routine)
      (hpackage : package ∈ routine.packages) :
      Starts ids scriptsDir w ⟨w.disk.home, ["brew", "install", package]⟩
  | upgrade {routine : Routine} {package : String} (h : Backend.homebrew.Assigns ids routine)
      (hpackage : package ∈ routine.packages) :
      Starts ids scriptsDir w ⟨w.disk.home, ["brew", "upgrade", package]⟩
  | probe (h : Backend.homebrew.Assigns ids Backend.macGrub) :
      Starts ids scriptsDir w ⟨w.disk.home, ["grub-mkrescue", "--version"]⟩
  | build {directory : Location} (h : Backend.homebrew.Assigns ids Backend.macGrub)
      (hdirectory : w.disk.directory? scriptsDir = some directory) :
      Starts ids scriptsDir w ⟨directory, ["sh", "mac/install_grub2.sh"]⟩

/-- A command without a directory of its own is started in the working directory. -/
theorem Command.StartedAs.eq_home {w : World} {c : Command} {process : Process}
    (h : c.StartedAs w process) (hc : c.directory = none) : process = ⟨w.disk.home, c.argv⟩ := by
  rcases process with ⟨directory, argv⟩
  have hdirectory : some w.disk.home = some directory := by
    simpa [World.directoryOf, hc] using h.directory
  have hargv : argv = c.argv := h.argv
  rw [Option.some.inj hdirectory, hargv]

theorem Command.StartedAs.eq_within {w : World} {c : Command} {process : Process} {path : String}
    (h : c.StartedAs w process) (hc : c.directory = some path) :
    ∃ directory, w.disk.directory? path = some directory ∧ process = ⟨directory, c.argv⟩ := by
  rcases process with ⟨directory, argv⟩
  have hdirectory : w.disk.directory? path = some directory := by
    simpa [World.directoryOf, hc] using h.directory
  have hargv : argv = c.argv := h.argv
  exact ⟨directory, hdirectory, by rw [hargv]⟩

/-- The failure is a fault of the request. -/
def Failure.isConfiguration : Failure → Bool
  | configuration _ => true
  | _ => false

namespace Installer

open Procedure

/-! ## The commands of a run -/

section Commands

variable {backend : Backend} {ids : List String} {r : Request}

/-- All names in the requests of a run are valid. -/
theorem Within.valid (h : Within backend ids r) :
    ∀ package ∈ r.package?, PackageName.validate package = .ok () := by
  intro package hpackage
  rcases h.packages hpackage with ⟨routine, ⟨id, -, tool, -, rfl⟩, hmem⟩
  exact Backend.validate_of_mem_packages hmem

variable {host : Host} {c : Command} {process : Process}

/-- With apt the command of a request has one of the fixed forms. -/
theorem starts_of_apt (hbackend : host.backend = .apt) (hr : Within .apt ids r)
    (hc : host.command? r = some c) (h : c.StartedAs host.world process) :
    Apt.Starts ids host.scriptsDir host.world.disk process := by
  rcases host with ⟨w, backend, scriptsDir, operator, tone, interrupted⟩
  cases hbackend
  cases r with
  | poll | ask | inform | bootstrap =>
      cases hc
  | available =>
      cases hc
      rw [h.eq_home rfl]
      exact .identify
  | update =>
      cases hc
      rw [h.eq_home rfl]
      exact .update
  | check package =>
      cases hc
      rcases hr.packages rfl with ⟨routine, hroutine, hmem⟩
      rw [h.eq_home rfl]
      exact .query hroutine hmem
  | install package =>
      cases hc
      rcases hr.packages rfl with ⟨routine, hroutine, hmem⟩
      rw [h.eq_home rfl]
      exact .install hroutine hmem
  | upgrade package =>
      cases hc
      rcases hr.packages rfl with ⟨routine, hroutine, hmem⟩
      rw [h.eq_home rfl]
      exact .upgrade hroutine hmem
  | probe probe =>
      cases hc
      rcases hr.probe with ⟨needs, script, hroutine⟩
      rw [h.eq_home rfl]
      exact .probe hroutine
  | build script =>
      cases hc
      rcases hr.build with ⟨probe, needs, hroutine⟩
      rcases hroutine with ⟨id, hid, tool, htool, hscript⟩
      rcases h.eq_within rfl with ⟨directory, hdirectory, rfl⟩
      have hbash : (Workshop.command scriptsDir script).argv = ["bash", script.path] := by
        rw [← Backend.interpreter_of_apt hscript]
        rfl
      rw [hbash]
      exact .build ⟨id, hid, tool, htool, hscript⟩ hdirectory

/-- With Homebrew the command of a request has one of the fixed forms. -/
theorem starts_of_homebrew (hbackend : host.backend = .homebrew) (hr : Within .homebrew ids r)
    (hc : host.command? r = some c) (h : c.StartedAs host.world process) :
    Homebrew.Starts ids host.scriptsDir host.world process := by
  rcases host with ⟨w, backend, scriptsDir, operator, tone, interrupted⟩
  cases hbackend
  cases r with
  | poll | ask | inform | available =>
      cases hc
  | bootstrap =>
      have hcommand : (if Homebrew.isAvailable w then none
          else some (Command.shell false Homebrew.installLine)) = some c := hc
      by_cases hbrew : Homebrew.isAvailable w = true
      · simp [hbrew] at hcommand
      · have hmissing : w.hasProgram "brew" = false := Bool.eq_false_iff.2 hbrew
        rw [if_neg hbrew] at hcommand
        cases hcommand
        rw [h.eq_home rfl]
        exact .bootstrap hmissing
  | update =>
      cases hc
      rw [h.eq_home rfl]
      exact .update
  | check package =>
      cases hc
      rw [h.eq_home rfl]
      exact .query
  | install package =>
      cases hc
      rcases hr.packages rfl with ⟨routine, hroutine, hmem⟩
      rw [h.eq_home rfl]
      exact .install hroutine hmem
  | upgrade package =>
      cases hc
      rcases hr.packages rfl with ⟨routine, hroutine, hmem⟩
      rw [h.eq_home rfl]
      exact .upgrade hroutine hmem
  | probe probe =>
      cases hc
      rcases hr.probe with ⟨needs, script, id, hid, tool, htool, hroutine⟩
      have hgrub := Backend.eq_macGrub_of_homebrew hroutine
      rw [hgrub] at hroutine
      cases hgrub
      rw [h.eq_home rfl]
      exact .probe ⟨id, hid, tool, htool, hroutine⟩
  | build script =>
      cases hc
      rcases hr.build with ⟨probe, needs, id, hid, tool, htool, hroutine⟩
      have hgrub := Backend.eq_macGrub_of_homebrew hroutine
      rw [hgrub] at hroutine
      cases hgrub
      rcases h.eq_within rfl with ⟨directory, hdirectory, rfl⟩
      exact .build ⟨id, hid, tool, htool, hroutine⟩ hdirectory

end Commands

/-! ## The causes of a failure -/

/-- The causes that a failure holds come from the call that failed. -/
theorem Setback.sources {manager : String} {last : List Event} {failure : Failure}
    (h : Setback manager last failure) :
    failure.sources = [] ∨ ∃ e ∈ last, ∃ reported, e.failure? = some reported ∧
      failure.sources = reported :: reported.sources := by
  cases h with
  | interrupted | overruled | declined | unsupported =>
      exact Or.inl rfl
  | update reported | bootstrap reported | check _ reported | install _ reported
  | upgrade _ reported | build _ _ reported =>
      exact Or.inr ⟨_, List.mem_singleton_self _, reported, rfl, rfl⟩

theorem sources_of_operational {failure : Failure} (h : failure.isOperational = true) :
    failure.sources = [] := by
  cases failure with
  | manager | command | scriptMissing =>
      rfl
  | _ =>
      cases h

/-- On a host a failing run holds at most one cause, which is the failure of a command or a
script. -/
theorem sources_of_run {host : Host} {backend : Backend} {ids : List String} {s : Session}
    {failure : Failure}
    (hresult : ((install backend (backend.plan ids)).run host.surroundings s).result =
        .error failure) :
    failure.sources = [] ∨
      ∃ cause, cause.isOperational = true ∧ failure.sources = [cause] := by
  have hrun := run_course host.surroundings (install backend (backend.plan ids)) s
  have hanswered := host.surroundings.answered_run (install backend (backend.plan ids)) s
  have hending := ending_install backend (backend.plan ids) _ _ hrun
  rw [hresult] at hending
  rcases hending.last_of_error with ⟨front, last, hevents, -, hsetback⟩
  rcases hsetback.sources with hnone | ⟨e, he, cause, hcause, hsources⟩
  · exact Or.inl hnone
  · have hevent : e ∈ ((install backend (backend.plan ids)).run host.surroundings s).events := by
      rw [hevents]
      exact List.mem_append_right _ he
    -- the call was made with a valid name, so its failure is that of its command
    have hvalid := (within_of_course hrun e hevent).valid
    rcases hanswered.of_mem hevent with ⟨s', hanswer⟩
    rw [hanswer] at hcause
    have hoperational : cause.isOperational = true := Host.operational_of_answer hvalid hcause
    exact Or.inr ⟨cause, hoperational, by rw [hsources, sources_of_operational hoperational]⟩

theorem ofRun_of_run {host : Host} {backend : Backend} {ids : List String} {s : Session}
    {failure : Failure}
    (hresult : ((install backend (backend.plan ids)).run host.surroundings s).result =
        .error failure) :
    failure.ofRun = true := by
  have hrun := run_course host.surroundings (install backend (backend.plan ids)) s
  have hending := ending_install backend (backend.plan ids) _ _ hrun
  rw [hresult] at hending
  exact hending.known

/-- On a host no cause of a failing run is a fault of the request. -/
theorem not_configuration_of_run {host : Host} {backend : Backend} {ids : List String} {s : Session}
    {failure cause : Failure}
    (hresult : ((install backend (backend.plan ids)).run host.surroundings s).result =
        .error failure)
    (hcause : cause ∈ failure :: failure.sources) : cause.isConfiguration = false := by
  rcases List.mem_cons.1 hcause with rfl | hsource
  · have hknown : cause.ofRun = true := ofRun_of_run hresult
    cases cause <;> simp [Failure.ofRun] at hknown ⊢ <;> rfl
  · rcases sources_of_run hresult with hnone | ⟨source, hoperational, hsources⟩
    · simp [hnone] at hsource
    · have hsame : source = cause := by
        simpa [hsources, eq_comm] using hsource
      subst hsame
      cases source with
      | configuration detail =>
          cases hoperational
      | _ =>
          rfl

end Installer

/-! ## The whole setup -/

/-- What holds of the processes and the result of a setup. -/
structure Confined (platform : Platform) (settings : Settings) (w : World) (o : Outcome) :
    Prop where
  linux : platform = .linux → ∀ process ∈ processesOf o.session.log,
    Apt.Starts settings.packages settings.scriptsDir w.disk process
  macOS : platform = .macOS → ∀ process ∈ processesOf o.session.log,
    Homebrew.Starts settings.packages settings.scriptsDir w process
  unserved : platform ≠ .linux → platform ≠ .macOS → processesOf o.session.log = []
  /-- Behind the validation there is nothing wrong with the request. -/
  configured : PackageName.validateAll settings.packages = .ok () → settings.listOnly = false →
    ∀ failure, o.result = .error failure → ∀ cause ∈ failure :: failure.sources,
      cause.isConfiguration = false

namespace Setup

open Installer

variable {platform : Platform} {settings : Settings} {w : World} {interrupted : Signal}
  {backend : Backend} {process : Process}

/-- Where the installer runs, each process is the command of one of its requests. -/
theorem started_of_runWith {s : Session} (hs : ∀ process, .started process ∉ s.log)
    (h : .started process ∈ (runWith backend settings w interrupted s).session.log) :
    ∃ r c, Within backend settings.packages r ∧
      (hostOf backend settings w interrupted).command? r = some c ∧ c.StartedAs w process := by
  unfold runWith at h
  split at h
  · exact absurd h (hs process)
  · split at h
    · exact absurd (Host.started_of_say h) (hs process)
    · rw [carryOut, Surroundings.state_run] at h
      rcases Host.started_of_after h with hbefore | ⟨e, he, c, hc, hstarted⟩
      · exact absurd (Host.started_of_say hbefore) (hs process)
      · have hwithin := within_of_course (Procedure.run_course _ _ _) e he
        exact ⟨e.request, c, hwithin, hc, hstarted⟩

/-- Behind the validation a setup that carries out its plan fails on no fault of the request. -/
theorem configured_of_runWith {s : Session} {failure cause : Failure}
    (hvalid : PackageName.validateAll settings.packages = .ok ())
    (hlist : settings.listOnly = false)
    (h : (runWith backend settings w interrupted s).result = .error failure)
    (hcause : cause ∈ failure :: failure.sources) : cause.isConfiguration = false := by
  simp only [runWith, hvalid, hlist] at h
  exact not_configuration_of_run h hcause

/-- What is said before the installer runs starts nothing. -/
theorem not_started_begin {writes : List Write} :
    .started process ∉ ((begin w).say writes).log := by
  intro h
  have hnone : .started process ∈ (begin w).log := Host.started_of_say h
  cases hnone

/-- Every process of a setup has one of the fixed forms, with names from the routines of the
request. -/
theorem run_confined (platform : Platform) (settings : Settings) (w : World)
    (interrupted : Signal) :
    Confined platform settings w (run platform settings w interrupted) := by
  refine ⟨?_, ?_, ?_, ?_⟩
  · intro hplatform process hprocess
    subst hplatform
    have hstarted := mem_processesOf.1 hprocess
    rcases started_of_runWith (fun _ => not_started_begin) hstarted with
      ⟨r, c, hwithin, hc, hprocess⟩
    exact starts_of_apt rfl hwithin hc hprocess
  · intro hplatform process hprocess
    subst hplatform
    have hstarted := mem_processesOf.1 hprocess
    rcases started_of_runWith (fun _ => not_started_begin) hstarted with
      ⟨r, c, hwithin, hc, hprocess⟩
    exact starts_of_homebrew rfl hwithin hc hprocess
  · intro hlinux hmacOS
    cases platform with
    | linux =>
        exact absurd rfl hlinux
    | macOS =>
        exact absurd rfl hmacOS
    | windows | unknown =>
        apply List.eq_nil_iff_forall_not_mem.2
        intro process hprocess
        exact not_started_begin (mem_processesOf.1 hprocess)
  · intro hvalid hlist failure hfailure cause hcause
    cases platform with
    | linux | macOS =>
        exact configured_of_runWith hvalid hlist hfailure hcause
    | windows | unknown =>
        -- a rejected platform is the only cause
        cases hfailure
        rw [List.mem_singleton.1 hcause]
        rfl

end Setup
end Provision

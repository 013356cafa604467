import Provision.Proofs.Launch
import Provision.Proofs.Naming

/-!
# Installation — the setups that come to the installer

The installer runs only on a platform that is served, for names that are all valid, and unless the
plan is only to be listed.  Such a setup is a run of the installer on its host; any other one ends
with words that the host has no part in.  This file defines:

* `Plan.writes_list`, `Plan.mem_list` — what a listing says;
* `Setup.installs` — the package manager with which the installer runs, if a setup comes to that;
* `Setup.installation`, `run_of_installs`, `log_of_installs` — the run of the installer in a setup,
  the setup as this run, and its log;
* `Setup.verdict`, `run_of_not_installs` — how any other setup ends and what it says, and the setup
  as this;
* `Write.isNotice` — what a setup says of itself is made of notices.
-/

namespace Provision

open Installer

/-- The write is a notice: it tells of the setup itself, and neither of a command nor of a
dialogue. -/
def Write.isNotice : Write → Bool
  | info _ | warning _ | error _ | header _ | row _ _ => true
  | _ => false

/-- Whether a listing fails or not, it has the title and a row for each step. -/
theorem Plan.writes_list {tone : Tone} {backend : Backend} (plan : Plan) :
    (plan.list tone backend).2 =
      tone.header backend.title ++ plan.map fun step => .row 1 step.row := by
  unfold Plan.list
  cases plan.unsupported? <;> rfl

theorem Plan.mem_list {tone : Tone} {backend : Backend} {plan : Plan} {write : Write} :
    write ∈ (plan.list tone backend).2 ↔
      (tone.quiet = false ∧ write = .header backend.title) ∨
        ∃ step ∈ plan, .row 1 step.row = write := by
  rw [plan.writes_list, List.mem_append, Tone.mem_header, List.mem_map]

/-- A platform that is not served is rejected by its name. -/
theorem Platform.rejected_of_unserved {platform : Platform} {failure : Failure}
    (h : platform.backend = .error failure) : failure = .unsupportedPlatform platform.name := by
  cases platform <;> cases h <;> rfl

namespace Setup

/-- The package manager with which the installer runs, if a setup comes to that. -/
def installs (platform : Platform) (settings : Settings) : Option Backend :=
  match platform.backend, PackageName.validateAll settings.packages with
  | .ok backend, .ok _ => if settings.listOnly then none else some backend
  | _, _ => none

/-- How a setup ends and what it says when it does not come to the installer. -/
def verdict (platform : Platform) (settings : Settings) : Except Failure Unit × List Write :=
  let greeted := greeting settings.tone platform
  match platform.backend with
  | .error failure => (.error failure, greeted ++ rejection platform failure)
  | .ok backend =>
      match PackageName.validateAll settings.packages with
      | .error failure => (.error failure, greeted)
      | .ok _ =>
          let listing := (backend.plan settings.packages).list settings.tone backend
          (listing.1, greeted ++ listing.2)

/-- What is said before the installer begins. -/
def prologue (tone : Tone) (platform : Platform) : List Write :=
  greeting tone platform ++ tone.info "installing packages"

/-- The session in which the installer begins. -/
def ready (tone : Tone) (platform : Platform) (w : World) : Session :=
  ((begin w).say (greeting tone platform)).say (tone.info "installing packages")

/-- The run of the installer in a setup that comes to it. -/
def installation (backend : Backend) (platform : Platform) (settings : Settings) (w : World)
    (interrupted : Signal) : Run Session Unit :=
  (install backend (backend.plan settings.packages)).run
    (hostOf backend settings w interrupted).surroundings (ready settings.tone platform w)

section Installs

variable {platform : Platform} {settings : Settings} {w : World} {interrupted : Signal}
  {backend : Backend} {tone : Tone} {write : Write}

theorem mem_greeting :
    write ∈ greeting tone platform ↔ (platform ≠ .unknown ∧ tone.quiet = false) ∧
      write = .info ("host os \"" ++ platform.name ++ "\" detected") := by
  unfold greeting
  split <;> simp_all

/-- What is said about a platform and its plan is made of notices. -/
theorem notice_of_greeting (h : write ∈ greeting tone platform) : write.isNotice = true := by
  rw [(mem_greeting.1 h).2]
  rfl

theorem notice_of_rejection {failure : Failure} (h : write ∈ rejection platform failure) :
    write.isNotice = true := by
  rcases List.mem_append.1 h with hhint | herror
  · rcases List.mem_map.1 hhint with ⟨hint, -, rfl⟩
    rfl
  · rw [List.mem_singleton.1 herror]
    rfl

theorem notice_of_list {plan : Plan} (h : write ∈ (plan.list tone backend).2) :
    write.isNotice = true := by
  rcases Plan.mem_list.1 h with ⟨-, rfl⟩ | ⟨step, -, rfl⟩
  · rfl
  · rfl

theorem notice_of_verdict (h : write ∈ (verdict platform settings).2) : write.isNotice = true := by
  unfold verdict at h
  split at h
  · exact (List.mem_append.1 h).elim notice_of_greeting notice_of_rejection
  · split at h
    · exact notice_of_greeting h
    · exact (List.mem_append.1 h).elim notice_of_greeting notice_of_list

theorem notice_of_prologue (h : write ∈ prologue tone platform) : write.isNotice = true := by
  rcases List.mem_append.1 h with hgreeting | hsaid
  · exact notice_of_greeting hgreeting
  · rw [(Tone.mem_info.1 hsaid).2]
    rfl

/-- The installer runs on a platform that is served, for valid names and unless only a list is
wanted. -/
theorem installs_eq_some_iff :
    installs platform settings = some backend ↔
      platform.backend = .ok backend ∧ PackageName.validateAll settings.packages = .ok () ∧
        settings.listOnly = false := by
  unfold installs
  cases platform.backend with
  | error failure =>
      simp
  | ok served =>
      cases PackageName.validateAll settings.packages with
      | error failure =>
          simp
      | ok =>
          cases settings.listOnly <;> simp

theorem run_of_installs (h : installs platform settings = some backend) :
    run platform settings w interrupted =
      ⟨(installation backend platform settings w interrupted).result,
        (installation backend platform settings w interrupted).state⟩ := by
  rcases installs_eq_some_iff.1 h with ⟨hbackend, hvalid, hlist⟩
  simp [run, announce, hbackend, runWith, hvalid, hlist, carryOut, installation, hostOf, ready]

/-- The log of such a setup is what was said before, and then what the host logs for the
requests. -/
theorem log_of_installs (h : installs platform settings = some backend) :
    (run platform settings w interrupted).session.log =
      (prologue settings.tone platform).map .wrote ++
        (hostOf backend settings w interrupted).logOf (ready settings.tone platform w)
          (installation backend platform settings w interrupted).events := by
  have hready : (ready settings.tone platform w).log =
      (prologue settings.tone platform).map .wrote := by
    simp [ready, prologue, begin, Session.say]
  rw [run_of_installs h, ← hready, installation, Surroundings.state_run, Host.log_after]

theorem writesOf_of_installs (h : installs platform settings = some backend) :
    writesOf (run platform settings w interrupted).session.log =
      prologue settings.tone platform ++
        writesOf ((hostOf backend settings w interrupted).logOf (ready settings.tone platform w)
          (installation backend platform settings w interrupted).events) := by
  rw [log_of_installs h, writesOf_append, writesOf_said]

/-- A setup that does not come to the installer passes its verdict, and nothing else happens. -/
theorem run_of_not_installs (h : installs platform settings = none) :
    run platform settings w interrupted =
      ⟨(verdict platform settings).1, (begin w).say (verdict platform settings).2⟩ := by
  cases hbackend : platform.backend with
  | error failure =>
      simp [run, announce, verdict, hbackend]
  | ok backend =>
      cases hvalid : PackageName.validateAll settings.packages with
      | error failure =>
          simp [run, announce, runWith, verdict, hbackend, hvalid]
      | ok =>
          have hlist : settings.listOnly = true := by simpa [installs, hbackend, hvalid] using h
          simp [run, announce, runWith, verdict, hbackend, hvalid, hlist, list, Session.say]

theorem log_of_not_installs (h : installs platform settings = none) :
    (run platform settings w interrupted).session.log =
      (verdict platform settings).2.map .wrote := by
  simp [run_of_not_installs h, begin, Session.say]

theorem writesOf_of_not_installs (h : installs platform settings = none) :
    writesOf (run platform settings w interrupted).session.log = (verdict platform settings).2 := by
  rw [log_of_not_installs h, writesOf_said]

theorem processesOf_of_not_installs (h : installs platform settings = none) :
    processesOf (run platform settings w interrupted).session.log = [] := by
  rw [log_of_not_installs h, processesOf_said]

/-- Its input is left as it was. -/
theorem input_of_not_installs (h : installs platform settings = none) :
    (run platform settings w interrupted).session.input.flatten = w.stdin := by
  simpa [run_of_not_installs h, begin, Session.say] using Text.flatten_inputLines w.stdin

end Installs

end Setup
end Provision

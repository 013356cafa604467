import Provision.Proofs.Confinement
import Provision.Proofs.Installation

/-!
# Distribution — a Linux host that is not Ubuntu is left as it is

Apt is driven on one distribution only.  On a host that reports another one, or none, the package
manager counts as missing, and the attempt to provide it fails, whoever agrees to it.  This ends the
run before its first step, so the question for the distribution is all that the host ever sees.
This file defines:

* `World.Foreign` — the hosts that do not report Ubuntu;
* `ubuntuOnly`, `rebuff` — the failure to provide apt, and how a run ends on account of it;
* `rebuffOn` — this end on a host, by the two polls around its question;
* `Prepared.rebuffed` — making apt ready comes to this end, and asks the host for nothing more;
* `Spared`, `run_spared` — what a setup of such a host comes to.
-/

namespace Provision

/-! ## Hosts with another distribution -/

/-- The command that asks a host for its distribution. -/
def Apt.identify : Command :=
  .direct "lsb_release" ["-is"]

/-- The host cannot be asked for its distribution, or what it reports is not just Ubuntu. -/
inductive World.Foreign (w : World) : Prop where
  | unidentified {e : StartError} (h : w.start Apt.identify = .error e)
  | identified {process : Process} {effect : Effect}
      (h : w.start Apt.identify = .ok (process, effect))
      (hreport : Text.trim (Text.Utf8.lossy effect.stdout) ≠ "Ubuntu".toList)

theorem not_isSupportedDistribution_iff {report : List Char} :
    isSupportedDistribution report = false ↔ Text.trim report ≠ "Ubuntu".toList :=
  decide_eq_false_iff_not

/-- These are the hosts on which apt counts as missing. -/
theorem World.foreign_iff {w : World} {tone : Tone} :
    w.Foreign ↔ (Apt.isAvailable w tone).value = false := by
  cases hstart : w.start Apt.identify with
  | error e =>
      have hasked : w.start (.direct "lsb_release" ["-is"]) = .error e := hstart
      have hmissing : (Apt.isAvailable w tone).value = false := by
        simp [Apt.isAvailable, Logged.map, captured_of_refused hasked]
      exact ⟨fun _ => hmissing, fun _ => .unidentified hstart⟩
  | ok started =>
      rcases started with ⟨process, effect⟩
      have hasked : w.start (.direct "lsb_release" ["-is"]) = .ok (process, effect) := hstart
      have hvalue : (Apt.isAvailable w tone).value =
          isSupportedDistribution (Text.Utf8.lossy effect.stdout) := by
        simp [Apt.isAvailable, Logged.map, captured_of_started hasked]
      rw [hvalue, not_isSupportedDistribution_iff]
      constructor
      · intro h
        cases h with
        | unidentified h =>
            cases hstart.symm.trans h
        | identified h hreport =>
            cases hstart.symm.trans h
            exact hreport
      · exact .identified hstart

/-! ## The end of a run -/

namespace Installer

open Procedure

/-- The failure of every attempt to provide apt. -/
def ubuntuOnly : Failure :=
  .manager "this setup is intended for Ubuntu systems only"

/-- How a run ends where apt cannot be made ready: an interruption before the question or while it
stands comes first, then the operator's no, and a yes leads to the failure of the attempt. -/
def rebuff (operator : Operator) (tone : Tone) (input : Input) (before after : Bool) : Failure :=
  if before || after then .interrupted
  else if (operator.reply tone (offer Backend.apt.manager) input).answer then
    .bootstrap Backend.apt.manager ubuntuOnly
  else .declined (refusal Backend.apt.manager)

/-- How a run ends on a host when the question for apt is put in this session. -/
def rebuffOn (host : Host) (s : Session) : Failure :=
  rebuff host.operator host.tone s.input (host.interrupted s.polls s.commands)
    (host.interrupted (s.polls + 1) s.commands)

section Rebuff

variable {host : Host} {s : Session} {es : List Event} {result : Except Failure Unit}

/-- While a question stands nothing is started, so both polls meet the same commands. -/
theorem poll_behind_question (host : Host) (question : String) (s : Session) :
    (host.surroundings.answer .poll
      (host.surroundings.answer (.ask question) (host.surroundings.answer .poll s).2).2).1 =
        host.interrupted (s.polls + 1) s.commands := by
  simp [Host.surroundings, Session.commands, Session.say, processesOf_append, processesOf_said]

/-- A host whose operator was asked and agreed was not interrupted until then. -/
theorem Consented.agreed_of_answered {missing : String} (h : Consented missing es (.ok ()))
    (hanswered : host.surroundings.Answered es s) :
    host.interrupted s.polls s.commands = false ∧
      host.interrupted (s.polls + 1) s.commands = false ∧
        (host.operator.reply host.tone (offer missing) s.input).answer = true := by
  cases h with
  | agreed =>
      rcases hanswered with ⟨hbefore, hyes, hafter, -⟩
      exact ⟨hbefore.symm, (hafter.trans (poll_behind_question host _ s)).symm, hyes.symm⟩

/-- A question fails because the host is interrupted before it or while it stands, or because its
operator says no. -/
theorem Consented.refused_of_answered {missing : String} {failure : Failure}
    (h : Consented missing es (.error failure)) (hanswered : host.surroundings.Answered es s) :
    ((host.interrupted s.polls s.commands = true ∨
        host.interrupted (s.polls + 1) s.commands = true) ∧ failure = .interrupted) ∨
      (host.interrupted s.polls s.commands = false ∧
        host.interrupted (s.polls + 1) s.commands = false ∧
          (host.operator.reply host.tone (offer missing) s.input).answer = false ∧
            failure = .declined (refusal missing)) := by
  cases h with
  | interrupted =>
      exact Or.inl ⟨Or.inl hanswered.1.symm, rfl⟩
  | overruled yes =>
      rcases hanswered with ⟨-, -, hafter, -⟩
      exact Or.inl ⟨Or.inr (hafter.trans (poll_behind_question host _ s)).symm, rfl⟩
  | declined =>
      rcases hanswered with ⟨hbefore, hno, hafter, -⟩
      exact Or.inr
        ⟨hbefore.symm, (hafter.trans (poll_behind_question host _ s)).symm, hno.symm, rfl⟩

/-- Nothing of a question goes to the host. -/
theorem Consented.uncommanded {missing : String} (h : Consented missing es result) :
    ∀ e ∈ es, host.command? e.request = none := by
  have hpoll : host.command? .poll = none := by
    cases hbackend : host.backend <;> simp [Host.command?, Backend.command?, hbackend]
  have hask : host.command? (.ask (offer missing)) = none := by
    cases hbackend : host.backend <;> simp [Host.command?, Backend.command?, hbackend]
  cases h <;> simp [hpoll, hask]

/-- Where apt cannot be made ready, nothing but the question for the distribution goes to the
host. -/
theorem Prepared.rebuffed (h : Prepared Backend.apt.manager es result)
    (hbackend : host.backend = .apt) (hforeign : host.world.Foreign)
    (hanswered : host.surroundings.Answered es s) :
    ∃ rest, es = ⟨.available, false⟩ :: rest ∧ (∀ e ∈ rest, host.command? e.request = none) ∧
      result = .error (rebuffOn host (host.next s .available)) := by
  have hnext : (host.surroundings.answer .available s).2 = host.next s .available := by
    rw [Host.answer_eq_serve]
  cases h with
  | updated outcome =>
      have hpresent : true = (host.surroundings.answer .available s).1 := hanswered.1
      have hmissing : (host.surroundings.answer .available s).1 = false := by
        simpa [Host.answer_eq_serve, Host.serve, hbackend, Backend.isAvailable] using
          World.foreign_iff.1 hforeign
      cases hpresent.trans hmissing
  | refused h =>
      refine ⟨_, rfl, h.uncommanded, ?_⟩
      have hasked := hanswered.2
      rw [hnext] at hasked
      rcases h.refused_of_answered hasked with ⟨hflag, rfl⟩ | ⟨hbefore, hafter, hno, rfl⟩
      · rcases hflag with hflag | hflag
        · simp [rebuffOn, rebuff, hflag]
        · simp [rebuffOn, rebuff, hflag]
      · simp [rebuffOn, rebuff, hbefore, hafter, hno]
  | bootstrapped outcome h =>
      rcases Surroundings.answered_append.1 hanswered.2 with ⟨hasked, -, houtcome, -⟩
      rw [hnext] at hasked
      rcases h.agreed_of_answered hasked with ⟨hbefore, hafter, hyes⟩
      have hfails : outcome = .error ubuntuOnly := by
        rw [Host.answer_eq_serve, Host.serve, hbackend] at houtcome
        exact houtcome
      have hresult : outcome.mapError (Failure.bootstrap Backend.apt.manager) =
          .error (Failure.bootstrap Backend.apt.manager ubuntuOnly) := by
        rw [hfails]
        rfl
      have hquiet : ∀ e ∈ [(⟨.inform ("installing " ++ Backend.apt.manager), ()⟩ : Event),
          ⟨.bootstrap, outcome⟩], host.command? e.request = none := by
        simp [Host.command?, Backend.command?, hbackend]
      refine ⟨_, rfl, List.forall_mem_append.2 ⟨h.uncommanded, hquiet⟩, ?_⟩
      simp [rebuffOn, rebuff, hbefore, hafter, hyes, hresult]

/-- A run for apt ends there, before the first step of its plan. -/
theorem install_rebuffed (hbackend : host.backend = .apt) (hforeign : host.world.Foreign)
    (plan : Plan) (s : Session) :
    ∃ rest, ((install .apt plan).run host.surroundings s).events = ⟨.available, false⟩ :: rest ∧
      (∀ e ∈ rest, host.command? e.request = none) ∧
        ((install .apt plan).run host.surroundings s).result =
          .error (rebuffOn host (host.next s .available)) := by
  have hanswered := host.surroundings.answered_run (install .apt plan) s
  have hcourse := run_course host.surroundings (install .apt plan) s
  rcases course_bind.1 hcourse with
    ⟨failure, hfirst, hresult⟩ | ⟨_, front, back, hevents, hfirst, -⟩
  · rw [hresult]
    exact (course_prepare.1 hfirst).rebuffed hbackend hforeign hanswered
  · -- the steps would need apt to be ready
    rw [hevents] at hanswered
    have hfront : host.surroundings.Answered front s := (Surroundings.answered_append.1 hanswered).1
    rcases (course_prepare.1 hfirst).rebuffed hbackend hforeign hfront with ⟨rest, -, -, hfailed⟩
    cases hfailed

/-- All that such a run starts is the question for the distribution. -/
theorem processesOf_rebuffed (hbackend : host.backend = .apt) (hforeign : host.world.Foreign)
    (plan : Plan) (s : Session) :
    processesOf ((install .apt plan).run host.surroundings s).state.log =
      processesOf (host.next s .available).log := by
  rcases install_rebuffed hbackend hforeign plan s with ⟨rest, hevents, hquiet, -⟩
  rw [Surroundings.state_run, hevents, Host.log_after, processesOf_append, Host.logOf,
    processesOf_append, Host.processesOf_logOf hquiet, List.append_nil, Host.next,
    processesOf_append]

/-- That is one process, or none where it cannot be started. -/
theorem processesOf_identify (hbackend : host.backend = .apt) (s : Session) :
    processesOf (host.next s .available).log = processesOf s.log ∨
      processesOf (host.next s .available).log =
        processesOf s.log ++ [⟨host.world.disk.home, ["lsb_release", "-is"]⟩] := by
  have htraced : (host.serve s .available).Traced host.world host.tone
      (host.command? .available) :=
    Host.traced_serve rfl
  rw [Host.next, processesOf_append]
  rcases htraced.processes with hnone | ⟨c, process, hc, hstarted, hone⟩
  · exact Or.inl (by rw [hnone, List.append_nil])
  · have hcommand : host.command? .available = some Apt.identify := by
      simp [Host.command?, Backend.command?, hbackend, Apt.identify]
    cases hcommand.symm.trans hc
    have hprocess : process = ⟨host.world.disk.home, ["lsb_release", "-is"]⟩ :=
      hstarted.eq_home rfl
    exact Or.inr (by rw [hone, hprocess])

end Rebuff

end Installer

/-! ## The whole setup -/

/-- What a setup comes to on a Linux host with another distribution. -/
structure Spared (settings : Settings) (w : World) (interrupted : Signal) (o : Outcome) : Prop where
  failed : o.result ≠ .ok ()
  /-- At most one process is started, which asks for the distribution. -/
  processes : processesOf o.session.log = [] ∨
    processesOf o.session.log = [⟨w.disk.home, ["lsb_release", "-is"]⟩]
  /-- With valid names the request makes no difference to the result, even if it is empty.  The two
  polls are the first ones, when nothing else has been started. -/
  result : (∀ name ∈ settings.packages, PackageName.validate name = .ok ()) →
    o.result = .error (Installer.rebuff settings.operator settings.tone (Text.inputLines w.stdin)
      (interrupted 0 o.session.commands) (interrupted 1 o.session.commands))

namespace Setup

open Installer PackageName

section Spared

variable {settings : Settings} {w : World} {interrupted : Signal}

/-- A request with a name that is not valid does not come to the installer. -/
theorem spared_of_not_installs (hlist : settings.listOnly = false)
    (h : installs .linux settings = none) :
    Spared settings w interrupted (run .linux settings w interrupted) := by
  cases hvalid : validateAll settings.packages with
  | ok =>
      simp [installs, Platform.backend, hvalid, hlist] at h
  | error failure =>
      have hverdict : (verdict .linux settings).1 = .error failure := by
        simp [verdict, Platform.backend, hvalid]
      have hresult : (run .linux settings w interrupted).result = .error failure := by
        rw [run_of_not_installs h, hverdict]
      refine ⟨by simp [hresult], Or.inl (processesOf_of_not_installs h), ?_⟩
      intro hall
      cases hvalid.symm.trans (validateAll_ok_iff.2 hall)

/-- With valid names the run of the installer ends before its first step. -/
theorem spared_of_installs (hforeign : w.Foreign) (h : installs .linux settings = some .apt) :
    Spared settings w interrupted (run .linux settings w interrupted) := by
  have hhost : (hostOf .apt settings w interrupted).world.Foreign := hforeign
  have hprocesses : processesOf (installation .apt .linux settings w interrupted).state.log =
      processesOf ((hostOf .apt settings w interrupted).next (ready settings.tone .linux w)
        .available).log :=
    processesOf_rebuffed rfl hhost (Backend.apt.plan settings.packages) _
  have hsaid : processesOf (ready settings.tone .linux w).log = [] := by
    simp [ready, begin, Session.say, processesOf_append, processesOf_said]
  have hcommands : (installation .apt .linux settings w interrupted).state.commands =
      ((hostOf .apt settings w interrupted).next (ready settings.tone .linux w)
        .available).commands :=
    congrArg (List.map Process.argv) hprocesses
  have hresult : (installation .apt .linux settings w interrupted).result =
      .error (rebuff settings.operator settings.tone (Text.inputLines w.stdin)
        (interrupted 0 (installation .apt .linux settings w interrupted).state.commands)
        (interrupted 1 (installation .apt .linux settings w interrupted).state.commands)) := by
    rcases install_rebuffed rfl hhost (Backend.apt.plan settings.packages)
      (ready settings.tone .linux w) with ⟨-, -, -, hrebuffed⟩
    rw [hcommands]
    exact hrebuffed
  rw [run_of_installs h]
  refine ⟨by simp [hresult], ?_, fun _ => hresult⟩
  have hapt : (hostOf .apt settings w interrupted).backend = .apt := rfl
  have hidentify := processesOf_identify hapt (ready settings.tone .linux w)
  rw [← hprocesses, hsaid, List.nil_append] at hidentify
  exact hidentify

end Spared

/-- A Linux host with another distribution is never changed, whatever is requested and answered. -/
theorem run_spared {settings : Settings} {w : World} (interrupted : Signal)
    (hlist : settings.listOnly = false) (hforeign : w.Foreign) :
    Spared settings w interrupted (run .linux settings w interrupted) := by
  cases hinstalls : installs .linux settings with
  | none =>
      exact spared_of_not_installs hlist hinstalls
  | some backend =>
      have hbackend : Platform.linux.backend = .ok backend := (installs_eq_some_iff.1 hinstalls).1
      cases hbackend
      exact spared_of_installs hforeign hinstalls

/-- A Debian host on which everything else is there. -/
def debian : World where
  programs :=
    [("lsb_release", .rules [⟨some "-is", ⟨Text.bytes "Debian\n", [], .exited 0⟩⟩]),
      ("sudo", .rules []),
      ("dpkg", .rules []), ("bash", .rules [])]
  disk := ⟨[], [], []⟩
  stdin := []

/-- There a standing yes leads to the failure that names the one distribution, and `sudo` is not
run. -/
theorem run_spared_debian :
    debian.Foreign ∧
      processesOf (run .linux { assumeYes := true, packages := ["nasm"] } debian
          .never).session.log =
        [⟨debian.disk.home, ["lsb_release", "-is"]⟩] ∧
      (run .linux { assumeYes := true, packages := ["nasm"] } debian .never).result =
        .error (.bootstrap "apt" (.manager "this setup is intended for Ubuntu systems only")) := by
  have hstart : debian.start Apt.identify =
      .ok (⟨debian.disk.home, ["lsb_release", "-is"]⟩,
        ⟨Text.bytes "Debian\n", [], .exited 0⟩) := rfl
  have hforeign : debian.Foreign := .identified hstart (by decide)
  have hspared : Spared { assumeYes := true, packages := ["nasm"] } debian .never
      (run .linux { assumeYes := true, packages := ["nasm"] } debian .never) :=
    run_spared .never rfl hforeign
  have hvalid : ∀ name ∈ ["nasm"], PackageName.validate name = .ok () :=
    List.forall_mem_singleton.2 rfl
  exact ⟨hforeign, rfl, hspared.result hvalid⟩

end Setup
end Provision

import Provision.Proofs.Ending
import Provision.Proofs.Naming
import Provision.Proofs.Scope
import Provision.Setup

/-!
# Launch — what a request to a host starts

Each operation of a package manager and of the workshop comes to one command at most, and apart from
a name that is not valid it fails only on account of that command.  This file defines:

* `attemptsOf` — the attempts in a log to start a program, whatever came of them;
* `Command.StartedAs` — a process that is a command, started;
* `Command.Trace`, `Logged.Traced` — what is logged for a command, and operations that log nothing
  else;
* `Backend.command?`, `Backend.hasNull_of_command?` — the command that a request to a package
  manager comes to, and with valid names it can be handed to the system;
* `Host.serve`, `Host.next` — the answer of a host to a request with what is logged for it, and the
  session behind it; `Host.log_after` — the log of a host is what it logged for each request;
* `Host.command?` — the command that a request comes to, and `Host.started_of_after` — no other one
  is started;
* `Failure.isOperational` — the failures of commands and of missing scripts, and
  `Host.operational_of_answer` — a host reports no other ones on valid names.
-/

namespace Provision

variable {α β : Type}

/-! ## Processes, attempts and writes in a log -/

/-- The start of a program that was attempted, with the process if that came of it. -/
structure Attempt where
  argv : List String
  process? : Option Process
  deriving DecidableEq, Repr

def Activity.attempt? : Activity → Option Attempt
  | .started process => some ⟨process.argv, some process⟩
  | .refused c => some ⟨c.argv, none⟩
  | .wrote _ => none

def attemptsOf (log : List Activity) : List Attempt :=
  log.filterMap Activity.attempt?

section Logs

variable {log : List Activity} {process : Process} {write : Write}

theorem processesOf_append (front back : List Activity) :
    processesOf (front ++ back) = processesOf front ++ processesOf back :=
  List.filterMap_append

theorem mem_processesOf : process ∈ processesOf log ↔ .started process ∈ log := by
  constructor
  · intro hmem
    rcases List.mem_filterMap.1 hmem with ⟨activity, hactivity, heq⟩
    cases activity <;> cases heq
    exact hactivity
  · intro hmem
    exact List.mem_filterMap.2 ⟨.started process, hmem, rfl⟩

theorem writesOf_append (front back : List Activity) :
    writesOf (front ++ back) = writesOf front ++ writesOf back :=
  List.filterMap_append

theorem mem_writesOf : write ∈ writesOf log ↔ .wrote write ∈ log := by
  constructor
  · intro hmem
    rcases List.mem_filterMap.1 hmem with ⟨activity, hactivity, heq⟩
    cases activity <;> cases heq
    exact hactivity
  · intro hmem
    exact List.mem_filterMap.2 ⟨.wrote write, hmem, rfl⟩

/-- Where something is only said, the log is that, and nothing is started. -/
theorem writesOf_said (said : List Write) : writesOf (said.map .wrote) = said := by
  induction said with
  | nil =>
      rfl
  | cons write said ih =>
      exact congrArg (write :: ·) ih

theorem processesOf_said (said : List Write) : processesOf (said.map .wrote) = [] := by
  simp [processesOf]

theorem attemptsOf_said (said : List Write) : attemptsOf (said.map .wrote) = [] := by
  simp [attemptsOf, Activity.attempt?]

theorem attemptsOf_append (front back : List Activity) :
    attemptsOf (front ++ back) = attemptsOf front ++ attemptsOf back :=
  List.filterMap_append

/-- The processes of a log are those that came of its attempts. -/
theorem process?_attemptsOf (log : List Activity) :
    (attemptsOf log).filterMap Attempt.process? = processesOf log := by
  rw [attemptsOf, List.filterMap_filterMap, processesOf]
  congr 1
  funext activity
  cases activity <;> rfl

theorem argv_attemptsOf (log : List Activity) :
    ((attemptsOf log).filter fun attempt => attempt.process?.isSome).map Attempt.argv =
      (processesOf log).map Process.argv := by
  induction log with
  | nil =>
      rfl
  | cons activity log ih =>
      cases activity with
      | started process =>
          exact congrArg (process.argv :: ·) ih
      | refused c | wrote write =>
          exact ih

end Logs

/-! ## Starting a command -/

/-- The process is this command, started in its directory. -/
structure Command.StartedAs (w : World) (c : Command) (process : Process) : Prop where
  argv : process.argv = c.argv
  directory : w.directoryOf c = some process.directory

theorem World.startedAs_of_start {w : World} {c : Command} {process : Process} {effect : Effect}
    (h : w.start c = .ok (process, effect)) : c.StartedAs w process := by
  unfold World.start at h
  split at h
  · cases h
  · cases hdirectory : w.directoryOf c with
    | none =>
        simp [hdirectory] at h
    | some directory =>
        simp only [hdirectory] at h
        -- of all cases only that of an executable program gives a process
        split at h
        · cases h
        · cases h
        · cases h
          exact ⟨rfl, hdirectory⟩

/-- What is logged for a command: its echo if the tone has it, and then the refusal, or the process
with what it shows. -/
inductive Command.Trace (w : World) (tone : Tone) (c : Command) : List Activity → Prop where
  | refused : Trace w tone c (c.echo tone ++ [.refused c])
  | captured {process : Process} (h : c.StartedAs w process) :
      Trace w tone c (c.echo tone ++ [.started process])
  | shown {process : Process} (output : List UInt8) (h : c.StartedAs w process) :
      Trace w tone c (c.echo tone ++ [.started process, .wrote (.child output)])

section Traces

variable {w : World} {tone : Tone} {c : Command} {log : List Activity}

theorem processesOf_echo : processesOf (c.echo tone) = [] :=
  processesOf_said _

theorem attemptsOf_echo : attemptsOf (c.echo tone) = [] :=
  attemptsOf_said _

/-- It is one attempt, of this command. -/
theorem Command.Trace.attempts (h : c.Trace w tone log) :
    ∃ process?, attemptsOf log = [⟨c.argv, process?⟩] ∧
      ∀ process ∈ process?, c.StartedAs w process := by
  cases h with
  | refused =>
      refine ⟨none, ?_, by simp⟩
      rw [attemptsOf_append, attemptsOf_echo]
      rfl
  | captured hstarted | shown _ hstarted =>
      refine ⟨some _, ?_, by simpa using hstarted⟩
      rw [attemptsOf_append, attemptsOf_echo, ← hstarted.argv]
      rfl

theorem Command.Trace.eq_of_refused {other : Command} (h : c.Trace w tone log)
    (hmem : .refused other ∈ log) : other = c := by
  cases h with
  | refused =>
      simpa [Command.echo] using hmem
  | captured _ | shown _ _ =>
      simp [Command.echo] at hmem

/-- It is one process at most, and that is the command. -/
theorem Command.Trace.processes (h : c.Trace w tone log) :
    processesOf log = [] ∨ ∃ process, c.StartedAs w process ∧ processesOf log = [process] := by
  cases h with
  | refused =>
      rw [processesOf_append, processesOf_echo]
      exact Or.inl rfl
  | captured hstarted | shown _ hstarted =>
      rw [processesOf_append, processesOf_echo]
      exact Or.inr ⟨_, hstarted, rfl⟩

end Traces

namespace Logged

variable {w : World} {tone : Tone} {c? : Option Command} {l : Logged α}

/-- Nothing is logged but this command, if there is one. -/
def Traced (w : World) (tone : Tone) (c? : Option Command) (l : Logged α) : Prop :=
  l.log = [] ∨ ∃ c, c? = some c ∧ c.Trace w tone l.log

/-- No process is started but by this command, if there is one. -/
def Issues (w : World) (c? : Option Command) (l : Logged α) : Prop :=
  ∀ process, .started process ∈ l.log → ∃ c, c? = some c ∧ c.StartedAs w process

theorem traced_quietly {value : α} : (quietly value).Traced w tone c? :=
  Or.inl rfl

theorem Traced.map {f : α → β} (h : l.Traced w tone c?) : (l.map f).Traced w tone c? :=
  h

/-- At most one process is started, and it is that command. -/
theorem Traced.processes (h : l.Traced w tone c?) :
    processesOf l.log = [] ∨
      ∃ c process, c? = some c ∧ c.StartedAs w process ∧ processesOf l.log = [process] := by
  rcases h with hnone | ⟨c, hc, htrace⟩
  · exact Or.inl (by simp [hnone, processesOf])
  · rcases htrace.processes with hrefused | ⟨process, hstarted, hone⟩
    · exact Or.inl hrefused
    · exact Or.inr ⟨c, process, hc, hstarted, hone⟩

theorem Traced.issues (h : l.Traced w tone c?) : l.Issues w c? := by
  intro process hmem
  have hprocess : process ∈ processesOf l.log := mem_processesOf.2 hmem
  rcases h.processes with hnone | ⟨c, started, hc, hstarted, hone⟩
  · simp [hnone] at hprocess
  · have hsame : process = started := by simpa [hone] using hprocess
    exact ⟨c, hc, hsame ▸ hstarted⟩

end Logged

section Runners

variable {w : World} {tone : Tone} {c : Command} {process : Process} {effect : Effect}
  {e : StartError}

/-- A command that is not started fails on that account, whatever it is run for. -/
theorem captured_of_refused (h : w.start c = .error e) :
    w.captured tone c = ⟨.error (c.refusal e), c.echo tone ++ [.refused c]⟩ := by
  simp [World.captured, World.launch, h]

theorem captured_of_started (h : w.start c = .ok (process, effect)) :
    w.captured tone c = ⟨.ok effect, c.echo tone ++ [.started process]⟩ := by
  simp [World.captured, World.launch, h]

theorem checked_of_refused (h : w.start c = .error e) :
    w.checked tone c = ⟨.error (c.refusal e), c.echo tone ++ [.refused c]⟩ := by
  simp [World.checked, World.interactive, World.launch, Logged.map, Except.map, Except.bind, h]

theorem checked_of_started (h : w.start c = .ok (process, effect)) :
    w.checked tone c = ⟨c.judge effect.status,
      c.echo tone ++ [.started process, .wrote (.child effect.stdout)]⟩ := by
  simp [World.checked, World.interactive, World.launch, Logged.map, Except.map, Except.bind, h]

/-- A command that has to succeed does so when it is started and ends with code zero. -/
theorem checked_ok_iff :
    (w.checked tone c).value = .ok () ↔
      ∃ process effect, w.start c = .ok (process, effect) ∧ effect.status = .exited 0 := by
  have hjudge : ∀ status, c.judge status = .ok () ↔ status = .exited 0 := by
    intro status
    simp [Command.judge, ExitStatus.isSuccess]
  constructor
  · intro h
    cases hstart : w.start c with
    | error e =>
        rw [checked_of_refused hstart] at h
        cases h
    | ok started =>
        rw [checked_of_started hstart] at h
        exact ⟨started.1, started.2, rfl, (hjudge _).1 h⟩
  · intro h
    rcases h with ⟨process, effect, hstart, hstatus⟩
    rw [checked_of_started hstart]
    exact (hjudge _).2 hstatus

/-- Any other end is reported as one. -/
theorem checked_of_badEnd (hstart : w.start c = .ok (process, effect))
    (hstatus : effect.status ≠ .exited 0) :
    (w.checked tone c).value = .error (c.badEnd effect.status) := by
  rw [checked_of_started hstart]
  simp [Command.judge, ExitStatus.isSuccess, hstatus]

theorem trace_captured : c.Trace w tone (w.captured tone c).log := by
  cases hstart : w.start c with
  | error e =>
      rw [captured_of_refused hstart]
      exact .refused
  | ok started =>
      rw [captured_of_started hstart]
      exact .captured (World.startedAs_of_start hstart)

theorem trace_checked : c.Trace w tone (w.checked tone c).log := by
  cases hstart : w.start c with
  | error e =>
      rw [checked_of_refused hstart]
      exact .refused
  | ok started =>
      rw [checked_of_started hstart]
      exact .shown _ (World.startedAs_of_start hstart)

theorem traced_captured : (w.captured tone c).Traced w tone (some c) :=
  Or.inr ⟨c, rfl, trace_captured⟩

theorem traced_checked : (w.checked tone c).Traced w tone (some c) :=
  Or.inr ⟨c, rfl, trace_checked⟩

/-- A command that is made of a name is run only if the name is valid. -/
theorem traced_validated {package : String} {c? : Option Command} {l : Logged (Except Failure α)}
    (h : l.Traced w tone c?) :
    Logged.Traced w tone c?
      (match PackageName.validate package with
        | .error failure => .quietly (.error failure)
        | .ok _ => l) := by
  cases PackageName.validate package with
  | error failure =>
      exact Logged.traced_quietly
  | ok =>
      exact h

end Runners

/-! ## Operational failures -/

/-- The failure of a command, or of a script that is not there. -/
def Failure.isOperational : Failure → Bool
  | manager _ | command _ _ | scriptMissing _ => true
  | _ => false

section Runners

variable {w : World} {tone : Tone} {c : Command} {failure : Failure}

theorem operational_of_captured (h : (w.captured tone c).value = .error failure) :
    failure.isOperational = true := by
  cases hstart : w.start c with
  | error e =>
      rw [captured_of_refused hstart] at h
      cases h
      rfl
  | ok started =>
      rw [captured_of_started hstart] at h
      cases h

theorem operational_of_checked (h : (w.checked tone c).value = .error failure) :
    failure.isOperational = true := by
  cases hstart : w.start c with
  | error e =>
      rw [checked_of_refused hstart] at h
      cases h
      rfl
  | ok started =>
      have hjudged : c.judge started.2.status = .error failure := by
        rw [checked_of_started hstart] at h
        exact h
      unfold Command.judge at hjudged
      split at hjudged
      · cases hjudged
      · cases hjudged
        rfl

/-- With a valid name an operation is what it does behind the validation. -/
theorem value_of_valid {package : String} {l : Logged (Except Failure α)}
    {outcome : Except Failure α} (hname : PackageName.validate package = .ok ())
    (h : Logged.value
      (match PackageName.validate package with
        | .error failure => .quietly (.error failure)
        | .ok _ => l) = outcome) : l.value = outcome := by
  rw [hname] at h
  exact h

end Runners

/-! ## The operations of the package managers -/

/-- The command that a request to a package manager comes to. -/
def Backend.command? (w : World) : Backend → Request → Option Command
  | apt, .available => some (.direct "lsb_release" ["-is"])
  | apt, .update => some (Apt.command ["update"])
  | apt, .check package => some (.direct "dpkg" ["-l", package])
  | apt, .install package => some (Apt.command ["install", "-y", package])
  | apt, .upgrade package => some (Apt.command ["upgrade", "-y", package])
  | homebrew, .bootstrap =>
      if Homebrew.isAvailable w then none else some (.shell false Homebrew.installLine)
  | homebrew, .update => some (Homebrew.command ["update"])
  | homebrew, .check _ => some (Homebrew.command ["list", "--versions"])
  | homebrew, .install package => some (Homebrew.command ["install", package])
  | homebrew, .upgrade package => some (Homebrew.command ["upgrade", package])
  | _, _ => none

/-- With a valid name, if it has one, a command for a package manager can be handed to the
system. -/
theorem Backend.hasNull_of_command? {w : World} {backend : Backend} {r : Request} {c : Command}
    (hvalid : ∀ package ∈ r.package?, PackageName.validate package = .ok ())
    (hc : backend.command? w r = some c) : ∀ text ∈ c.argv, Text.hasNull text = false := by
  have hname : ∀ package ∈ r.package?, Text.hasNull package = false :=
    fun package hpackage => PackageName.hasNull_of_validate (hvalid package hpackage)
  have hwords : ∀ word ∈ ["sudo", "apt", "dpkg", "-l", "-y", "brew", "install", "upgrade"],
      Text.hasNull word = false := by decide
  simp only [List.forall_mem_cons] at hwords
  cases backend with
  | apt =>
      cases r with
      | available | update =>
          cases hc
          decide
      | check package | install package | upgrade package =>
          cases hc
          simp [Apt.command, Command.direct, Command.elevated, Command.argv, hwords,
            hname package rfl]
      | _ =>
          cases hc
  | homebrew =>
      cases r with
      | bootstrap =>
          simp only [Backend.command?] at hc
          split at hc
          · cases hc
          · cases hc
            decide
      | update | check package =>
          cases hc
          decide
      | install package | upgrade package =>
          cases hc
          simp [Homebrew.command, Command.direct, Command.argv, hwords, hname package rfl]
      | _ =>
          cases hc

namespace Backend

section Operations

variable {w : World} {tone : Tone} {backend : Backend} {package : String} {failure : Failure}

theorem traced_isAvailable :
    (backend.isAvailable w tone).Traced w tone (backend.command? w .available) := by
  cases backend with
  | apt =>
      exact traced_captured.map
  | homebrew =>
      exact Logged.traced_quietly

theorem traced_bootstrap :
    (backend.bootstrap w tone).Traced w tone (backend.command? w .bootstrap) := by
  cases backend with
  | apt =>
      exact Logged.traced_quietly
  | homebrew =>
      simp only [bootstrap, Homebrew.bootstrap, command?]
      split
      · exact Logged.traced_quietly
      · exact traced_checked

theorem traced_update : (backend.update w tone).Traced w tone (backend.command? w .update) := by
  cases backend with
  | apt | homebrew =>
      exact traced_checked

theorem traced_isInstalled {version : Option String} :
    (backend.isInstalled w tone package version).Traced w tone
      (backend.command? w (.check package)) := by
  cases backend with
  | apt | homebrew =>
      exact traced_validated traced_captured.map

theorem traced_install :
    (backend.install w tone package).Traced w tone (backend.command? w (.install package)) := by
  cases backend with
  | apt | homebrew =>
      exact traced_validated traced_checked

theorem traced_upgrade :
    (backend.upgrade w tone package).Traced w tone (backend.command? w (.upgrade package)) := by
  cases backend with
  | apt | homebrew =>
      exact traced_validated traced_checked

theorem operational_bootstrap (h : (backend.bootstrap w tone).value = .error failure) :
    failure.isOperational = true := by
  cases backend with
  | apt =>
      cases h
      rfl
  | homebrew =>
      simp only [bootstrap, Homebrew.bootstrap] at h
      split at h
      · cases h
      · exact operational_of_checked h

theorem operational_update (h : (backend.update w tone).value = .error failure) :
    failure.isOperational = true := by
  cases backend with
  | apt | homebrew =>
      exact operational_of_checked h

theorem operational_isInstalled {version : Option String}
    (hname : PackageName.validate package = .ok ())
    (h : (backend.isInstalled w tone package version).value = .error failure) :
    failure.isOperational = true := by
  cases backend with
  | apt =>
      have hread := value_of_valid hname h
      cases hvalue : (w.captured tone (.direct "dpkg" ["-l", package])).value with
      | error refused =>
          simp only [Logged.map, hvalue] at hread
          cases hread
          exact operational_of_captured hvalue
      | ok effect =>
          simp only [Logged.map, hvalue] at hread
          cases hread
  | homebrew =>
      have hread := value_of_valid hname h
      cases hvalue : (w.captured tone (Homebrew.command ["list", "--versions"])).value with
      | error refused =>
          simp only [Logged.map, hvalue] at hread
          cases hread
          exact operational_of_captured hvalue
      | ok effect =>
          -- a list that was printed without success is not read
          simp only [Logged.map, hvalue, Except.bind, Homebrew.entries] at hread
          split at hread
          · cases hread
          · cases hread
            rfl

theorem operational_install (hname : PackageName.validate package = .ok ())
    (h : (backend.install w tone package).value = .error failure) :
    failure.isOperational = true := by
  cases backend with
  | apt | homebrew =>
      exact operational_of_checked (value_of_valid hname h)

theorem operational_upgrade (hname : PackageName.validate package = .ok ())
    (h : (backend.upgrade w tone package).value = .error failure) :
    failure.isOperational = true := by
  cases backend with
  | apt | homebrew =>
      exact operational_of_checked (value_of_valid hname h)

end Operations

end Backend

/-! ## The operations of the workshop -/

namespace Workshop

variable {w : World} {tone : Tone} {scriptsDir : String} {script : Script}

theorem traced_isBuilt {probe : Probe} :
    (isBuilt w tone probe).Traced w tone (some (.direct probe.program ["--version"])) :=
  traced_captured.map

theorem traced_build :
    (build w tone scriptsDir script).Traced w tone (some (command scriptsDir script)) := by
  unfold build
  split
  · exact traced_checked
  · exact Logged.traced_quietly

theorem operational_build {failure : Failure}
    (h : (build w tone scriptsDir script).value = .error failure) :
    failure.isOperational = true := by
  unfold build at h
  split at h
  · exact operational_of_checked h
  · cases h
    rfl

end Workshop

/-! ## Hosts -/

/-- The request is for the operator, by a question or by information. -/
def Request.speaks : Request → Bool
  | .ask _ | .inform _ => true
  | _ => false

/-- A call that fails was answered with its failure. -/
theorem outcome_of_failure? (call : Except Failure α → Event) {outcome : Except Failure α}
    {failure : Failure} (hok : ∀ value, (call (.ok value)).failure? = none)
    (herror : ∀ reported, (call (.error reported)).failure? = some reported)
    (h : (call outcome).failure? = some failure) : outcome = .error failure := by
  cases outcome with
  | ok value =>
      rw [hok value] at h
      cases h
  | error reported =>
      rw [herror reported] at h
      cases h
      rfl

namespace Host

/-- The command that a request to a host comes to. -/
def command? (host : Host) : Request → Option Command
  | .probe probe => some (.direct probe.program ["--version"])
  | .build script => some (Workshop.command host.scriptsDir script)
  | r => host.backend.command? host.world r

/-- The answer to a request with what is logged for it, in some session. -/
def serve (host : Host) (s : Session) : (r : Request) → Logged r.Answer
  | .poll => .quietly (host.interrupted s.polls s.commands)
  | .available => host.backend.isAvailable host.world host.tone
  | .bootstrap => host.backend.bootstrap host.world host.tone
  | .update => host.backend.update host.world host.tone
  | .check package => host.backend.isInstalled host.world host.tone package none
  | .install package => host.backend.install host.world host.tone package
  | .upgrade package => host.backend.upgrade host.world host.tone package
  | .ask question =>
      let reply := host.operator.reply host.tone question s.input
      ⟨reply.answer, reply.writes.map .wrote⟩
  | .probe probe => Workshop.isBuilt host.world host.tone probe
  | .build script => Workshop.build host.world host.tone host.scriptsDir script
  | .inform message => ⟨(), (host.tone.info message).map .wrote⟩

/-- The input that a request leaves; only a question reads any. -/
def inputLeft (host : Host) (input : Input) : Request → Input
  | .ask question => (host.operator.reply host.tone question input).rest
  | _ => input

/-- The number of polls behind a request. -/
def pollsBehind (polls : Nat) : Request → Nat
  | .poll => polls + 1
  | _ => polls

/-- The session behind a request: what was logged for it stands behind what was logged before. -/
def next (host : Host) (s : Session) (r : Request) : Session :=
  ⟨host.inputLeft s.input r, pollsBehind s.polls r, s.log ++ (host.serve s r).log⟩

variable {host : Host} {s : Session} {r : Request}

/-- A host answers as it serves. -/
theorem answer_eq_serve (host : Host) (r : Request) (s : Session) :
    host.surroundings.answer r s = ((host.serve s r).value, host.next s r) := by
  cases r with
  | poll =>
      simp [surroundings, serve, next, inputLeft, pollsBehind, Logged.quietly]
  | _ =>
      rfl

/-- What is logged for some requests, one after another. -/
def logOf (host : Host) (s : Session) : List Event → List Activity
  | [] => []
  | e :: es => (host.serve s e.request).log ++ host.logOf (host.next s e.request) es

theorem log_after (es : List Event) (s : Session) :
    (host.surroundings.after es s).log = s.log ++ host.logOf s es := by
  induction es generalizing s with
  | nil =>
      simp [Surroundings.after, logOf]
  | cons e es ih =>
      calc
        (host.surroundings.after (e :: es) s).log
            = (host.surroundings.answer e.request s).2.log ++
                host.logOf (host.surroundings.answer e.request s).2 es := ih _
        _ = s.log ++ host.logOf s (e :: es) := by
              simp [answer_eq_serve, logOf, next]

/-- What is logged for some requests is logged for one of them. -/
theorem exists_of_mem_logOf {es : List Event} {activity : Activity}
    (h : activity ∈ host.logOf s es) :
    ∃ e ∈ es, ∃ s', activity ∈ (host.serve s' e.request).log := by
  induction es generalizing s with
  | nil =>
      cases h
  | cons e es ih =>
      rcases List.mem_append.1 h with hfirst | hrest
      · exact ⟨e, List.mem_cons_self .., s, hfirst⟩
      · rcases ih hrest with ⟨e', he', s', hmem⟩
        exact ⟨e', List.mem_cons_of_mem _ he', s', hmem⟩

/-- Where the console is left alone nothing is logged but the command of the request. -/
theorem traced_serve (hspeaks : r.speaks = false) :
    (host.serve s r).Traced host.world host.tone (host.command? r) := by
  cases r with
  | poll =>
      exact Logged.traced_quietly
  | available =>
      exact Backend.traced_isAvailable
  | bootstrap =>
      exact Backend.traced_bootstrap
  | update =>
      exact Backend.traced_update
  | check package =>
      exact Backend.traced_isInstalled
  | install package =>
      exact Backend.traced_install
  | upgrade package =>
      exact Backend.traced_upgrade
  | ask question | inform message =>
      cases hspeaks
  | probe probe =>
      exact Workshop.traced_isBuilt
  | build script =>
      exact Workshop.traced_build

/-- Where the operator is spoken to nothing else is done. -/
theorem spoken_serve (hspeaks : r.speaks = true) :
    ∃ writes : List Write, (host.serve s r).log = writes.map .wrote := by
  cases r with
  | ask question =>
      exact ⟨(host.operator.reply host.tone question s.input).writes, rfl⟩
  | inform message =>
      exact ⟨host.tone.info message, rfl⟩
  | _ =>
      cases hspeaks

theorem issues_serve : (host.serve s r).Issues host.world (host.command? r) := by
  cases hspeaks : r.speaks with
  | false =>
      exact (traced_serve hspeaks).issues
  | true =>
      intro process hmem
      have hspoken : ∃ writes : List Write, (host.serve s r).log = writes.map .wrote :=
        spoken_serve hspeaks
      rcases hspoken with ⟨writes, hlog⟩
      simp [hlog] at hmem

/-- A request that comes to no command starts no process. -/
theorem processesOf_serve (h : host.command? r = none) (s : Session) :
    processesOf (host.serve s r).log = [] := by
  apply List.eq_nil_iff_forall_not_mem.2
  intro process hprocess
  rcases issues_serve process (mem_processesOf.1 hprocess) with ⟨c, hc, -⟩
  cases h.symm.trans hc

theorem processesOf_logOf {es : List Event} (h : ∀ e ∈ es, host.command? e.request = none)
    (s : Session) : processesOf (host.logOf s es) = [] := by
  apply List.eq_nil_iff_forall_not_mem.2
  intro process hprocess
  rcases exists_of_mem_logOf (mem_processesOf.1 hprocess) with ⟨e, he, s', hmem⟩
  have hnone : processesOf (host.serve s' e.request).log = [] := processesOf_serve (h e he) s'
  exact List.not_mem_nil (hnone ▸ mem_processesOf.2 hmem)

theorem started_of_say {writes : List Write} {process : Process}
    (h : .started process ∈ (s.say writes).log) : .started process ∈ s.log := by
  rcases List.mem_append.1 h with hbefore | hwrote
  · exact hbefore
  · rcases List.mem_map.1 hwrote with ⟨write, -, hwrite⟩
    cases hwrite

/-- A process was there before some requests, or it is the command of one of them. -/
theorem started_of_after {es : List Event} {process : Process}
    (h : .started process ∈ (host.surroundings.after es s).log) :
    .started process ∈ s.log ∨
      ∃ e ∈ es, ∃ c, host.command? e.request = some c ∧ c.StartedAs host.world process := by
  rw [log_after] at h
  rcases List.mem_append.1 h with hbefore | hlater
  · exact Or.inl hbefore
  · rcases exists_of_mem_logOf hlater with ⟨e, he, s', hmem⟩
    exact Or.inr ⟨e, he, issues_serve process hmem⟩

/-- With valid names a failing request fails on account of its command. -/
theorem operational_of_answer {failure : Failure}
    (hvalid : ∀ package ∈ r.package?, PackageName.validate package = .ok ())
    (h : (⟨r, (host.surroundings.answer r s).1⟩ : Event).failure? = some failure) :
    failure.isOperational = true := by
  cases r with
  | poll | available | ask | probe | inform =>
      cases h
  | bootstrap =>
      have hvalue := outcome_of_failure? (fun o => ⟨.bootstrap, o⟩) (fun _ => rfl) (fun _ => rfl) h
      exact Backend.operational_bootstrap hvalue
  | update =>
      have hvalue := outcome_of_failure? (fun o => ⟨.update, o⟩) (fun _ => rfl) (fun _ => rfl) h
      exact Backend.operational_update hvalue
  | check package =>
      have hname : PackageName.validate package = .ok () := hvalid package rfl
      have hvalue :=
        outcome_of_failure? (fun o => ⟨.check package, o⟩) (fun _ => rfl) (fun _ => rfl) h
      exact Backend.operational_isInstalled hname hvalue
  | install package =>
      have hname : PackageName.validate package = .ok () := hvalid package rfl
      have hvalue :=
        outcome_of_failure? (fun o => ⟨.install package, o⟩) (fun _ => rfl) (fun _ => rfl) h
      exact Backend.operational_install hname hvalue
  | upgrade package =>
      have hname : PackageName.validate package = .ok () := hvalid package rfl
      have hvalue :=
        outcome_of_failure? (fun o => ⟨.upgrade package, o⟩) (fun _ => rfl) (fun _ => rfl) h
      exact Backend.operational_upgrade hname hvalue
  | build script =>
      have hvalue :=
        outcome_of_failure? (fun o => ⟨.build script, o⟩) (fun _ => rfl) (fun _ => rfl) h
      exact Workshop.operational_build hvalue

end Host

end Provision

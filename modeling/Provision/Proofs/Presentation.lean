import Provision.Proofs.Installation
import Provision.Proofs.Utterance

/-!
# Presentation — how a setup talks changes nothing of what it does

The tone is asked for at each place where something may be left unsaid, and by a setup nowhere else.
So in any tone a setup takes the way that it takes in the fullest one, and its log is the log of
that setup without the writes that its own tone does not have.  This is shown for each operation
first, then for each request, and so for whole runs.  This file defines:

* `Write.isChatter`, `Write.isEcho`, `Write.isLasting` — what only a quiet setup leaves out, what
  only a verbose one adds, and the rest;
* `Tone.full`, `Tone.admits` — the tone that leaves nothing out, and the writes that a tone has;
* `heard`, `Logged.under`, `Session.under` — a log as it is in some tone;
* `launch_under`, `Host.serve_under`, `Host.run_under` — commands, requests and runs in some tone
  are those in the fullest one, with the log of that tone;
* `Setup.run_under` — the same for whole setups;
* `Setup.printed` — what a setup prints, with its bytes;
* `Setup.Presented`, `Setup.run_presented` — setups that differ in how they talk.
-/

namespace Provision

variable {α β : Type}

/-! ## Kinds of writes -/

namespace Write

/-- Information or a title, which a quiet setup leaves out. -/
def isChatter : Write → Bool
  | info _ | header _ => true
  | _ => false

/-- The echo of a command, which only a verbose setup makes. -/
def isEcho : Write → Bool
  | echo _ => true
  | _ => false

/-- A write that is made in every tone. -/
def isLasting (write : Write) : Bool :=
  !write.isChatter && !write.isEcho

end Write

/-! ## The writes of a tone -/

namespace Tone

/-- The tone that leaves nothing out. -/
def full : Tone :=
  ⟨false, true⟩

/-- The tone has writes like this one. -/
def admits (tone : Tone) : Write → Bool
  | .info _ | .header _ => !tone.quiet
  | .echo _ => tone.verbose
  | _ => true

section Admits

variable {tone : Tone} {write : Write} {quiet verbose : Bool}

theorem admits_of_lasting (h : write.isLasting = true) : tone.admits write = true := by
  cases write <;> first | rfl | cases h

/-- A quiet tone lacks the chatter, and apart from that it has what any other one has. -/
theorem admits_quiet :
    admits ⟨true, verbose⟩ write = (!write.isChatter && admits ⟨false, verbose⟩ write) := by
  cases write <;> simp [admits, Write.isChatter]

/-- A tone that is not verbose lacks the echoes. -/
theorem admits_not_verbose :
    admits ⟨quiet, false⟩ write = (!write.isEcho && admits ⟨quiet, true⟩ write) := by
  cases write <;> simp [admits, Write.isEcho]

/-- What a tone does not say is what it does not admit. -/
theorem info_eq_filter (message : String) :
    tone.info message = (full.info message).filter tone.admits := by
  cases hquiet : tone.quiet <;> simp [info, full, admits, hquiet]

theorem header_eq_filter (title : String) :
    tone.header title = (full.header title).filter tone.admits := by
  cases hquiet : tone.quiet <;> simp [header, full, admits, hquiet]

theorem echo_eq_filter (command : String) :
    tone.echo command = (full.echo command).filter tone.admits := by
  cases hverbose : tone.verbose <;> simp [echo, full, admits, hverbose]

end Admits

/-- The activity belongs to the log of the tone: something is done, or written in that tone. -/
def hears (tone : Tone) : Activity → Bool
  | .wrote write => tone.admits write
  | _ => true

end Tone

/-- What is left of a log in some tone. -/
def heard (tone : Tone) (log : List Activity) : List Activity :=
  log.filter tone.hears

section Heard

variable {tone : Tone} {said : List Write} {log : List Activity}

/-- What is done, or cannot be done, is in the log of every tone. -/
theorem heard_started (process : Process) :
    heard tone (.started process :: log) = .started process :: heard tone log :=
  rfl

theorem heard_refused (c : Command) :
    heard tone (.refused c :: log) = .refused c :: heard tone log :=
  rfl

@[simp] theorem heard_append (front back : List Activity) :
    heard tone (front ++ back) = heard tone front ++ heard tone back :=
  List.filter_append ..

theorem heard_said (said : List Write) :
    heard tone (said.map .wrote) = (said.filter tone.admits).map .wrote := by
  rw [heard, List.filter_map]
  rfl

/-- What is made in every tone stays. -/
theorem heard_of_admitted (h : ∀ write ∈ said, tone.admits write = true) :
    heard tone (said.map .wrote) = said.map .wrote := by
  rw [heard_said, List.filter_eq_self.2 h]

theorem writesOf_heard (log : List Activity) :
    writesOf (heard tone log) = (writesOf log).filter tone.admits := by
  induction log with
  | nil =>
      rfl
  | cons activity log ih =>
      cases activity with
      | wrote write =>
          cases hadmits : tone.admits write <;>
            simpa [heard, writesOf, Tone.hears, hadmits] using ih
      | started process =>
          simpa [heard_started, writesOf] using ih
      | refused c =>
          simpa [heard_refused, writesOf] using ih

theorem processesOf_heard (log : List Activity) :
    processesOf (heard tone log) = processesOf log := by
  induction log with
  | nil =>
      rfl
  | cons activity log ih =>
      cases activity with
      | wrote write =>
          cases hadmits : tone.admits write <;>
            simpa [heard, processesOf, Tone.hears, hadmits] using ih
      | started process =>
          simpa [heard_started, processesOf] using ih
      | refused c =>
          simpa [heard_refused, processesOf] using ih

end Heard

/-! ## Operations in some tone -/

/-- The value, with what is left of the log in some tone. -/
def Logged.under (tone : Tone) (l : Logged α) : Logged α :=
  ⟨l.value, heard tone l.log⟩

section Operations

variable {w : World} {tone : Tone} {c : Command}

theorem Logged.under_map (f : α → β) (l : Logged α) : (l.map f).under tone = (l.under tone).map f :=
  rfl

theorem echo_under : c.echo tone = heard tone (c.echo .full) := by
  rw [Command.echo, Command.echo, heard_said, ← Tone.echo_eq_filter]

/-- The tone is asked whether a command is shown, and not whether it is run. -/
theorem launch_under {shown : Effect → List Write}
    (hshown : ∀ effect, ∀ write ∈ shown effect, tone.admits write = true) :
    w.launch tone shown c = (w.launch .full shown c).under tone := by
  cases hstart : w.start c with
  | error e =>
      simp only [World.launch, hstart, Logged.under, heard_append, ← echo_under]
      rfl
  | ok started =>
      rcases started with ⟨process, effect⟩
      have houtput : heard tone (.started process :: (shown effect).map .wrote) =
          .started process :: (shown effect).map .wrote := by
        rw [heard_started, heard_of_admitted (hshown effect)]
      -- of the three parts of the log only the echo is a matter of the tone
      simp only [World.launch, hstart, Logged.under, heard_append, ← echo_under, houtput]

theorem captured_under : w.captured tone c = (w.captured .full c).under tone :=
  launch_under fun _ _ hwrite => (List.not_mem_nil hwrite).elim

theorem checked_under : w.checked tone c = (w.checked .full c).under tone := by
  have hlaunch : w.launch tone (fun effect => [.child effect.stdout]) c =
      (w.launch .full (fun effect => [.child effect.stdout]) c).under tone := by
    apply launch_under
    intro effect write hwrite
    rw [List.mem_singleton.1 hwrite]
    rfl
  simp only [World.checked, World.interactive, hlaunch, Logged.under_map]

/-- Nor has the tone a part in the validation of a name. -/
theorem validated_under {package : String} {l l' : Logged (Except Failure α)}
    (h : l = l'.under tone) :
    (match PackageName.validate package with
      | .error failure => .quietly (.error failure)
      | .ok _ => l) =
      Logged.under tone
        (match PackageName.validate package with
          | .error failure => .quietly (.error failure)
          | .ok _ => l') := by
  cases PackageName.validate package with
  | error failure =>
      rfl
  | ok =>
      exact h

namespace Backend

variable {backend : Backend} {package : String}

theorem isAvailable_under :
    backend.isAvailable w tone = (backend.isAvailable w .full).under tone := by
  cases backend with
  | apt =>
      simp only [isAvailable, Apt.isAvailable, Logged.under_map]
      rw [captured_under]
  | homebrew =>
      rfl

theorem bootstrap_under : backend.bootstrap w tone = (backend.bootstrap w .full).under tone := by
  cases backend with
  | apt =>
      rfl
  | homebrew =>
      simp only [bootstrap, Homebrew.bootstrap]
      split
      · rfl
      · exact checked_under

theorem update_under : backend.update w tone = (backend.update w .full).under tone := by
  cases backend with
  | apt | homebrew =>
      exact checked_under

theorem isInstalled_under {version : Option String} :
    backend.isInstalled w tone package version =
      (backend.isInstalled w .full package version).under tone := by
  cases backend with
  | apt | homebrew =>
      apply validated_under
      rw [Logged.under_map, ← captured_under]

theorem install_under :
    backend.install w tone package = (backend.install w .full package).under tone := by
  cases backend with
  | apt | homebrew =>
      exact validated_under checked_under

theorem upgrade_under :
    backend.upgrade w tone package = (backend.upgrade w .full package).under tone := by
  cases backend with
  | apt | homebrew =>
      exact validated_under checked_under

end Backend

namespace Workshop

variable {scriptsDir : String} {script : Script}

theorem isBuilt_under {probe : Probe} :
    isBuilt w tone probe = (isBuilt w .full probe).under tone := by
  simp only [isBuilt, Logged.under_map]
  rw [captured_under]

theorem build_under :
    build w tone scriptsDir script = (build w .full scriptsDir script).under tone := by
  unfold build
  split
  · exact checked_under
  · rfl

end Workshop

end Operations

/-! ## Questions in some tone -/

theorem admits_of_dialogue {tone : Tone} {write : Write} (h : write.isDialogue = true) :
    tone.admits write = true := by
  cases write <;> first | rfl | cases h

namespace Operator

variable {operator : Operator} {tone : Tone} {question : String} {input : Input}

/-- In every tone a question is answered alike, and leaves the same input. -/
theorem answer_reply :
    (operator.reply tone question input).answer = (operator.reply .full question input).answer ∧
      (operator.reply tone question input).rest = (operator.reply .full question input).rest := by
  cases operator <;> exact ⟨rfl, rfl⟩

/-- A dialogue is held in full; a standing yes is reported as information. -/
theorem writes_reply :
    (operator.reply tone question input).writes =
      (operator.reply .full question input).writes.filter tone.admits := by
  cases operator with
  | console =>
      have hadmitted : ∀ write ∈ (askLines question input).writes, tone.admits write = true :=
        fun write hwrite => admits_of_dialogue (dialogue_of_askLines write hwrite)
      exact (List.filter_eq_self.2 hadmitted).symm
  | assumeYes =>
      exact Tone.info_eq_filter _

end Operator

/-! ## Runs in some tone -/

/-- The session, with what is left of its log in some tone. -/
def Session.under (tone : Tone) (s : Session) : Session :=
  { s with log := heard tone s.log }

section Sessions

variable {tone : Tone}

theorem Session.commands_under (s : Session) : (s.under tone).commands = s.commands := by
  rw [commands, under, processesOf_heard]
  rfl

theorem Session.say_under (s : Session) {writes writes' : List Write}
    (h : writes = writes'.filter tone.admits) :
    (s.under tone).say writes = (s.say writes').under tone := by
  rw [say, under, under, say, heard_append, heard_said, h]

end Sessions

namespace Host

/-- The host with another tone. -/
def inTone (host : Host) (tone : Tone) : Host :=
  { host with tone := tone }

variable {host : Host} {tone : Tone}

/-- A request is served in some tone as in the fullest one, with the log of that tone. -/
theorem serve_under (s : Session) (r : Request) :
    (host.inTone tone).serve (s.under tone) r = ((host.inTone .full).serve s r).under tone := by
  cases r with
  | poll =>
      -- the flag is raised by polls and by what is done, and writes are neither
      simp only [serve, Session.commands_under]
      rfl
  | available =>
      exact Backend.isAvailable_under
  | bootstrap =>
      exact Backend.bootstrap_under
  | update =>
      exact Backend.update_under
  | check package =>
      exact Backend.isInstalled_under
  | install package =>
      exact Backend.install_under
  | upgrade package =>
      exact Backend.upgrade_under
  | ask question =>
      have hreply : (host.operator.reply tone question s.input).answer =
          (host.operator.reply .full question s.input).answer := Operator.answer_reply.1
      have hwrites : (host.operator.reply tone question s.input).writes.map Activity.wrote =
          heard tone ((host.operator.reply .full question s.input).writes.map .wrote) := by
        rw [heard_said, Operator.writes_reply]
      simp only [serve, Logged.under, inTone, Session.under, hreply, hwrites]
  | probe probe =>
      exact Workshop.isBuilt_under
  | build script =>
      exact Workshop.build_under
  | inform message =>
      simp only [serve, Logged.under, inTone, heard_said, ← Tone.info_eq_filter]

theorem inputLeft_inTone (input : Input) (r : Request) :
    (host.inTone tone).inputLeft input r = (host.inTone .full).inputLeft input r := by
  cases r with
  | ask question =>
      exact Operator.answer_reply.2
  | _ =>
      rfl

theorem answer_under (r : Request) (s : Session) :
    (host.inTone tone).surroundings.answer r (s.under tone) =
      (((host.inTone .full).surroundings.answer r s).1,
        ((host.inTone .full).surroundings.answer r s).2.under tone) := by
  have hinput : (host.inTone tone).inputLeft (s.under tone).input r =
      (host.inTone .full).inputLeft s.input r := inputLeft_inTone s.input r
  rw [answer_eq_serve, answer_eq_serve, next, next, serve_under, hinput]
  simp only [Session.under, Logged.under, heard_append]

/-- A run in some tone has the course of the run in the fullest one, and the log of its tone. -/
theorem run_under (host : Host) (tone : Tone) (p : Procedure α) (s : Session) :
    p.run (host.inTone tone).surroundings (s.under tone) =
      ⟨(p.run (host.inTone .full).surroundings s).result,
        (p.run (host.inTone .full).surroundings s).state.under tone,
        (p.run (host.inTone .full).surroundings s).events⟩ :=
  Procedure.run_map answer_under p s

end Host

/-! ## Setups in some tone -/

/-- The outcome, with what is left of its log in some tone. -/
def Outcome.under (tone : Tone) (o : Outcome) : Outcome :=
  ⟨o.result, o.session.under tone⟩

/-- The settings with another way to talk. -/
def Settings.talking (settings : Settings) (quiet verbose : Bool) : Settings :=
  { settings with quiet := quiet, verbose := verbose }

namespace Setup

variable {platform : Platform} {settings : Settings} {w : World} {interrupted : Signal}
  {backend : Backend} {tone : Tone} {quiet verbose : Bool}

theorem greeting_eq_filter :
    greeting tone platform = (greeting .full platform).filter tone.admits := by
  cases hquiet : tone.quiet <;> by_cases hknown : platform = .unknown <;>
    simp [greeting, Tone.full, Tone.admits, hquiet, hknown]

theorem rejection_eq_filter {failure : Failure} :
    rejection platform failure = (rejection platform failure).filter tone.admits := by
  refine (List.filter_eq_self.2 fun write hwrite => ?_).symm
  rcases List.mem_append.1 hwrite with hhint | herror
  · rcases List.mem_map.1 hhint with ⟨hint, -, rfl⟩
    rfl
  · rw [List.mem_singleton.1 herror]
    rfl

/-- In every tone a listing has all rows and ends alike. -/
theorem list_under (plan : Plan) :
    plan.list tone backend =
      ((plan.list .full backend).1, (plan.list .full backend).2.filter tone.admits) := by
  -- a row is printed in every tone
  have hrows : (plan.map fun step => Write.row 1 step.row) =
      (plan.map fun step => Write.row 1 step.row).filter tone.admits := by
    refine (List.filter_eq_self.2 fun write hwrite => ?_).symm
    rcases List.mem_map.1 hwrite with ⟨step, -, rfl⟩
    rfl
  have hwrites : (plan.list tone backend).2 = (plan.list .full backend).2.filter tone.admits := by
    rw [Plan.writes_list, Plan.writes_list, List.filter_append, ← Tone.header_eq_filter, ← hrows]
  have hresult : (plan.list tone backend).1 = (plan.list .full backend).1 := by
    unfold Plan.list
    cases plan.unsupported? <;> rfl
  rw [← hwrites, ← hresult]

theorem installs_talking :
    installs platform (settings.talking quiet verbose) = installs platform settings :=
  rfl

theorem verdict_under :
    verdict platform (settings.talking quiet verbose) =
      ((verdict platform (settings.talking false true)).1,
        (verdict platform (settings.talking false true)).2.filter
          (Tone.admits ⟨quiet, verbose⟩)) := by
  have hgreeting : greeting (settings.talking quiet verbose).tone platform =
      (greeting (settings.talking false true).tone platform).filter
        (Tone.admits ⟨quiet, verbose⟩) := greeting_eq_filter
  have hpackages : ∀ quiet verbose, (settings.talking quiet verbose).packages = settings.packages :=
    fun _ _ => rfl
  unfold verdict
  cases platform.backend with
  | error failure =>
      simp only [List.filter_append, hgreeting, ← rejection_eq_filter]
  | ok backend =>
      simp only [hpackages]
      cases PackageName.validateAll settings.packages with
      | error failure =>
          simp only [hgreeting]
      | ok =>
          have hlist : (backend.plan settings.packages).list
              (settings.talking quiet verbose).tone backend = _ := list_under _
          simp only [List.filter_append, hgreeting, hlist]
          rfl

theorem say_begin_under (writes : List Write) :
    (begin w).say (writes.filter tone.admits) = ((begin w).say writes).under tone :=
  Session.say_under (begin w) rfl

theorem ready_under :
    ready tone platform w = (ready .full platform w).under tone := by
  rw [ready, ready, greeting_eq_filter, say_begin_under]
  exact Session.say_under _ (Tone.info_eq_filter _)

/-- So is the run of the installer. -/
theorem installation_under :
    installation backend platform (settings.talking quiet verbose) w interrupted =
      ⟨(installation backend platform (settings.talking false true) w interrupted).result,
        (installation backend platform (settings.talking false true) w interrupted).state.under
          ⟨quiet, verbose⟩,
        (installation backend platform (settings.talking false true) w interrupted).events⟩ := by
  have hready : ready (settings.talking quiet verbose).tone platform w =
      (ready .full platform w).under ⟨quiet, verbose⟩ := ready_under
  rw [installation, hready]
  exact Host.run_under (hostOf backend settings w interrupted) ⟨quiet, verbose⟩ _ _

/-- In some tone a setup does what it does in the fullest one, and its log is what is left of the
log there. -/
theorem run_under (quiet verbose : Bool) :
    run platform (settings.talking quiet verbose) w interrupted =
      (run platform (settings.talking false true) w interrupted).under ⟨quiet, verbose⟩ := by
  cases hinstalls : installs platform settings with
  | none =>
      -- all that happens is that the verdict is written
      rw [run_of_not_installs (installs_talking.trans hinstalls),
        run_of_not_installs (installs_talking.trans hinstalls), verdict_under, say_begin_under]
      rfl
  | some backend =>
      rw [run_of_installs (installs_talking.trans hinstalls),
        run_of_installs (installs_talking.trans hinstalls), installation_under]
      rfl

/-! ## What is printed -/

theorem writesOf_run_under (quiet verbose : Bool) :
    writesOf (run platform (settings.talking quiet verbose) w interrupted).session.log =
      (writesOf (run platform (settings.talking false true) w interrupted).session.log).filter
        (Tone.admits ⟨quiet, verbose⟩) := by
  rw [run_under]
  exact writesOf_heard _

/-- The writes of a setup in their order, with the bytes of each. -/
def printed (platform : Platform) (settings : Settings) (w : World) (interrupted : Signal)
    (color : Bool) : List (Write × List UInt8) :=
  (writesOf (run platform settings w interrupted).session.log).map
    fun write => (write, write.bytes color)

/-- What appears on the console is what is printed. -/
theorem render_eq_printed {color : Bool} :
    render color (writesOf (run platform settings w interrupted).session.log) =
      (printed platform settings w interrupted color).flatMap Prod.snd := by
  simp [printed, render, List.flatMap_map]

theorem filter_printed {color : Bool} (kept : Write → Bool) :
    (printed platform settings w interrupted color).filter (fun shown => kept shown.1) =
      ((writesOf (run platform settings w interrupted).session.log).filter kept).map
        fun write => (write, write.bytes color) := by
  simp [printed, List.filter_map, Function.comp_def]

/-- What is made in every tone is the same in all of them, and in all colours. -/
theorem lasting_printed {color : Bool} :
    ((printed platform (settings.talking quiet verbose) w interrupted color).map
        Prod.fst).filter Write.isLasting =
      (writesOf (run platform (settings.talking false true) w interrupted).session.log).filter
        Write.isLasting := by
  have hwrites : (printed platform (settings.talking quiet verbose) w interrupted color).map
      Prod.fst =
        writesOf (run platform (settings.talking quiet verbose) w interrupted).session.log := by
    simp [printed, Function.comp_def]
  rw [hwrites, writesOf_run_under, List.filter_filter]
  -- of two filters in a row the one by the tone has nothing left to take away
  refine List.filter_congr fun write _ => ?_
  cases hlasts : write.isLasting with
  | false =>
      rfl
  | true =>
      exact Tone.admits_of_lasting hlasts

/-! ## Titles and greetings -/

section Opening

variable {title : String}

theorem header_not_mem_greeting : .header title ∉ greeting tone platform := by
  intro hmem
  cases (mem_greeting.1 hmem).2

/-- A verdict has a title only where it lists the plan. -/
theorem title_of_verdict (h : installs platform settings = none)
    (hmem : .header title ∈ (verdict platform settings).2) :
    settings.listOnly = true ∧
      ∃ backend, platform.backend = .ok backend ∧ title = backend.title := by
  unfold verdict at hmem
  cases hbackend : platform.backend with
  | error failure =>
      simp [hbackend, header_not_mem_greeting, rejection] at hmem
  | ok backend =>
      cases hvalid : PackageName.validateAll settings.packages with
      | error failure =>
          simp [hbackend, hvalid, header_not_mem_greeting] at hmem
      | ok =>
          have hlist : settings.listOnly = true := by simpa [installs, hbackend, hvalid] using h
          have htitle : settings.tone.quiet = false ∧ title = backend.title := by
            simpa [hbackend, hvalid, header_not_mem_greeting, Plan.mem_list] using hmem
          exact ⟨hlist, backend, rfl, htitle.2⟩

/-- A run of the installer has no title, so that of a setup belongs to a list. -/
theorem title_of_run
    (hmem : .header title ∈ writesOf (run platform settings w interrupted).session.log) :
    settings.listOnly = true ∧
      ∃ backend, platform.backend = .ok backend ∧ title = backend.title := by
  cases hinstalls : installs platform settings with
  | none =>
      rw [writesOf_of_not_installs hinstalls] at hmem
      exact title_of_verdict hinstalls hmem
  | some backend =>
      rw [writesOf_of_installs hinstalls] at hmem
      rcases List.mem_append.1 hmem with hbefore | hlater
      · simp [prologue, header_not_mem_greeting] at hbefore
      · cases Host.ofRun_of_logOf _ (mem_writesOf.1 hlater)

theorem greeting_prefix_verdict :
    greeting settings.tone platform <+: (verdict platform settings).2 := by
  unfold verdict
  cases platform.backend with
  | error failure =>
      exact List.prefix_append ..
  | ok backend =>
      cases PackageName.validateAll settings.packages with
      | error failure =>
          exact List.prefix_refl _
      | ok =>
          exact List.prefix_append ..

/-- The words on the platform come first, whatever follows. -/
theorem opens_with_greeting :
    greeting settings.tone platform <+:
      writesOf (run platform settings w interrupted).session.log := by
  cases hinstalls : installs platform settings with
  | none =>
      rw [writesOf_of_not_installs hinstalls]
      exact greeting_prefix_verdict
  | some backend =>
      have hprologue : greeting settings.tone platform <+: prologue settings.tone platform :=
        List.prefix_append ..
      rw [writesOf_of_installs hinstalls]
      exact hprologue.trans (List.prefix_append ..)

end Opening

/-! ## Setups that differ in how they talk -/

/-- What is the same in all setups that differ in how they talk, and what is not. -/
structure Presented (platform : Platform) (settings : Settings) (w : World)
    (interrupted : Signal) : Prop where
  result : ∀ quiet verbose quiet' verbose',
    (run platform (settings.talking quiet verbose) w interrupted).result =
      (run platform (settings.talking quiet' verbose') w interrupted).result
  processes : ∀ quiet verbose quiet' verbose',
    processesOf (run platform (settings.talking quiet verbose) w interrupted).session.log =
      processesOf (run platform (settings.talking quiet' verbose') w interrupted).session.log
  input : ∀ quiet verbose quiet' verbose',
    (run platform (settings.talking quiet verbose) w interrupted).session.input =
      (run platform (settings.talking quiet' verbose') w interrupted).session.input
  /-- A quiet setup leaves out the information and the title, and prints all else to the byte. -/
  quiet : ∀ verbose color,
    printed platform (settings.talking true verbose) w interrupted color =
      (printed platform (settings.talking false verbose) w interrupted color).filter
        fun shown => !shown.1.isChatter
  /-- A verbose setup adds the echoes of commands to what any other one prints. -/
  verbose : ∀ quiet color,
    printed platform (settings.talking quiet false) w interrupted color =
      (printed platform (settings.talking quiet true) w interrupted color).filter
        fun shown => !shown.1.isEcho
  /-- What is neither the one nor the other is printed in all cases, also with other colours. -/
  lasting : ∀ quiet verbose color quiet' verbose' color',
    ((printed platform (settings.talking quiet verbose) w interrupted color).map Prod.fst).filter
        Write.isLasting =
      ((printed platform (settings.talking quiet' verbose') w interrupted color').map
        Prod.fst).filter Write.isLasting
  /-- The only title is that of a list of the plan. -/
  title : ∀ quiet verbose title,
    .header title ∈
        writesOf (run platform (settings.talking quiet verbose) w interrupted).session.log →
      settings.listOnly = true ∧
        ∃ backend, platform.backend = .ok backend ∧ title = backend.title
  /-- The words on the platform are information and come first. -/
  greeted : ∀ quiet verbose,
    greeting ⟨quiet, verbose⟩ platform <+:
        writesOf (run platform (settings.talking quiet verbose) w interrupted).session.log ∧
      ∀ write ∈ greeting ⟨quiet, verbose⟩ platform, write.isChatter = true
  /-- A standing yes is reported as information. -/
  agreed : settings.assumeYes = true → ∀ tone question input,
    (settings.operator.reply tone question input).writes = tone.info (question ++ " yes")

/-- How a setup talks changes nothing but what it prints, and that in a fixed way. -/
theorem run_presented (platform : Platform) (settings : Settings) (w : World)
    (interrupted : Signal) : Presented platform settings w interrupted := by
  refine ⟨?_, ?_, ?_, ?_, ?_, ?_, ?_, ?_, ?_⟩
  -- any two tones are compared by way of the fullest one
  · intro quiet verbose quiet' verbose'
    rw [run_under quiet verbose, run_under quiet' verbose']
    rfl
  · intro quiet verbose quiet' verbose'
    rw [run_under quiet verbose, run_under quiet' verbose']
    exact (processesOf_heard _).trans (processesOf_heard _).symm
  · intro quiet verbose quiet' verbose'
    rw [run_under quiet verbose, run_under quiet' verbose']
    rfl
  -- the writes of the two tones are two filters of the same list
  · intro verbose color
    have hadmits : (Tone.admits ⟨true, verbose⟩) =
        fun write => !write.isChatter && Tone.admits ⟨false, verbose⟩ write :=
      funext fun _ => Tone.admits_quiet
    rw [filter_printed fun write => !write.isChatter, printed, writesOf_run_under true verbose,
      writesOf_run_under false verbose, List.filter_filter, hadmits]
  · intro quiet color
    have hadmits : (Tone.admits ⟨quiet, false⟩) =
        fun write => !write.isEcho && Tone.admits ⟨quiet, true⟩ write :=
      funext fun _ => Tone.admits_not_verbose
    rw [filter_printed fun write => !write.isEcho, printed, writesOf_run_under quiet false,
      writesOf_run_under quiet true, List.filter_filter, hadmits]
  · intro quiet verbose color quiet' verbose' color'
    rw [lasting_printed, lasting_printed]
  · intro quiet verbose title hmem
    have htitle := title_of_run hmem
    exact htitle
  · intro quiet verbose
    have hopens : greeting (settings.talking quiet verbose).tone platform <+:
        writesOf (run platform (settings.talking quiet verbose) w interrupted).session.log :=
      opens_with_greeting
    refine ⟨hopens, fun write hwrite => ?_⟩
    rw [(mem_greeting.1 hwrite).2]
    rfl
  · intro hyes tone question input
    simp [Settings.operator, hyes, Operator.reply]

end Setup
end Provision

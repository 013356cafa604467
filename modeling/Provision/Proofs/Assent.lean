import Provision.Proofs.Enquiry
import Provision.Proofs.Installation
import Provision.Proofs.Utterance

/-!
# Assent — a standing yes is as good as one that is typed in

An operator who types yes to every question takes a setup where one with a standing yes takes it:
only the dialogues differ.  With a standing yes nothing is read, and nothing can be declined.  This
file defines:

* `affirms` — the lines of input that are a yes;
* `Host.operatedBy` — a host with another operator, which is the same but for its questions;
* `Session.Abreast` — two sessions that have come equally far;
* `Alike`, `alike_run` — a run with enough typed lines, and the same run with a standing yes;
* `Setup.questions`, `Setup.packages` — what a setup asks, and what it can ask for;
* `Setup.Assented`, `Setup.run_assented` — setups with and without a standing yes.
-/

namespace Provision

open Installer Procedure

variable {α : Type}

/-! ## Typed answers -/

/-- The line is text and answers yes. -/
def affirms (line : List UInt8) : Bool :=
  (Text.Utf8.strict line).bind parseAnswer = some true

theorem askLines_of_affirms {line : List UInt8} (h : affirms line = true) (question : String)
    (rest : Input) : askLines question (line :: rest) = ⟨true, rest, [.prompt question]⟩ := by
  have hanswer : (Text.Utf8.strict line).bind parseAnswer = some true := by
    simpa [affirms] using h
  rcases Option.bind_eq_some_iff.1 hanswer with ⟨text, htext, hyes⟩
  simp [askLines, htext, hyes]

/-! ## Two operators -/

/-- The host with another operator. -/
def Host.operatedBy (host : Host) (operator : Operator) : Host :=
  { host with operator := operator }

/-- The two sessions have come equally far: they polled as often, and started the same processes. -/
structure Session.Abreast (s s' : Session) : Prop where
  polls : s.polls = s'.polls
  processes : processesOf s.log = processesOf s'.log

theorem Session.Abreast.say {s s' : Session} (h : s.Abreast s') (writes writes' : List Write) :
    (s.say writes).Abreast (s'.say writes') := by
  refine ⟨h.polls, ?_⟩
  simp only [Session.say, processesOf_append, processesOf_said, h.processes]

namespace Host

variable {r : Request} {s s' : Session}

/-- Who the operator is and what input is left matters to questions only. -/
theorem serve_operatedBy (host : Host) (hask : ∀ question, r ≠ .ask question)
    (first second : Operator) (h : s.Abreast s') :
    (host.operatedBy first).serve s r = (host.operatedBy second).serve s' r := by
  cases r with
  | poll =>
      -- the flag is raised by the polls and the commands, of which there are the same
      simp [serve, operatedBy, Session.commands, h.polls, h.processes]
  | ask question =>
      exact absurd rfl (hask question)
  | _ =>
      rfl

theorem inputLeft_of_not_ask {host : Host} (hask : ∀ question, r ≠ .ask question) (input : Input) :
    host.inputLeft input r = input := by
  cases r with
  | ask question =>
      exact absurd rfl (hask question)
  | _ =>
      rfl

/-- So such a request leaves the sessions abreast. -/
theorem next_abreast (host : Host) (hask : ∀ question, r ≠ .ask question)
    (first second : Operator) (h : s.Abreast s') :
    ((host.operatedBy first).next s r).Abreast ((host.operatedBy second).next s' r) := by
  constructor
  · simp only [next, h.polls]
  · simp only [next, host.serve_operatedBy hask first second h, processesOf_append, h.processes]

end Host

/-- Two runs with the same course, which start the same processes. -/
structure Alike (first second : Run Session α) : Prop where
  result : first.result = second.result
  events : first.events = second.events
  processes : processesOf first.state.log = processesOf second.state.log

section Runs

variable {env env' : Surroundings Session} {r : Request} {next : r.Answer → Procedure α}
  {answer : r.Answer} {s s' u u' : Session}

/-- A run makes its first request, and goes on from the answer. -/
theorem run_request (h : env.answer r s = (answer, u)) :
    (Procedure.request r next).run env s =
      ⟨((next answer).run env u).result, ((next answer).run env u).state,
        ⟨r, answer⟩ :: ((next answer).run env u).events⟩ := by
  simp [Procedure.run, h]

theorem Alike.request (hfirst : env.answer r s = (answer, u))
    (hsecond : env'.answer r s' = (answer, u'))
    (h : Alike ((next answer).run env u) ((next answer).run env' u')) :
    Alike ((Procedure.request r next).run env s) ((Procedure.request r next).run env' s') := by
  rw [run_request hfirst, run_request hsecond]
  exact ⟨h.result, congrArg (⟨r, answer⟩ :: ·) h.events, h.processes⟩

theorem questions_of_asking {question : String} {next : Bool → Procedure α} {answer : Bool}
    (h : env.answer (.ask question) s = (answer, u)) :
    questionsOf ((Procedure.request (.ask question) next).run env s).events =
      question :: questionsOf ((next answer).run env u).events := by
  rw [run_request h]
  rfl

theorem questions_of_quiet (hask : ∀ question, r ≠ .ask question)
    (h : env.answer r s = (answer, u)) :
    questionsOf ((Procedure.request r next).run env s).events =
      questionsOf ((next answer).run env u).events := by
  have hquiet : (⟨r, answer⟩ : Event).question? = none := by
    cases r with
    | ask question =>
        exact absurd rfl (hask question)
    | _ =>
        rfl
  rw [run_request h]
  exact List.filterMap_cons_none hquiet

end Runs

/-- At the console a line that affirms is taken for the answer. -/
theorem answer_of_affirms (host : Host) (question : String) {s : Session} {line : List UInt8}
    {rest : Input} (hline : affirms line = true) (hinput : s.input = line :: rest) :
    (host.operatedBy .console).surroundings.answer (.ask question) s =
      (true, ⟨rest, s.polls, s.log ++ [.wrote (.prompt question)]⟩) := by
  have hreply : askLines question s.input = ⟨true, rest, [.prompt question]⟩ := by
    simpa [hinput] using askLines_of_affirms hline question rest
  simp [Host.surroundings, Host.operatedBy, Operator.reply, Session.say, hreply]

/-- A standing yes is reported, and the input is left alone. -/
theorem answer_of_assumeYes (host : Host) (question : String) (s : Session) :
    (host.operatedBy .assumeYes).surroundings.answer (.ask question) s =
      (true, s.say (host.tone.info (question ++ " yes"))) :=
  rfl

/-- With a typed yes for each question a run goes the way of the run with a standing yes. -/
theorem alike_run (host : Host) (p : Procedure α) {yes rest : Input} {s s' : Session}
    (hyes : ∀ line ∈ yes, affirms line = true) (hinput : s.input = yes ++ rest)
    (habreast : s.Abreast s')
    (henough :
      (questionsOf (p.run (host.operatedBy .console).surroundings s).events).length ≤ yes.length ∨
        (questionsOf (p.run (host.operatedBy .assumeYes).surroundings s').events).length ≤
          yes.length) :
    Alike (p.run (host.operatedBy .console).surroundings s)
      (p.run (host.operatedBy .assumeYes).surroundings s') := by
  induction p generalizing yes s s' with
  | done value =>
      exact ⟨rfl, rfl, habreast.processes⟩
  | stop failure =>
      exact ⟨rfl, rfl, habreast.processes⟩
  | request r next ih =>
      by_cases hask : ∃ question, r = .ask question
      · rcases hask with ⟨question, rfl⟩
        cases yes with
        | nil =>
            -- both runs ask at once, but there is no line for it
            rcases henough with hnone | hnone
            · simp [questions_of_asking rfl] at hnone
            · simp [questions_of_asking rfl] at hnone
        | cons line yes =>
            -- each question takes one line from the front, in one of the two runs
            have hline : affirms line = true := hyes line (List.mem_cons_self ..)
            have htyped := answer_of_affirms host question hline hinput
            have hstanding := answer_of_assumeYes host question s'
            rw [questions_of_asking htyped, questions_of_asking hstanding] at henough
            apply Alike.request htyped hstanding
            apply ih true (fun other hother => hyes other (List.mem_cons_of_mem _ hother)) rfl
            · have hsaid := habreast.say [.prompt question] (host.tone.info (question ++ " yes"))
              exact ⟨hsaid.polls, hsaid.processes⟩
            · simpa using henough
      · -- any other request is served alike and leaves the typed lines for the questions to come
        have hquiet : ∀ question, r ≠ .ask question := fun question hr => hask ⟨question, hr⟩
        have hserve := host.serve_operatedBy hquiet .console .assumeYes habreast
        have htyped := Host.answer_eq_serve (host.operatedBy .console) r s
        have hstanding := Host.answer_eq_serve (host.operatedBy .assumeYes) r s'
        have hleft : ((host.operatedBy .console).next s r).input = yes ++ rest :=
          (Host.inputLeft_of_not_ask hquiet s.input).trans hinput
        rw [← hserve] at hstanding
        rw [questions_of_quiet hquiet htyped, questions_of_quiet hquiet hstanding] at henough
        apply Alike.request htyped hstanding
        exact ih _ hyes hleft (host.next_abreast hquiet .console .assumeYes habreast) henough

/-! ## A standing yes -/

section Standing

variable {host : Host} {s : Session} {es : List Event}

/-- An operator with a standing yes never reads. -/
theorem input_after_of_assumeYes (h : host.operator = .assumeYes) (es : List Event) (s : Session) :
    (host.surroundings.after es s).input = s.input := by
  induction es generalizing s with
  | nil =>
      rfl
  | cons e es ih =>
      have hleft : host.inputLeft s.input e.request = s.input := by
        cases e.request <;> simp [Host.inputLeft, Operator.reply, h]
      calc
        (host.surroundings.after (e :: es) s).input
            = (host.surroundings.answer e.request s).2.input := ih _
        _ = s.input := by simp [Host.answer_eq_serve, Host.next, hleft]

/-- Nor is the operator prompted. -/
theorem not_prompted_of_assumeYes (h : host.operator = .assumeYes) {question : String} :
    .wrote (.prompt question) ∉ host.logOf s es := by
  intro hmem
  rcases Host.exists_of_mem_logOf hmem with ⟨e, -, s', hserved⟩
  rcases Host.wrote_of_serve hserved with hreport | ⟨asked, -, hreply⟩
  · cases hreport
  · simp [h, Operator.reply] at hreply

/-- A run that is declined was answered no. -/
theorem not_declined_of_assumeYes {backend : Backend} {plan : Plan} (h : host.operator = .assumeYes)
    (detail : String) :
    ((install backend plan).run host.surroundings s).result ≠ .error (.declined detail) := by
  intro hresult
  have hanswered := host.surroundings.answered_run (install backend plan) s
  have hending := ending_install backend plan _ _
    (run_course host.surroundings (install backend plan) s)
  rcases hending.declined_iff.1 hresult with ⟨missing, -, hlast, -⟩
  have hno : ⟨.ask (offer missing), false⟩ ∈
      ((install backend plan).run host.surroundings s).events :=
    mem_of_mem_callsOf (List.mem_of_getLast? hlast)
  rcases hanswered.of_mem hno with ⟨s', hevent⟩
  -- but the host answers each question with yes
  have hyes : (host.surroundings.answer (.ask (offer missing)) s').1 = true := by
    simp [Host.answer_eq_serve, Host.serve, Operator.reply, h]
  have hsaid : false = (host.surroundings.answer (.ask (offer missing)) s').1 :=
    eq_of_heq (Event.mk.inj hevent).2
  exact Bool.noConfusion (hsaid.trans hyes)

end Standing

/-! ## Setups with and without a standing yes -/

/-- The settings with a standing yes, or without it. -/
def Settings.assenting (settings : Settings) (assumeYes : Bool) : Settings :=
  { settings with assumeYes := assumeYes }

namespace Setup

/-- The packages that a setup can come to, each as often as the requested steps have it. -/
def packages (platform : Platform) (settings : Settings) : List String :=
  match platform.backend with
  | .ok backend => (backend.plan settings.packages).packages
  | .error _ => []

/-- The questions that a setup asks, in order. -/
def questions (platform : Platform) (settings : Settings) (w : World) (interrupted : Signal) :
    List String :=
  match installs platform settings with
  | some backend => questionsOf (installation backend platform settings w interrupted).events
  | none => []

section Installs

variable {platform : Platform} {settings : Settings} {w : World} {interrupted : Signal}
  {backend : Backend}

/-- Neither a listing nor any other verdict is a matter of an answer. -/
theorem not_declined_of_list {tone : Tone} {plan : Plan} {detail : String} :
    (plan.list tone backend).1 ≠ .error (.declined detail) := by
  unfold Plan.list
  split <;> simp

theorem not_declined_of_verdict {detail : String} :
    (verdict platform settings).1 ≠ .error (.declined detail) := by
  unfold verdict
  cases hbackend : platform.backend with
  | error failure =>
      cases platform <;> cases hbackend <;> simp
  | ok backend =>
      cases hvalid : PackageName.validateAll settings.packages with
      | error failure =>
          rcases PackageName.configuration_of_validateAll hvalid with ⟨fault, rfl⟩
          simp
      | ok =>
          exact not_declined_of_list

end Installs

/-! ## The whole setup -/

/-- What a standing yes comes to, and what is enough to do without it. -/
structure Assented (platform : Platform) (settings : Settings) (w : World)
    (interrupted : Signal) : Prop where
  /-- As many typed lines of yes as questions are asked, with the standing yes or without, do the
  same. -/
  typed : ∀ assumeYes yes rest, Text.inputLines w.stdin = yes ++ rest →
    (∀ line ∈ yes, affirms line = true) →
      (questions platform (settings.assenting assumeYes) w interrupted).length ≤ yes.length →
        (run platform (settings.assenting false) w interrupted).result =
            (run platform (settings.assenting true) w interrupted).result ∧
          processesOf (run platform (settings.assenting false) w interrupted).session.log =
            processesOf (run platform (settings.assenting true) w interrupted).session.log ∧
          questions platform (settings.assenting false) w interrupted =
            questions platform (settings.assenting true) w interrupted
  /-- One line for the package manager and one for each package of the plan are enough. -/
  enough : (questions platform settings w interrupted).length ≤
    1 + (packages platform settings).length
  /-- With a standing yes no byte of the input is read. -/
  untouched : (run platform (settings.assenting true) w interrupted).session.input.flatten = w.stdin
  unprompted : ∀ question, .prompt question ∉
    writesOf (run platform (settings.assenting true) w interrupted).session.log
  agreed : ∀ detail,
    (run platform (settings.assenting true) w interrupted).result ≠ .error (.declined detail)

section Assented

variable {platform : Platform} {settings : Settings} {w : World} {interrupted : Signal}
  {backend : Backend}

theorem alike_installation {yes rest : Input} {assumeYes : Bool}
    (hinput : Text.inputLines w.stdin = yes ++ rest) (hyes : ∀ line ∈ yes, affirms line = true)
    (henough : (questionsOf (installation backend platform (settings.assenting assumeYes) w
      interrupted).events).length ≤ yes.length) :
    Alike (installation backend platform (settings.assenting false) w interrupted)
      (installation backend platform (settings.assenting true) w interrupted) := by
  have hready : (ready settings.tone platform w).input = yes ++ rest := hinput
  -- the plan does not depend on who answers, so it is one host with two operators
  apply alike_run (hostOf backend settings w interrupted) _ hyes hready ⟨rfl, rfl⟩
  cases assumeYes with
  | false =>
      exact Or.inl henough
  | true =>
      exact Or.inr henough

theorem length_questions :
    (questions platform settings w interrupted).length ≤
      1 + (packages platform settings).length := by
  cases hinstalls : installs platform settings with
  | none =>
      simp [questions, hinstalls]
  | some backend =>
      have hbackend : platform.backend = .ok backend := (installs_eq_some_iff.1 hinstalls).1
      have hoffers := offers_install backend (backend.plan settings.packages) _ _
        (run_course (hostOf backend settings w interrupted).surroundings
          (install backend (backend.plan settings.packages)) (ready settings.tone platform w))
      have hlength :
          (questionsOf (installation backend platform settings w interrupted).events).length ≤
            (backend.plan settings.packages).packages.length + 1 := by
        simpa [installation] using hoffers.length_le
      simpa [questions, hinstalls, packages, hbackend, Nat.add_comm] using hlength

/-- Where the installer does not run there is nothing to be asked. -/
theorem assented_of_not_installs (h : installs platform settings = none) :
    Assented platform settings w interrupted := by
  have hinstalls : ∀ assumeYes, installs platform (settings.assenting assumeYes) = none :=
    fun _ => h
  have hnone : ∀ assumeYes,
      questions platform (settings.assenting assumeYes) w interrupted = [] := by
    intro assumeYes
    simp [questions, hinstalls]
  -- the verdict has no part in who answers
  have hresult : ∀ assumeYes, (run platform (settings.assenting assumeYes) w interrupted).result =
      (verdict platform settings).1 :=
    fun assumeYes => congrArg Outcome.result (run_of_not_installs (hinstalls assumeYes))
  have hprocesses : ∀ assumeYes,
      processesOf (run platform (settings.assenting assumeYes) w interrupted).session.log = [] :=
    fun assumeYes => processesOf_of_not_installs (hinstalls assumeYes)
  refine ⟨?_, length_questions, input_of_not_installs (hinstalls true), ?_, ?_⟩
  · intro assumeYes yes rest _ _ _
    simp only [hresult, hprocesses, hnone, and_self]
  · intro question hmem
    rw [writesOf_of_not_installs (hinstalls true)] at hmem
    cases notice_of_verdict hmem
  · intro detail
    rw [hresult]
    exact not_declined_of_verdict

/-- Where the installer runs it is the operator of the host that is asked. -/
theorem assented_of_installs (h : installs platform settings = some backend) :
    Assented platform settings w interrupted := by
  have hinstalls : ∀ assumeYes, installs platform (settings.assenting assumeYes) = some backend :=
    fun _ => h
  have hrun : ∀ assumeYes, run platform (settings.assenting assumeYes) w interrupted =
      ⟨(installation backend platform (settings.assenting assumeYes) w interrupted).result,
        (installation backend platform (settings.assenting assumeYes) w interrupted).state⟩ :=
    fun assumeYes => run_of_installs (hinstalls assumeYes)
  have hoperator : (hostOf backend (settings.assenting true) w interrupted).operator = .assumeYes :=
    rfl
  refine ⟨?_, length_questions, ?_, ?_, ?_⟩
  · intro assumeYes yes rest hinput hyes henough
    have halike := alike_installation hinput hyes (by simpa [questions, hinstalls] using henough)
    refine ⟨?_, ?_, ?_⟩
    · simpa only [hrun] using halike.result
    · simpa only [hrun] using halike.processes
    · simpa only [questions, hinstalls] using congrArg questionsOf halike.events
  · have hinput :
        (installation backend platform (settings.assenting true) w interrupted).state.input =
          (ready settings.tone platform w).input := by
      rw [installation, Surroundings.state_run]
      exact input_after_of_assumeYes hoperator _ _
    calc
      (run platform (settings.assenting true) w interrupted).session.input.flatten
          = (Text.inputLines w.stdin).flatten := by rw [hrun, hinput]; rfl
      _ = w.stdin := Text.flatten_inputLines w.stdin
  · intro question hmem
    rw [writesOf_of_installs (hinstalls true)] at hmem
    -- what is written before the installer runs is no question, and the installer prompts nobody
    rcases List.mem_append.1 hmem with hbefore | hlater
    · cases notice_of_prologue hbefore
    · exact not_prompted_of_assumeYes hoperator (mem_writesOf.1 hlater)
  · intro detail
    rw [hrun]
    exact not_declined_of_assumeYes hoperator detail

end Assented

/-- A setup with a standing yes does what a typed yes to each question would do, and never waits for
one. -/
theorem run_assented (platform : Platform) (settings : Settings) (w : World)
    (interrupted : Signal) : Assented platform settings w interrupted := by
  cases hinstalls : installs platform settings with
  | none =>
      exact assented_of_not_installs hinstalls
  | some backend =>
      exact assented_of_installs hinstalls

/-- An Ubuntu host on which `apt` has installed nothing, with one line of yes on its input. -/
def freshUbuntu : World where
  programs :=
    [("lsb_release", .rules [⟨none, ⟨Text.bytes "Ubuntu\n", [], .exited 0⟩⟩]), ("sudo", .rules []),
      ("dpkg", .rules [])]
  disk := ⟨[], [], []⟩
  stdin := Text.bytes "Yes\n"

/-- There the one typed line is enough to set up `nasm`, and what is done is what a standing yes
does. -/
theorem run_assented_nasm :
    questions .linux (Settings.assenting { packages := ["nasm"] } true) freshUbuntu .never =
        ["nasm is not installed... install it?"] ∧
      processesOf (run .linux (Settings.assenting { packages := ["nasm"] } false) freshUbuntu
          .never).session.log =
        processesOf (run .linux (Settings.assenting { packages := ["nasm"] } true) freshUbuntu
          .never).session.log := by
  refine ⟨by decide, ?_⟩
  have hlines : Text.inputLines freshUbuntu.stdin = [Text.bytes "Yes\n"] ++ [] := by decide
  have hassented := run_assented .linux { packages := ["nasm"] } freshUbuntu .never
  exact (hassented.typed true [Text.bytes "Yes\n"] [] hlines (by decide) (by decide)).2.1

end Setup
end Provision

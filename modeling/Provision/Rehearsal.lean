import Provision.Console.Prompt
import Provision.Installer.Basic

/-!
# Rehearsal — the installer among scripted surroundings

In a rehearsal the package manager, the build host and the operator follow a script: which calls
fail, which tools are built, what is answered, and when the run is interrupted.  Everything that
happens is recorded in order.  This file defines:

* `Call` — what is asked of the three, with its text in the log;
* `Depot` — the package manager's state, which outlives a run;
* `Scene` — the script of a run, and `Interruption` — when it is interrupted;
* `Stage` — the state of a run, with its record and the views `calls`, `polls` and `writes` of it;
* `Scene.rehearse`, `rehearseAll` — a run, and a sequence of runs with one depot.
-/

namespace Provision
namespace Rehearsal

/-! ## Calls -/

/-- A call to the package manager, the build host or the operator. -/
inductive Call where
  | available
  | bootstrap
  | update
  | check (package : String)
  | install (package : String)
  | upgrade (package : String)
  | probe (probe : Probe)
  | build (script : Script)
  | ask (question : String)
  deriving DecidableEq, Repr

def Call.text : Call → String
  | available => "available"
  | bootstrap => "bootstrap"
  | update => "update"
  | check package => "check " ++ package
  | install package => "install " ++ package
  | upgrade package => "upgrade " ++ package
  | probe p => "probe " ++ p.program ++ " " ++ p.marker
  | build s => "script " ++ s.interpreter ++ " " ++ s.path
  | ask question => "ask " ++ question

/-- The failure of a call that the script lets fail. -/
def Call.failure (call : Call) : Failure :=
  .manager (call.text ++ " exited with 1")

/-! ## The depot -/

structure Depot where
  available : Bool
  installed : List String
  deriving DecidableEq, Repr

namespace Depot

def has (d : Depot) (package : String) : Bool :=
  d.installed.contains package

/-- Add a package, unless it is there. -/
def add (d : Depot) (package : String) : Depot :=
  if d.has package then d else { d with installed := d.installed ++ [package] }

theorem has_add {d : Depot} {p q : String} : (d.add p).has q = (d.has q || q == p) := by
  by_cases h : d.has p = true
  · have hadd : d.add p = d := by rw [add, if_pos h]
    by_cases hq : q = p
    · subst hq
      simp [hadd, h]
    · simp [hadd, hq]
  · have hadd : d.add p = { d with installed := d.installed ++ [p] } := by rw [add, if_neg h]
    by_cases hq : q = p
    · simp [hadd, has, hq]
    · simp [hadd, has, hq]

end Depot

/-! ## Scripts -/

/-- When a run is interrupted, by the number of polls before and the calls so far. -/
abbrev Interruption := Nat → List Call → Bool

namespace Interruption

/-- From a given poll on, the first one being poll 0. -/
def fromPoll (k : Nat) : Interruption :=
  fun polls _ => k ≤ polls

/-- Once a call is in the log. -/
def afterCall (text : String) : Interruption :=
  fun _ calls => calls.any fun c => c.text = text

/-- As soon as one of several says so. -/
def anyOf (conditions : List Interruption) : Interruption :=
  fun polls calls => conditions.any fun condition => condition polls calls

end Interruption

structure Scene where
  operator : Operator
  tone : Tone
  fails : Call → Bool
  built : String → Bool
  interrupted : Interruption

/-! ## The stage -/

inductive Entry where
  | polled (interrupted : Bool)
  | called (call : Call)
  | wrote (write : Write)
  deriving DecidableEq, Repr

structure Stage where
  depot : Depot
  /-- The answers that the operator has still to give. -/
  answers : List Bool
  record : List Entry
  deriving DecidableEq, Repr

namespace Stage

def calls (s : Stage) : List Call :=
  s.record.filterMap fun
    | .called call => some call
    | _ => none

def polls (s : Stage) : Nat :=
  s.record.countP fun
    | .polled _ => true
    | _ => false

def writes (s : Stage) : List Write :=
  s.record.filterMap fun
    | .wrote write => some write
    | _ => none

def note (s : Stage) (e : Entry) : Stage :=
  { s with record := s.record ++ [e] }

def say (s : Stage) (writes : List Write) : Stage :=
  { s with record := s.record ++ writes.map .wrote }

def withDepot (s : Stage) (change : Depot → Depot) : Stage :=
  { s with depot := change s.depot }

/-! What is said leaves everything but the writes as it is. -/

@[simp] theorem depot_say (s : Stage) (writes : List Write) : (s.say writes).depot = s.depot :=
  rfl

@[simp] theorem answers_say (s : Stage) (writes : List Write) :
    (s.say writes).answers = s.answers :=
  rfl

@[simp] theorem calls_say (s : Stage) (writes : List Write) : (s.say writes).calls = s.calls := by
  simp [say, calls]

@[simp] theorem polls_say (s : Stage) (writes : List Write) : (s.say writes).polls = s.polls := by
  simp [say, polls, List.countP_map, Function.comp_def]

theorem writes_say (s : Stage) (writes : List Write) :
    (s.say writes).writes = s.writes ++ writes := by
  rw [say, Stage.writes, Stage.writes, List.filterMap_append, List.filterMap_map]
  exact congrArg _ List.filterMap_some

/-- Nor is a call a write. -/
theorem writes_called (s : Stage) (call : Call) : (s.note (.called call)).writes = s.writes := by
  simp [note, Stage.writes]

end Stage

/-! ## Surroundings -/

namespace Scene

/-- Make a call that can fail. -/
def attempt (scene : Scene) (call : Call) (effect : Depot → Depot) (s : Stage) :
    Except Failure Unit × Stage :=
  let s := s.note (.called call)
  -- only a success has an effect on the depot
  if scene.fails call then (.error call.failure, s) else (.ok (), s.withDepot effect)

/-- The operator's answer: a standing yes, or the next scripted answer. -/
def consult (scene : Scene) (question : String) (s : Stage) : Bool × Stage :=
  match scene.operator with
  | .assumeYes => (true, s.say (scene.tone.info (question ++ " yes")))
  | .console =>
      let s := s.note (.called (.ask question))
      -- no when there is no answer left
      (s.answers.headD false, { s with answers := s.answers.tail })

def surroundings (scene : Scene) : Surroundings Stage where
  answer
    | .poll, s =>
        let interrupted := scene.interrupted s.polls s.calls
        (interrupted, s.note (.polled interrupted))
    | .available, s => (s.depot.available, s.note (.called .available))
    | .bootstrap, s => scene.attempt .bootstrap (fun d => { d with available := true }) s
    | .update, s => scene.attempt .update (fun d => d) s
    | .check package, s =>
        let s := s.note (.called (.check package))
        if scene.fails (.check package) then (.error (Call.check package).failure, s)
        else (.ok (s.depot.has package), s)
    | .install package, s => scene.attempt (.install package) (fun d => d.add package) s
    | .upgrade package, s => scene.attempt (.upgrade package) (fun d => d) s
    | .ask question, s => scene.consult question s
    | .probe probe, s => (scene.built probe.program, s.note (.called (.probe probe)))
    | .build script, s => scene.attempt (.build script) (fun d => d) s
    | .inform message, s => ((), s.say (scene.tone.info message))

/-! ## Runs -/

/-- Carry out a plan, with a depot and the answers that the operator is going to give. -/
def rehearse (scene : Scene) (backend : Backend) (plan : Plan) (depot : Depot)
    (answers : List Bool) : Run Stage Unit :=
  (Installer.install backend plan).run scene.surroundings ⟨depot, answers, []⟩

end Scene

/-- Carry out a plan several times; the depot is kept from one run to the next. -/
def rehearseAll (backend : Backend) (plan : Plan) :
    Depot → List (Scene × List Bool) → List (Run Stage Unit)
  | _, [] => []
  | depot, (scene, answers) :: scenes =>
      let run := scene.rehearse backend plan depot answers
      run :: rehearseAll backend plan run.state.depot scenes

end Rehearsal
end Provision

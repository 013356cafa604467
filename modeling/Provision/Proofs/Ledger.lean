import Provision.Proofs.Sanction
import Provision.Rehearsal

/-!
# Ledger — the depot as the events have left it

A scripted package manager answers from a depot, and of all events only a successful installation
and a successful bootstrap change the depot.  So the depot at any time can be read off the events so
far, within a run as well as over several runs.  This file defines:

* `Event.alter`, `Depot.after` — what an event and what some events make of a depot;
* `installsOf` — the packages that are installed by some events;
* `Along` — a condition on an event and the depot of its time, at every event;
* `Truthful` — what an event says about the depot is true of it;
* `depot_rehearse`, `truthful_rehearse` — the depot and the answers of a rehearsal;
* `historyOf`, `lastDepot` — the events of several runs, and the depot that they leave behind;
* `lastDepot_rehearseAll`, `along_rehearseAll` — the same for several runs with one depot.
-/

namespace Provision

open Rehearsal

/-! ## Installations in the log -/

/-- The package that the event installs. -/
def Event.installs? : Event → Option String
  | ⟨.install package, .ok _⟩ => some package
  | _ => none

/-- The packages that are installed by some events, in their order. -/
def installsOf (es : List Event) : List String :=
  es.filterMap Event.installs?

theorem installs?_eq_some {e : Event} {package : String} :
    e.installs? = some package ↔ e = ⟨.install package, .ok ()⟩ := by
  constructor
  · intro h
    unfold Event.installs? at h
    split at h
    · cases h
      rfl
    · cases h
  · intro h
    rw [h]
    rfl

theorem mem_installsOf {es : List Event} {package : String} :
    package ∈ installsOf es ↔ ⟨.install package, .ok ()⟩ ∈ es := by
  simp only [installsOf, List.mem_filterMap, installs?_eq_some]
  constructor
  · intro hcase
    rcases hcase with ⟨e, hmem, rfl⟩
    exact hmem
  · intro hmem
    exact ⟨_, hmem, rfl⟩

/-! ## The depot after some events -/

/-- What an event makes of a depot. -/
def Event.alter (e : Event) (d : Depot) : Depot :=
  match e with
  | ⟨.install package, .ok _⟩ => d.add package
  | ⟨.bootstrap, .ok _⟩ => { d with available := true }
  | _ => d

namespace Rehearsal
namespace Depot

/-- The depot as some events leave it. -/
def after (d : Depot) (es : List Event) : Depot :=
  es.foldl (fun d e => e.alter d) d

@[simp] theorem after_nil (d : Depot) : d.after [] = d :=
  rfl

theorem after_cons (d : Depot) (e : Event) (es : List Event) :
    d.after (e :: es) = (e.alter d).after es :=
  rfl

theorem after_append (d : Depot) (front back : List Event) :
    d.after (front ++ back) = (d.after front).after back :=
  List.foldl_append

theorem has_alter {d : Depot} {e : Event} {package : String} :
    (e.alter d).has package = true ↔ d.has package = true ∨ e = ⟨.install package, .ok ()⟩ := by
  unfold Event.alter
  split
  next other _ =>
    -- the package that is installed is this one or another
    have hsame : (⟨.install other, .ok ()⟩ : Event) = ⟨.install package, .ok ()⟩ ↔
        package = other := by
      constructor
      · intro h
        cases h
        rfl
      · intro h
        rw [h]
    simp [has_add, hsame]
  next =>
    simp [has]
  next hother _ =>
    have hnot : e ≠ ⟨.install package, .ok ()⟩ := by
      intro h
      exact hother package () h
    simp [hnot]

theorem available_alter {d : Depot} {e : Event} :
    (e.alter d).available = true ↔ d.available = true ∨ e = ⟨.bootstrap, .ok ()⟩ := by
  unfold Event.alter
  split
  next other _ =>
    have hadd : (d.add other).available = d.available := by
      unfold add
      split <;> rfl
    simp [hadd]
  next =>
    simp
  next _ hother =>
    have hnot : e ≠ ⟨.bootstrap, .ok ()⟩ := by
      intro h
      exact hother () h
    simp [hnot]

/-- What one event alone can bring about holds in the end if it held before, or if that event was
among the others. -/
theorem after_iff {p : Depot → Prop} {cause : Event}
    (halter : ∀ (d : Depot) (e : Event), p (e.alter d) ↔ p d ∨ e = cause) (d : Depot)
    (es : List Event) : p (d.after es) ↔ p d ∨ cause ∈ es := by
  induction es generalizing d with
  | nil =>
      simp
  | cons e es ih =>
      calc
        p (d.after (e :: es))
            ↔ p (e.alter d) ∨ cause ∈ es := ih (e.alter d)
        _ ↔ (p d ∨ e = cause) ∨ cause ∈ es := or_congr_left (halter d e)
        _ ↔ p d ∨ cause ∈ e :: es := by rw [or_assoc, List.mem_cons, @eq_comm _ e]

/-- A package is there if it was there before, or if it was installed since. -/
theorem has_after {d : Depot} {es : List Event} {package : String} :
    (d.after es).has package = true ↔ d.has package = true ∨ package ∈ installsOf es := by
  rw [mem_installsOf]
  exact after_iff (p := fun d => d.has package = true) (fun _ _ => has_alter) d es

/-- The package manager is there if it was there before, or if it was installed since. -/
theorem available_after {d : Depot} {es : List Event} :
    (d.after es).available = true ↔ d.available = true ∨ ⟨.bootstrap, .ok ()⟩ ∈ es :=
  after_iff (p := fun d => d.available = true) (fun _ _ => available_alter) d es

end Depot

/-! ## The depot at each event -/

/-- At every event the condition holds of the depot as the events before have left it. -/
def Along (condition : Depot → Event → Prop) (d : Depot) (es : List Event) : Prop :=
  Throughout (fun before e => condition (d.after before) e) es

section Along

variable {condition : Depot → Event → Prop} {d : Depot} {e : Event} {front back es : List Event}

@[simp] theorem along_nil : Along condition d [] :=
  throughout_nil

@[simp] theorem along_cons :
    Along condition d (e :: es) ↔ condition d e ∧ Along condition (e.alter d) es :=
  throughout_cons

/-- The condition goes on from the depot that earlier events have left. -/
theorem along_append :
    Along condition d (front ++ back) ↔
      Along condition d front ∧ Along condition (d.after front) back := by
  simp only [Along, throughout_append, Depot.after_append]

/-- What holds along some events holds at each of them. -/
theorem Along.at_cut (h : Along condition d (front ++ e :: back)) : condition (d.after front) e :=
  h front e back rfl

end Along

/-- What the event says about the depot is true of it. -/
def Truthful (d : Depot) : Event → Prop
  | ⟨.available, yes⟩ => yes = d.available
  | ⟨.check package, .ok yes⟩ => yes = d.has package
  | _ => True

/-! ## Scenes -/

namespace Scene

/-- Nothing fails, no tool is built, and the operator at the console never interrupts the run. -/
def plain : Scene where
  operator := .console
  tone := {}
  fails _ := false
  built _ := false
  interrupted _ _ := false

variable (scene : Scene)

/-- A call changes the depot if and only if it succeeds. -/
theorem depot_attempt {call : Call} {effect : Depot → Depot} {s : Stage} :
    (scene.attempt call effect s).2.depot =
      if scene.fails call then s.depot else effect s.depot := by
  cases h : scene.fails call <;> simp [attempt, h, Stage.note, Stage.withDepot]

theorem depot_consult {question : String} {s : Stage} :
    (scene.consult question s).2.depot = s.depot := by
  cases h : scene.operator <;> simp [consult, h, Stage.note]

/-- The depot of a scene goes with its answers. -/
theorem depot_answer (r : Request) (s : Stage) :
    (scene.surroundings.answer r s).2.depot =
      Event.alter ⟨r, (scene.surroundings.answer r s).1⟩ s.depot := by
  cases r with
  | install package =>
      cases hfails : scene.fails (.install package) <;>
        simp [surroundings, attempt, hfails, Stage.note, Stage.withDepot, Event.alter]
  | bootstrap =>
      cases hfails : scene.fails .bootstrap <;>
        simp [surroundings, attempt, hfails, Stage.note, Stage.withDepot, Event.alter]
  | ask question =>
      exact scene.depot_consult
  | check package =>
      cases hfails : scene.fails (.check package) <;>
        simp [surroundings, hfails, Stage.note, Event.alter]
  | update | upgrade | build =>
      simp [surroundings, depot_attempt, Event.alter]
  | poll | available | probe | inform =>
      rfl

/-- The answers of a scene are truthful about its depot. -/
theorem truthful_answer (r : Request) (s : Stage) :
    Truthful s.depot ⟨r, (scene.surroundings.answer r s).1⟩ := by
  cases r with
  | available =>
      exact rfl
  | check package =>
      cases hfails : scene.fails (.check package) <;>
        simp [surroundings, hfails, Stage.note, Truthful]
  | _ =>
      exact trivial

theorem depot_after {es : List Event} {s : Stage} (h : scene.surroundings.Answered es s) :
    (scene.surroundings.after es s).depot = s.depot.after es := by
  induction es generalizing s with
  | nil =>
      rfl
  | cons e es ih =>
      rcases h with ⟨hanswer, hrest⟩
      have hfirst : (scene.surroundings.answer e.request s).2.depot = e.alter s.depot := by
        rw [scene.depot_answer, ← hanswer]
      calc
        (scene.surroundings.after (e :: es) s).depot
            = (scene.surroundings.answer e.request s).2.depot.after es := ih hrest
        _ = s.depot.after (e :: es) := by rw [hfirst, Depot.after_cons]

theorem truthful_answered {es : List Event} {s : Stage} (h : scene.surroundings.Answered es s) :
    Along Truthful s.depot es := by
  induction es generalizing s with
  | nil =>
      exact along_nil
  | cons e es ih =>
      rcases h with ⟨hanswer, hrest⟩
      have hfirst : Truthful s.depot e := by
        have htruth := scene.truthful_answer e.request s
        rwa [← hanswer] at htruth
      have hdepot : (scene.surroundings.answer e.request s).2.depot = e.alter s.depot := by
        rw [scene.depot_answer, ← hanswer]
      have hothers : Along Truthful (e.alter s.depot) es := by
        rw [← hdepot]
        exact ih hrest
      exact along_cons.2 ⟨hfirst, hothers⟩

end Scene

/-! ## Rehearsals -/

section Rehearse

variable {scene : Scene} {backend : Backend} {plan : Plan} {depot : Depot} {answers : List Bool}

theorem course_rehearse :
    (Installer.install backend plan).Course (scene.rehearse backend plan depot answers).events
      (scene.rehearse backend plan depot answers).result :=
  Procedure.run_course scene.surroundings _ _

theorem answered_rehearse :
    scene.surroundings.Answered (scene.rehearse backend plan depot answers).events
      ⟨depot, answers, []⟩ :=
  scene.surroundings.answered_run _ _

theorem state_rehearse :
    (scene.rehearse backend plan depot answers).state =
      scene.surroundings.after (scene.rehearse backend plan depot answers).events
        ⟨depot, answers, []⟩ :=
  scene.surroundings.state_run _ _

theorem depot_rehearse :
    (scene.rehearse backend plan depot answers).state.depot =
      depot.after (scene.rehearse backend plan depot answers).events := by
  rw [state_rehearse, scene.depot_after answered_rehearse]

theorem truthful_rehearse :
    Along Truthful depot (scene.rehearse backend plan depot answers).events :=
  scene.truthful_answered answered_rehearse

end Rehearse

/-! ## Several runs -/

/-- The events of several runs, one run after another. -/
def historyOf (runs : List (Run Stage Unit)) : List Event :=
  runs.flatMap Run.events

/-- The depot that several runs leave behind. -/
def lastDepot (depot : Depot) : List (Run Stage Unit) → Depot
  | [] => depot
  | run :: runs => lastDepot run.state.depot runs

@[simp] theorem historyOf_cons (run : Run Stage Unit) (runs : List (Run Stage Unit)) :
    historyOf (run :: runs) = run.events ++ historyOf runs :=
  List.flatMap_cons

section RehearseAll

variable {backend : Backend} {plan : Plan} {depot : Depot} {scenes : List (Scene × List Bool)}

theorem lastDepot_rehearseAll :
    lastDepot depot (rehearseAll backend plan depot scenes) =
      depot.after (historyOf (rehearseAll backend plan depot scenes)) := by
  induction scenes generalizing depot with
  | nil =>
      rfl
  | cons first scenes ih =>
      rcases first with ⟨scene, answers⟩
      simp only [rehearseAll, lastDepot, historyOf_cons, Depot.after_append]
      rw [ih, depot_rehearse]

/-- What holds along every run holds along several runs with one depot. -/
theorem along_rehearseAll {condition : Depot → Event → Prop}
    (h : ∀ (scene : Scene) (answers : List Bool) (d : Depot),
      Along condition d (scene.rehearse backend plan d answers).events) :
    Along condition depot (historyOf (rehearseAll backend plan depot scenes)) := by
  induction scenes generalizing depot with
  | nil =>
      exact along_nil
  | cons first scenes ih =>
      rcases first with ⟨scene, answers⟩
      have hfirst : Along condition depot (scene.rehearse backend plan depot answers).events :=
        h scene answers depot
      simp only [rehearseAll, historyOf_cons]
      refine along_append.2 ⟨hfirst, ?_⟩
      -- the other runs begin with the depot that the first one has left
      rw [← depot_rehearse]
      exact ih

/-- A run among several ones is a rehearsal with some depot. -/
theorem exists_of_mem_rehearseAll {run : Run Stage Unit}
    (h : run ∈ rehearseAll backend plan depot scenes) :
    ∃ (scene : Scene) (answers : List Bool) (d : Depot),
      run = scene.rehearse backend plan d answers := by
  induction scenes generalizing depot with
  | nil =>
      cases h
  | cons first scenes ih =>
      rcases first with ⟨scene, answers⟩
      rcases List.mem_cons.1 h with rfl | hlater
      · exact ⟨scene, answers, depot, rfl⟩
      · exact ih hlater

end RehearseAll

end Rehearsal
end Provision

import Mathlib.Data.List.Forall2
import Provision.Proofs.Attribution
import Provision.Proofs.Ledger

/-!
# Spelling — how a tool is spelled changes nothing of what is done

A tool is requested by its identifier or by an alias, in any letter case and with white space around
it.  The identifier is kept as it was given, but only for the reports: runs for two spellings of one
request make the same polls and calls and leave the same behind, and where they fail, they differ at
most in the identifier of a script.  This file defines:

* `Tool.Synonymous` — identifiers of one tool, or one text that names none;
* `Failure.Respelled`, `Concluded` — failures and results that differ in the spelling of an
  identifier;
* `Procedure.Twin` — procedures that make the same requests, apart from the wording of their
  reports;
* `Surroundings.Heedless`, `run_twin` — surroundings that take no notice of reports, and the runs of
  twins in them;
* `Stage.silent` — a stage without what was written;
* `SameDeeds`, `rehearse_respelled` — runs for two spellings of a request.
-/

namespace Provision

variable {σ τ α β : Type}

/-! ## Spellings of a request -/

namespace Tool

/-- Both identifiers name the same tool, or they are the same text and it names none. -/
def Synonymous (id other : String) : Prop :=
  (∃ tool, ofName? id = some tool ∧ ofName? other = some tool) ∨ (id = other ∧ ofName? id = none)

/-- The identifier under which a tool is listed; a text that names no tool is left as it is. -/
def respell (id : String) : String :=
  match ofName? id with
  | some tool => tool.id
  | none => id

theorem synonymous_respell (id : String) : Synonymous id (respell id) := by
  cases hname : ofName? id with
  | none =>
      exact Or.inr ⟨by simp [respell, hname], hname⟩
  | some tool =>
      exact Or.inl ⟨tool, hname, by simp [respell, hname, ofName?_id]⟩

theorem forall₂_respell (ids : List String) : List.Forall₂ Synonymous ids (ids.map respell) := by
  rw [List.forall₂_map_right_iff, List.forall₂_same]
  intro id _
  exact synonymous_respell id

end Tool

/-- The failures are the same but for the spelling of the identifier of a script; `pairs` has the
two spellings of each identifier. -/
inductive Failure.Respelled (pairs : List (String × String)) : Failure → Failure → Prop where
  | same {failure : Failure} (h : failure.namesStep = false) : Respelled pairs failure failure
  | unsupported {id : String} (platform : String) (h : (id, id) ∈ pairs) :
      Respelled pairs (.unsupportedPackage id platform) (.unsupportedPackage id platform)
  | script {id other : String} (source : Failure) (h : (id, other) ∈ pairs) :
      Respelled pairs (.script id source) (.script other source)

/-- Both results are the same value, or they are failures that are the same in some sense. -/
inductive Concluded (same : Failure → Failure → Prop) :
    Except Failure α → Except Failure α → Prop where
  | ok (value : α) : Concluded same (.ok value) (.ok value)
  | error {failure other : Failure} (h : same failure other) :
      Concluded same (.error failure) (.error other)

/-! ## Twins -/

namespace Procedure

/-- The procedures make the same requests and end in the same way, whatever they report. -/
inductive Twin (same : Failure → Failure → Prop) : Procedure α → Procedure α → Prop where
  | done (value : α) : Twin same (.done value) (.done value)
  | stop {failure other : Failure} (h : same failure other) :
      Twin same (.stop failure) (.stop other)
  | request {r : Request} {next other : r.Answer → Procedure α}
      (h : ∀ answer, Twin same (next answer) (other answer)) :
      Twin same (.request r next) (.request r other)
  | inform (message wording : String) {next other : Unit → Procedure α}
      (h : Twin same (next ()) (other ())) :
      Twin same (.request (.inform message) next) (.request (.inform wording) other)

section Twin

variable {same : Failure → Failure → Prop} {p q : Procedure α}

theorem Twin.bind {f g : α → Procedure β} (h : Twin same p q)
    (hrest : ∀ value, Twin same (f value) (g value)) : Twin same (p >>= f) (q >>= g) := by
  induction h with
  | done value =>
      exact hrest value
  | stop h =>
      exact Twin.stop h
  | request _ ih =>
      exact Twin.request ih
  | inform message wording _ ih =>
      exact Twin.inform message wording ih

/-- A procedure is its own twin if each of its failures is the same as itself. -/
theorem twin_self (h : ∀ es failure, p.Course es (.error failure) → same failure failure) :
    Twin same p p := by
  induction p with
  | done value =>
      exact Twin.done value
  | stop failure =>
      exact Twin.stop (h [] failure (Course.stop failure))
  | request r next ih =>
      refine Twin.request fun answer => ih answer ?_
      intro es failure hcourse
      exact h (⟨r, answer⟩ :: es) failure (Course.request answer hcourse)

end Twin

end Procedure

/-- What is seen of a state decides all answers, and reports are not seen. -/
structure Surroundings.Heedless (env : Surroundings σ) (view : σ → τ) : Prop where
  answer : ∀ r s s', view s = view s' → (env.answer r s).1 = (env.answer r s').1 ∧
    view (env.answer r s).2 = view (env.answer r s').2
  inform : ∀ message s, view (env.answer (.inform message) s).2 = view s

namespace Procedure

/-- Twins go the same way in surroundings that take no notice of reports. -/
theorem run_twin {env : Surroundings σ} {view : σ → τ} {same : Failure → Failure → Prop}
    {p q : Procedure α} {s s' : σ} (henv : env.Heedless view) (h : Twin same p q)
    (hview : view s = view s') :
    Concluded same (p.run env s).result (q.run env s').result ∧
      view (p.run env s).state = view (q.run env s').state := by
  -- the induction keeps the two states the same as far as they are seen
  induction h generalizing s s' with
  | done value =>
      exact ⟨Concluded.ok value, hview⟩
  | stop h =>
      exact ⟨Concluded.error h, hview⟩
  | @request r next other _ ih =>
      rcases henv.answer r s s' hview with ⟨hanswer, hnext⟩
      have hrest := ih (env.answer r s).1 hnext
      simp only [run]
      rw [← hanswer]
      exact hrest
  | inform message wording _ ih =>
      have hnext : view (env.answer (.inform message) s).2 =
          view (env.answer (.inform wording) s').2 := by
        rw [henv.inform, henv.inform, hview]
      exact ih hnext

end Procedure

/-! ## The installer -/

namespace Installer

open Procedure

section Twins

variable {pairs : List (String × String)} {platform : String}

theorem twin_prepare {manager : String} :
    Twin (Failure.Respelled pairs) (prepare manager) (prepare manager) :=
  twin_self fun _ _ h => .same (course_prepare.1 h).namesStep

theorem twin_ensureAll {packages : List String} :
    Twin (Failure.Respelled pairs) (ensureAll packages) (ensureAll packages) :=
  twin_self fun _ _ h => .same (ensureAll_namesStep h)

theorem twin_checkpoint : Twin (Failure.Respelled pairs) checkpoint checkpoint := by
  refine twin_self fun _ _ h => ?_
  rcases course_checkpoint.1 h with ⟨-, hfailure⟩ | ⟨-, hok⟩
  · cases hfailure
    exact .same rfl
  · cases hok

/-- A routine is carried out in the same way for two spellings of an identifier. -/
theorem twin_carryOut {id other : String} (hpair : (id, other) ∈ pairs) (routine : Routine) :
    Twin (Failure.Respelled pairs) (carryOut id routine) (carryOut other routine) := by
  cases routine with
  | managed packages =>
      exact twin_ensureAll
  | fromSource probe needs script =>
      refine Twin.request fun built => ?_
      cases built with
      | true =>
          exact Twin.inform _ _ (Twin.done ())
      | false =>
          refine twin_ensureAll.bind fun _ => twin_checkpoint.bind fun _ => ?_
          -- the report and the failure of the script have the identifier as it is spelled
          refine Twin.inform _ _ (Twin.request fun outcome => ?_)
          cases outcome with
          | ok value =>
              exact Twin.done value
          | error failure =>
              exact Twin.stop (.script failure hpair)

theorem twin_step {backend : Backend} {id other : String} (hpair : (id, other) ∈ pairs)
    (h : Tool.Synonymous id other) :
    Twin (Failure.Respelled pairs) (step platform (backend.step id))
      (step platform (backend.step other)) := by
  rcases h with ⟨tool, hid, hother⟩ | ⟨rfl, hname⟩
  · have hroutine : (backend.step id).routine = some (backend.routine tool) := by
      simp [Backend.step, hid]
    have hsame : (backend.step other).routine = some (backend.routine tool) := by
      simp [Backend.step, hother]
    simp only [step, hroutine, hsame]
    exact twin_carryOut hpair _
  · have hroutine : (backend.step id).routine = none := by
      simp [Backend.step, hname]
    simp only [step, hroutine]
    exact Twin.stop (.unsupported platform hpair)

theorem twin_steps {backend : Backend} {ids others : List String}
    (h : List.Forall₂ Tool.Synonymous ids others) (hpairs : ids.zip others ⊆ pairs) :
    Twin (Failure.Respelled pairs) (steps platform (backend.plan ids))
      (steps platform (backend.plan others)) := by
  induction h with
  | nil =>
      exact twin_checkpoint
  | cons hfirst _ ih =>
      rcases List.cons_subset.1 hpairs with ⟨hpair, hrest⟩
      exact twin_checkpoint.bind fun _ => (twin_step hpair hfirst).bind fun _ => ih hrest

/-- The installer does the same for two spellings of a request. -/
theorem twin_install (backend : Backend) {ids others : List String}
    (h : List.Forall₂ Tool.Synonymous ids others) :
    Twin (Failure.Respelled (ids.zip others)) (install backend (backend.plan ids))
      (install backend (backend.plan others)) :=
  twin_prepare.bind fun _ => twin_steps h (List.Subset.refl _)

end Twins

end Installer

namespace Rehearsal

/-! ## Stages without what was written -/

/-- The entry is a poll or a call. -/
def Entry.isDeed : Entry → Bool
  | wrote _ => false
  | _ => true

namespace Stage

/-- The polls and calls on record. -/
def deeds (s : Stage) : List Entry :=
  s.record.filter Entry.isDeed

/-- The stage without what was written. -/
def silent (s : Stage) : Stage :=
  { s with record := s.deeds }

variable {s : Stage}

theorem calls_silent : s.silent.calls = s.calls := by
  rw [calls, silent, deeds, List.filterMap_filter]
  refine List.filterMap_congr fun e _ => ?_
  cases e <;> rfl

theorem polls_silent : s.silent.polls = s.polls := by
  rw [polls, silent, deeds, List.countP_filter]
  refine List.countP_congr fun e _ => ?_
  cases e <;> rfl

@[simp] theorem depot_silent : s.silent.depot = s.depot :=
  rfl

@[simp] theorem answers_silent : s.silent.answers = s.answers :=
  rfl

/-- What was written before is not on a silent stage, whatever comes on record behind it. -/
@[simp] theorem silent_note {e : Entry} : (s.silent.note e).silent = (s.note e).silent := by
  simp [silent, deeds, note, List.filter_append]

@[simp] theorem silent_silent : s.silent.silent = s.silent := by
  simp [silent, deeds]

/-- What is said is not on a silent stage at all. -/
@[simp] theorem silent_say {writes : List Write} : (s.say writes).silent = s.silent := by
  simp [silent, deeds, say, Entry.isDeed]

@[simp] theorem silent_withDepot {change : Depot → Depot} :
    (s.withDepot change).silent = s.silent.withDepot change :=
  rfl

/-- Stages that differ only in what was written agree in all that writes take no part in. -/
theorem eq_of_silent {s' : Stage} {view : Stage → α} (hview : ∀ s, view s.silent = view s)
    (h : s.silent = s'.silent) : view s = view s' := by
  rw [← hview s, ← hview s', h]

end Stage

namespace Scene

variable (scene : Scene)

theorem attempt_silent {call : Call} {effect : Depot → Depot} {s : Stage} :
    (scene.attempt call effect s.silent).1 = (scene.attempt call effect s).1 ∧
      (scene.attempt call effect s.silent).2.silent = (scene.attempt call effect s).2.silent := by
  cases h : scene.fails call <;> simp [attempt, h]

/-- A scene answers as if nothing had been written. -/
theorem answer_silent (r : Request) (s : Stage) :
    (scene.surroundings.answer r s.silent).1 = (scene.surroundings.answer r s).1 ∧
      (scene.surroundings.answer r s.silent).2.silent =
        (scene.surroundings.answer r s).2.silent := by
  cases r with
  | poll =>
      simp [surroundings, Stage.calls_silent, Stage.polls_silent]
  | check package =>
      cases h : scene.fails (.check package) <;>
        simp [surroundings, h, Stage.silent, Stage.deeds, Stage.note]
  | ask question =>
      cases h : scene.operator with
      | console =>
          simp [surroundings, consult, h, Stage.silent, Stage.deeds, Stage.note]
      | assumeYes =>
          simp [surroundings, consult, h]
  | bootstrap | update | install | upgrade | build =>
      exact scene.attempt_silent
  | available | probe | inform =>
      simp [surroundings]

theorem heedless : scene.surroundings.Heedless Stage.silent where
  answer r s s' h := by
    rcases scene.answer_silent r s with ⟨hanswer, hnext⟩
    rcases scene.answer_silent r s' with ⟨hanswer', hnext'⟩
    rw [← hanswer, ← hnext, h]
    exact ⟨hanswer', hnext'⟩
  inform message s := by
    simp [surroundings]

end Scene

/-- The runs make the same polls and calls, leave the same behind, and have the same result but for
the spelling of an identifier. -/
structure SameDeeds (pairs : List (String × String)) (run other : Run Stage Unit) : Prop where
  /-- The polls with what they report and the calls are the same, in the same order. -/
  deeds : run.state.deeds = other.state.deeds
  calls : run.state.calls = other.state.calls
  polls : run.state.polls = other.state.polls
  depot : run.state.depot = other.state.depot
  answers : run.state.answers = other.state.answers
  result : Concluded (Failure.Respelled pairs) run.result other.result

section Respelled

variable {scene : Scene} {backend : Backend} {ids others : List String} {depot : Depot}
  {answers : List Bool}

theorem sameDeeds_of_synonymous (h : List.Forall₂ Tool.Synonymous ids others) :
    SameDeeds (ids.zip others) (scene.rehearse backend (backend.plan ids) depot answers)
      (scene.rehearse backend (backend.plan others) depot answers) := by
  have hruns := Procedure.run_twin scene.heedless (Installer.twin_install backend h)
    (rfl : Stage.silent ⟨depot, answers, []⟩ = Stage.silent ⟨depot, answers, []⟩)
  rcases hruns with ⟨hresult, hstate⟩
  exact
    { deeds := congrArg Stage.record hstate
      calls := Stage.eq_of_silent (fun _ => Stage.calls_silent) hstate
      polls := Stage.eq_of_silent (fun _ => Stage.polls_silent) hstate
      depot := Stage.eq_of_silent (fun _ => Stage.depot_silent) hstate
      answers := Stage.eq_of_silent (fun _ => Stage.answers_silent) hstate
      result := hresult }

end Respelled

/-- In every scene two spellings of a request come to the same deeds, and so do the aliases of a
request and the identifiers of its tools. -/
theorem rehearse_respelled (scene : Scene) (backend : Backend) (ids others : List String)
    (depot : Depot) (answers : List Bool) :
    (List.Forall₂ Tool.Synonymous ids others →
      SameDeeds (ids.zip others) (scene.rehearse backend (backend.plan ids) depot answers)
        (scene.rehearse backend (backend.plan others) depot answers)) ∧
    SameDeeds (ids.zip (ids.map Tool.respell))
      (scene.rehearse backend (backend.plan ids) depot answers)
      (scene.rehearse backend (backend.plan (ids.map Tool.respell)) depot answers) :=
  ⟨sameDeeds_of_synonymous, sameDeeds_of_synonymous (Tool.forall₂_respell ids)⟩

/-- A scene in which every build script fails. -/
def Scene.scriptless : Scene :=
  { Scene.plain with fails := fun call => match call with | .build _ => true | _ => false }

/-- Where the build script fails, the runs for two spellings of one tool name it as it was given. -/
theorem rehearse_respelled_gcc :
    List.Forall₂ Tool.Synonymous [" Cross-GCC", "qemu"] ["x86_64-elf-gcc", "qemu"] ∧
      SameDeeds [(" Cross-GCC", "x86_64-elf-gcc"), ("qemu", "qemu")]
        (Scene.scriptless.rehearse .apt (Backend.apt.plan [" Cross-GCC", "qemu"]) ⟨true, []⟩ [])
        (Scene.scriptless.rehearse .apt (Backend.apt.plan ["x86_64-elf-gcc", "qemu"])
          ⟨true, []⟩ []) ∧
      (Scene.scriptless.rehearse .apt (Backend.apt.plan [" Cross-GCC", "qemu"])
          ⟨true, []⟩ []).result =
        .error (.script " Cross-GCC"
          (.manager "script bash linux/install_x86_64-elf-gcc.sh exited with 1")) := by
  have hsynonymous :
      List.Forall₂ Tool.Synonymous [" Cross-GCC", "qemu"] ["x86_64-elf-gcc", "qemu"] :=
    .cons (Or.inl ⟨.crossGcc, by decide, by decide⟩) (.cons (Or.inr ⟨rfl, by decide⟩) .nil)
  refine ⟨hsynonymous, ?_, by decide⟩
  exact (rehearse_respelled Scene.scriptless .apt _ _ _ _).1 hsynonymous

end Rehearsal

end Provision

import Provision.Proofs.Keeper
import Provision.Proofs.Sanction
import Provision.Proofs.Scope

/-!
# Progress — a run does the work of its plan, in order

A plan comes to a sequence of work: packages to provide and scripts to run.  A run does this work
from the front and stops somewhere; a run that succeeds has done all of it, with the package manager
made ready before.  This file defines:

* `workOf` — the work that is done by some events;
* `Progress`, `Advances` — an initial part of some work is done, and all of it in case of success;
* `Progressed`, `install_progressed` — every run of the installer on a keeper does its work in this
  way.
-/

namespace Provision

/-! ## Work in the log -/

/-- What a call does of the work of a plan: an upgrade provides a package as well as an
installation. -/
def Event.work? (e : Event) : Option Work :=
  match e.request with
  | .install package | .upgrade package => some (.package package)
  | .build script => some (.script script)
  | _ => none

/-- The work that is done by some events. -/
def workOf (es : List Event) : List Work :=
  es.filterMap Event.work?

@[simp] theorem workOf_nil : workOf [] = [] :=
  rfl

theorem workOf_cons {e : Event} {es : List Event} :
    workOf (e :: es) = e.work?.toList ++ workOf es := by
  cases h : e.work? <;> simp [workOf, h]

@[simp] theorem workOf_append (front back : List Event) :
    workOf (front ++ back) = workOf front ++ workOf back :=
  List.filterMap_append

theorem work_cons_of_none {built : String → Bool} {s : Step} {plan : Plan} (h : s.routine = none) :
    Plan.work built (s :: plan) = [] := by
  simp [Plan.work, h]

theorem work_cons_of_some {built : String → Bool} {s : Step} {plan : Plan} {routine : Routine}
    (h : s.routine = some routine) :
    Plan.work built (s :: plan) = s.work built ++ Plan.work built plan := by
  simp [Plan.work, h]

/-- The event makes the package manager ready. -/
def Event.readies (e : Event) : Bool :=
  match e.request with
  | .bootstrap | .update => true
  | _ => false

namespace Installer

open Procedure

/-! ## Progress -/

/-- The probes among the events find what is built. -/
def Finds (built : String → Bool) (es : List Event) : Prop :=
  ∀ probe yes, ⟨.probe probe, yes⟩ ∈ es → yes = built probe.program

/-- An initial part of the work is done, and in case of success all of it. -/
structure Progress (work : List Work) (es : List Event) (result : Except Failure Unit) : Prop where
  started : workOf es <+: work
  whole : result = .ok () → workOf es = work

/-- Every course does an initial part of the work, and every successful one the whole of it. -/
def Advances (built : String → Bool) (p : Procedure Unit) (work : List Work) : Prop :=
  p.Obeys fun es result => Finds built es → Progress work es result

section Progress

variable {built : String → Bool} {work more : List Work} {es front back : List Event}
  {result : Except Failure Unit}

theorem Finds.left (h : Finds built (front ++ back)) : Finds built front := by
  intro probe yes hmem
  exact h probe yes (List.mem_append_left _ hmem)

theorem Finds.right (h : Finds built (front ++ back)) : Finds built back := by
  intro probe yes hmem
  exact h probe yes (List.mem_append_right _ hmem)

/-- A failure leaves the work that follows undone. -/
theorem Progress.of_error {failure : Failure} (h : Progress work es (.error failure)) :
    Progress (work ++ more) es (.error failure) where
  started := h.started.trans (List.prefix_append work more)
  whole hok := by cases hok

theorem Progress.append (hfront : Progress work front (.ok ()))
    (hback : Progress more back result) : Progress (work ++ more) (front ++ back) result := by
  have hdone : workOf (front ++ back) = work ++ workOf back := by
    rw [workOf_append, hfront.whole rfl]
  refine ⟨?_, ?_⟩
  · rw [hdone]
    exact (List.prefix_append_right_inj work).2 hback.started
  · intro hok
    rw [hdone, hback.whole hok]

theorem Progress.of_done (h : workOf es = work) : Progress work es result where
  started := h ▸ List.prefix_refl _
  whole _ := h

/-- A failure before any work is done. -/
theorem Progress.of_idle_error {failure : Failure} (h : workOf es = []) :
    Progress work es (.error failure) where
  started := h ▸ List.nil_prefix
  whole hok := by cases hok

theorem Progress.cons_idle {e : Event} (he : e.work? = none) (h : Progress work es result) :
    Progress work (e :: es) result := by
  have hsame : workOf (e :: es) = workOf es := List.filterMap_cons_none he
  refine ⟨?_, ?_⟩
  · rw [hsame]
    exact h.started
  · intro hok
    rw [hsame, h.whole hok]

theorem Advances.bind {p : Procedure Unit} {f : Unit → Procedure Unit}
    (hp : Advances built p work) (hf : Advances built (f ()) more) :
    Advances built (p >>= f) (work ++ more) := by
  intro es result h hfinds
  rcases course_bind.1 h with ⟨failure, hfirst, rfl⟩ | ⟨_, front, back, rfl, hfirst, hback⟩
  · -- the second part is not reached, so its work is left
    have hprogress : Progress work es (.error failure) := hp es _ hfirst hfinds
    exact hprogress.of_error
  · have hfront : Progress work front (.ok ()) := hp front _ hfirst hfinds.left
    have hrest : Progress more back result := hf back result hback hfinds.right
    exact hfront.append hrest

theorem Advances.of_idle {p : Procedure Unit} (h : p.Obeys fun es _ => workOf es = []) :
    Advances built p [] := by
  intro es result hcourse _
  exact Progress.of_done (h es result hcourse)

end Progress

/-! ## Progress of the parts -/

section Parts

variable {built : String → Bool} {es : List Event} {result : Except Failure Unit}

theorem Consented.idle {missing : String} (h : Consented missing es result) : workOf es = [] := by
  cases h <;> rfl

theorem Prepared.idle {manager : String} (h : Prepared manager es result) : workOf es = [] := by
  cases h with
  | updated outcome =>
      rfl
  | refused h =>
      exact h.idle
  | bootstrapped outcome h =>
      simp [workOf_cons, h.idle, Event.work?]

theorem idle_checkpoint : checkpoint.Obeys fun es _ => workOf es = [] := by
  intro es result h
  rcases course_checkpoint.1 h with ⟨rfl, -⟩ | ⟨rfl, -⟩
  all_goals rfl

theorem Ensured.progress {package : String} (h : Ensured package es result) :
    Progress [.package package] es result := by
  cases h with
  | interrupted | unchecked =>
      exact Progress.of_idle_error rfl
  | upgraded outcome =>
      exact Progress.of_done rfl
  | refused h =>
      exact Progress.of_idle_error h.idle
  | installed outcome h =>
      apply Progress.of_done
      simp [workOf_cons, h.idle, Event.work?]

theorem advances_ensureAll (packages : List String) :
    Advances built (ensureAll packages) (packages.map .package) := by
  induction packages with
  | nil =>
      apply Advances.of_idle
      intro es result h
      rcases course_done.1 h with ⟨rfl, -⟩
      rfl
  | cons package packages ih =>
      have hfirst : Advances built (ensure package) [.package package] := by
        intro es result h _
        exact (course_ensure.1 h).progress
      exact Advances.bind hfirst ih

/-- A build script is the last thing that is done for a tool. -/
theorem advances_build (id : String) (script : Script) :
    Advances built
      (checkpoint >>= fun _ => inform ("building " ++ quoted id ++ " from source") >>= fun _ =>
        perform (.build script) >>= accept (.script id))
      [.script script] := by
  intro es result h _
  rcases course_checkpoint_bind.1 h with ⟨rfl, rfl⟩ | ⟨rest, rfl, hbuild⟩
  · exact Progress.of_idle_error rfl
  · rcases course_operation.1 hbuild with ⟨outcome, rest, rfl, hend⟩
    rcases course_accept.1 hend with ⟨rfl, -⟩
    exact Progress.of_done rfl

/-- A step does the work that the plan has for it, as the probes find. -/
theorem advances_step (platform : String) (s : Step) :
    Advances built (step platform s) (s.work built) := by
  rcases s with ⟨id, routine⟩
  intro es result h hfinds
  cases routine with
  | none =>
      rcases course_stop.1 h with ⟨rfl, rfl⟩
      exact Progress.of_idle_error rfl
  | some routine =>
      cases routine with
      | managed packages =>
          exact advances_ensureAll packages es result h hfinds
      | fromSource probe needs script =>
          -- what the probe finds is what the plan goes by
          rcases course_perform_bind.1 h with ⟨yes, rest, rfl, hrest⟩
          have hyes : yes = built probe.program := hfinds probe yes List.mem_cons_self
          have hfindsRest : Finds built rest := fun other found hmem =>
            hfinds other found (List.mem_cons_of_mem _ hmem)
          apply Progress.cons_idle rfl
          cases yes with
          | true =>
              have hwork : Step.work built ⟨id, some (.fromSource probe needs script)⟩ = [] :=
                if_pos hyes.symm
              rcases course_perform.1 hrest with ⟨_, rfl, -⟩
              rw [hwork]
              exact Progress.of_done rfl
          | false =>
              have hwork : Step.work built ⟨id, some (.fromSource probe needs script)⟩ =
                  needs.map .package ++ [.script script] :=
                if_neg (by rw [← hyes]; exact Bool.false_ne_true)
              rw [hwork]
              exact Advances.bind (advances_ensureAll needs) (advances_build id script) rest result
                hrest hfindsRest

theorem advances_steps (platform : String) (plan : Plan) :
    Advances built (steps platform plan) (plan.work built) := by
  induction plan with
  | nil =>
      exact Advances.of_idle idle_checkpoint
  | cons s plan ih =>
      -- the poll before a step is no work
      have hpoll : Advances built checkpoint [] := Advances.of_idle idle_checkpoint
      have hrest : Advances built (step platform s >>= fun _ => steps platform plan)
          (Plan.work built (s :: plan)) := by
        cases hroutine : s.routine with
        | none =>
            -- the work of the plan ends here, and so do its steps
            rw [work_cons_of_none hroutine, step, hroutine]
            intro es result h _
            rcases course_stop.1 h with ⟨rfl, -⟩
            exact Progress.of_done rfl
        | some routine =>
            rw [work_cons_of_some hroutine]
            exact Advances.bind (advances_step platform s) ih
      exact Advances.bind hpoll hrest

/-- A run does the work of its plan. -/
theorem advances_install (backend : Backend) (plan : Plan) :
    Advances built (install backend plan) (plan.work built) := by
  have hprepare : Advances built (prepare backend.manager) [] := by
    apply Advances.of_idle
    intro es result h
    exact (course_prepare.1 h).idle
  exact Advances.bind hprepare (advances_steps backend.platformName plan)

end Parts

/-! ## The package manager comes first -/

/-- The events leave the package manager itself alone. -/
def Unready (es : List Event) : Prop :=
  ∀ e ∈ es, e.readies = false

section Unready

variable {built : String → Bool} {es : List Event} {result : Except Failure Unit}

@[simp] theorem unready_nil : Unready [] := by
  simp [Unready]

@[simp] theorem unready_cons {e : Event} : Unready (e :: es) ↔ e.readies = false ∧ Unready es := by
  simp [Unready]

@[simp] theorem unready_append {front back : List Event} :
    Unready (front ++ back) ↔ Unready front ∧ Unready back := by
  induction front with
  | nil =>
      simp
  | cons e front ih =>
      simp [ih, and_assoc]

theorem Consented.unready {missing : String} (h : Consented missing es result) : Unready es := by
  cases h <;> simp [Event.readies]

/-- No step makes a request for the package manager itself. -/
theorem unready_of_covers {plan : Plan} {e : Event} (h : plan.Covers built e.request) :
    e.readies = false := by
  rcases e with ⟨r, answer⟩
  cases r with
  | bootstrap | update =>
      cases h
  | _ =>
      rfl

theorem unready_steps (platform : String) (plan : Plan) :
    (steps platform plan).Obeys fun es _ => Unready es := by
  intro es result h e he
  have hcovers : plan.Covers (fun _ => false) e.request :=
    covered_steps (fun _ => false) platform plan es result h (fun _ _ => rfl) e he
  exact unready_of_covers hcovers

/-- One event makes the package manager ready, and nothing was done before it. -/
def Readied (es : List Event) : Prop :=
  ∃ before ready after, es = before ++ ready :: after ∧ ready.readies = true ∧ workOf before = [] ∧
    Unready before ∧ Unready after

theorem Prepared.readied {manager : String} (h : Prepared manager es (.ok ())) : Readied es := by
  generalize hr : (Except.ok () : Except Failure Unit) = result at h
  cases h with
  | updated outcome =>
      exact ⟨[⟨.available, true⟩, ⟨.inform ("updating " ++ manager), ()⟩], ⟨.update, outcome⟩, [],
        rfl,
        rfl, rfl, by simp [Event.readies], unready_nil⟩
  | refused h =>
      cases hr
  | @bootstrapped es outcome h =>
      -- the question comes before the package manager, and is no work either
      refine ⟨⟨.available, false⟩ :: es ++ [⟨.inform ("installing " ++ manager), ()⟩],
        ⟨.bootstrap, outcome⟩, [], by simp, rfl, ?_, ?_, unready_nil⟩
      · simp [workOf_cons, h.idle, Event.work?]
      · simp [Event.readies, h.unready]

theorem Readied.append {back : List Event} (h : Readied es) (hback : Unready back) :
    Readied (es ++ back) := by
  rcases h with ⟨before, ready, after, rfl, hready, hwork, hbefore, hafter⟩
  exact ⟨before, ready, after ++ back, by simp, hready, hwork, hbefore,
    unready_append.2 ⟨hafter, hback⟩⟩

theorem readied_of_ok {backend : Backend} {plan : Plan}
    (h : (install backend plan).Course es (.ok ())) : Readied es := by
  rcases course_bind.1 h with ⟨failure, -, hfailure⟩ | ⟨_, ready, work, rfl, hready, hwork⟩
  · cases hfailure
  -- the steps do not touch the package manager again
  have hfirst : Readied ready := (course_prepare.1 hready).readied
  have hrest : Unready work := unready_steps backend.platformName plan work _ hwork
  exact hfirst.append hrest

end Unready

/-! ## What is installed at the end -/

section Installed

variable {σ : Type} (keeper : Keeper σ) {s : σ} {backend : Backend} {ids : List String}
  {es : List Event}

/-- A package is provided by its installation or by its upgrade. -/
theorem work?_eq_package {e : Event} {package : String} (h : e.work? = some (.package package)) :
    (∃ outcome, e = ⟨.install package, outcome⟩) ∨ ∃ outcome, e = ⟨.upgrade package, outcome⟩ := by
  rcases e with ⟨r, answer⟩
  cases r <;> simp [Event.work?] at h
  case install =>
      subst h
      exact Or.inl ⟨answer, rfl⟩
  case upgrade =>
      subst h
      exact Or.inr ⟨answer, rfl⟩

/-- Right before a package is upgraded it was found. -/
theorem Orderly.check_of_upgrade {package : String} {outcome : Except Failure Unit}
    (h : Orderly backend ids es) (hmem : ⟨.upgrade package, outcome⟩ ∈ es) :
    ⟨.check package, .ok true⟩ ∈ es := by
  rcases List.append_of_mem hmem with ⟨front, back, rfl⟩
  have hcalls : callsOf (front ++ ⟨.upgrade package, outcome⟩ :: back) =
      callsOf front ++ ⟨.upgrade package, outcome⟩ :: callsOf back :=
    callsOf_append _ _
  have hfound : [⟨.check package, .ok true⟩] <:+ callsOf front := h _ _ _ hcalls
  have hmem : (⟨.check package, .ok true⟩ : Event) ∈ callsOf front :=
    hfound.subset List.mem_cons_self
  exact List.mem_append_left _ (mem_of_mem_callsOf hmem)

/-- If nothing stood in the way, all packages of the work are installed at the end. -/
theorem installed_of_work (hsmooth : Smooth es) (horderly : Orderly backend ids es)
    (hanswered : keeper.Answered es s) {package : String} (hwork : .package package ∈ workOf es) :
    keeper.installed (keeper.after es s) package = true := by
  rcases List.mem_filterMap.1 hwork with ⟨e, hmem, he⟩
  rcases work?_eq_package he with ⟨outcome, rfl⟩ | ⟨outcome, rfl⟩
  · have hgood := hsmooth _ hmem
    cases outcome with
    | error failure =>
        cases hgood
    | ok =>
        exact (keeper.installed_after hanswered package).2 (Or.inr hmem)
  · -- an upgrade says nothing about the set, but the check before it does
    have hfound : ⟨.check package, .ok true⟩ ∈ es := horderly.check_of_upgrade hmem
    exact keeper.installed_of_mem_check hanswered hfound

end Installed

/-! ## The whole run -/

/-- What a run has done of its work, and what that comes to in case of success. -/
structure Progressed {σ : Type} (keeper : Keeper σ) (plan : Plan) (run : Run σ Unit) : Prop where
  started : workOf run.events <+: plan.work keeper.built
  supported : run.result = .ok () → ∀ s ∈ plan, s.routine.isSome
  whole : run.result = .ok () → workOf run.events = plan.work keeper.built
  installed : run.result = .ok () → ∀ package, .package package ∈ plan.work keeper.built →
    keeper.installed run.state package = true
  /-- The package manager is made ready once, before all of the work. -/
  readied : run.result = .ok () → Readied run.events

section Whole

variable {σ : Type} (keeper : Keeper σ) {backend : Backend} {ids : List String} {s : σ}

/-- What the answers of a keeper make of a course of the installer. -/
theorem Progressed.of_course {run : Run σ Unit}
    (hrun : (install backend (backend.plan ids)).Course run.events run.result)
    (hanswered : keeper.Answered run.events s) (hstate : run.state = keeper.after run.events s) :
    Progressed keeper (backend.plan ids) run := by
  have hfinds : Finds keeper.built run.events := by
    intro probe yes hmem
    exact keeper.built_of_probe hanswered hmem
  have hprogress : Progress ((backend.plan ids).work keeper.built) run.events run.result :=
    advances_install backend (backend.plan ids) _ _ hrun hfinds
  refine ⟨hprogress.started, ?_, hprogress.whole, ?_, ?_⟩
  · intro hok
    rw [hok] at hrun
    exact supported_iff.2 (reached_of_ok hrun).supported
  · intro hok package hpackage
    rw [hok] at hrun
    have hsmooth : Smooth run.events := (ending_install backend (backend.plan ids) _ _ hrun).smooth
    have horderly : Orderly backend ids run.events := orderly_install _ _ hrun
    rw [← hprogress.whole hok] at hpackage
    rw [hstate]
    exact installed_of_work keeper hsmooth horderly hanswered hpackage
  · intro hok
    rw [hok] at hrun
    exact readied_of_ok hrun

/-- A run among surroundings that keep what they install does the work of its plan in order, and it
succeeds only if all of it is done. -/
theorem install_progressed {σ : Type} (keeper : Keeper σ) (s : σ) (backend : Backend)
    (ids : List String) :
    Progressed keeper (backend.plan ids)
      ((install backend (backend.plan ids)).run keeper.toSurroundings s) := by
  have hrun := run_course keeper.toSurroundings (install backend (backend.plan ids)) s
  have hanswered := keeper.answered_run (install backend (backend.plan ids)) s
  have hstate := keeper.state_run (install backend (backend.plan ids)) s
  exact Progressed.of_course keeper hrun hanswered hstate

open Rehearsal in
/-- In a rehearsal the packages are those of the depot. -/
theorem rehearse_progressed (scene : Scene) (backend : Backend) (ids : List String) (depot : Depot)
    (answers : List Bool) :
    Progressed scene.keeper (backend.plan ids)
      (scene.rehearse backend (backend.plan ids) depot answers) :=
  Progressed.of_course scene.keeper course_rehearse answered_rehearse state_rehearse

end Whole

end Installer
end Provision

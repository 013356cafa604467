import Provision.Proofs.Protocol

/-!
# Walk — the steps of a plan, one after another

A plan is carried out step by step, so that it can be cut at any step: the steps before the cut are
walked through, and then the rest is carried out as if it were the whole.  This file defines:

* `walk` — the steps of a plan without the last look at the interruption;
* `steps_append`, `install_append` — a plan that is cut in two;
* `course_steps_error` — where a run of steps stops;
* `Reached` — what is left of a run when the package manager is ready and some steps are completed;
* `obeys_install` — a law that every part of the installer keeps is kept by the whole;
* `Piecewise`, `Piecewise.install` — a law that is kept in every piece of a run, whatever the
  request.
-/

namespace Provision
namespace Installer

open Procedure

/-! ## Cutting a plan -/

/-- Carry out steps, without a look at the interruption behind them. -/
def walk (platform : String) : Plan → Procedure Unit
  | [] => done ()
  | s :: rest => do
      checkpoint
      step platform s
      walk platform rest

/-- The steps before a cut, and then the steps behind it. -/
theorem steps_append (platform : String) (front back : Plan) :
    steps platform (front ++ back) = walk platform front >>= fun _ => steps platform back := by
  induction front with
  | nil =>
      rfl
  | cons s front ih =>
      simp only [List.cons_append, steps, walk, bind_assoc, ih]

/-- Carrying out a plan is walking through it, with a last look at the interruption. -/
theorem steps_eq_walk (platform : String) (plan : Plan) :
    steps platform plan = walk platform plan >>= fun _ => checkpoint := by
  have h := steps_append platform plan []
  rwa [List.append_nil] at h

/-- The package manager, the steps before a cut, and then the steps behind it. -/
theorem install_append (backend : Backend) (front back : Plan) :
    install backend (front ++ back) =
      prepare backend.manager >>= fun _ =>
        walk backend.platformName front >>= fun _ => steps backend.platformName back := by
  rw [install, steps_append]

/-! ## Where a walk stops -/

section Stops

variable {platform : String} {plan : Plan} {es : List Event}

/-- A run of steps fails in an interruption between them, or in one step behind completed ones. -/
theorem course_steps_error {failure : Failure}
    (h : (steps platform plan).Course es (.error failure)) :
    failure = .interrupted ∨
      ∃ earlier s later work rest, plan = earlier ++ s :: later ∧
        es = work ++ ⟨.poll, false⟩ :: rest ∧ (walk platform earlier).Course work (.ok ()) ∧
          (step platform s).Course rest (.error failure) := by
  induction plan generalizing es with
  | nil =>
      rcases course_checkpoint.1 h with ⟨-, hfailure⟩ | ⟨-, hok⟩
      · exact Or.inl (Except.error.inj hfailure)
      · cases hok
  | cons s plan ih =>
      rcases course_checkpoint_bind.1 h with ⟨-, hfailure⟩ | ⟨rest, rfl, hstep⟩
      · exact Or.inl (Except.error.inj hfailure)
      -- the failure is that of the first step, or it comes from the steps behind it
      rcases course_bind.1 hstep with
        ⟨failure', hfirst, hfailure⟩ | ⟨_, front, back, rfl, hfirst, hback⟩
      · cases hfailure
        exact Or.inr ⟨[], s, plan, [], rest, rfl, rfl, Course.done (), hfirst⟩
      rcases ih hback with hfailure | ⟨earlier, s', later, work, rest, rfl, rfl, hwalk, hlast⟩
      · exact Or.inl hfailure
      · have hboth : (step platform s >>= fun _ => walk platform earlier).Course (front ++ work)
            (.ok ()) :=
          hfirst.bind_ok hwalk
        have hwhole : (walk platform (s :: earlier)).Course (⟨.poll, false⟩ :: (front ++ work))
            (.ok ()) :=
          course_checkpoint_bind.2 (Or.inr ⟨front ++ work, rfl, hboth⟩)
        exact Or.inr ⟨s :: earlier, s', later, ⟨.poll, false⟩ :: (front ++ work), rest, rfl,
          by simp, hwhole, hlast⟩

/-- Steps that are completed have routines. -/
theorem routine_of_course_walk (h : (walk platform plan).Course es (.ok ())) :
    ∀ s ∈ plan, s.routine.isSome := by
  induction plan generalizing es with
  | nil =>
      simp
  | cons s plan ih =>
      rcases course_checkpoint_bind.1 h with ⟨-, hfailure⟩ | ⟨rest, rfl, hstep⟩
      · cases hfailure
      rcases course_bind.1 hstep with ⟨failure, -, hfailure⟩ | ⟨_, front, back, rfl, hfirst, hback⟩
      · cases hfailure
      intro s' hs'
      rcases List.mem_cons.1 hs' with rfl | hs'
      · cases hroutine : s'.routine with
        | none =>
            -- a step without a routine fails, so it was not completed
            rw [step, hroutine] at hfirst
            cases (course_stop.1 hfirst).2
        | some routine =>
            rfl
      · exact ih hback s' hs'

end Stops

/-! ## How far a run came -/

section Reached

variable {backend : Backend} {es rest : List Event} {result : Except Failure Unit}

/-- The steps of a plan have routines if all identifiers name tools, and only then. -/
theorem supported_iff {ids : List String} :
    (∀ s ∈ backend.plan ids, s.routine.isSome) ↔ ∀ id ∈ ids, (Tool.ofName? id).isSome := by
  simp [Backend.plan, Backend.step]

/-- The package manager was made ready, the steps for `ids` were completed, and `rest` came
after. -/
def Reached (backend : Backend) (ids : List String) (es rest : List Event) : Prop :=
  ∃ ready work, es = ready ++ work ++ rest ∧ (prepare backend.manager).Course ready (.ok ()) ∧
    (walk backend.platformName (backend.plan ids)).Course work (.ok ())

/-- What comes after some steps is a run of the other ones. -/
theorem Reached.steps {earlier later : List String} (h : Reached backend earlier es rest)
    (hrun : (install backend (backend.plan (earlier ++ later))).Course es result) :
    (steps backend.platformName (backend.plan later)).Course rest result := by
  rcases h with ⟨ready, work, rfl, hready, hwork⟩
  have hplan : backend.plan (earlier ++ later) = backend.plan earlier ++ backend.plan later :=
    List.map_append
  rw [hplan, install_append, List.append_assoc] at hrun
  have hrest : (walk backend.platformName (backend.plan earlier) >>= fun _ =>
      steps backend.platformName (backend.plan later)).Course (work ++ rest) result :=
    hready.rest_of_bind hrun
  exact hwork.rest_of_bind hrest

theorem reached_of_ok {ids : List String}
    (hrun : (install backend (backend.plan ids)).Course es (.ok ())) :
    Reached backend ids es [⟨.poll, false⟩] := by
  rcases course_bind.1 hrun with ⟨failure, -, hfailure⟩ | ⟨_, ready, back, rfl, hready, hback⟩
  · cases hfailure
  -- the last poll comes after all steps
  rw [steps_eq_walk] at hback
  rcases course_bind.1 hback with ⟨failure, -, hfailure⟩ | ⟨_, work, last, rfl, hwork, hlast⟩
  · cases hfailure
  rcases course_checkpoint.1 hlast with ⟨-, hfailure⟩ | ⟨rfl, -⟩
  · cases hfailure
  · exact ⟨ready, work, by simp, hready, hwork⟩

theorem Reached.supported {ids : List String} (h : Reached backend ids es rest) :
    ∀ id ∈ ids, (Tool.ofName? id).isSome := by
  rcases h with ⟨ready, work, -, -, hwork⟩
  exact supported_iff.1 (routine_of_course_walk hwork)

end Reached

/-! ## Laws of the whole -/

section Laws

variable {law : List Event → Except Failure Unit → Prop}

theorem obeys_ensureAll (hlaw : Sequential law) {packages : List String}
    (h : ∀ package ∈ packages, (ensure package).Obeys law) : (ensureAll packages).Obeys law := by
  induction packages with
  | nil =>
      exact Obeys.done hlaw
  | cons package packages ih =>
      have hfirst : (ensure package).Obeys law := h package (List.mem_cons_self ..)
      have hrest : (ensureAll packages).Obeys law :=
        ih fun other hother => h other (List.mem_cons_of_mem _ hother)
      exact Obeys.bind hlaw hfirst hrest

/-- A tool keeps a law that its packages keep, and the pieces of the run before and behind them. -/
theorem Built.obeys (hlaw : Sequential law) {id : String} {probe : Probe} {needs : List String}
    {script : Script} {es : List Event} {result : Except Failure Unit}
    (hfound : law [⟨.probe probe, true⟩, ⟨.inform (quoted id ++ " is already built"), ()⟩] (.ok ()))
    (hmissed : law [⟨.probe probe, false⟩] (.ok ()))
    (hneeds : ∀ package ∈ needs, (ensure package).Obeys law)
    (hinterrupted : law [⟨.poll, true⟩] (.error .interrupted))
    (hscript : ∀ outcome, law
      [⟨.poll, false⟩, ⟨.inform ("building " ++ quoted id ++ " from source"), ()⟩,
        ⟨.build script, outcome⟩]
      (outcome.mapError (.script id)))
    (h : Built id probe needs script es result) : law es result := by
  have hall : (ensureAll needs).Obeys law := obeys_ensureAll hlaw hneeds
  cases h with
  | already =>
      exact hfound
  | needy h =>
      exact hlaw.append hmissed (hall _ _ h)
  | interrupted h =>
      exact hlaw.append (hlaw.append hmissed (hall _ _ h)) hinterrupted
  | ran outcome h =>
      exact hlaw.append (hlaw.append hmissed (hall _ _ h)) (hscript outcome)

/-- A step keeps a law that its packages and its script keep, and that allows it to be refused. -/
theorem obeys_step (hlaw : Sequential law) {platform : String} {s : Step}
    (hrefused : law [] (.error (.unsupportedPackage s.id platform)))
    (hmanaged : ∀ packages, s.routine = some (.managed packages) →
      ∀ package ∈ packages, (ensure package).Obeys law)
    (hbuilt : ∀ probe needs script es result, s.routine = some (.fromSource probe needs script) →
      Built s.id probe needs script es result → law es result) :
    (step platform s).Obeys law := by
  intro es result h
  cases hroutine : s.routine with
  | none =>
      rw [step, hroutine] at h
      rcases course_stop.1 h with ⟨rfl, rfl⟩
      exact hrefused
  | some routine =>
      rw [step, hroutine] at h
      cases routine with
      | managed packages =>
          have hall : (ensureAll packages).Obeys law :=
            obeys_ensureAll hlaw (hmanaged packages hroutine)
          exact hall es result h
      | fromSource probe needs script =>
          have hcourse : Built s.id probe needs script es result := course_carryOut_fromSource.1 h
          exact hbuilt probe needs script es result hroutine hcourse

theorem obeys_steps (hlaw : Sequential law) (hcheckpoint : checkpoint.Obeys law) {platform : String}
    {plan : Plan} (h : ∀ s ∈ plan, (step platform s).Obeys law) :
    (steps platform plan).Obeys law := by
  induction plan with
  | nil =>
      exact hcheckpoint
  | cons s plan ih =>
      have hfirst : (step platform s).Obeys law := h s (List.mem_cons_self ..)
      have hrest : (steps platform plan).Obeys law :=
        ih fun other hother => h other (List.mem_cons_of_mem _ hother)
      have hboth : (step platform s >>= fun _ => steps platform plan).Obeys law :=
        Obeys.bind hlaw hfirst hrest
      exact Obeys.bind hlaw hcheckpoint hboth

/-- A law that the package manager, every poll and every step keep is kept by the installer. -/
theorem obeys_install (hlaw : Sequential law) {backend : Backend} {plan : Plan}
    (hprepare : (prepare backend.manager).Obeys law) (hcheckpoint : checkpoint.Obeys law)
    (hstep : ∀ s ∈ plan, (step backend.platformName s).Obeys law) :
    (install backend plan).Obeys law := by
  have hsteps : (steps backend.platformName plan).Obeys law := obeys_steps hlaw hcheckpoint hstep
  exact Obeys.bind hlaw hprepare hsteps

/-- A law that passes through sequences and is kept in every piece of a run, whatever the
request. -/
structure Piecewise (manager : String) (law : List Event → Except Failure Unit → Prop) : Prop
    extends Sequential law where
  prepared : ∀ {es result}, Prepared manager es result → law es result
  interrupted : law [⟨.poll, true⟩] (.error .interrupted)
  passed : law [⟨.poll, false⟩] (.ok ())
  ensured : ∀ {package es result}, Ensured package es result → law es result
  unsupported : ∀ id platform, law [] (.error (.unsupportedPackage id platform))
  found : ∀ id probe,
    law [⟨.probe probe, true⟩, ⟨.inform (quoted id ++ " is already built"), ()⟩] (.ok ())
  missed : ∀ probe, law [⟨.probe probe, false⟩] (.ok ())
  script : ∀ id script outcome, law
    [⟨.poll, false⟩, ⟨.inform ("building " ++ quoted id ++ " from source"), ()⟩,
      ⟨.build script, outcome⟩]
    (outcome.mapError (.script id))

theorem Piecewise.install {backend : Backend} (h : Piecewise backend.manager law) (plan : Plan) :
    (install backend plan).Obeys law := by
  have hensure : ∀ package, (ensure package).Obeys law :=
    fun package es result hcourse => h.ensured (course_ensure.1 hcourse)
  refine obeys_install h.toSequential ?_ ?_ ?_
  · intro es result hcourse
    exact h.prepared (course_prepare.1 hcourse)
  · intro es result hcourse
    rcases course_checkpoint.1 hcourse with ⟨rfl, rfl⟩ | ⟨rfl, rfl⟩
    · exact h.interrupted
    · exact h.passed
  · intro s _
    refine obeys_step h.toSequential (h.unsupported _ _) (fun _ _ package _ => hensure package) ?_
    intro probe needs script es result _ hbuilt
    exact hbuilt.obeys h.toSequential (h.found _ _) (h.missed probe)
      (fun package _ => hensure package)
      h.interrupted (h.script _ _)

end Laws

end Installer
end Provision

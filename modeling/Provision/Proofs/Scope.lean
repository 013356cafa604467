import Provision.Proofs.Walk

/-!
# Scope — what the requests of a run are about

The steps of a plan make requests about what they have: a step about its packages, its probe and its
script, and only about the probe where that finds the tool built.  The package manager itself is the
concern of the beginning of a run alone.  This file defines:

* `Routine.packages` — the packages that a routine provides;
* `Plan.Has`, `Plan.Probes` — what the steps of a plan have;
* `Plan.Covers` — the requests that steps can make, and `covered_steps` — they make no other ones;
* `Prepares` — the requests by which the package manager is made ready, and `course_install_cut` — a
  run begins with the one kind of requests and goes on with the other;
* `Backend.Assigns`, `Within` — the routines of a request for tools, and the requests of a run for
  it.
-/

namespace Provision

/-! ## What steps have -/

/-- The packages that a routine provides. -/
def Routine.packages : Routine → List String
  | managed packages => packages
  | fromSource _ needs _ => needs

/-- Some step has this work, when the tools of the programs in `built` are already built. -/
def Plan.Has (built : String → Bool) (plan : Plan) (work : Work) : Prop :=
  ∃ s ∈ plan, work ∈ s.work built

/-- Some step is built from source unless this probe finds its tool. -/
def Plan.Probes (plan : Plan) (probe : Probe) : Prop :=
  ∃ s ∈ plan, ∃ needs script, s.routine = some (.fromSource probe needs script)

theorem Step.work_of_managed {built : String → Bool} {s : Step} {packages : List String}
    (h : s.routine = some (.managed packages)) : s.work built = packages.map .package := by
  rw [Step.work, h]

/-- A tool that is not built has its packages and its script to be done. -/
theorem Step.work_of_unbuilt {built : String → Bool} {s : Step} {probe : Probe}
    {needs : List String} {script : Script} (h : s.routine = some (.fromSource probe needs script))
    (hprobe : built probe.program = false) :
    s.work built = needs.map .package ++ [.script script] := by
  rw [Step.work, h]
  simp [hprobe]

/-- The more is built, the less a step has to do. -/
theorem Step.work_anti {built more : String → Bool} {s : Step} {work : Work}
    (hmore : ∀ program, built program = true → more program = true) (h : work ∈ s.work more) :
    work ∈ s.work built := by
  cases hroutine : s.routine with
  | none =>
      simp [Step.work, hroutine] at h
  | some routine =>
      cases routine with
      | managed packages =>
          rw [Step.work_of_managed hroutine] at h ⊢
          exact h
      | fromSource probe needs script =>
          by_cases hprobe : more probe.program = true
          · simp [Step.work, hroutine, hprobe] at h
          · have hmissed : more probe.program = false := Bool.eq_false_iff.2 hprobe
            have hless : built probe.program = false :=
              Bool.eq_false_iff.2 fun hbuilt => hprobe (hmore probe.program hbuilt)
            rw [Step.work_of_unbuilt hroutine hmissed] at h
            rw [Step.work_of_unbuilt hroutine hless]
            exact h

/-- Where every step has a routine, the plan comes to the work of all its steps. -/
theorem Plan.Has.mem_work {built : String → Bool} {plan : Plan} {work : Work}
    (h : plan.Has built work) (hsupported : ∀ s ∈ plan, s.routine.isSome) :
    work ∈ plan.work built := by
  induction plan with
  | nil =>
      rcases h with ⟨s, hs, -⟩
      cases hs
  | cons s plan ih =>
      have hsome : s.routine.isNone = false := by
        simpa using hsupported s (List.mem_cons_self ..)
      have hwork : Plan.work built (s :: plan) = s.work built ++ Plan.work built plan := by
        simp [Plan.work, hsome]
      rw [hwork]
      rcases h with ⟨s', hs', hmem⟩
      rcases List.mem_cons.1 hs' with rfl | hs'
      · exact List.mem_append_left _ hmem
      · have hrest : work ∈ Plan.work built plan :=
          ih ⟨s', hs', hmem⟩ fun other hother => hsupported other (List.mem_cons_of_mem _ hother)
        exact List.mem_append_right _ hrest

/-- A package that a step has is one of the packages of its routine. -/
theorem Plan.Has.packages {built : String → Bool} {plan : Plan} {package : String}
    (h : plan.Has built (.package package)) :
    ∃ s ∈ plan, ∃ routine, s.routine = some routine ∧ package ∈ routine.packages := by
  rcases h with ⟨s, hs, hmem⟩
  cases hroutine : s.routine with
  | none =>
      simp [Step.work, hroutine] at hmem
  | some routine =>
      refine ⟨s, hs, routine, hroutine, ?_⟩
      cases routine with
      | managed packages =>
          simpa [Step.work, hroutine, Routine.packages] using hmem
      | fromSource probe needs script =>
          by_cases hprobe : built probe.program = true
          · simp [Step.work, hroutine, hprobe] at hmem
          · simpa [Step.work, hroutine, hprobe, Routine.packages] using hmem

/-- A script that a step has is the script of its routine. -/
theorem Plan.Has.script {built : String → Bool} {plan : Plan} {script : Script}
    (h : plan.Has built (.script script)) :
    ∃ s ∈ plan, ∃ probe needs, s.routine = some (.fromSource probe needs script) := by
  rcases h with ⟨s, hs, hmem⟩
  cases hroutine : s.routine with
  | none =>
      simp [Step.work, hroutine] at hmem
  | some routine =>
      cases routine with
      | managed packages =>
          simp [Step.work, hroutine] at hmem
      | fromSource probe needs own =>
          by_cases hprobe : built probe.program = true
          · simp [Step.work, hroutine, hprobe] at hmem
          · have hown : script = own := by
              simpa [Step.work, hroutine, hprobe] using hmem
            subst hown
            exact ⟨s, hs, probe, needs, hroutine⟩

/-- The requests that steps can make: about a package, a probe or a script that one of them has. -/
def Plan.Covers (built : String → Bool) (plan : Plan) : Request → Prop
  | .check package | .install package | .upgrade package => plan.Has built (.package package)
  | .ask question =>
      ∃ package, plan.Has built (.package package) ∧ question = Installer.offer package
  | .probe probe => plan.Probes probe
  | .build script => plan.Has built (.script script)
  | .poll | .inform _ => True
  | .available | .bootstrap | .update => False

/-- The package that a request to the package manager is about. -/
def Request.package? : Request → Option String
  | .check package | .install package | .upgrade package => some package
  | _ => none

/-! ## The routines of a request -/

/-- The routine is the one that a package manager has for some requested identifier. -/
def Backend.Assigns (backend : Backend) (ids : List String) (routine : Routine) : Prop :=
  ∃ id ∈ ids, ∃ tool, Tool.ofName? id = some tool ∧ backend.routine tool = routine

namespace Backend

variable {backend : Backend} {ids : List String} {routine : Routine}

theorem assigns_of_plan {s : Step} (hs : s ∈ backend.plan ids) (h : s.routine = some routine) :
    backend.Assigns ids routine := by
  rcases List.mem_map.1 hs with ⟨id, hid, rfl⟩
  simp only [step, Option.map_eq_some_iff] at h
  rcases h with ⟨tool, htool, hroutine⟩
  exact ⟨id, hid, tool, htool, hroutine⟩

/-- The package manager is not one of its own packages. -/
theorem manager_not_mem_packages {tool : Tool} :
    backend.manager ∉ (backend.routine tool).packages := by
  have hall : ∀ b : Backend, ∀ t ∈ Tool.all, b.manager ∉ (b.routine t).packages := by
    intro b
    cases b <;> decide
  exact hall backend tool tool.mem_all

end Backend

namespace Installer

open Procedure

/-! ## The requests of steps -/

/-- A probe finds nothing only where the tool is not built. -/
def Misses (built : String → Bool) (es : List Event) : Prop :=
  ∀ probe, ⟨.probe probe, false⟩ ∈ es → built probe.program = false

/-- All requests are covered by the plan, as far as the probes go by what is built. -/
def Covered (built : String → Bool) (plan : Plan) (es : List Event) : Prop :=
  Misses built es → ∀ e ∈ es, plan.Covers built e.request

section Covered

variable {built : String → Bool} {plan : Plan} {es : List Event} {result : Except Failure Unit}

theorem Misses.mono {more : List Event} (h : Misses built more) (hsub : es ⊆ more) :
    Misses built es := by
  intro probe hmem
  exact h probe (hsub hmem)

theorem covered_sequential :
    Sequential fun es (_ : Except Failure Unit) => Covered built plan es where
  nil := by
    intro _ e he
    cases he
  append := by
    intro front back _ hfront hback hmisses e he
    rcases List.mem_append.1 he with he | he
    · exact hfront (hmisses.mono (List.subset_append_left front back)) e he
    · exact hback (hmisses.mono (List.subset_append_right front back)) e he

theorem Consented.covered {package : String} (hhas : plan.Has built (.package package))
    (h : Consented package es result) : ∀ e ∈ es, plan.Covers built e.request := by
  have hask : ∃ other, plan.Has built (.package other) ∧ offer package = offer other :=
    ⟨package, hhas, rfl⟩
  cases h <;> simp [Plan.Covers, hask]

theorem Ensured.covered {package : String} (hhas : plan.Has built (.package package))
    (h : Ensured package es result) : ∀ e ∈ es, plan.Covers built e.request := by
  cases h with
  | interrupted | unchecked | upgraded =>
      simp [Plan.Covers, hhas]
  | refused h | installed _ h =>
      have hasked := h.covered hhas
      simpa [Plan.Covers, hhas, or_imp, forall_and] using hasked

theorem covered_checkpoint : checkpoint.Obeys fun es _ => Covered built plan es := by
  intro es result h _
  rcases course_checkpoint.1 h with ⟨rfl, -⟩ | ⟨rfl, -⟩
  all_goals simp [Plan.Covers]

theorem covered_ensure {package : String} (hhas : plan.Has built (.package package)) :
    (ensure package).Obeys fun es _ => Covered built plan es := by
  intro es result h _
  exact (course_ensure.1 h).covered hhas

theorem covered_ensureAll {packages : List String}
    (hhas : ∀ package ∈ packages, plan.Has built (.package package)) :
    (ensureAll packages).Obeys fun es _ => Covered built plan es :=
  obeys_ensureAll covered_sequential fun package hpackage => covered_ensure (hhas package hpackage)

theorem Built.covered {s : Step} (hs : s ∈ plan) {probe : Probe} {needs : List String}
    {script : Script} (hroutine : s.routine = some (.fromSource probe needs script))
    (h : Built s.id probe needs script es result) : Covered built plan es := by
  intro hmisses
  have hprobe : plan.Probes probe := ⟨s, hs, needs, script, hroutine⟩
  -- what follows a probe that finds nothing is work of this step
  have hwork : ∀ {deps : List Event} {last : Except Failure Unit},
      (ensureAll needs).Course deps last → deps ⊆ es → ⟨.probe probe, false⟩ ∈ es →
        plan.Has built (.script script) ∧ ∀ e ∈ deps, plan.Covers built e.request := by
    intro deps last hdeps hsub hmissed
    have hunbuilt : built probe.program = false := hmisses probe hmissed
    have hall : s.work built = needs.map .package ++ [.script script] :=
      Step.work_of_unbuilt hroutine hunbuilt
    have hneeds : ∀ package ∈ needs, plan.Has built (.package package) := by
      intro package hpackage
      exact ⟨s, hs, by simp [hall, hpackage]⟩
    exact ⟨⟨s, hs, by simp [hall]⟩, covered_ensureAll hneeds deps last hdeps (hmisses.mono hsub)⟩
  cases h with
  | already =>
      simp [Plan.Covers, hprobe]
  | needy h =>
      rcases hwork h (by simp) (by simp) with ⟨-, hdeps⟩
      simpa [Plan.Covers, hprobe] using hdeps
  | interrupted h =>
      rcases hwork h (by simp) (by simp) with ⟨-, hdeps⟩
      simpa [Plan.Covers, hprobe, or_imp, forall_and] using hdeps
  | ran outcome h =>
      rcases hwork h (by simp) (by simp) with ⟨hscript, hdeps⟩
      simpa [Plan.Covers, hprobe, hscript, or_imp, forall_and] using hdeps

theorem covered_step {platform : String} {s : Step} (hs : s ∈ plan) :
    (step platform s).Obeys fun es _ => Covered built plan es := by
  refine obeys_step covered_sequential covered_sequential.nil ?_ ?_
  · intro packages hroutine package hpackage
    apply covered_ensure
    refine ⟨s, hs, ?_⟩
    rw [Step.work_of_managed hroutine]
    exact List.mem_map_of_mem hpackage
  · intro probe needs script es result hroutine h
    exact h.covered hs hroutine

/-- Steps make no requests but those that their plan covers. -/
theorem covered_steps (built : String → Bool) (platform : String) (plan : Plan) :
    (steps platform plan).Obeys fun es _ => Covered built plan es :=
  obeys_steps covered_sequential covered_checkpoint fun _ hs => covered_step hs

end Covered

/-! ## The requests at the beginning -/

/-- The requests by which a package manager is made ready. -/
def Prepares (manager : String) : Request → Prop
  | .available | .bootstrap | .update | .poll | .inform _ => True
  | .ask question => question = offer manager
  | _ => False

section Prepares

variable {manager : String} {es : List Event} {result : Except Failure Unit}

theorem Consented.prepares (h : Consented manager es result) :
    ∀ e ∈ es, Prepares manager e.request := by
  cases h <;> simp [Prepares]

theorem Prepared.prepares (h : Prepared manager es result) :
    ∀ e ∈ es, Prepares manager e.request := by
  cases h with
  | updated outcome =>
      simp [Prepares]
  | refused h | bootstrapped _ h =>
      have hasked := h.prepares
      simpa [Prepares, or_imp, forall_and] using hasked

end Prepares

/-- A run is the beginning, which makes the package manager ready, and then the steps. -/
theorem course_install_cut {backend : Backend} {plan : Plan} {es : List Event}
    {result : Except Failure Unit} (h : (install backend plan).Course es result)
    (built : String → Bool) :
    ∃ ready work, es = ready ++ work ∧ (∀ e ∈ ready, Prepares backend.manager e.request) ∧
      Covered built plan work := by
  rcases course_bind.1 h with ⟨failure, hprepare, -⟩ | ⟨_, ready, work, rfl, hready, hwork⟩
  · exact ⟨es, [], by simp, (course_prepare.1 hprepare).prepares, covered_sequential.nil⟩
  · exact ⟨ready, work, rfl, (course_prepare.1 hready).prepares,
      covered_steps built backend.platformName plan work result hwork⟩

/-! ## The requests of a run -/

/-- The requests of a run on the plan for `ids`, whatever its probes find. -/
def Within (backend : Backend) (ids : List String) (r : Request) : Prop :=
  Prepares backend.manager r ∨ (backend.plan ids).Covers (fun _ => false) r

section Within

variable {backend : Backend} {ids : List String} {r : Request}

theorem within_of_course {es : List Event} {result : Except Failure Unit}
    (h : (install backend (backend.plan ids)).Course es result) :
    ∀ e ∈ es, Within backend ids e.request := by
  rcases course_install_cut h (fun _ => false) with ⟨ready, work, rfl, hready, hwork⟩
  intro e he
  rcases List.mem_append.1 he with he | he
  · exact Or.inl (hready e he)
  · exact Or.inr (hwork (fun _ _ => rfl) e he)

theorem Within.packages {package : String} (hpackage : package ∈ r.package?)
    (h : Within backend ids r) :
    ∃ routine, backend.Assigns ids routine ∧ package ∈ routine.packages := by
  have hhas : (backend.plan ids).Has (fun _ => false) (.package package) := by
    cases r <;> cases hpackage
    all_goals
      rcases h with hprepares | hcovers
      · cases hprepares
      · exact hcovers
  rcases hhas.packages with ⟨s, hs, routine, hroutine, hmem⟩
  exact ⟨routine, Backend.assigns_of_plan hs hroutine, hmem⟩

theorem Within.probe {probe : Probe} (h : Within backend ids (.probe probe)) :
    ∃ needs script, backend.Assigns ids (.fromSource probe needs script) := by
  rcases h with hprepares | ⟨s, hs, needs, script, hroutine⟩
  · cases hprepares
  · exact ⟨needs, script, Backend.assigns_of_plan hs hroutine⟩

theorem Within.build {script : Script} (h : Within backend ids (.build script)) :
    ∃ probe needs, backend.Assigns ids (.fromSource probe needs script) := by
  rcases h with hprepares | hhas
  · cases hprepares
  · rcases Plan.Has.script hhas with ⟨s, hs, probe, needs, hroutine⟩
    exact ⟨probe, needs, Backend.assigns_of_plan hs hroutine⟩

end Within

end Installer
end Provision

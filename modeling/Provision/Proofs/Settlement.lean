import Provision.Proofs.Demand
import Provision.Proofs.Progress

/-!
# Settlement — a run that succeeded leaves nothing to install

A run that succeeds leaves a depot with everything that its plan comes to: the package manager is
there and so are all packages.  No run takes anything away, and so every later run of the plan finds
all that it looks for, asks for nothing and installs nothing.  This file defines:

* `Stocked` — a depot with everything that the steps of a plan have;
* `stocked_of_ok`, `Stocked.after` — a successful run leaves such a depot, and it stays like that;
* `Request.acquires` — the requests that are made where something is missing;
* `Settled`, `rehearse_settled` — how every later run goes.
-/

namespace Provision

open Rehearsal

/-- The request is made where something is missing: a question, a bootstrap or an installation. -/
def Request.acquires : Request → Bool
  | .ask _ | .bootstrap | .install _ => true
  | _ => false

/-- Without a bootstrap or an installation the depot stays as it is. -/
theorem Rehearsal.Depot.after_eq_self {d : Depot} {es : List Event}
    (h : ∀ e ∈ es, e.request.acquires = false) : d.after es = d := by
  induction es with
  | nil =>
      rfl
  | cons e es ih =>
      have hfirst : e.alter d = d := by
        have hidle : e.request.acquires = false := h e (List.mem_cons_self ..)
        rcases e with ⟨r, answer⟩
        cases r with
        | install | bootstrap =>
            cases hidle
        | _ =>
            rfl
      have hrest : d.after es = d := ih fun other hother => h other (List.mem_cons_of_mem _ hother)
      calc
        d.after (e :: es)
            = (e.alter d).after es := Depot.after_cons d e es
        _ = d := by rw [hfirst, hrest]

namespace Installer

open Procedure

/-! ## A stocked depot -/

/-- The package manager is there, and so are all packages that the steps of the plan have. -/
structure Stocked (built : String → Bool) (plan : Plan) (d : Depot) : Prop where
  available : d.available = true
  packages : ∀ package, plan.Has built (.package package) → d.has package = true

namespace Stocked

variable {built more : String → Bool} {plan : Plan} {manager : String} {d : Depot} {e : Event}

/-- A stocked depot stays one. -/
theorem after (h : Stocked built plan d) (es : List Event) : Stocked built plan (d.after es) where
  available := Depot.available_after.2 (Or.inl h.available)
  packages package hhas := Depot.has_after.2 (Or.inl (h.packages package hhas))

/-- With more tools built there is less that a depot must have. -/
theorem anti (hmore : ∀ program, built program = true → more program = true)
    (h : Stocked built plan d) : Stocked more plan d where
  available := h.available
  packages := by
    intro package hhas
    rcases hhas with ⟨s, hs, hwork⟩
    exact h.packages package ⟨s, hs, Step.work_anti hmore hwork⟩

theorem provides {package : String} (h : Stocked built plan d)
    (hhas : plan.Has built (.package package)) : d.provides manager package = true := by
  by_cases hname : package = manager
  · subst hname
    rw [Depot.provides_manager]
    exact h.available
  · rw [Depot.provides_package hname]
    exact h.packages package hhas

/-- A stocked depot calls for nothing that is made where something is missing. -/
theorem not_acquires (h : Stocked built plan d)
    (hscope : Prepares manager e.request ∨ plan.Covers built e.request)
    (hdemanded : Demanded manager d e) : e.request.acquires = false := by
  rcases e with ⟨r, answer⟩
  cases r with
  | bootstrap =>
      have hnot : d.available = false := hdemanded
      rw [h.available] at hnot
      cases hnot
  | install package =>
      have hnot : d.has package = false := hdemanded.2
      rcases hscope with hprepares | hhas
      · cases hprepares
      · rw [h.packages package hhas] at hnot
        cases hnot
  | ask question =>
      rcases hdemanded with ⟨missing, hquestion, hmissing⟩
      -- the question is about the package manager or about a package, and both are there
      have hthere : d.provides manager missing = true := by
        rcases hscope with hmanager | ⟨package, hhas, hpackage⟩
        · have hsame : missing = manager := Ending.offer_injective (hquestion.symm.trans hmanager)
          rw [hsame, Depot.provides_manager]
          exact h.available
        · have hsame : missing = package := Ending.offer_injective (hquestion.symm.trans hpackage)
          rw [hsame]
          exact h.provides hhas
      rw [hmissing] at hthere
      cases hthere
  | _ =>
      rfl

/-- A truthful check finds what it looks for in a stocked depot. -/
theorem found {package : String} {yes : Bool} (h : Stocked built plan d)
    (hscope : Prepares manager (.check package) ∨ plan.Covers built (.check package))
    (htruth : Truthful d ⟨.check package, .ok yes⟩) : yes = true := by
  have hyes : yes = d.has package := htruth
  rcases hscope with hprepares | hhas
  · cases hprepares
  · rw [hyes]
    exact h.packages package hhas

end Stocked

/-! ## What a successful run leaves -/

section Runs

variable {backend : Backend} {ids : List String} {d : Depot} {es : List Event}
  {result : Except Failure Unit}

/-- After a successful run the package manager is there. -/
theorem available_of_ok (hrun : (install backend (backend.plan ids)).Course es (.ok ()))
    (hdemanded : Along (Demanded backend.manager) d es) : (d.after es).available = true := by
  have hsmooth : Smooth es := (ending_install backend (backend.plan ids) es _ hrun).smooth
  rcases readied_of_ok hrun with ⟨before, ⟨r, outcome⟩, after, rfl, hready, -⟩
  cases r with
  | update =>
      -- the index is refreshed only where the package manager is there
      have hthen : (d.after before).available = true := hdemanded.at_cut
      rw [Depot.after_append]
      exact Depot.available_after.2 (Or.inl hthen)
  | bootstrap =>
      have hgood : Event.isSetback ⟨.bootstrap, outcome⟩ = false := hsmooth _ (by simp)
      cases outcome with
      | error failure =>
          cases hgood
      | ok =>
          exact Depot.available_after.2 (Or.inr (by simp))
  | _ =>
      cases hready

/-- A successful run leaves everything that its plan needs. -/
theorem stocked_of_ok {scene : Scene} {depot : Depot} {answers : List Bool}
    (hok : (scene.rehearse backend (backend.plan ids) depot answers).result = .ok ()) :
    Stocked scene.built (backend.plan ids)
      (scene.rehearse backend (backend.plan ids) depot answers).state.depot where
  available := by
    have hrun : (install backend (backend.plan ids)).Course
        (scene.rehearse backend (backend.plan ids) depot answers).events (.ok ()) := by
      rw [← hok]
      exact course_rehearse
    rw [depot_rehearse]
    exact available_of_ok hrun heeded_rehearse.demanded
  packages := by
    intro package hhas
    have hprogressed := rehearse_progressed scene backend ids depot answers
    have hwork : .package package ∈ (backend.plan ids).work scene.built :=
      hhas.mem_work (hprogressed.supported hok)
    exact hprogressed.installed hok package hwork

/-! ## A run with a stocked depot -/

/-- How a run goes when there is nothing to install. -/
structure Settled (d : Depot) (run : Run Stage Unit) : Prop where
  /-- The run begins with finding the package manager. -/
  available : ∃ rest, run.events = ⟨.available, true⟩ :: rest
  found : ∀ package yes, ⟨.check package, .ok yes⟩ ∈ run.events → yes = true
  idle : ∀ e ∈ run.events, e.request.acquires = false
  depot : run.state.depot = d
  /-- Only a failing call or an interruption is in its way. -/
  succeeds : (∀ e ∈ run.events, e.failure? = none) → ⟨.poll, true⟩ ∉ run.events →
    run.result = .ok ()

/-- The first thing that a run does is to look for the package manager. -/
theorem available_of_course {plan : Plan} (h : (install backend plan).Course es result) :
    ∃ yes rest, es = ⟨.available, yes⟩ :: rest := by
  rw [install, prepare, bind_assoc] at h
  rcases course_perform_bind.1 h with ⟨yes, rest, rfl, -⟩
  exact ⟨yes, rest, rfl⟩

/-- Where nothing is missing and all tools are known, a run fails only by a call or an
interruption. -/
theorem ok_of_undisturbed (hknown : ∀ id ∈ ids, (Tool.ofName? id).isSome)
    (hrun : (install backend (backend.plan ids)).Course es result)
    (hidle : ∀ e ∈ es, e.request.acquires = false) (hcalls : ∀ e ∈ es, e.failure? = none)
    (hpoll : ⟨.poll, true⟩ ∉ es) : result = .ok () := by
  cases result with
  | ok =>
      rfl
  | error failure =>
      have hending := ending_install backend (backend.plan ids) es _ hrun
      rcases hending.last_of_error with ⟨front, last, rfl, -, hsetback⟩
      cases hsetback with
      | interrupted | overruled =>
          exact absurd (by simp) hpoll
      | declined missing =>
          cases hidle ⟨.ask (offer missing), false⟩ (by simp)
      | update | bootstrap | check | install | upgrade | build =>
          cases hcalls _ (List.mem_append_right front (List.mem_singleton_self _))
      | unsupported id platform =>
          rcases (unsupported_iff hrun).1 rfl with ⟨-, earlier, later, rfl, -, hname, -⟩
          have hsome : (Tool.ofName? id).isSome := hknown id (by simp)
          rw [hname] at hsome
          cases hsome

/-- A request is made for the package manager, or for what the steps have. -/
theorem scope_of_course {built : String → Bool} {plan : Plan}
    (hrun : (install backend plan).Course es result) (hmisses : Misses built es) :
    ∀ e ∈ es, Prepares backend.manager e.request ∨ plan.Covers built e.request := by
  rcases course_install_cut hrun built with ⟨ready, work, rfl, hready, hwork⟩
  intro e he
  rcases List.mem_append.1 he with he | he
  · exact Or.inl (hready e he)
  · exact Or.inr (hwork (hmisses.mono (List.subset_append_right ready work)) e he)

/-- A run with everything there finds it, and leaves the depot as it is. -/
theorem settled_of_stocked {built : String → Bool} {run : Run Stage Unit}
    (hknown : ∀ id ∈ ids, (Tool.ofName? id).isSome) (hstocked : Stocked built (backend.plan ids) d)
    (hrun : (install backend (backend.plan ids)).Course run.events run.result)
    (hmisses : Misses built run.events) (htruth : Along Truthful d run.events)
    (hdemanded : Along (Demanded backend.manager) d run.events)
    (hdepot : run.state.depot = d.after run.events) : Settled d run := by
  have hscope := scope_of_course hrun hmisses
  have hidle : ∀ e ∈ run.events, e.request.acquires = false := by
    intro e he
    rcases List.append_of_mem he with ⟨before, after, hevents⟩
    rw [hevents] at hdemanded
    exact (hstocked.after before).not_acquires (hscope e he) hdemanded.at_cut
  refine ⟨?_, ?_, hidle, ?_, ?_⟩
  · rcases available_of_course hrun with ⟨yes, rest, hevents⟩
    rw [hevents] at htruth
    have hyes : yes = d.available := (along_cons.1 htruth).1
    rw [hevents, hyes, hstocked.available]
    exact ⟨rest, rfl⟩
  · intro package yes he
    rcases List.append_of_mem he with ⟨before, after, hevents⟩
    rw [hevents] at htruth
    exact (hstocked.after before).found (hscope _ he) htruth.at_cut
  · exact hdepot.trans (Depot.after_eq_self hidle)
  · intro hcalls hpoll
    exact ok_of_undisturbed hknown hrun hidle hcalls hpoll

theorem misses_rehearse {scene : Scene} {plan : Plan} {answers : List Bool} :
    Misses scene.built (scene.rehearse backend plan d answers).events := by
  intro probe hmem
  exact (scene.keeper.built_of_probe answered_rehearse hmem).symm

/-- Once a run has succeeded, each later run with the same depot finds everything there, as long as
the tools that were built stay built. -/
theorem rehearse_settled (backend : Backend) (ids : List String) (depot : Depot)
    (first later : Scene) (answers answersLater : List Bool) (between : List (Scene × List Bool))
    (hok : (first.rehearse backend (backend.plan ids) depot answers).result = .ok ())
    (hbuilt : ∀ program, first.built program = true → later.built program = true) :
    Settled (lastDepot depot
      (rehearseAll backend (backend.plan ids) depot ((first, answers) :: between)))
      (later.rehearse backend (backend.plan ids)
        (lastDepot depot
          (rehearseAll backend (backend.plan ids) depot ((first, answers) :: between)))
        answersLater) := by
  have hknown : ∀ id ∈ ids, (Tool.ofName? id).isSome := by
    have hrun : (install backend (backend.plan ids)).Course
        (first.rehearse backend (backend.plan ids) depot answers).events (.ok ()) := by
      rw [← hok]
      exact course_rehearse
    exact (reached_of_ok hrun).supported
  -- the runs in between take nothing away
  have hstocked : Stocked later.built (backend.plan ids)
      (lastDepot depot
        (rehearseAll backend (backend.plan ids) depot ((first, answers) :: between))) := by
    rw [rehearseAll, lastDepot, lastDepot_rehearseAll]
    exact ((stocked_of_ok hok).after _).anti hbuilt
  exact settled_of_stocked hknown hstocked course_rehearse misses_rehearse truthful_rehearse
    heeded_rehearse.demanded depot_rehearse

/-- A first run for `nasm` that also has to install Homebrew leaves nothing to install behind. -/
theorem rehearse_settled_nasm :
    (Scene.plain.rehearse .homebrew (Backend.homebrew.plan ["nasm"]) ⟨false, []⟩
        [true, true]).result = .ok () ∧
      Settled ⟨true, ["nasm"]⟩
        (Scene.plain.rehearse .homebrew (Backend.homebrew.plan ["nasm"]) ⟨true, ["nasm"]⟩ []) := by
  have hok : (Scene.plain.rehearse .homebrew (Backend.homebrew.plan ["nasm"]) ⟨false, []⟩
      [true, true]).result = .ok () := rfl
  refine ⟨hok, ?_⟩
  exact rehearse_settled .homebrew ["nasm"] ⟨false, []⟩ Scene.plain Scene.plain [true, true] []
    [(Scene.plain, [])] hok fun _ hbuilt => hbuilt

end Runs

end Installer
end Provision

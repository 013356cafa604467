import Provision.Proofs.Attribution
import Provision.Proofs.Ledger
import Provision.Proofs.Scope

/-!
# Demand — nothing is done that the depot does not call for

A run asks for something and installs it only where it is missing, and it renews only what is there:
the package manager itself as well as its packages.  A part of a run that is completed has provided
all that it asked for, so that the same question is not asked again.  This file defines:

* `Depot.provides` — what is there: the package manager, or one of its packages;
* `Demanded` — an event that the depot of its time calls for;
* `questionsOf` — the questions among some events;
* `Heeded` — the events are demanded, the questions are all different, and what they ask for is
  provided in the end;
* `heeds_install`, `heeded_rehearse` — every run whose answers are truthful goes this way, and so
  does every rehearsal.
-/

namespace Provision

open Rehearsal

/-! ## What is there -/

namespace Rehearsal
namespace Depot

/-- The name stands for something that is there: for the package manager, or for one of its
packages. -/
def provides (d : Depot) (manager name : String) : Bool :=
  if name = manager then d.available else d.has name

variable {d : Depot} {manager name package : String} {es : List Event}

@[simp] theorem provides_manager : d.provides manager manager = d.available := by
  rw [provides, if_pos rfl]

theorem provides_package (h : package ≠ manager) : d.provides manager package = d.has package := by
  rw [provides, if_neg h]

/-- What is there stays there. -/
theorem provides_after (h : d.provides manager name = true) :
    (d.after es).provides manager name = true := by
  by_cases hname : name = manager
  · subst hname
    rw [provides_manager] at h ⊢
    exact available_after.2 (Or.inl h)
  · rw [provides_package hname] at h ⊢
    exact has_after.2 (Or.inl h)

end Depot
end Rehearsal

/-! ## Questions in the log -/

def Event.question? : Event → Option String
  | ⟨.ask question, _⟩ => some question
  | _ => none

/-- The questions among some events, in their order. -/
def questionsOf (es : List Event) : List String :=
  es.filterMap Event.question?

@[simp] theorem questionsOf_nil : questionsOf [] = [] :=
  rfl

@[simp] theorem questionsOf_append (front back : List Event) :
    questionsOf (front ++ back) = questionsOf front ++ questionsOf back :=
  List.filterMap_append

theorem mem_questionsOf {es : List Event} {question : String} :
    question ∈ questionsOf es ↔ ∃ yes, ⟨.ask question, yes⟩ ∈ es := by
  rw [questionsOf, List.mem_filterMap]
  constructor
  · intro hcase
    rcases hcase with ⟨e, hmem, hquestion⟩
    unfold Event.question? at hquestion
    split at hquestion
    next yes =>
      cases hquestion
      exact ⟨yes, hmem⟩
    next =>
      cases hquestion
  · intro hcase
    rcases hcase with ⟨yes, hmem⟩
    exact ⟨_, hmem, rfl⟩

namespace Installer

open Procedure

/-! ## Demand -/

/-- The depot calls for the event: what is asked for or installed is missing, and what is renewed is
there. -/
def Demanded (manager : String) (d : Depot) (e : Event) : Prop :=
  match e.request with
  | .update => d.available = true
  | .bootstrap => d.available = false
  | .upgrade package => d.has package = true
  | .install package => package ≠ manager ∧ d.has package = false
  | .ask question => ∃ missing, question = offer missing ∧ d.provides manager missing = false
  | _ => True

/-- The depot calls for all events; nothing is asked twice, and what is asked for is there in the
end unless something fails. -/
structure Heeded (manager : String) (d : Depot) (es : List Event) (result : Except Failure Unit) :
    Prop where
  demanded : Along (Demanded manager) d es
  asked : (questionsOf es).Nodup
  settled : result = .ok () → ∀ missing, offer missing ∈ questionsOf es →
    (d.after es).provides manager missing = true

section Demand

variable {manager package missing : String} {d : Depot} {e : Event} {es front back : List Event}
  {result : Except Failure Unit}

/-- A question is asked about something that was missing all the time before. -/
theorem missing_of_asked {question : String} (h : Along (Demanded manager) d es)
    (hasked : question ∈ questionsOf es) :
    ∃ missing, question = offer missing ∧ d.provides manager missing = false := by
  rcases mem_questionsOf.1 hasked with ⟨yes, hmem⟩
  rcases List.append_of_mem hmem with ⟨before, after, rfl⟩
  rcases h.at_cut with ⟨missing, hquestion, hthen⟩
  refine ⟨missing, hquestion, ?_⟩
  -- had it been there, it would have stayed
  apply Bool.eq_false_iff.2
  intro hthere
  have hstill : (d.after before).provides manager missing = true := Depot.provides_after hthere
  rw [hthen] at hstill
  cases hstill

namespace Heeded

/-- Where nothing is asked, it is enough that the depot calls for what is done. -/
theorem of_quiet (hdemanded : Along (Demanded manager) d es) (hquiet : questionsOf es = []) :
    Heeded manager d es result := by
  refine ⟨hdemanded, ?_, ?_⟩
  · rw [hquiet]
    exact List.nodup_nil
  · intro _ missing hasked
    rw [hquiet] at hasked
    cases hasked

theorem append (hfront : Heeded manager d front (.ok ()))
    (hback : Heeded manager (d.after front) back result) :
    Heeded manager d (front ++ back) result := by
  refine ⟨along_append.2 ⟨hfront.demanded, hback.demanded⟩, ?_, ?_⟩
  · rw [questionsOf_append]
    refine List.nodup_append.2 ⟨hfront.asked, hback.asked, ?_⟩
    intro question hbefore other hagain hsame
    subst hsame
    -- what was asked for is there now, and so the second part does not ask for it
    rcases missing_of_asked hback.demanded hagain with ⟨missing, rfl, hmissing⟩
    have hthere : (d.after front).provides manager missing = true :=
      hfront.settled rfl missing hbefore
    rw [hmissing] at hthere
    cases hthere
  · intro hok missing hasked
    rw [Depot.after_append]
    rw [questionsOf_append] at hasked
    rcases List.mem_append.1 hasked with hasked | hasked
    · exact Depot.provides_after (hfront.settled rfl missing hasked)
    · exact hback.settled hok missing hasked

/-- An event that asks nothing comes before. -/
theorem cons (hquiet : e.question? = none) (he : Demanded manager d e)
    (h : Heeded manager (e.alter d) es result) : Heeded manager d (e :: es) result := by
  have hone : Along (Demanded manager) d [e] := along_cons.2 ⟨he, along_nil⟩
  have hnone : questionsOf [e] = [] := List.filterMap_cons_none hquiet
  have hfirst : Heeded manager d [e] (.ok ()) := of_quiet hone hnone
  exact hfirst.append h

end Heeded

/-- A run heeds the depot as long as its answers are truthful. -/
def Heeds (manager : String) (es : List Event) (result : Except Failure Unit) : Prop :=
  ∀ d, Along Truthful d es → Heeded manager d es result

/-- Where nothing is asked and any depot calls for what is done, the answers do not matter. -/
theorem heeds_of_quiet (hdemanded : ∀ d, Along (Demanded manager) d es)
    (hquiet : questionsOf es = []) : Heeds manager es result := by
  intro d _
  exact Heeded.of_quiet (hdemanded d) hquiet

theorem heeds_sequential : Sequential (Heeds manager) where
  nil := heeds_of_quiet (fun _ => along_nil) questionsOf_nil
  append := by
    intro front back result hfront hback d htruth
    rcases along_append.1 htruth with ⟨htruthFront, htruthBack⟩
    exact (hfront d htruthFront).append (hback (d.after front) htruthBack)

/-! ## Questions -/

/-- A question leaves the depot as it is. -/
theorem Consented.depot_eq (h : Consented missing es result) : d.after es = d := by
  cases h <;> rfl

theorem Consented.questions (h : Consented missing es result) :
    questionsOf es = [] ∨ questionsOf es = [offer missing] := by
  cases h with
  | interrupted =>
      exact Or.inl rfl
  | overruled | declined | agreed =>
      exact Or.inr rfl

theorem Consented.demanded (hmissing : d.provides manager missing = false)
    (h : Consented missing es result) : Along (Demanded manager) d es := by
  have hask : ∃ other, offer missing = offer other ∧ d.provides manager other = false :=
    ⟨missing, rfl, hmissing⟩
  cases h <;> simp [Demanded, Event.alter, hask]

theorem Consented.nodup (h : Consented missing es result) : (questionsOf es).Nodup := by
  rcases h.questions with hnone | hone
  · rw [hnone]
    exact List.nodup_nil
  · rw [hone]
    exact List.nodup_cons.2 ⟨List.not_mem_nil, List.nodup_nil⟩

theorem Consented.heeded {failure : Failure} (hmissing : d.provides manager missing = false)
    (h : Consented missing es (.error failure)) : Heeded manager d es (.error failure) where
  demanded := h.demanded hmissing
  asked := h.nodup
  settled hok := by cases hok

/-- With consent the operation follows that provides what is missing, unless it fails. -/
theorem Consented.heeded_operation {message : String} (call : Except Failure Unit → Event)
    {outcome : Except Failure Unit} {blame : Failure → Failure}
    (hmissing : d.provides manager missing = false) (h : Consented missing es (.ok ()))
    (hquiet : (call outcome).question? = none) (hcall : Demanded manager d (call outcome))
    (hprovides : ((call (.ok ())).alter d).provides manager missing = true) :
    Heeded manager d (es ++ [⟨.inform message, ()⟩, call outcome]) (outcome.mapError blame) := by
  have hquestions : questionsOf (es ++ [⟨.inform message, ()⟩, call outcome]) = questionsOf es := by
    have hnone : questionsOf [⟨.inform message, ()⟩, call outcome] = [] := by
      rw [questionsOf, List.filterMap_cons_none rfl, List.filterMap_cons_none hquiet]
      exact List.filterMap_nil
    rw [questionsOf_append, hnone, List.append_nil]
  refine ⟨?_, ?_, ?_⟩
  · refine along_append.2 ⟨h.demanded hmissing, ?_⟩
    rw [h.depot_eq]
    simpa [Event.alter, Demanded] using hcall
  · rw [hquestions]
    exact h.nodup
  · intro hok other hasked
    cases outcome with
    | error failure =>
        cases hok
    | ok =>
        have hother : offer other = offer missing := by
          rw [hquestions] at hasked
          rcases h.questions with hnone | hone
          · rw [hnone] at hasked
            cases hasked
          · rw [hone] at hasked
            exact List.mem_singleton.1 hasked
        rw [Ending.offer_injective hother, Depot.after_append, h.depot_eq]
        exact hprovides

/-! ## The parts of a run -/

theorem Prepared.heeds (h : Prepared manager es result) : Heeds manager es result := by
  intro d htruth
  cases h with
  | updated outcome =>
      have havailable : d.available = true := (along_cons.1 htruth).1.symm
      exact Heeded.of_quiet (by simp [Demanded, Event.alter, havailable]) rfl
  | refused h =>
      have hmissing : d.provides manager manager = false := by
        rw [Depot.provides_manager]
        exact (along_cons.1 htruth).1.symm
      exact Heeded.cons rfl trivial (h.heeded hmissing)
  | bootstrapped outcome h =>
      have havailable : d.available = false := (along_cons.1 htruth).1.symm
      have hmissing : d.provides manager manager = false := by
        rw [Depot.provides_manager, havailable]
      refine Heeded.cons rfl trivial ?_
      exact h.heeded_operation (fun outcome => ⟨.bootstrap, outcome⟩) hmissing rfl havailable
        Depot.provides_manager

theorem Ensured.heeds (hpackage : package ≠ manager) (h : Ensured package es result) :
    Heeds manager es result := by
  intro d htruth
  cases h with
  | interrupted | unchecked =>
      exact Heeded.of_quiet (by simp [Demanded]) rfl
  | upgraded outcome =>
      have hfound : d.has package = true := by
        simpa [Truthful, Event.alter] using htruth
      exact Heeded.of_quiet (by simp [Demanded, Event.alter, hfound]) rfl
  | refused h =>
      have hnot : d.has package = false := (along_cons.1 (along_cons.1 htruth).2).1.symm
      have hmissing : d.provides manager package = false := by
        rw [Depot.provides_package hpackage, hnot]
      exact Heeded.cons rfl trivial (Heeded.cons rfl trivial (h.heeded hmissing))
  | installed outcome h =>
      have hnot : d.has package = false := (along_cons.1 (along_cons.1 htruth).2).1.symm
      have hmissing : d.provides manager package = false := by
        rw [Depot.provides_package hpackage, hnot]
      have hthen : ((⟨.install package, .ok ()⟩ : Event).alter d).provides manager package =
          true := by
        rw [Depot.provides_package hpackage]
        exact Depot.has_alter.2 (Or.inr rfl)
      refine Heeded.cons rfl trivial (Heeded.cons rfl trivial ?_)
      exact h.heeded_operation (fun outcome => ⟨.install package, outcome⟩) hmissing rfl
        ⟨hpackage, hnot⟩ hthen

theorem heeds_checkpoint : checkpoint.Obeys (Heeds manager) := by
  intro es result h
  rcases course_checkpoint.1 h with ⟨rfl, -⟩ | ⟨rfl, -⟩
  all_goals exact heeds_of_quiet (by simp [Demanded]) rfl

/-- Packages can be ensured as long as the package manager is not among them. -/
theorem heeds_ensure {packages : List String} (hpackages : manager ∉ packages) :
    ∀ package ∈ packages, (ensure package).Obeys (Heeds manager) := by
  intro package hmem es result h
  have hpackage : package ≠ manager := fun hsame => hpackages (hsame ▸ hmem)
  exact (course_ensure.1 h).heeds hpackage

theorem Built.heeds {id : String} {probe : Probe} {needs : List String} {script : Script}
    (hneeds : manager ∉ needs) (h : Built id probe needs script es result) :
    Heeds manager es result := by
  refine h.obeys heeds_sequential ?_ ?_ (heeds_ensure hneeds) ?_ (fun outcome => ?_)
  all_goals exact heeds_of_quiet (by simp [Demanded]) rfl

theorem heeds_step {platform : String} {s : Step}
    (hs : ∀ routine, s.routine = some routine → manager ∉ routine.packages) :
    (step platform s).Obeys (Heeds manager) := by
  refine obeys_step heeds_sequential ?_ ?_ ?_
  · exact heeds_of_quiet (fun _ => along_nil) questionsOf_nil
  · intro packages hroutine
    exact heeds_ensure (hs _ hroutine)
  · intro probe needs script es result hroutine h
    exact h.heeds (hs _ hroutine)

/-- A run whose answers are truthful does what the depot calls for, and nothing else. -/
theorem heeds_install (backend : Backend) (ids : List String) :
    (install backend (backend.plan ids)).Obeys (Heeds backend.manager) := by
  refine obeys_install heeds_sequential ?_ heeds_checkpoint ?_
  · intro es result h
    exact (course_prepare.1 h).heeds
  · intro s hs
    apply heeds_step
    intro routine hroutine
    rcases Backend.assigns_of_plan hs hroutine with ⟨-, -, tool, -, rfl⟩
    exact Backend.manager_not_mem_packages

end Demand

end Installer

/-! ## Rehearsals -/

namespace Rehearsal

open Installer

variable {scene : Scene} {backend : Backend} {ids : List String} {depot : Depot}
  {answers : List Bool}

theorem heeded_rehearse :
    Heeded backend.manager depot (scene.rehearse backend (backend.plan ids) depot answers).events
      (scene.rehearse backend (backend.plan ids) depot answers).result :=
  heeds_install backend ids _ _ course_rehearse depot truthful_rehearse

end Rehearsal

end Provision

import Provision.Proofs.Demand

/-!
# Enquiry — what a run can ask for

Whatever it meets, a run asks for its package manager at most once, and then for packages in the
order in which its plan has them, for each occurrence at most once.  So the plan bounds the number
of questions.  This file defines:

* `Step.packages`, `Plan.packages` — the packages that a plan has, each as often as its routines
  have it;
* `Offers` — the questions are offers of some of these names, in the order of the names;
* `offers_perform`, `offers_bind` — how this passes through a procedure;
* `offers_install` — the questions of a run.
-/

namespace Provision

/-! ## The packages of a plan -/

/-- The packages of a step, each as often as its routine has it. -/
def Step.packages (s : Step) : List String :=
  match s.routine with
  | some routine => routine.packages
  | none => []

def Plan.packages (plan : Plan) : List String :=
  plan.flatMap Step.packages

namespace Installer

open Procedure

/-! ## Offers -/

/-- The questions are offers of some of these names, in the order of the names. -/
def Offers (names : List String) (es : List Event) (_ : Except Failure Unit) : Prop :=
  (questionsOf es).Sublist (names.map offer)

section Offers

variable {names front back : List String} {manager package missing : String}

theorem offers_done : (done ()).Obeys (Offers names) := by
  intro es result h
  rcases course_done.1 h with ⟨rfl, -⟩
  exact List.nil_sublist _

theorem offers_stop {failure : Failure} : (stop failure).Obeys (Offers names) := by
  intro es result h
  rcases course_stop.1 h with ⟨rfl, -⟩
  exact List.nil_sublist _

/-- The outcome of an operation asks nothing. -/
theorem offers_accept {blame : Failure → Failure} {outcome : Except Failure Unit} :
    (accept blame outcome).Obeys (Offers names) := by
  intro es result h
  rcases course_accept.1 h with ⟨rfl, -⟩
  exact List.nil_sublist _

/-- A request that is no question leaves the questions to what follows. -/
theorem offers_perform {r : Request} {f : r.Answer → Procedure Unit}
    (hquiet : ∀ answer, (⟨r, answer⟩ : Event).question? = none)
    (hf : ∀ answer, (f answer).Obeys (Offers names)) : (perform r >>= f).Obeys (Offers names) := by
  intro es result h
  rcases course_perform_bind.1 h with ⟨answer, rest, rfl, hrest⟩
  have hsame : questionsOf (⟨r, answer⟩ :: rest) = questionsOf rest :=
    List.filterMap_cons_none (hquiet answer)
  simpa [Offers, hsame] using hf answer rest result hrest

/-- What a first procedure and a second one can ask for, the two ask for one after another. -/
theorem offers_bind {p : Procedure Unit} {f : Unit → Procedure Unit} (hp : p.Obeys (Offers front))
    (hf : (f ()).Obeys (Offers back)) : (p >>= f).Obeys (Offers (front ++ back)) := by
  intro es result h
  rcases course_bind.1 h with ⟨failure, hfirst, rfl⟩ | ⟨_, before, after, rfl, hfirst, hback⟩
  · have hstopped : (questionsOf es).Sublist (front.map offer) := hp es _ hfirst
    exact hstopped.trans ((List.sublist_append_left front back).map offer)
  · have hbefore : (questionsOf before).Sublist (front.map offer) := hp before _ hfirst
    have hafter : (questionsOf after).Sublist (back.map offer) := hf after result hback
    simpa [Offers] using hbefore.append hafter

/-! ## The parts of a run -/

theorem offers_checkpoint : checkpoint.Obeys (Offers []) := by
  apply offers_perform (fun _ => rfl)
  intro interrupted
  cases interrupted with
  | true =>
      exact offers_stop
  | false =>
      exact offers_done

theorem offers_checkpoint_bind {f : Unit → Procedure Unit} (hf : (f ()).Obeys (Offers names)) :
    (checkpoint >>= f).Obeys (Offers names) :=
  offers_bind offers_checkpoint hf

theorem offers_consent : (consent missing).Obeys (Offers [missing]) := by
  intro es result h
  rcases (course_consent.1 h).questions with hnone | hone
  · simp [Offers, hnone]
  · simp [Offers, hone]

/-- An operation is reported and made, and nothing is asked about it. -/
theorem offers_operation {message : String} {r : Request} {f : r.Answer → Procedure Unit}
    (hquiet : ∀ answer, (⟨r, answer⟩ : Event).question? = none)
    (hf : ∀ answer, (f answer).Obeys (Offers names)) :
    (inform message >>= fun _ => perform r >>= f).Obeys (Offers names) :=
  offers_perform (fun _ => rfl) fun _ => offers_perform hquiet hf

theorem offers_prepare : (prepare manager).Obeys (Offers [manager]) := by
  apply offers_perform (fun _ => rfl)
  intro available
  cases available with
  | true =>
      exact offers_operation (fun _ => rfl) fun _ => offers_accept
  | false =>
      have hbootstrap : (inform ("installing " ++ manager) >>= fun _ =>
          perform .bootstrap >>= accept (.bootstrap manager)).Obeys (Offers []) :=
        offers_operation (fun _ => rfl) fun _ => offers_accept
      exact offers_bind offers_consent hbootstrap

theorem offers_ensure : (ensure package).Obeys (Offers [package]) := by
  apply offers_checkpoint_bind
  apply offers_perform (fun _ => rfl)
  intro checked
  -- only a check that finds nothing leads to a question
  cases checked with
  | error failure =>
      exact offers_stop
  | ok present =>
      cases present with
      | true =>
          exact offers_operation (fun _ => rfl) fun _ => offers_accept
      | false =>
          have hinstall : (inform ("installing " ++ quoted package) >>= fun _ =>
              perform (.install package) >>=
                  accept (.package "install" package)).Obeys (Offers []) :=
            offers_operation (fun _ => rfl) fun _ => offers_accept
          exact offers_bind offers_consent hinstall

theorem offers_ensureAll (packages : List String) :
    (ensureAll packages).Obeys (Offers packages) := by
  induction packages with
  | nil =>
      exact offers_done
  | cons package packages ih =>
      exact offers_bind offers_ensure ih

theorem offers_carryOut {id : String} (routine : Routine) :
    (carryOut id routine).Obeys (Offers routine.packages) := by
  cases routine with
  | managed packages =>
      exact offers_ensureAll packages
  | fromSource probe needs script =>
      apply offers_perform (fun _ => rfl)
      intro built
      cases built with
      | true =>
          exact offers_perform (fun _ => rfl) fun _ => offers_done
      | false =>
          have hboth : (ensureAll needs >>= fun _ => checkpoint >>= fun _ =>
              inform ("building " ++ quoted id ++ " from source") >>= fun _ =>
                perform (.build script) >>= accept (.script id)).Obeys (Offers (needs ++ [])) := by
            apply offers_bind (offers_ensureAll needs)
            apply offers_checkpoint_bind
            exact offers_operation (fun _ => rfl) fun _ => offers_accept
          simpa [Routine.packages] using hboth

theorem offers_step (platform : String) (s : Step) :
    (step platform s).Obeys (Offers s.packages) := by
  unfold step Step.packages
  cases s.routine with
  | none =>
      exact offers_stop
  | some routine =>
      exact offers_carryOut routine

theorem offers_steps (platform : String) (plan : Plan) :
    (steps platform plan).Obeys (Offers plan.packages) := by
  induction plan with
  | nil =>
      exact offers_checkpoint
  | cons s plan ih =>
      have hboth : (step platform s >>= fun _ => steps platform plan).Obeys
          (Offers (s.packages ++ Plan.packages plan)) :=
        offers_bind (offers_step platform s) ih
      exact offers_checkpoint_bind hboth

/-- A run asks for its package manager at most once, and then for packages as its plan has them. -/
theorem offers_install (backend : Backend) (plan : Plan) :
    (install backend plan).Obeys (Offers (backend.manager :: plan.packages)) :=
  offers_bind offers_prepare (offers_steps backend.platformName plan)

end Offers

end Installer

end Provision

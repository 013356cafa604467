import Provision.Proofs.Pacing
import Provision.Proofs.Preview
import Provision.Proofs.Settlement

/-!
# Supply — a run in which everything goes well asks for exactly what is missing

Where no call fails, nothing is interrupted and the operator always agrees, a run for known tools
goes through its whole plan.  It asks for each package that the depot lacked when that package first
comes up, and installs it at once; from then on the package is there and is upgraded like the
others.  This file defines:

* `packagesOf`, `scriptsOf` — the packages and the scripts of some work;
* `Depot.lacking` — the different packages that a depot lacks, in the order in which they first
  occur;
* `Depot.provisions` — which packages are installed and which upgraded, occurrence by occurrence;
* `supplied_along` — events that a depot calls for keep to this;
* `Fulfilled` — a question is followed by the installation that it is about, and there is no other
  one;
* `Favourable`, `smooth_of_favourable` — a scene in which everything goes well;
* `Supplied`, `rehearse_supplied` — how a run in such a scene goes.
-/

namespace Provision

open Installer Rehearsal

/-! ## Packages and scripts of the work -/

def Work.package? : Work → Option String
  | package name => some name
  | script _ => none

def Work.script? : Work → Option Script
  | package _ => none
  | script s => some s

/-- The packages of some work, as often as they occur. -/
def packagesOf (work : List Work) : List String :=
  work.filterMap Work.package?

def scriptsOf (work : List Work) : List Script :=
  work.filterMap Work.script?

theorem mem_packagesOf {work : List Work} {package : String} :
    package ∈ packagesOf work ↔ .package package ∈ work := by
  rw [packagesOf, List.mem_filterMap]
  constructor
  · intro hcase
    rcases hcase with ⟨w, hw, hpackage⟩
    cases w with
    | package name =>
        cases hpackage
        exact hw
    | script s =>
        cases hpackage
  · intro hmem
    exact ⟨.package package, hmem, rfl⟩

/-- The script that is run by an event. -/
def Event.script? (e : Event) : Option Script :=
  match e.request with
  | .build script => some script
  | _ => none

/-- The scripts that are run by some events are those of the work that is done. -/
theorem scriptsOf_workOf (es : List Event) :
    scriptsOf (workOf es) = es.filterMap Event.script? := by
  have hscript : ∀ e : Event, e.work?.bind Work.script? = e.script? := by
    intro e
    rcases e with ⟨r, answer⟩
    cases r <;> rfl
  calc
    scriptsOf (workOf es) = es.filterMap fun e => e.work?.bind Work.script? :=
      List.filterMap_filterMap
    _ = es.filterMap Event.script? := by simp only [hscript]

/-- The request provides a package. -/
def Request.provides : Request → Bool
  | .install _ | .upgrade _ => true
  | _ => false

/-- The requests by which packages are provided, in their order. -/
def provisionsOf (es : List Event) : List Request :=
  (es.map Event.request).filter Request.provides

/-! ## What a depot lacks -/

namespace Rehearsal
namespace Depot

/-- The different packages that the depot lacks, in the order in which they first occur. -/
def lacking (d : Depot) (packages : List String) : List String :=
  (packages.filter fun package => !d.has package).eraseDups

/-- How packages are provided one after another: those that are there, and those that have occurred
before, are upgraded, and the other ones are installed. -/
def provisions (d : Depot) (packages : List String) : List Request :=
  packages.mapIdx fun i package =>
    if d.has package || (packages.take i).contains package then .upgrade package
    else .install package

section Lacking

variable {d : Depot} {package : String} {packages : List String}

theorem mem_lacking :
    package ∈ d.lacking packages ↔ package ∈ packages ∧ d.has package = false := by
  simp [lacking, List.mem_eraseDups]

theorem add_of_has (h : d.has package = true) : d.add package = d := by
  rw [add, if_pos h]

/-- A first package is lacking or not, and is not lacking any more for those behind it. -/
theorem lacking_cons :
    d.lacking (package :: packages) =
      if d.has package then d.lacking packages
      else package :: (d.add package).lacking packages := by
  cases hthere : d.has package with
  | true =>
      simp [lacking, hthere]
  | false =>
      have hfilter : (packages.filter fun other => !d.has other).filter
          (fun other => !other == package) =
          packages.filter fun other => !(d.add package).has other := by
        simp only [List.filter_filter, has_add, Bool.not_or, Bool.and_comm]
      simp [lacking, hthere, List.eraseDups_cons, hfilter]

theorem provisions_cons :
    d.provisions (package :: packages) =
      (if d.has package then .upgrade package else .install package) ::
        (d.add package).provisions packages := by
  simp [provisions, List.mapIdx_cons, has_add, Bool.or_assoc]

end Lacking

end Depot
end Rehearsal

namespace Installer

open Procedure

/-! ## Events that a depot calls for -/

section Supply

variable {manager : String} {d : Depot} {es : List Event}

/-- What a depot calls for without a setback provides the packages of the work as the depot grows,
and installs those that it lacks. -/
theorem supplied_along (hdemanded : Along (Demanded manager) d es) (hsmooth : Smooth es) :
    provisionsOf es = d.provisions (packagesOf (workOf es)) ∧
      installsOf es = d.lacking (packagesOf (workOf es)) := by
  induction es generalizing d with
  | nil =>
      exact ⟨rfl, rfl⟩
  | cons e es ih =>
      rcases along_cons.1 hdemanded with ⟨hfirst, hrest⟩
      rcases smooth_cons.1 hsmooth with ⟨hgood, hothers⟩
      rcases ih hrest hothers with ⟨hprovisions, hinstalls⟩
      rcases e with ⟨r, answer⟩
      cases r with
      | install package =>
          have hmissing : d.has package = false := hfirst.2
          cases answer with
          | error failure =>
              cases hgood
          | ok =>
              have hgrown : Event.alter ⟨.install package, .ok ()⟩ d = d.add package := rfl
              rw [hgrown] at hprovisions hinstalls
              constructor
              · calc
                  provisionsOf (⟨.install package, .ok ()⟩ :: es) =
                    .install package :: provisionsOf es := rfl
                  _ = d.provisions (package :: packagesOf (workOf es)) := by
                      simp [Depot.provisions_cons, hmissing, hprovisions]
              · calc
                  installsOf (⟨.install package, .ok ()⟩ :: es) = package :: installsOf es := rfl
                  _ = d.lacking (package :: packagesOf (workOf es)) := by
                      simp [Depot.lacking_cons, hmissing, hinstalls]
      | upgrade package =>
          have hthere : d.has package = true := hfirst
          -- the depot stays as it is, and has the package already
          have hsame : Event.alter ⟨.upgrade package, answer⟩ d = d := rfl
          rw [hsame] at hprovisions hinstalls
          constructor
          · calc
              provisionsOf (⟨.upgrade package, answer⟩ :: es) =
                .upgrade package :: provisionsOf es := rfl
              _ = d.provisions (package :: packagesOf (workOf es)) := by
                  simp [Depot.provisions_cons, hthere, Depot.add_of_has hthere, hprovisions]
          · calc
              installsOf (⟨.upgrade package, answer⟩ :: es) = installsOf es := rfl
              _ = d.lacking (package :: packagesOf (workOf es)) := by
                  simp [Depot.lacking_cons, hthere, hinstalls]
      | build script =>
          exact ⟨hprovisions, hinstalls⟩
      | bootstrap =>
          -- the package manager is no package
          cases answer <;> exact ⟨hprovisions, hinstalls⟩
      | poll | available | update | check | ask | probe | inform =>
          exact ⟨hprovisions, hinstalls⟩

/-- A package manager that is there is not installed. -/
theorem not_bootstrapped (hdemanded : Along (Demanded manager) d es)
    (havailable : d.available = true) : ∀ e ∈ es, e.request ≠ .bootstrap := by
  intro e he hbootstrap
  rcases List.append_of_mem he with ⟨before, after, rfl⟩
  have hdemand : Demanded manager (d.after before) e := hdemanded.at_cut
  have hstill : (d.after before).available = true := Depot.available_after.2 (Or.inl havailable)
  rw [Demanded, hbootstrap, hstill] at hdemand
  cases hdemand

/-- Where nothing stands in the way, a run for known tools is not broken off. -/
theorem ok_of_smooth {backend : Backend} {ids : List String} {result : Except Failure Unit}
    (hknown : ∀ id ∈ ids, (Tool.ofName? id).isSome)
    (hrun : (install backend (backend.plan ids)).Course es result) (hsmooth : Smooth es) :
    result = .ok () := by
  rcases (ending_install backend (backend.plan ids) es result hrun).of_smooth hsmooth with
    hok | ⟨id, platform, rfl⟩
  · exact hok
  · exact absurd hknown (firstUnknown_of_unsupported hrun).2.not_known

end Supply

/-! ## Questions and what they lead to -/

/-- A question is followed by the installation that it is about. -/
def Fulfilment (_ : List Event) (e : Event) (after : List Event) : Prop :=
  ∀ question yes, e = ⟨.ask question, yes⟩ →
    ∃ package later, question = offer package ∧ after = ⟨.install package, .ok ()⟩ :: later

/-- Each question has its installation as the next call, and each installation its question. -/
structure Fulfilled (es : List Event) : Prop where
  offered : questionsOf es = (installsOf es).map offer
  followed : Amid Fulfilment (callsOf es)

/-- A successful run fulfils its questions, unless it installs the package manager. -/
def Fulfils (es : List Event) (result : Except Failure Unit) : Prop :=
  result = .ok () → (∀ e ∈ es, e.request ≠ .bootstrap) → Fulfilled es

section Fulfilled

variable {es : List Event} {result : Except Failure Unit}

theorem fulfilled_of_quiet (hquestions : questionsOf es = []) (hinstalls : installsOf es = []) :
    Fulfilled es where
  offered := by rw [hquestions, hinstalls, List.map_nil]
  followed := by
    intro before e after hcalls question yes he
    have hmem : e ∈ callsOf es := by simp [hcalls]
    have hasked : question ∈ questionsOf es := mem_questionsOf.2 ⟨yes, he ▸ mem_of_mem_callsOf hmem⟩
    rw [hquestions] at hasked
    cases hasked

theorem Fulfilment.extend {before after : List Event} {e : Event} (earlier later : List Event)
    (h : Fulfilment before e after) : Fulfilment (earlier ++ before) e (after ++ later) := by
  intro question yes he
  rcases h question yes he with ⟨package, rest, hquestion, rfl⟩
  exact ⟨package, rest ++ later, hquestion, rfl⟩

theorem Fulfilled.append {front back : List Event} (hfront : Fulfilled front)
    (hback : Fulfilled back) : Fulfilled (front ++ back) where
  offered := by
    calc
      questionsOf (front ++ back) = questionsOf front ++ questionsOf back :=
        questionsOf_append front back
      _ = (installsOf front).map offer ++ (installsOf back).map offer := by
          rw [hfront.offered, hback.offered]
      _ = (installsOf (front ++ back)).map offer := by simp [installsOf]
  followed := by
    rw [callsOf_append]
    exact Amid.append Fulfilment.extend hfront.followed hback.followed

theorem Prepared.fulfils {manager : String} (h : Prepared manager es result) :
    Fulfils es result := by
  intro hok hbootstrap
  cases h with
  | updated outcome =>
      exact fulfilled_of_quiet rfl rfl
  | refused h =>
      cases hok
  | bootstrapped outcome h =>
      exact absurd rfl (hbootstrap ⟨.bootstrap, outcome⟩ (by simp))

theorem Ensured.fulfils {package : String} (h : Ensured package es result) : Fulfils es result := by
  intro hok _
  cases h with
  | interrupted | unchecked | refused =>
      cases hok
  | upgraded outcome =>
      exact fulfilled_of_quiet rfl rfl
  | installed outcome h =>
      cases outcome with
      | error failure =>
          cases hok
      | ok =>
          cases h
          refine ⟨rfl, ?_⟩
          show Amid Fulfilment
            [⟨.check package, .ok false⟩, ⟨.ask (offer package), true⟩, ⟨.install package, .ok ()⟩]
          simp [Fulfilment]

theorem fulfils_of_quiet (hquestions : questionsOf es = []) (hinstalls : installsOf es = []) :
    Fulfils es result :=
  fun _ _ => fulfilled_of_quiet hquestions hinstalls

/-- Each piece of a run fulfils its own questions. -/
theorem fulfils_piecewise {manager : String} : Piecewise manager Fulfils where
  nil := fulfils_of_quiet rfl rfl
  append hfront hback hok hbootstrap :=
    (hfront rfl fun e he => hbootstrap e (List.mem_append_left _ he)).append
      (hback hok fun e he => hbootstrap e (List.mem_append_right _ he))
  prepared h := h.fulfils
  interrupted := fulfils_of_quiet rfl rfl
  passed := fulfils_of_quiet rfl rfl
  ensured h := h.fulfils
  unsupported _ _ := fulfils_of_quiet rfl rfl
  found _ _ := fulfils_of_quiet rfl rfl
  missed _ := fulfils_of_quiet rfl rfl
  script _ _ _ := fulfils_of_quiet rfl rfl

end Fulfilled

end Installer

/-! ## Scenes in which everything goes well -/

namespace Rehearsal

/-- Nothing fails or is interrupted, and the operator agrees to this many questions. -/
structure Favourable (scene : Scene) (answers : List Bool) (questions : Nat) : Prop where
  succeeds : ∀ call, scene.fails call = false
  calm : ∀ polls calls, scene.interrupted polls calls = false
  agrees : scene.operator = .console → ∀ i, i < questions → answers[i]? = some true

namespace Scene

variable {scene : Scene} {s : Stage}

theorem answer_of_assumeYes {question : String} (h : scene.operator = .assumeYes) :
    (scene.surroundings.answer (.ask question) s).1 = true := by
  simp [surroundings, consult, h]

theorem answer_of_console {question : String} (h : scene.operator = .console) :
    (scene.surroundings.answer (.ask question) s).1 = s.answers.headD false := by
  simp [surroundings, consult, h, Stage.note]

/-- Each question at the console takes one of the answers. -/
theorem answers_answer (hconsole : scene.operator = .console) (r : Request) (s : Stage) :
    (scene.surroundings.answer r s).2.answers =
      s.answers.drop (questionsOf [⟨r, (scene.surroundings.answer r s).1⟩]).length := by
  cases r with
  | ask question =>
      simp [surroundings, consult, hconsole, Stage.note, questionsOf, Event.question?]
  | check package =>
      simp only [surroundings]
      split <;> rfl
  | bootstrap | update | install | upgrade | build =>
      simp only [surroundings, attempt]
      split <;> rfl
  | poll | available | probe | inform =>
      rfl

theorem answers_after (hconsole : scene.operator = .console) {es : List Event}
    (h : scene.surroundings.Answered es s) :
    (scene.surroundings.after es s).answers = s.answers.drop (questionsOf es).length := by
  induction es generalizing s with
  | nil =>
      rfl
  | cons e es ih =>
      rcases h with ⟨hanswer, hrest⟩
      have hfirst : (scene.surroundings.answer e.request s).2.answers =
          s.answers.drop (questionsOf [e]).length := by
        have hone := answers_answer hconsole e.request s
        rwa [← hanswer] at hone
      have hcount : (questionsOf (e :: es)).length =
          (questionsOf [e]).length + (questionsOf es).length := by
        rw [← List.length_append, ← questionsOf_append, List.singleton_append]
      calc
        (scene.surroundings.after (e :: es) s).answers
            = (scene.surroundings.answer e.request s).2.answers.drop (questionsOf es).length :=
              ih hrest
        _ = s.answers.drop (questionsOf (e :: es)).length := by rw [hfirst, List.drop_drop, hcount]

end Scene

namespace Favourable

variable {scene : Scene} {answers : List Bool} {questions : Nat}

/-- Only a question can meet with a setback. -/
theorem answer (h : Favourable scene answers questions) (r : Request) (s : Stage)
    (hquiet : ∀ question, r ≠ .ask question) :
    Event.isSetback ⟨r, (scene.surroundings.answer r s).1⟩ = false := by
  cases r with
  | poll =>
      exact h.calm s.polls s.calls
  | ask question =>
      exact absurd rfl (hquiet question)
  | check package =>
      simp [Scene.surroundings, h.succeeds, Event.isSetback, Event.failure?]
  | bootstrap | update | install | upgrade | build =>
      simp [Scene.surroundings, Scene.attempt, h.succeeds, Event.isSetback, Event.failure?]
  | available | probe | inform =>
      rfl

end Favourable

section Rehearse

variable {scene : Scene} {backend : Backend} {ids : List String} {depot : Depot}
  {answers : List Bool}

/-- With the package manager there, a question is about a package that the depot lacks. -/
theorem lacking_of_asked (hknown : ∀ id ∈ ids, (Tool.ofName? id).isSome)
    (havailable : depot.available = true)
    {question : String}
    (hasked :
      question ∈ questionsOf (scene.rehearse backend (backend.plan ids) depot answers).events) :
    question ∈ (depot.lacking (packagesOf ((backend.plan ids).work scene.built))).map offer := by
  rcases missing_of_asked heeded_rehearse.demanded hasked with ⟨missing, rfl, hmissing⟩
  have hname : missing ≠ backend.manager := by
    intro hsame
    rw [hsame, Depot.provides_manager, havailable] at hmissing
    cases hmissing
  rw [Depot.provides_package hname] at hmissing
  rcases mem_questionsOf.1 hasked with ⟨yes, hmem⟩
  -- a package that is asked for is one of the packages of the steps
  rcases scope_of_course course_rehearse misses_rehearse _ hmem with
    hmanager | ⟨package, hhas, hoffer⟩
  · exact absurd (Ending.offer_injective hmanager) hname
  · have hsame : missing = package := Ending.offer_injective hoffer
    subst hsame
    have hpackage : missing ∈ packagesOf ((backend.plan ids).work scene.built) :=
      mem_packagesOf.2 (hhas.mem_work (supported_iff.2 hknown))
    exact List.mem_map_of_mem (Depot.mem_lacking.2 ⟨hpackage, hmissing⟩)

/-- There are no more questions than packages that the depot lacks. -/
theorem length_questions_le (hknown : ∀ id ∈ ids, (Tool.ofName? id).isSome)
    (havailable : depot.available = true) :
    (questionsOf (scene.rehearse backend (backend.plan ids) depot answers).events).length ≤
      (depot.lacking (packagesOf ((backend.plan ids).work scene.built))).length := by
  have hsubset : questionsOf (scene.rehearse backend (backend.plan ids) depot answers).events ⊆
      (depot.lacking (packagesOf ((backend.plan ids).work scene.built))).map offer :=
    fun _ hasked => lacking_of_asked hknown havailable hasked
  have hle := heeded_rehearse.asked.length_le_of_subset hsubset
  rwa [List.length_map] at hle

theorem smooth_of_favourable (hknown : ∀ id ∈ ids, (Tool.ofName? id).isSome)
    (havailable : depot.available = true)
    (hfavourable : Favourable scene answers
      (depot.lacking (packagesOf ((backend.plan ids).work scene.built))).length) :
    Smooth (scene.rehearse backend (backend.plan ids) depot answers).events := by
  intro e he
  rcases List.append_of_mem he with ⟨before, after, hevents⟩
  have hanswered : scene.surroundings.Answered (before ++ e :: after) ⟨depot, answers, []⟩ := by
    rw [← hevents]
    exact answered_rehearse
  rcases Surroundings.answered_append.1 hanswered with ⟨hbefore, hanswer, -⟩
  rcases e with ⟨r, reply⟩
  have hreply : reply =
      (scene.surroundings.answer r (scene.surroundings.after before ⟨depot, answers, []⟩)).1 :=
        hanswer
  cases r with
  | ask question =>
      -- the question is one of those that the operator agrees to
      have hcount : (questionsOf before).length <
          (depot.lacking (packagesOf ((backend.plan ids).work scene.built))).length := by
        have hle : (questionsOf
            (scene.rehearse backend (backend.plan ids) depot answers).events).length ≤ _ :=
          length_questions_le hknown havailable
        have hcons : questionsOf (⟨.ask question, reply⟩ :: after) =
          question :: questionsOf after := rfl
        rw [hevents, questionsOf_append, hcons, List.length_append, List.length_cons] at hle
        omega
      have hyes : reply = true := by
        rw [hreply]
        cases hoperator : scene.operator with
        | assumeYes =>
            exact Scene.answer_of_assumeYes hoperator
        | console =>
            have hnext := hfavourable.agrees hoperator _ hcount
            rw [Scene.answer_of_console hoperator, Scene.answers_after hoperator hbefore]
            simp [hnext]
      rw [hyes]
      rfl
  | _ =>
      rw [hreply]
      exact hfavourable.answer _ _ (by simp)

/-- How a run goes that supplies all of some work. -/
structure Supplied (depot : Depot) (work : List Work) (run : Run Stage Unit) : Prop where
  succeeded : run.result = .ok ()
  /-- The questions are about the different packages that were lacking, as they first occur. -/
  asked : questionsOf run.events = (depot.lacking (packagesOf work)).map offer
  /-- The call behind a question is the installation of the package. -/
  followed : ∀ before question yes after,
    callsOf run.events = before ++ ⟨.ask question, yes⟩ :: after →
    ∃ package later, question = offer package ∧ after = ⟨.install package, .ok ()⟩ :: later
  /-- Each occurrence of a package is provided once: the first one of a lacking package by its
  installation, and any other one by an upgrade. -/
  provided : provisionsOf run.events = depot.provisions (packagesOf work)
  installed : ∀ package, run.state.depot.has package = true ↔
    depot.has package = true ∨ package ∈ packagesOf work
  scripts : run.events.filterMap Event.script? = scriptsOf work

/-- A run for known tools in which everything goes well supplies its whole plan, and asks for what
the depot lacks and for nothing else. -/
theorem rehearse_supplied (scene : Scene) (backend : Backend) (ids : List String) (depot : Depot)
    (answers : List Bool) (hknown : ∀ id ∈ ids, (Tool.ofName? id).isSome)
    (havailable : depot.available = true)
    (hfavourable : Favourable scene answers
      (depot.lacking (packagesOf ((backend.plan ids).work scene.built))).length) :
    Supplied depot ((backend.plan ids).work scene.built)
      (scene.rehearse backend (backend.plan ids) depot answers) := by
  have hsmooth := smooth_of_favourable hknown havailable hfavourable
  have hdemanded : Along (Demanded backend.manager) depot
      (scene.rehearse backend (backend.plan ids) depot answers).events := heeded_rehearse.demanded
  have hok := ok_of_smooth hknown course_rehearse hsmooth
  have hwork : workOf (scene.rehearse backend (backend.plan ids) depot answers).events =
      (backend.plan ids).work scene.built :=
    (rehearse_progressed scene backend ids depot answers).whole hok
  have hsupplied := supplied_along hdemanded hsmooth
  rw [hwork] at hsupplied
  rcases hsupplied with ⟨hprovisions, hinstalls⟩
  have hfulfilled := fulfils_piecewise.install _ _ _ course_rehearse hok
    (not_bootstrapped hdemanded havailable)
  refine ⟨hok, ?_, ?_, hprovisions, ?_, ?_⟩
  · rw [hfulfilled.offered, hinstalls]
  · intro before question yes after hcalls
    exact hfulfilled.followed before ⟨.ask question, yes⟩ after hcalls question yes rfl
  · intro package
    rw [depot_rehearse, Depot.has_after, hinstalls, Depot.mem_lacking]
    cases depot.has package <;> simp
  · rw [← scriptsOf_workOf, hwork]

/-- Of the packages for `make`, the cross binutils and `grub2`, six are lacking, and `make` comes up
twice. -/
theorem rehearse_supplied_binutils :
    (∀ id ∈ ["make", "cross-binutils", "grub"], (Tool.ofName? id).isSome) ∧
      Favourable Scene.plain (List.replicate 6 true) 6 ∧
      Supplied ⟨true, ["bison", "flex", "texinfo"]⟩
        ((Backend.apt.plan ["make", "cross-binutils", "grub"]).work fun _ => false)
        (Scene.plain.rehearse .apt (Backend.apt.plan ["make", "cross-binutils", "grub"])
          ⟨true, ["bison", "flex", "texinfo"]⟩ (List.replicate 6 true)) := by
  have hknown : ∀ id ∈ ["make", "cross-binutils", "grub"], (Tool.ofName? id).isSome := by decide
  have hfavourable : Favourable Scene.plain (List.replicate 6 true) 6 := by
    refine ⟨fun _ => rfl, fun _ _ => rfl, ?_⟩
    intro _ i hi
    exact List.getElem?_replicate_of_lt hi
  refine ⟨hknown, hfavourable, ?_⟩
  exact rehearse_supplied Scene.plain .apt ["make", "cross-binutils", "grub"]
    ⟨true, ["bison", "flex", "texinfo"]⟩ (List.replicate 6 true) hknown rfl hfavourable

end Rehearse

end Rehearsal

end Provision

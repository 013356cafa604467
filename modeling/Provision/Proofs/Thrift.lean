import Provision.Proofs.Demand

/-!
# Thrift — no package is installed or asked for twice

Over any number of runs with one depot, a package is installed once at most.  From then on no check
finds it missing, and so the operator is not asked for it and it is not installed again; what is
upgraded was there before.  Nothing is ever removed.  This file defines:

* `spared_of_has` — what is not done about a package that is there;
* `Surroundings.trail` — the states from before some events to behind them;
* `depotsOf` — the depots that several runs pass through;
* `Thrifty`, `rehearseAll_thrifty` — all histories of runs with one depot go this way.
-/

namespace Provision

open Installer Rehearsal

/-! ## A package that is there -/

section Spared

variable {manager package : String} {d : Depot} {es : List Event}

/-- The event neither finds the package missing, nor asks for it, nor installs it. -/
def Event.Spares (package : String) (e : Event) : Prop :=
  e ≠ ⟨.check package, .ok false⟩ ∧ e.request ≠ .ask (offer package) ∧ e.request ≠ .install package

/-- A package that is there is spared from then on. -/
theorem spared_of_has (hpackage : package ≠ manager) (hthere : d.has package = true)
    (htruth : Along Truthful d es) (hdemanded : Along (Demanded manager) d es) :
    ∀ e ∈ es, e.Spares package := by
  intro e hmem
  rcases List.append_of_mem hmem with ⟨before, after, rfl⟩
  have hthen : (d.after before).has package = true := Depot.has_after.2 (Or.inl hthere)
  refine ⟨?_, ?_, ?_⟩
  · intro hmissed
    subst hmissed
    have hfalse : false = (d.after before).has package := htruth.at_cut
    rw [hthen] at hfalse
    cases hfalse
  · intro hasked
    have hdemand : Demanded manager (d.after before) e := hdemanded.at_cut
    rw [Demanded, hasked] at hdemand
    rcases hdemand with ⟨missing, hoffer, hmissing⟩
    have hsame : package = missing := Ending.offer_injective hoffer
    subst hsame
    rw [Depot.provides_package hpackage, hthen] at hmissing
    cases hmissing
  · intro hinstall
    have hdemand : Demanded manager (d.after before) e := hdemanded.at_cut
    rw [Demanded, hinstall] at hdemand
    rw [hdemand.2] at hthen
    cases hthen

/-- A package that was installed is spared by all that comes behind. -/
theorem spared_of_installed {before after : List Event}
    (htruth : Along Truthful d (before ++ ⟨.install package, .ok ()⟩ :: after))
    (hdemanded : Along (Demanded manager) d (before ++ ⟨.install package, .ok ()⟩ :: after)) :
    ∀ e ∈ after, e.Spares package := by
  have hdemand : package ≠ manager ∧ (d.after before).has package = false := hdemanded.at_cut
  have hthere : (Event.alter ⟨.install package, .ok ()⟩ (d.after before)).has package = true :=
    Depot.has_alter.2 (Or.inr rfl)
  have htruthAfter := (along_cons.1 (along_append.1 htruth).2).2
  have hdemandedAfter := (along_cons.1 (along_append.1 hdemanded).2).2
  exact spared_of_has hdemand.1 hthere htruthAfter hdemandedAfter

theorem nodup_installsOf (htruth : Along Truthful d es)
    (hdemanded : Along (Demanded manager) d es) : (installsOf es).Nodup := by
  induction es generalizing d with
  | nil =>
      exact List.nodup_nil
  | cons e es ih =>
      have hrest : (installsOf es).Nodup := ih (along_cons.1 htruth).2 (along_cons.1 hdemanded).2
      cases hinstalls : e.installs? with
      | none =>
          rw [installsOf, List.filterMap_cons_none hinstalls]
          exact hrest
      | some package =>
          rw [installsOf, List.filterMap_cons_some hinstalls]
          refine List.nodup_cons.2 ⟨?_, hrest⟩
          intro hagain
          have he : e = ⟨.install package, .ok ()⟩ := installs?_eq_some.1 hinstalls
          subst he
          -- what is installed first is spared by the rest
          have hspared : ∀ e ∈ es, e.Spares package :=
            spared_of_installed (show Along Truthful d ([] ++ _ :: es) from htruth) hdemanded
          exact (hspared _ (mem_installsOf.1 hagain)).2.2 rfl

end Spared

/-! ## The states of a run -/

namespace Surroundings

variable {σ : Type}

/-- The states from before some events to behind them. -/
def trail (env : Surroundings σ) : List Event → σ → List σ
  | [], s => [s]
  | e :: es, s => s :: env.trail es (env.answer e.request s).2

section Trail

variable {env : Surroundings σ} {r : σ → σ → Prop} {es : List Event} {s : σ}
variable (hrefl : ∀ s, r s s) (htrans : ∀ {a b c}, r a b → r b c → r a c)
  (hanswer : ∀ request s, r s (env.answer request s).2)

include hrefl htrans hanswer

/-- What every answer keeps relates the first state of a trail to all of them, and these to the
last. -/
theorem trail_between {s' : σ} (h : s' ∈ env.trail es s) : r s s' ∧ r s' (env.after es s) := by
  induction es generalizing s s' with
  | nil =>
      rw [List.mem_singleton.1 h]
      exact ⟨hrefl s, hrefl s⟩
  | cons e es ih =>
      have hfirst : r s (env.answer e.request s).2 := hanswer e.request s
      rcases List.mem_cons.1 h with rfl | hlater
      · have hhead : (env.answer e.request s').2 ∈ env.trail es (env.answer e.request s').2 := by
          cases es <;> exact List.mem_cons_self ..
        exact ⟨hrefl s', htrans hfirst (ih hhead).2⟩
      · rcases ih hlater with ⟨hbehind, hlast⟩
        exact ⟨htrans hfirst hbehind, hlast⟩

theorem trail_pairwise : (env.trail es s).Pairwise r := by
  induction es generalizing s with
  | nil =>
      exact List.pairwise_singleton r s
  | cons e es ih =>
      refine List.pairwise_cons.2 ⟨?_, ih⟩
      intro s' hs'
      have hfirst : r s (env.answer e.request s).2 := hanswer e.request s
      exact htrans hfirst (trail_between hrefl htrans hanswer hs').1

end Trail

end Surroundings

namespace Rehearsal

/-! ## The depots of several runs -/

/-- Everything that is installed in the one depot is installed in the other. -/
def Depot.Grows (earlier later : Depot) : Prop :=
  earlier.installed ⊆ later.installed

/-- Nothing that happens takes anything out of a depot. -/
theorem Depot.grows_after (d : Depot) (es : List Event) : d.Grows (d.after es) := by
  intro package hmem
  have hhas : d.has package = true := List.contains_iff_mem.2 hmem
  have hstill : (d.after es).has package = true := Depot.has_after.2 (Or.inl hhas)
  exact List.contains_iff_mem.1 hstill

theorem Scene.grows_answer (scene : Scene) (r : Request) (s : Stage) :
    s.depot.Grows (scene.surroundings.answer r s).2.depot := by
  rw [scene.depot_answer]
  exact Depot.grows_after s.depot [⟨r, (scene.surroundings.answer r s).1⟩]

/-- The depots that a run passes through, from event to event. -/
def Scene.depots (scene : Scene) (es : List Event) (s : Stage) : List Depot :=
  (scene.surroundings.trail es s).map Stage.depot

/-- The depots that several runs pass through, from event to event. -/
def depotsOf (backend : Backend) (plan : Plan) : Depot → List (Scene × List Bool) → List Depot
  | depot, [] => [depot]
  | depot, (scene, answers) :: scenes =>
      let run := scene.rehearse backend plan depot answers
      scene.depots run.events ⟨depot, answers, []⟩ ++ depotsOf backend plan run.state.depot scenes

section Depots

variable {scene : Scene} {backend : Backend} {plan : Plan} {d depot : Depot} {answers : List Bool}
  {scenes : List (Scene × List Bool)} {es : List Event} {s : Stage}

theorem Scene.depots_between (h : d ∈ scene.depots es s) :
    s.depot.Grows d ∧ d.Grows (scene.surroundings.after es s).depot := by
  rcases List.mem_map.1 h with ⟨s', hs', rfl⟩
  exact Surroundings.trail_between (r := fun s s' => s.depot.Grows s'.depot)
    (fun s => List.Subset.refl s.depot.installed) List.Subset.trans scene.grows_answer hs'

theorem Scene.depots_pairwise : (scene.depots es s).Pairwise Depot.Grows := by
  rw [depots, List.pairwise_map]
  exact Surroundings.trail_pairwise (fun s => List.Subset.refl s.depot.installed) List.Subset.trans
    scene.grows_answer

/-- The depot that was there at first has grown into all the others. -/
theorem grows_of_mem_depotsOf (h : d ∈ depotsOf backend plan depot scenes) : depot.Grows d := by
  induction scenes generalizing depot with
  | nil =>
      rw [List.mem_singleton.1 h]
      exact List.Subset.refl depot.installed
  | cons first scenes ih =>
      rcases first with ⟨scene, answers⟩
      rcases List.mem_append.1 h with hfirst | hlater
      · exact (Scene.depots_between hfirst).1
      · have hrun : depot.Grows (scene.rehearse backend plan depot answers).state.depot := by
          rw [depot_rehearse]
          exact Depot.grows_after depot _
        exact List.Subset.trans hrun (ih hlater)

theorem depotsOf_pairwise : (depotsOf backend plan depot scenes).Pairwise Depot.Grows := by
  induction scenes generalizing depot with
  | nil =>
      exact List.pairwise_singleton _ _
  | cons first scenes ih =>
      rcases first with ⟨scene, answers⟩
      refine List.pairwise_append.2 ⟨Scene.depots_pairwise, ih, ?_⟩
      -- a run hands on what it has, and the other runs go on from there
      intro earlier hearlier later hlater
      have hlast := (Scene.depots_between hearlier).2
      rw [← state_rehearse] at hlast
      exact List.Subset.trans hlast (grows_of_mem_depotsOf hlater)

end Depots

/-! ## Histories of runs -/

/-- What holds of several runs that begin with a depot, and of the depots that they pass through. -/
structure Thrifty (depot : Depot) (runs : List (Run Stage Unit)) (depots : List Depot) : Prop where
  once : (installsOf (historyOf runs)).Nodup
  /-- A package that was installed is not found missing, asked for or installed after that. -/
  settled : ∀ before package after, historyOf runs = before ++ ⟨.install package, .ok ()⟩ :: after →
    ∀ e ∈ after, e.Spares package
  /-- No run asks a question twice. -/
  asked : ∀ run ∈ runs, (questionsOf run.events).Nodup
  upgraded : ∀ before package outcome after,
    historyOf runs = before ++ ⟨.upgrade package, outcome⟩ :: after →
      depot.has package = true ∨ ⟨.install package, .ok ()⟩ ∈ before
  grows : depots.Pairwise Depot.Grows

/-- Runs with one depot install and ask for nothing twice. -/
theorem rehearseAll_thrifty (backend : Backend) (ids : List String) (depot : Depot)
    (scenes : List (Scene × List Bool)) :
    Thrifty depot (rehearseAll backend (backend.plan ids) depot scenes)
      (depotsOf backend (backend.plan ids) depot scenes) := by
  have htruth : Along Truthful depot
      (historyOf (rehearseAll backend (backend.plan ids) depot scenes)) :=
    along_rehearseAll fun _ _ _ => truthful_rehearse
  have hdemanded : Along (Demanded backend.manager) depot
      (historyOf (rehearseAll backend (backend.plan ids) depot scenes)) :=
    along_rehearseAll fun _ _ _ => heeded_rehearse.demanded
  refine ⟨nodup_installsOf htruth hdemanded, ?_, ?_, ?_, depotsOf_pairwise⟩
  · intro before package after hhistory
    rw [hhistory] at htruth hdemanded
    exact spared_of_installed htruth hdemanded
  · intro run hrun
    rcases exists_of_mem_rehearseAll hrun with ⟨scene, answers, d, rfl⟩
    exact heeded_rehearse.asked
  · intro before package outcome after hhistory
    rw [hhistory] at hdemanded
    have hthere : (depot.after before).has package = true := hdemanded.at_cut
    rcases Depot.has_after.1 hthere with hfirst | hinstalled
    · exact Or.inl hfirst
    · exact Or.inr (mem_installsOf.1 hinstalled)

end Rehearsal

end Provision

import Provision.Proofs.Ledger

/-!
# Keeper — surroundings that keep what they install

A keeper knows which tools are built and keeps a set of installed packages.  Its checks tell the
truth about the set when they answer at all, and nothing but a successful installation changes it;
which calls fail, what the operator says and when the run is interrupted is left open.  This file
defines:

* `Keeper` — surroundings of this kind;
* `Keeper.installed_after` — the installed set after some events;
* `Scene.keeper` — every scripted scene is a keeper.
-/

namespace Provision

/-- Surroundings with tools that are built or not, and with a set of installed packages. -/
structure Keeper (σ : Type) extends Surroundings σ where
  built : String → Bool
  installed : σ → String → Bool
  probe_answer : ∀ probe s, (answer (.probe probe) s).1 = built probe.program
  check_answer : ∀ package s yes,
    (answer (.check package) s).1 = .ok yes → yes = installed s package
  /-- A package is there if it was there before, or if it was installed just now. -/
  installed_answer : ∀ r s package, installed (answer r s).2 package = true ↔
    installed s package = true ∨ (⟨r, (answer r s).1⟩ : Event) = ⟨.install package, .ok ()⟩

namespace Keeper

variable {σ : Type} (keeper : Keeper σ) {es : List Event} {s : σ}

/-- The installed set grows by the packages that are installed, and by nothing else. -/
theorem installed_after (h : keeper.Answered es s) (package : String) :
    keeper.installed (keeper.after es s) package = true ↔
      keeper.installed s package = true ∨ ⟨.install package, .ok ()⟩ ∈ es := by
  induction es generalizing s with
  | nil =>
      simp [Surroundings.after]
  | cons e es ih =>
      rcases h with ⟨hanswer, hrest⟩
      have he : (⟨e.request, (keeper.answer e.request s).1⟩ : Event) = e := by
        rw [← hanswer]
      -- the first event changes the set as the law says, and the others add to that
      have hfirst := keeper.installed_answer e.request s package
      rw [he] at hfirst
      calc
        keeper.installed (keeper.after (e :: es) s) package = true
            ↔ keeper.installed (keeper.answer e.request s).2 package = true ∨
                (⟨.install package, .ok ()⟩ : Event) ∈ es := ih hrest
        _ ↔ (keeper.installed s package = true ∨ e = ⟨.install package, .ok ()⟩) ∨
                (⟨.install package, .ok ()⟩ : Event) ∈ es := or_congr_left hfirst
        _ ↔ keeper.installed s package = true ∨ ⟨.install package, .ok ()⟩ ∈ e :: es := by
              rw [or_assoc, List.mem_cons, @eq_comm _ e]

theorem built_of_probe {probe : Probe} {yes : Bool} (h : keeper.Answered es s)
    (hmem : ⟨.probe probe, yes⟩ ∈ es) : yes = keeper.built probe.program := by
  rcases List.append_of_mem hmem with ⟨front, back, rfl⟩
  rcases Surroundings.answered_append.1 h with ⟨-, hanswer, -⟩
  exact hanswer.trans (keeper.probe_answer probe _)

theorem installed_of_check {package : String} {yes : Bool} {front back : List Event}
    (h : keeper.Answered (front ++ ⟨.check package, .ok yes⟩ :: back) s) :
    yes = keeper.installed (keeper.after front s) package := by
  rcases Surroundings.answered_append.1 h with ⟨-, hanswer, -⟩
  exact keeper.check_answer package _ yes hanswer.symm

/-- What a check has found is still there at the end. -/
theorem installed_of_mem_check {package : String} (h : keeper.Answered es s)
    (hmem : ⟨.check package, .ok true⟩ ∈ es) :
    keeper.installed (keeper.after es s) package = true := by
  rcases List.append_of_mem hmem with ⟨front, back, rfl⟩
  have hfront : keeper.Answered front s := (Surroundings.answered_append.1 h).1
  have hthen : keeper.installed (keeper.after front s) package = true :=
    (keeper.installed_of_check h).symm
  -- what was there at the check was there from the start, or came before the check
  rcases (keeper.installed_after hfront package).1 hthen with hbefore | hinstall
  · exact (keeper.installed_after h package).2 (Or.inl hbefore)
  · exact (keeper.installed_after h package).2 (Or.inr (List.mem_append_left _ hinstall))

end Keeper

/-! ## Scripted keepers -/

namespace Rehearsal
namespace Scene

variable (scene : Scene)

theorem check_answer {package : String} {s : Stage} {yes : Bool}
    (h : (scene.surroundings.answer (.check package) s).1 = .ok yes) :
    yes = s.depot.has package := by
  have htruth := scene.truthful_answer (.check package) s
  rw [h] at htruth
  exact htruth

/-- Only a successful installation changes what is installed. -/
theorem has_depot_answer (r : Request) (s : Stage) (package : String) :
    (scene.surroundings.answer r s).2.depot.has package = true ↔
      s.depot.has package = true ∨
        (⟨r, (scene.surroundings.answer r s).1⟩ : Event) = ⟨.install package, .ok ()⟩ := by
  rw [scene.depot_answer, Depot.has_alter]

/-- A scripted scene is a keeper, whose packages are those of the depot. -/
def keeper : Keeper Stage where
  toSurroundings := scene.surroundings
  built := scene.built
  installed s package := s.depot.has package
  probe_answer _ _ := rfl
  check_answer _ _ _ h := scene.check_answer h
  installed_answer := scene.has_depot_answer

end Scene

end Rehearsal

end Provision

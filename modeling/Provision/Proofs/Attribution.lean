import Provision.Proofs.Ending

/-!
# Attribution — the result of a run says how it ended

The failure of a run names the operation that failed, and a run fails with it only if that operation
was its last.  This holds in all surroundings, also where an operation itself reports that it was
interrupted or declined: such a failure is held as the cause of another one.  This file defines:

* `Attributed` — the results with the endings that they stand for, each one as an equivalence;
* `install_attributed` — every run of the installer is attributed in this way.
-/

namespace Provision

/-- The failure names the identifier of a step. -/
def Failure.namesStep : Failure → Bool
  | script _ _ | unsupportedPackage _ _ => true
  | _ => false

/-- The failure is one of those that a run can have. -/
def Failure.ofRun : Failure → Bool
  | update _ _ | bootstrap _ _ | package _ _ _ | script _ _ | declined _ | interrupted
  | unsupportedPackage _ _ => true
  | _ => false

namespace Installer

open Procedure

/-! ## Failures and the last event -/

namespace Ending

variable {manager : String} {es : List Event} {result : Except Failure Unit}

/-- A run that ends with a failing call fails on account of it. -/
theorem of_getLast {e : Event} (h : Ending manager es result) (hlast : es.getLast? = some e)
    (he : e.failure?.isSome) :
    ∃ failure, result = .error failure ∧ Setback manager [e] failure := by
  rcases List.getLast?_eq_some_iff.1 hlast with ⟨before, rfl⟩
  exact (h.of_failed he).2

theorem update_iff (h : Ending manager es result) {name : String} {failure : Failure} :
    result = .error (.update name failure) ↔
      name = manager ∧ es.getLast? = some ⟨.update, .error failure⟩ := by
  constructor
  · intro hresult
    subst hresult
    rcases h.last_of_error with ⟨front, last, rfl, -, hb⟩
    -- of all setbacks only a failing refresh leads to this failure
    cases hb
    exact ⟨rfl, List.getLast?_concat⟩
  · intro hcase
    rcases hcase with ⟨rfl, hlast⟩
    rcases h.of_getLast hlast rfl with ⟨failure', rfl, hb⟩
    cases hb
    rfl

theorem bootstrap_iff (h : Ending manager es result) {name : String} {failure : Failure} :
    result = .error (.bootstrap name failure) ↔
      name = manager ∧ es.getLast? = some ⟨.bootstrap, .error failure⟩ := by
  constructor
  · intro hresult
    subst hresult
    rcases h.last_of_error with ⟨front, last, rfl, -, hb⟩
    cases hb
    exact ⟨rfl, List.getLast?_concat⟩
  · intro hcase
    rcases hcase with ⟨rfl, hlast⟩
    rcases h.of_getLast hlast rfl with ⟨failure', rfl, hb⟩
    cases hb
    rfl

theorem package_iff (h : Ending manager es result) {action package : String} {failure : Failure} :
    result = .error (.package action package failure) ↔
      (action = "check" ∧ es.getLast? = some ⟨.check package, .error failure⟩) ∨
        (action = "install" ∧ es.getLast? = some ⟨.install package, .error failure⟩) ∨
          (action = "upgrade" ∧ es.getLast? = some ⟨.upgrade package, .error failure⟩) := by
  constructor
  · intro hresult
    subst hresult
    rcases h.last_of_error with ⟨front, last, rfl, -, hb⟩
    cases hb with
    | check =>
        exact Or.inl ⟨rfl, List.getLast?_concat⟩
    | install =>
        exact Or.inr (Or.inl ⟨rfl, List.getLast?_concat⟩)
    | upgrade =>
        exact Or.inr (Or.inr ⟨rfl, List.getLast?_concat⟩)
  · intro hcase
    rcases hcase with ⟨rfl, hlast⟩ | ⟨rfl, hlast⟩ | ⟨rfl, hlast⟩
    all_goals
      rcases h.of_getLast hlast rfl with ⟨failure', rfl, hb⟩
      cases hb
      rfl

theorem script_iff (h : Ending manager es result) {failure : Failure} :
    (∃ id, result = .error (.script id failure)) ↔
      ∃ script, es.getLast? = some ⟨.build script, .error failure⟩ := by
  constructor
  · intro hcase
    rcases hcase with ⟨id, rfl⟩
    rcases h.last_of_error with ⟨front, last, rfl, -, hb⟩
    cases hb with
    | build id script =>
        exact ⟨script, List.getLast?_concat⟩
  · intro hcase
    rcases hcase with ⟨script, hlast⟩
    rcases h.of_getLast hlast rfl with ⟨failure', rfl, hb⟩
    cases hb with
    | build id =>
        exact ⟨id, rfl⟩

theorem offer_injective {missing other : String} (h : offer missing = offer other) :
    missing = other :=
  (String.append_left_inj _).1 h

theorem declined_iff (h : Ending manager es result) {detail : String} :
    result = .error (.declined detail) ↔
      ∃ missing, detail = refusal missing ∧
        (callsOf es).getLast? = some ⟨.ask (offer missing), false⟩ ∧ ⟨.poll, true⟩ ∉ es := by
  constructor
  · intro hresult
    subst hresult
    have hpoll : (⟨.poll, true⟩ : Event) ∉ es := by
      intro hmem
      have hinterrupted : (Except.error (.declined detail) : Except Failure Unit) =
          .error .interrupted :=
        h.interrupted_iff.2 hmem
      cases hinterrupted
    rcases h.last_of_error with ⟨front, last, rfl, -, hb⟩
    cases hb with
    | declined missing =>
        refine ⟨missing, rfl, ?_, hpoll⟩
        have hcalls : callsOf (front ++ [⟨.ask (offer missing), false⟩, ⟨.poll, false⟩]) =
            callsOf front ++ [⟨.ask (offer missing), false⟩] :=
          callsOf_append _ _
        rw [hcalls, List.getLast?_concat]
  · intro hcase
    rcases hcase with ⟨missing, rfl, hlast, hpoll⟩
    have hmem : (⟨.ask (offer missing), false⟩ : Event) ∈ es :=
      mem_of_mem_callsOf (List.mem_of_getLast? hlast)
    rcases List.append_of_mem hmem with ⟨before, after, rfl⟩
    rcases h.of_refused with ⟨rfl, -⟩ | ⟨other, hother, -, rfl⟩
    · -- the poll behind the no would have reported an interruption
      exact absurd (by simp) hpoll
    · have hsame : missing = other := offer_injective hother
      rw [hsame]

end Ending

/-! ## The step that a failure names -/

section Steps

variable {es rest : List Event} {result : Except Failure Unit}

/-- A law of failures passes from the parts to the whole. -/
theorem sequential_failure (p : Failure → Prop) :
    Sequential fun _ result => ∀ failure, result = .error failure → p failure where
  nil := fun _ h => by cases h
  append _ hback := hback

theorem Consented.namesStep {missing : String} {failure : Failure}
    (h : Consented missing es (.error failure)) : failure.namesStep = false := by
  cases h <;> rfl

theorem Prepared.namesStep {manager : String} {failure : Failure}
    (h : Prepared manager es (.error failure)) : failure.namesStep = false := by
  generalize hr : (Except.error failure : Except Failure Unit) = result at h
  cases h with
  | updated outcome | bootstrapped outcome =>
      cases outcome <;> cases hr
      rfl
  | refused h =>
      cases hr
      exact h.namesStep

theorem Ensured.namesStep {package : String} {failure : Failure}
    (h : Ensured package es (.error failure)) : failure.namesStep = false := by
  generalize hr : (Except.error failure : Except Failure Unit) = result at h
  cases h with
  | interrupted | unchecked =>
      cases hr
      rfl
  | upgraded outcome | installed outcome =>
      cases outcome <;> cases hr
      rfl
  | refused h =>
      cases hr
      exact h.namesStep

theorem ensureAll_namesStep {packages : List String} {failure : Failure}
    (h : (ensureAll packages).Course es (.error failure)) : failure.namesStep = false := by
  have hlaw : (ensureAll packages).Obeys fun _ result =>
      ∀ failure, result = .error failure → failure.namesStep = false := by
    refine obeys_ensureAll (sequential_failure fun failure => failure.namesStep = false) ?_
    intro package _ es result hcourse failure hfailure
    subst hfailure
    exact (course_ensure.1 hcourse).namesStep
  exact hlaw es _ h failure rfl

/-- Only a step without a routine fails as not supported, and it does nothing before. -/
theorem course_step_unsupported {platform id named : String} {s : Step} :
    (step platform s).Course es (.error (.unsupportedPackage id named)) ↔
      s.routine = none ∧ es = [] ∧ id = s.id ∧ named = platform := by
  rcases s with ⟨given, routine⟩
  constructor
  · intro h
    cases routine with
    | none =>
        rcases course_stop.1 h with ⟨rfl, hfailure⟩
        cases hfailure
        exact ⟨rfl, rfl, rfl, rfl⟩
    | some routine =>
        cases routine with
        | managed packages =>
            cases ensureAll_namesStep h
        | fromSource probe needs script =>
            -- every failure of such a tool is about a package, the script or the operator
            generalize hr : (Except.error (.unsupportedPackage id named) : Except Failure Unit) =
              result at h
            cases course_carryOut_fromSource.1 h with
            | already | interrupted =>
                cases hr
            | needy hneeds =>
                cases hr
                cases ensureAll_namesStep hneeds
            | ran outcome =>
                cases outcome <;> cases hr
  · intro hcase
    rcases hcase with ⟨hroutine, rfl, rfl, rfl⟩
    cases hroutine
    exact Course.stop _

/-- Only a tool that is built from source fails by its script, behind all that it needs. -/
theorem course_step_script {platform id : String} {s : Step} {failure : Failure} :
    (step platform s).Course es (.error (.script id failure)) ↔
      id = s.id ∧ ∃ probe needs script deps, s.routine = some (.fromSource probe needs script) ∧
        (ensureAll needs).Course deps (.ok ()) ∧
          es = ⟨.probe probe, false⟩ :: deps ++
            [⟨.poll, false⟩, ⟨.inform ("building " ++ quoted s.id ++ " from source"), ()⟩,
              ⟨.build script, .error failure⟩] := by
  rcases s with ⟨given, routine⟩
  constructor
  · intro h
    cases routine with
    | none =>
        cases (course_stop.1 h).2
    | some routine =>
        cases routine with
        | managed packages =>
            cases ensureAll_namesStep h
        | fromSource probe needs script =>
            generalize hr : (Except.error (.script id failure) : Except Failure Unit) = result at h
            cases course_carryOut_fromSource.1 h with
            | already | interrupted =>
                cases hr
            | needy hneeds =>
                cases hr
                cases ensureAll_namesStep hneeds
            | ran outcome hneeds =>
                cases outcome <;> cases hr
                exact ⟨rfl, probe, needs, script, _, rfl, hneeds, rfl⟩
  · intro hcase
    rcases hcase with ⟨rfl, probe, needs, script, deps, hroutine, hneeds, rfl⟩
    cases hroutine
    exact course_carryOut_fromSource.2 (Built.ran (.error failure) hneeds)

/-! ## The step that a run stopped at -/

variable {backend : Backend}

/-- If the step behind completed ones fails, the run fails. -/
theorem Reached.error {earlier later : List String} {id : String} {failure : Failure}
    (h : Reached backend earlier es (⟨.poll, false⟩ :: rest))
    (hstep : (step backend.platformName (backend.step id)).Course rest (.error failure))
    (hrun : (install backend (backend.plan (earlier ++ id :: later))).Course es result) :
    result = .error failure := by
  have hrest := h.steps hrun
  rcases course_checkpoint_bind.1 hrest with ⟨hpoll, -⟩ | ⟨others, hothers, hsteps⟩
  · cases hpoll
  · rcases (List.cons.inj hothers) with ⟨-, rfl⟩
    rw [← List.append_nil rest] at hsteps
    exact (hstep.bind_error.unique hsteps).2

/-- A run that fails on account of a step completed the steps before it. -/
theorem reached_of_error {ids : List String} {failure : Failure} (hnames : failure.namesStep = true)
    (hrun : (install backend (backend.plan ids)).Course es (.error failure)) :
    ∃ earlier id later rest, ids = earlier ++ id :: later ∧
      Reached backend earlier es (⟨.poll, false⟩ :: rest) ∧
        (step backend.platformName (backend.step id)).Course rest (.error failure) := by
  rcases course_bind.1 hrun with
    ⟨failure', hprepare, hfailure⟩ | ⟨_, ready, back, rfl, hready, hback⟩
  · -- the package manager is no step
    cases hfailure
    have hnot : failure.namesStep = false := (course_prepare.1 hprepare).namesStep
    rw [hnot] at hnames
    cases hnames
  rcases course_steps_error hback with rfl | ⟨done, s, others, work, rest, hplan, rfl, hwork, hstep⟩
  · cases hnames
  -- the steps of the plan are those of the identifiers, one by one
  rcases List.map_eq_append_iff.1 hplan with ⟨earlier, tail, rfl, rfl, htail⟩
  rcases List.map_eq_cons_iff.1 htail with ⟨id, later, rfl, rfl, rfl⟩
  exact ⟨earlier, id, later, rest, rfl, ⟨ready, work, by simp, hready, hwork⟩, hstep⟩

/-! ## Attribution -/

/-- What each result of a run says about how the run ended. -/
structure Attributed (backend : Backend) (ids : List String) (es : List Event)
    (result : Except Failure Unit) : Prop where
  /-- Nothing follows a failing call to the package manager or the build host. -/
  final : ∀ before e after, es = before ++ e :: after → e.failure?.isSome → after = []
  update : ∀ manager failure, result = .error (.update manager failure) ↔
    manager = backend.manager ∧ es.getLast? = some ⟨.update, .error failure⟩
  bootstrap : ∀ manager failure, result = .error (.bootstrap manager failure) ↔
    manager = backend.manager ∧ es.getLast? = some ⟨.bootstrap, .error failure⟩
  package : ∀ action package failure, result = .error (.package action package failure) ↔
    (action = "check" ∧ es.getLast? = some ⟨.check package, .error failure⟩) ∨
      (action = "install" ∧ es.getLast? = some ⟨.install package, .error failure⟩) ∨
        (action = "upgrade" ∧ es.getLast? = some ⟨.upgrade package, .error failure⟩)
  script : ∀ failure, (∃ id, result = .error (.script id failure)) ↔
    ∃ script, es.getLast? = some ⟨.build script, .error failure⟩
  /-- The identifier is the requested one whose step was being carried out, as it was given. -/
  script_id : ∀ id failure, result = .error (.script id failure) ↔
    ∃ earlier later probe needs script deps, ids = earlier ++ id :: later ∧
      (backend.step id).routine = some (.fromSource probe needs script) ∧
        (ensureAll needs).Course deps (.ok ()) ∧
          Reached backend earlier es (⟨.poll, false⟩ :: ⟨.probe probe, false⟩ :: deps ++
            [⟨.poll, false⟩, ⟨.inform ("building " ++ quoted id ++ " from source"), ()⟩,
              ⟨.build script, .error failure⟩])
  declined : ∀ detail, result = .error (.declined detail) ↔
    ∃ missing, detail = refusal missing ∧
      (callsOf es).getLast? = some ⟨.ask (offer missing), false⟩ ∧ ⟨.poll, true⟩ ∉ es
  interrupted : result = .error .interrupted ↔ ⟨.poll, true⟩ ∈ es
  /-- The first identifier that names no tool is the culprit, behind the steps of all those before
  it. -/
  unsupported : ∀ id platform, result = .error (.unsupportedPackage id platform) ↔
    platform = backend.platformName ∧ ∃ earlier later, ids = earlier ++ id :: later ∧
      (∀ other ∈ earlier, (Tool.ofName? other).isSome) ∧ Tool.ofName? id = none ∧
        Reached backend earlier es [⟨.poll, false⟩]
  ok : result = .ok () ↔ Reached backend ids es [⟨.poll, false⟩]
  /-- There are no other failures. -/
  known : ∀ failure, result = .error failure → failure.ofRun = true

theorem unsupported_iff {ids : List String} {id platform : String}
    (hrun : (install backend (backend.plan ids)).Course es result) :
    result = .error (.unsupportedPackage id platform) ↔
      platform = backend.platformName ∧ ∃ earlier later, ids = earlier ++ id :: later ∧
        (∀ other ∈ earlier, (Tool.ofName? other).isSome) ∧ Tool.ofName? id = none ∧
          Reached backend earlier es [⟨.poll, false⟩] := by
  constructor
  · intro hresult
    subst hresult
    rcases reached_of_error rfl hrun with ⟨earlier, id', later, rest, rfl, hreached, hstep⟩
    -- the step that failed has no routine, and those before it have one, for they were completed
    rcases course_step_unsupported.1 hstep with ⟨hroutine, rfl, hid, rfl⟩
    have hid : id = id' := hid
    subst hid
    have hname : Tool.ofName? id = none := by
      simpa [Backend.step] using hroutine
    exact ⟨rfl, earlier, later, rfl, hreached.supported, hname, hreached⟩
  · intro hcase
    rcases hcase with ⟨rfl, earlier, later, rfl, -, hname, hreached⟩
    have hroutine : (backend.step id).routine = none := by
      simp [Backend.step, hname]
    have hstep : (step backend.platformName (backend.step id)).Course []
        (.error (.unsupportedPackage id backend.platformName)) :=
      course_step_unsupported.2 ⟨hroutine, rfl, rfl, rfl⟩
    exact hreached.error hstep hrun

theorem script_id_iff {ids : List String} {id : String} {failure : Failure}
    (hrun : (install backend (backend.plan ids)).Course es result) :
    result = .error (.script id failure) ↔
      ∃ earlier later probe needs script deps, ids = earlier ++ id :: later ∧
        (backend.step id).routine = some (.fromSource probe needs script) ∧
          (ensureAll needs).Course deps (.ok ()) ∧
            Reached backend earlier es (⟨.poll, false⟩ :: ⟨.probe probe, false⟩ :: deps ++
              [⟨.poll, false⟩, ⟨.inform ("building " ++ quoted id ++ " from source"), ()⟩,
                ⟨.build script, .error failure⟩]) := by
  constructor
  · intro hresult
    subst hresult
    rcases reached_of_error rfl hrun with ⟨earlier, id', later, rest, rfl, hreached, hstep⟩
    rcases course_step_script.1 hstep with
      ⟨hid, probe, needs, script, deps, hroutine, hneeds, rfl⟩
    have hid : id = id' := hid
    subst hid
    exact ⟨earlier, later, probe, needs, script, deps, rfl, hroutine, hneeds, hreached⟩
  · intro hcase
    rcases hcase with ⟨earlier, later, probe, needs, script, deps, rfl, hroutine, hneeds, hreached⟩
    have hstep : (step backend.platformName (backend.step id)).Course _
        (.error (.script id failure)) :=
      course_step_script.2 ⟨rfl, probe, needs, script, deps, hroutine, hneeds, rfl⟩
    exact hreached.error hstep hrun

theorem ok_iff {ids : List String} (hrun : (install backend (backend.plan ids)).Course es result) :
    result = .ok () ↔ Reached backend ids es [⟨.poll, false⟩] := by
  constructor
  · intro hresult
    subst hresult
    exact reached_of_ok hrun
  · intro hreached
    rw [← List.append_nil ids] at hrun
    have hlast : (steps backend.platformName (backend.plan [])).Course [⟨.poll, false⟩] result :=
      hreached.steps hrun
    rcases course_checkpoint.1 hlast with ⟨hpoll, -⟩ | ⟨-, hok⟩
    · cases hpoll
    · exact hok

theorem Ending.known {failure : Failure} {manager : String}
    (h : Ending manager es (.error failure)) : failure.ofRun = true := by
  rcases h.last_of_error with ⟨front, last, -, -, hb⟩
  cases hb <;> rfl

/-- In all surroundings the result of a run is the one that its last events stand for. -/
theorem install_attributed {σ : Type} (env : Surroundings σ) (s : σ) (backend : Backend)
    (ids : List String) :
    Attributed backend ids ((install backend (backend.plan ids)).run env s).events
      ((install backend (backend.plan ids)).run env s).result := by
  have hrun := run_course env (install backend (backend.plan ids)) s
  have hending := ending_install backend (backend.plan ids) _ _ hrun
  exact
    { final := fun before e after hes he => by
        rw [hes] at hending
        exact (hending.of_failed he).1
      update := fun manager failure => hending.update_iff
      bootstrap := fun manager failure => hending.bootstrap_iff
      package := fun action package failure => hending.package_iff
      script := fun failure => hending.script_iff
      script_id := fun id failure => script_id_iff hrun
      declined := fun detail => hending.declined_iff
      interrupted := hending.interrupted_iff
      unsupported := fun id platform => unsupported_iff hrun
      ok := ok_iff hrun
      known := fun failure hfailure => by
        rw [hfailure] at hending
        exact hending.known }

end Steps

end Installer
end Provision

import Provision.Proofs.Attribution
import Provision.Proofs.Installation
import Provision.Proofs.Ledger

/-!
# Preview — the listing of a plan foretells its run

A listing goes through the whole plan, and at its end fails for the first identifier that names no
tool.  A run stops at that identifier, behind the work for all those before it.  So the two go
through the same steps under opposite policies, and still agree on which requests can be met.  This
file defines:

* `FirstUnknown` — the first identifier of a request that names no tool;
* `unlisted` — the failure of a listing on account of an identifier;
* `Ending.of_smooth` — a run in which nothing stands in the way can only stop at a step without a
  routine;
* `Foretold`, `list_foretold` — what the listing says about every run.
-/

namespace Provision

/-! ## The first identifier without a tool -/

/-- The identifier names no tool, and all those before it do. -/
def FirstUnknown (ids : List String) (id : String) : Prop :=
  ∃ earlier later, ids = earlier ++ id :: later ∧
    (∀ other ∈ earlier, (Tool.ofName? other).isSome) ∧ Tool.ofName? id = none

section FirstUnknown

variable {backend : Backend} {ids : List String} {id : String}

theorem FirstUnknown.not_known (h : FirstUnknown ids id) :
    ¬ ∀ other ∈ ids, (Tool.ofName? other).isSome := by
  rcases h with ⟨earlier, later, rfl, -, hname⟩
  intro hall
  have hsome : (Tool.ofName? id).isSome := hall id (by simp)
  simp [hname] at hsome

theorem firstUnknown_cons_of_none {first : String} (h : Tool.ofName? first = none) :
    FirstUnknown (first :: ids) id ↔ id = first := by
  constructor
  · intro hfirst
    rcases hfirst with ⟨earlier, later, heq, hearlier, -⟩
    cases earlier with
    | nil =>
        exact (List.cons.inj heq).1.symm
    | cons other earlier =>
        -- an identifier before the first unknown one is known, but this one is not
        rcases List.cons.inj heq with ⟨rfl, -⟩
        simp [h] at hearlier
  · intro heq
    subst heq
    exact ⟨[], ids, rfl, by simp, h⟩

theorem firstUnknown_cons_of_some {first : String} (h : (Tool.ofName? first).isSome) :
    FirstUnknown (first :: ids) id ↔ FirstUnknown ids id := by
  constructor
  · intro hfirst
    rcases hfirst with ⟨earlier, later, heq, hearlier, hname⟩
    cases earlier with
    | nil =>
        rcases List.cons.inj heq with ⟨rfl, -⟩
        simp [hname] at h
    | cons other earlier =>
        rcases List.cons.inj heq with ⟨rfl, rfl⟩
        exact ⟨earlier, later, rfl, fun o ho => hearlier o (List.mem_cons_of_mem _ ho), hname⟩
  · intro hfirst
    rcases hfirst with ⟨earlier, later, rfl, hearlier, hname⟩
    refine ⟨first :: earlier, later, rfl, ?_, hname⟩
    intro other hother
    rcases List.mem_cons.1 hother with rfl | hrest
    · exact h
    · exact hearlier other hrest

/-- A plan finds the first identifier that names no tool. -/
theorem unsupported?_eq_some_iff :
    (backend.plan ids).unsupported? = some id ↔ FirstUnknown ids id := by
  induction ids with
  | nil =>
      constructor
      · intro h
        cases h
      · intro h
        rcases h with ⟨earlier, later, heq, -⟩
        simp at heq
  | cons first ids ih =>
      have hcons : backend.plan (first :: ids) = backend.step first :: backend.plan ids := rfl
      cases hname : Tool.ofName? first with
      | none =>
          have hfound : (backend.plan (first :: ids)).unsupported? = some first := by
            simp [hcons, Plan.unsupported?, Backend.step, hname]
          simp [hfound, firstUnknown_cons_of_none hname, eq_comm]
      | some tool =>
          have hskipped : (backend.plan (first :: ids)).unsupported? =
              (backend.plan ids).unsupported? := by
            simp [hcons, Plan.unsupported?, Backend.step, hname]
          have hsome : (Tool.ofName? first).isSome := by simp [hname]
          simp [hskipped, firstUnknown_cons_of_some hsome, ih]

theorem FirstUnknown.unique {other : String} (h : FirstUnknown ids id)
    (hother : FirstUnknown ids other) : id = other := by
  -- the plan of any package manager finds both of them
  have hfound : (Backend.apt.plan ids).unsupported? = some id := unsupported?_eq_some_iff.2 h
  have hsame : some id = some other := hfound.symm.trans (unsupported?_eq_some_iff.2 hother)
  exact Option.some.inj hsame

theorem unsupported?_eq_none_iff :
    (backend.plan ids).unsupported? = none ↔ ∀ id ∈ ids, (Tool.ofName? id).isSome := by
  induction ids with
  | nil =>
      simp [Backend.plan, Plan.unsupported?]
  | cons first ids ih =>
      have hcons : backend.plan (first :: ids) = backend.step first :: backend.plan ids := rfl
      cases hname : Tool.ofName? first with
      | none =>
          simp [hcons, Plan.unsupported?, Backend.step, hname]
      | some tool =>
          simp [hcons, Plan.unsupported?, Backend.step, hname, ih]

end FirstUnknown

/-! ## The listing -/

/-- The failure of a listing on account of an identifier that names no tool. -/
def unlisted (backend : Backend) (id : String) : Failure :=
  .configuration ("package " ++ id ++ " can not be installed with " ++ backend.manager)

theorem unlisted_injective {backend : Backend} {id other : String}
    (h : unlisted backend id = unlisted backend other) : id = other := by
  have htext : "package " ++ id ++ " can not be installed with " ++ backend.manager =
      "package " ++ other ++ " can not be installed with " ++ backend.manager :=
    Failure.configuration.inj h
  simpa using htext

section Listing

variable {tone : Tone} {backend : Backend} {ids : List String}

theorem list_ok_iff :
    ((backend.plan ids).list tone backend).1 = .ok () ↔ ∀ id ∈ ids, (Tool.ofName? id).isSome := by
  cases hfirst : (backend.plan ids).unsupported? with
  | none =>
      have hall : ∀ id ∈ ids, (Tool.ofName? id).isSome := unsupported?_eq_none_iff.1 hfirst
      simp only [Plan.list, hfirst, true_iff]
      exact hall
  | some id =>
      have hnot : ¬ ∀ id ∈ ids, (Tool.ofName? id).isSome :=
        (unsupported?_eq_some_iff.1 hfirst).not_known
      simp only [Plan.list, hfirst, hnot, reduceCtorEq]

theorem list_error_iff {failure : Failure} :
    ((backend.plan ids).list tone backend).1 = .error failure ↔
      ∃ id, FirstUnknown ids id ∧ failure = unlisted backend id := by
  cases hfirst : (backend.plan ids).unsupported? with
  | none =>
      have hall : ∀ id ∈ ids, (Tool.ofName? id).isSome := unsupported?_eq_none_iff.1 hfirst
      simp only [Plan.list, hfirst, reduceCtorEq, false_iff]
      rintro ⟨id, hunknown, -⟩
      exact hunknown.not_known hall
  | some id =>
      have hunknown : FirstUnknown ids id := unsupported?_eq_some_iff.1 hfirst
      have hlisted : ((backend.plan ids).list tone backend).1 = .error (unlisted backend id) := by
        simp only [Plan.list, hfirst, unlisted]
      constructor
      · intro h
        have hsame : unlisted backend id = failure := Except.error.inj (hlisted.symm.trans h)
        exact ⟨id, hunknown, hsame.symm⟩
      · intro hcase
        rcases hcase with ⟨other, hother, rfl⟩
        have hsame : id = other := hunknown.unique hother
        simpa [hsame] using hlisted

/-- The text of a row: the identifier in a column, and what is done about it. -/
def rowOf (backend : Backend) (id : String) : String :=
  Text.padRight 22 id ++ " " ++
    match Tool.ofName? id with
    | some tool => (backend.routine tool).describe
    | none => "not available on this host"

theorem row_step (id : String) : (backend.step id).row = rowOf backend id := by
  cases hname : Tool.ofName? id <;> simp [Step.row, Backend.step, rowOf, hname]

/-- There is a row for every identifier, also behind one that names no tool. -/
theorem list_rows :
    ((backend.plan ids).list tone backend).2 =
      tone.header backend.title ++ ids.map fun id => .row 1 (rowOf backend id) := by
  have hrows : (backend.plan ids).map (fun s => Write.row 1 s.row) =
      ids.map fun id => Write.row 1 (rowOf backend id) := by
    simp [Backend.plan, row_step]
  rw [Plan.writes_list, hrows]

end Listing

namespace Installer

open Procedure Rehearsal

/-! ## The run -/

variable {manager : String} {es : List Event} {result : Except Failure Unit}

/-- Behind smooth events a run is only broken off by a step without a routine. -/
theorem Setback.of_smooth {last : List Event} {failure : Failure} (h : Setback manager last failure)
    (hsmooth : Smooth last) : ∃ id platform, failure = .unsupportedPackage id platform := by
  cases h with
  | unsupported id platform =>
      exact ⟨id, platform, rfl⟩
  | _ =>
      simp [Event.isSetback, Event.failure?] at hsmooth

theorem Ending.of_smooth (h : Ending manager es result) (hsmooth : Smooth es) :
    result = .ok () ∨ ∃ id platform, result = .error (.unsupportedPackage id platform) := by
  cases h with
  | completed _ =>
      exact Or.inl rfl
  | broken _ hlast =>
      rcases hlast.of_smooth (smooth_append.1 hsmooth).2 with ⟨id, platform, rfl⟩
      exact Or.inr ⟨id, platform, rfl⟩

section Runs

variable {backend : Backend} {ids : List String}

/-- The identifier that a run does not support is the first one that names no tool. -/
theorem firstUnknown_of_unsupported {id platform : String}
    (hrun :
      (install backend (backend.plan ids)).Course es (.error (.unsupportedPackage id platform))) :
    platform = backend.platformName ∧ FirstUnknown ids id := by
  rcases (unsupported_iff hrun).1 rfl with ⟨hplatform, earlier, later, hids, hearlier, hname, -⟩
  exact ⟨hplatform, earlier, later, hids, hearlier, hname⟩

theorem known_of_ok (hrun : (install backend (backend.plan ids)).Course es (.ok ())) :
    ∀ id ∈ ids, (Tool.ofName? id).isSome :=
  (reached_of_ok hrun).supported

end Runs

/-! ## The listing and the run -/

/-- What the listing of a plan says by itself, in some tone, and about a run of the plan. -/
structure Foretold {σ : Type} (tone : Tone) (backend : Backend) (ids : List String)
    (listing : Except Failure Unit × List Write) (run : Run σ Unit) : Prop where
  succeeds : listing.1 = .ok () ↔ ∀ id ∈ ids, (Tool.ofName? id).isSome
  fails : ∀ failure, listing.1 = .error failure ↔
    ∃ id, FirstUnknown ids id ∧ failure = unlisted backend id
  /-- Whether it succeeds or not, the listing has one row for each identifier, in the order of the
  request. -/
  rows : listing.2 = tone.header backend.title ++ ids.map fun id => .row 1 (rowOf backend id)
  supported : listing.1 = .ok () →
    ∀ id platform, run.result ≠ .error (.unsupportedPackage id platform)
  unsupported : ∀ id, listing.1 = .error (unlisted backend id) →
    run.result ≠ .ok () ∧
      ∀ other platform, run.result = .error (.unsupportedPackage other platform) → other = id
  /-- Where no call fails, no question is answered no and nothing interrupts, the two succeed
  together. -/
  undisturbed : Smooth run.events → (run.result = .ok () ↔ listing.1 = .ok ())
  stopped : Smooth run.events → ∀ id, listing.1 = .error (unlisted backend id) →
    run.result = .error (.unsupportedPackage id backend.platformName)

/-- In all surroundings a run goes as far as the listing of its plan has it. -/
theorem list_foretold {σ : Type} (env : Surroundings σ) (s : σ) (tone : Tone) (backend : Backend)
    (ids : List String) :
    Foretold tone backend ids ((backend.plan ids).list tone backend)
      ((install backend (backend.plan ids)).run env s) := by
  have hrun := run_course env (install backend (backend.plan ids)) s
  have hending := ending_install backend (backend.plan ids) _ _ hrun
  -- a listing that fails names the first identifier that a run cannot pass
  have hunknown : ∀ id, ((backend.plan ids).list tone backend).1 = .error (unlisted backend id) →
      FirstUnknown ids id := by
    intro id hlisting
    rcases list_error_iff.1 hlisting with ⟨other, hother, hsame⟩
    have hid : id = other := unlisted_injective hsame
    simpa [hid] using hother
  refine ⟨list_ok_iff, fun failure => list_error_iff, list_rows, ?_, ?_, ?_, ?_⟩
  · intro hlisting id platform hresult
    rw [hresult] at hrun
    exact (firstUnknown_of_unsupported hrun).2.not_known (list_ok_iff.1 hlisting)
  · intro id hlisting
    constructor
    · intro hresult
      rw [hresult] at hrun
      exact (hunknown id hlisting).not_known (known_of_ok hrun)
    · intro other platform hresult
      rw [hresult] at hrun
      exact (firstUnknown_of_unsupported hrun).2.unique (hunknown id hlisting)
  · intro hsmooth
    constructor
    · intro hresult
      rw [hresult] at hrun
      exact list_ok_iff.2 (known_of_ok hrun)
    · intro hlisting
      rcases hending.of_smooth hsmooth with hok | ⟨id, platform, hresult⟩
      · exact hok
      · rw [hresult] at hrun
        exact absurd (list_ok_iff.1 hlisting) (firstUnknown_of_unsupported hrun).2.not_known
  · intro hsmooth id hlisting
    rcases hending.of_smooth hsmooth with hok | ⟨other, platform, hresult⟩
    · rw [hok] at hrun
      exact absurd (known_of_ok hrun) (hunknown id hlisting).not_known
    · rw [hresult] at hrun
      rcases firstUnknown_of_unsupported hrun with ⟨hplatform, hother⟩
      have hid : other = id := hother.unique (hunknown id hlisting)
      simp [hresult, hid, hplatform]

/-- With an operator who agrees, a run for `nasm` and `qemu` installs the one and stops at the
other. -/
theorem list_foretold_nasm_qemu :
    Smooth (Scene.plain.rehearse .apt (Backend.apt.plan ["nasm", "qemu"]) ⟨true, []⟩
        [true]).events ∧
      (Scene.plain.rehearse .apt (Backend.apt.plan ["nasm", "qemu"]) ⟨true, []⟩ [true]).result =
        .error (.unsupportedPackage "qemu" "Linux") := by
  have hsmooth : Smooth
      (Scene.plain.rehearse .apt (Backend.apt.plan ["nasm", "qemu"]) ⟨true, []⟩
        [true]).events := by
    unfold Smooth
    decide
  refine ⟨hsmooth, ?_⟩
  exact (list_foretold Scene.plain.surroundings ⟨⟨true, []⟩, [true], []⟩ {} .apt
    ["nasm", "qemu"]).stopped hsmooth "qemu" rfl

end Installer
end Provision

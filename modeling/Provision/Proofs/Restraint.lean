import Provision.Proofs.Installation

/-!
# Restraint — a setup that is not carried out leaves its host alone

A setup is not carried out on a platform that is not served, for a request with a name that is not
valid, or when only its plan is wanted.  These are the setups that do not come to the installer, so
they end with their verdict, and a verdict is passed without a look at the host.  This file defines:

* `Setup.Withheld` — the setups that are not carried out;
* `verdict_of_unserved`, `verdict_of_faulty` — the verdict on a platform, and on a name;
* `Untouched`, `run_untouched` — what these setups leave alone, and how they end.
-/

namespace Provision
namespace Setup

open PackageName

/-! ## Setups that are not carried out -/

/-- The setup is not carried out, for its platform, for one of its names, or because it only
lists. -/
inductive Withheld (platform : Platform) (settings : Settings) : Prop where
  | unserved {failure : Failure} (h : platform.backend = .error failure)
  | faulty {name : String} (hname : name ∈ settings.packages) (h : validate name ≠ .ok ())
  | listed (h : settings.listOnly = true)

section Withheld

variable {platform : Platform} {settings : Settings} {backend : Backend} {failure : Failure}

/-- The setups that are not carried out are those that do not come to the installer. -/
theorem installs_eq_none_iff : installs platform settings = none ↔ Withheld platform settings := by
  constructor
  · intro h
    cases hbackend : platform.backend with
    | error failure =>
        exact .unserved hbackend
    | ok backend =>
        cases hvalid : validateAll settings.packages with
        | error failure =>
            rcases validateAll_error_iff.1 hvalid with ⟨earlier, name, later, heq, -, hname⟩
            have hmem : name ∈ settings.packages := by simp [heq]
            exact .faulty hmem (by simp [hname])
        | ok =>
            exact .listed (by simpa [installs, hbackend, hvalid] using h)
  · intro h
    apply Option.eq_none_iff_forall_ne_some.2
    intro backend hinstalls
    rcases installs_eq_some_iff.1 hinstalls with ⟨hbackend, hvalid, hlist⟩
    cases h with
    | unserved h =>
        cases hbackend.symm.trans h
    | faulty hname h =>
        exact h (validateAll_ok_iff.1 hvalid _ hname)
    | listed h =>
        cases hlist.symm.trans h

/-! ## Verdicts -/

/-- A platform that is not served is rejected by its name, whatever is requested. -/
theorem verdict_of_unserved (h : platform.backend = .error failure) :
    (verdict platform settings).1 = .error (.unsupportedPlatform platform.name) := by
  simp [verdict, h, Platform.rejected_of_unserved h]

/-- A name that is not valid is the verdict, behind the greeting and before any word on the plan. -/
theorem verdict_of_faulty (hbackend : platform.backend = .ok backend)
    (hvalid : validateAll settings.packages = .error failure) :
    verdict platform settings =
      (.error failure,
        settings.tone.info ("host os \"" ++ platform.name ++ "\" detected")) := by
  have hknown : platform ≠ .unknown := by
    rintro rfl
    cases hbackend
  cases hquiet : settings.tone.quiet <;>
    simp [verdict, hbackend, hvalid, greeting, hknown, Tone.info, hquiet]

theorem not_announced_of_verdict : .info "installing packages" ∉ (verdict platform settings).2 := by
  have hgreeting : .info "installing packages" ∉ greeting settings.tone platform := by
    intro hmem
    have htext := Write.info.inj (mem_greeting.1 hmem).2
    revert htext
    cases platform <;> decide
  unfold verdict
  cases hbackend : platform.backend with
  | error failure =>
      cases platform <;> simpa [rejection, Platform.hint] using hgreeting
  | ok backend =>
      cases validateAll settings.packages with
      | error failure =>
          exact hgreeting
      | ok =>
          have hlisting : .info "installing packages" ∉
              ((backend.plan settings.packages).list settings.tone backend).2 := by
            simp [Plan.mem_list]
          intro hmem
          exact (List.mem_append.1 hmem).elim hgreeting hlisting

end Withheld

/-! ## The whole setup -/

/-- What a setup that is not carried out leaves alone, on every host, and how it ends. -/
structure Untouched (platform : Platform) (settings : Settings) : Prop where
  /-- All that happens is that something is written: no command is tried, and no process started. -/
  written : ∀ w interrupted, ∀ activity ∈ (run platform settings w interrupted).session.log,
    ∃ write, activity = .wrote write
  unstarted : ∀ w interrupted, processesOf (run platform settings w interrupted).session.log = []
  /-- No byte of the input is read. -/
  unread : ∀ w interrupted, (run platform settings w interrupted).session.input.flatten = w.stdin
  /-- On any two hosts, interrupted or not, the result is the same and so is all that is written. -/
  blind : ∀ w other interrupted interrupted',
    (run platform settings w interrupted).result =
        (run platform settings other interrupted').result ∧
      writesOf (run platform settings w interrupted).session.log =
        writesOf (run platform settings other interrupted').session.log
  unannounced : ∀ w interrupted,
    .info "installing packages" ∉ writesOf (run platform settings w interrupted).session.log
  unserved : ∀ failure, platform.backend = .error failure → ∀ w interrupted,
    (run platform settings w interrupted).result = .error (.unsupportedPlatform platform.name)
  /-- On a platform that is served the first name that is not valid decides, even for a listing, and
  nothing of the plan is shown. -/
  faulty : ∀ backend, platform.backend = .ok backend →
    (∃ name ∈ settings.packages, validate name ≠ .ok ()) →
      ∃ earlier name later failure, settings.packages = earlier ++ name :: later ∧
        (∀ other ∈ earlier, validate other = .ok ()) ∧ validate name = .error failure ∧
          ∀ w interrupted, (run platform settings w interrupted).result = .error failure ∧
            writesOf (run platform settings w interrupted).session.log =
              settings.tone.info ("host os \"" ++ platform.name ++ "\" detected")

/-- A setup that is not carried out touches no host, and is the same on all of them. -/
theorem run_untouched {platform : Platform} {settings : Settings} (h : Withheld platform settings) :
    Untouched platform settings := by
  have hnone : installs platform settings = none := installs_eq_none_iff.2 h
  have hresult : ∀ w interrupted, (run platform settings w interrupted).result =
      (verdict platform settings).1 :=
    fun w interrupted => congrArg Outcome.result (run_of_not_installs hnone)
  have hwrites : ∀ w interrupted, writesOf (run platform settings w interrupted).session.log =
      (verdict platform settings).2 :=
    fun w interrupted => writesOf_of_not_installs hnone
  refine ⟨?_, fun w interrupted => processesOf_of_not_installs hnone,
    fun w interrupted => input_of_not_installs hnone, ?_, ?_, ?_, ?_⟩
  · intro w interrupted activity hmem
    rw [log_of_not_installs hnone] at hmem
    rcases List.mem_map.1 hmem with ⟨write, -, hwrite⟩
    exact ⟨write, hwrite.symm⟩
  · intro w other interrupted interrupted'
    -- neither the result nor the words mention the host
    exact ⟨by simp only [hresult], by simp only [hwrites]⟩
  · intro w interrupted
    rw [hwrites]
    exact not_announced_of_verdict
  · intro failure hfailure w interrupted
    rw [hresult]
    exact verdict_of_unserved hfailure
  · intro backend hbackend hfaulty
    cases hvalid : validateAll settings.packages with
    | ok =>
        rcases hfaulty with ⟨name, hname, hreject⟩
        exact absurd (validateAll_ok_iff.1 hvalid name hname) hreject
    | error failure =>
        rcases validateAll_error_iff.1 hvalid with ⟨earlier, name, later, heq, hearlier, hname⟩
        have hverdict := verdict_of_faulty hbackend hvalid
        refine ⟨earlier, name, later, failure, heq, hearlier, hname, fun w interrupted => ?_⟩
        exact ⟨by rw [hresult, hverdict], by rw [hwrites, hverdict]⟩

/-- A host with the programs of `apt`, and one line of yes on its input. -/
def furnished : World where
  programs := [("lsb_release", .rules []), ("sudo", .rules []), ("dpkg", .rules [])]
  disk := ⟨[], [], []⟩
  stdin := Text.bytes "yes\n"

/-- There the request for `make` is blocked by the name behind it, although only the plan is
wanted. -/
theorem run_untouched_unsafe :
    validate "make" = .ok () ∧ validate "nasm; rm -rf /" ≠ .ok () ∧
      (run .linux { packages := ["make", "nasm; rm -rf /", ""], listOnly := true } furnished
          fun _ _ => true).result =
        .error (.configuration "Package name contains unsafe characters: nasm; rm -rf /") ∧
      processesOf (run .linux { packages := ["make", "nasm; rm -rf /", ""], listOnly := true }
          furnished fun _ _ => true).session.log = [] ∧
      (run .linux { packages := ["make", "nasm; rm -rf /", ""], listOnly := true } furnished
          fun _ _ => true).session.input.flatten = furnished.stdin := by
  have hreject : validate "nasm; rm -rf /" =
      .error (.configuration "Package name contains unsafe characters: nasm; rm -rf /") := rfl
  have hname : validate "nasm; rm -rf /" ≠ .ok () := by simp [hreject]
  have huntouched :
      Untouched .linux { packages := ["make", "nasm; rm -rf /", ""], listOnly := true } :=
    run_untouched (.faulty (by decide) hname)
  exact ⟨rfl, hname, rfl, huntouched.unstarted furnished _, huntouched.unread furnished _⟩

end Setup
end Provision

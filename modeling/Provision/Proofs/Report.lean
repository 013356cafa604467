import Provision.Proofs.Confinement
import Provision.Proofs.Installation
import Provision.Proofs.Utterance

/-!
# Report — a failure is reported once, at the end

A setup says nothing of a failure until it has come to its end.  Then a platform that is not served
has been rejected with a message of its own, and any other failure is reported with its message, its
causes in a verbose tone, and a last line.  A run of the installer holds at most one cause, so that
the report never has more than three lines.  This file defines:

* `Write.blames` — the writes that report a failure;
* `Setup.blameless_run`, `Setup.failure_of_served` — a setup up to its end, and the failures it can
  have;
* `Setup.shown` — all that is shown of a setup, the output of programs and the report included;
* `Setup.shown_of_unserved` — the words on a platform that is not served;
* `Reported`, `Setup.run_reported` — every setup is reported in this way.
-/

namespace Provision

/-! ## Reports of a failure -/

/-- The write reports a failure: it is an error, or a cause of one. -/
def Write.blames : Write → Bool
  | .error _ | .cause _ => true
  | _ => false

theorem Write.blameless_of_ofRun {write : Write} (h : write.isOfRun = true) :
    write.blames = false := by
  cases write <;> first | rfl | cases h

/-- The lines on the causes of a failure, which only a verbose setup prints. -/
def Failure.causeLines (failure : Failure) (verbose : Bool) : List Write :=
  if verbose then failure.sources.map fun source => .cause source.message else []

/-- The failure is the rejection of a platform. -/
def Failure.isRejection : Failure → Bool
  | unsupportedPlatform _ => true
  | _ => false

/-- A failure is reported between its message and the last line. -/
theorem Failure.report_eq {failure : Failure} {tone : Tone} (h : failure.isRejection = false) :
    failure.report tone =
      .error failure.message :: failure.causeLines tone.verbose ++
        [.error "unsuccessful setup process"] := by
  cases failure <;> first | rfl | cases h

/-! ## Up to the end -/

namespace Setup

variable {platform : Platform} {settings : Settings} {w : World} {interrupted : Signal}
  {backend : Backend} {tone : Tone} {failure : Failure}

theorem blameless_greeting : ∀ write ∈ greeting tone platform, write.blames = false := by
  intro write hwrite
  rw [(mem_greeting.1 hwrite).2]
  rfl

theorem blameless_list (plan : Plan) :
    ∀ write ∈ (plan.list tone backend).2, write.blames = false := by
  intro write hwrite
  rcases Plan.mem_list.1 hwrite with ⟨-, rfl⟩ | ⟨step, -, rfl⟩
  · rfl
  · rfl

/-- On a platform that is served, a setup says nothing of a failure. -/
theorem blameless_run (hplatform : platform.backend = .ok backend) :
    ∀ write ∈ writesOf (run platform settings w interrupted).session.log, write.blames = false := by
  intro write hwrite
  cases hinstalls : installs platform settings with
  | none =>
      -- the request is at fault, or the plan is listed
      rw [writesOf_of_not_installs hinstalls] at hwrite
      cases hvalid : PackageName.validateAll settings.packages with
      | error failure =>
          simp only [verdict, hplatform, hvalid] at hwrite
          exact blameless_greeting write hwrite
      | ok =>
          simp only [verdict, hplatform, hvalid] at hwrite
          rcases List.mem_append.1 hwrite with hgreeting | hlisted
          · exact blameless_greeting write hgreeting
          · exact blameless_list _ write hlisted
  | some backend =>
      -- an operation that fails leaves it to its caller to say so
      rw [writesOf_of_installs hinstalls] at hwrite
      rcases List.mem_append.1 hwrite with hbefore | hlater
      · rcases List.mem_append.1 hbefore with hgreeting | hsaid
        · exact blameless_greeting write hgreeting
        · rw [(Tone.mem_info.1 hsaid).2]
          rfl
      · exact Write.blameless_of_ofRun (Host.ofRun_of_logOf write (mem_writesOf.1 hlater))

theorem configuration_of_list {plan : Plan} (h : (plan.list tone backend).1 = .error failure) :
    ∃ detail, failure = .configuration detail := by
  unfold Plan.list at h
  split at h
  · cases h
  · exact ⟨_, (Except.error.inj h).symm⟩

/-- A setup that fails on a platform that is served does not reject it, and holds at most one
cause. -/
theorem failure_of_served (hplatform : platform.backend = .ok backend)
    (h : (run platform settings w interrupted).result = .error failure) :
    failure.isRejection = false ∧ failure.sources.length ≤ 1 := by
  cases hinstalls : installs platform settings with
  | none =>
      -- a fault of the request holds no other failure
      have hconfiguration : ∃ detail, failure = .configuration detail := by
        simp only [run_of_not_installs hinstalls, verdict, hplatform] at h
        cases hvalid : PackageName.validateAll settings.packages with
        | error reported =>
            simp only [hvalid] at h
            exact PackageName.configuration_of_validateAll (hvalid.trans h)
        | ok =>
            simp only [hvalid] at h
            exact configuration_of_list h
      rcases hconfiguration with ⟨detail, rfl⟩
      exact ⟨rfl, Nat.zero_le 1⟩
  | some backend =>
      rw [run_of_installs hinstalls] at h
      refine ⟨?_, ?_⟩
      · have hknown : failure.ofRun = true := Installer.ofRun_of_run h
        cases failure <;> first | rfl | cases hknown
      · rcases Installer.sources_of_run h with hnone | ⟨cause, -, hsources⟩
        · simp [hnone]
        · simp [hsources]

/-! ## The whole setup -/

/-- All that is shown of a setup and of the programs it starts, with the report of its failure. -/
def shown (platform : Platform) (settings : Settings) (w : World) (interrupted : Signal) :
    List Write :=
  writesOf ((run platform settings w interrupted).reported settings.tone).session.log

theorem shown_of_ok (h : (run platform settings w interrupted).result = .ok ()) :
    shown platform settings w interrupted =
      writesOf (run platform settings w interrupted).session.log := by
  simp only [shown, Outcome.reported, h]

theorem shown_of_error (h : (run platform settings w interrupted).result = .error failure) :
    shown platform settings w interrupted =
      writesOf (run platform settings w interrupted).session.log ++
        failure.report settings.tone := by
  simp only [shown, Outcome.reported, h, Session.say, writesOf_append, writesOf_said]

/-- What is said before a platform is rejected. -/
def farewell (tone : Tone) (platform : Platform) : List Write :=
  greeting tone platform ++ platform.hint.toList.map .warning

theorem blameless_farewell : ∀ write ∈ farewell tone platform, write.blames = false := by
  intro write hwrite
  rcases List.mem_append.1 hwrite with hgreeting | hhint
  · exact blameless_greeting write hgreeting
  · rcases List.mem_map.1 hhint with ⟨hint, -, rfl⟩
    rfl

/-- A platform that is not served is rejected in its own words. -/
theorem run_of_unserved (h : platform.backend = .error failure) :
    run platform settings w interrupted =
      ⟨.error (.unsupportedPlatform platform.name),
        (begin w).say (farewell settings.tone platform ++ [.error "unsupported host os"])⟩ := by
  rcases Platform.rejected_of_unserved h with rfl
  have hrejection : rejection platform (.unsupportedPlatform platform.name) =
      platform.hint.toList.map .warning ++ [.error "unsupported host os"] := rfl
  simp only [run, announce, h, hrejection, farewell, List.append_assoc]

/-- Nothing comes after its rejection. -/
theorem shown_of_unserved (h : platform.backend = .error failure) :
    shown platform settings w interrupted =
      farewell settings.tone platform ++ [.error "unsupported host os"] := by
  have hlog : (run platform settings w interrupted).session.log =
      (farewell settings.tone platform ++ [Write.error "unsupported host os"]).map .wrote := by
    simp [run_of_unserved h, begin, Session.say]
  have hresult : (run platform settings w interrupted).result =
      .error (.unsupportedPlatform platform.name) := by
    simp only [run_of_unserved h]
  simp only [shown_of_error hresult, hlog, writesOf_said, Failure.report, List.append_nil]

end Setup

/-- How the end of a setup is reported, on the console and by the exit code. -/
structure Reported (settings : Settings) (result : Except Failure Unit) (shown : List Write) :
    Prop where
  success : result = .ok () → exitCode result = 0 ∧ ∀ write ∈ shown, write.blames = false
  failure : ∀ failure, result = .error failure → exitCode result = 1 ∧ failure.sources.length ≤ 1
  /-- A platform that is not served is rejected with one error, which is the last that is shown. -/
  rejected : ∀ name, result = .error (.unsupportedPlatform name) →
    ∃ before, shown = before ++ [.error "unsupported host os"] ∧
      ∀ write ∈ before, write.blames = false
  /-- Any other failure is reported with its message, its causes if they are wanted, and a last
  line. -/
  reported : ∀ failure, result = .error failure → failure.isRejection = false →
    ∃ before, shown = before ++ (.error failure.message :: failure.causeLines settings.verbose ++
        [.error "unsuccessful setup process"]) ∧
      ∀ write ∈ before, write.blames = false

namespace Setup

variable {platform : Platform} {settings : Settings} {w : World} {interrupted : Signal}
  {backend : Backend} {failure : Failure}

theorem reported_of_unserved (h : platform.backend = .error failure) :
    Reported settings (run platform settings w interrupted).result
      (shown platform settings w interrupted) := by
  have hresult : (run platform settings w interrupted).result =
      .error (.unsupportedPlatform platform.name) := by
    simp only [run_of_unserved h]
  have hrejection : ∀ failure, (run platform settings w interrupted).result = .error failure →
      failure = .unsupportedPlatform platform.name :=
    fun failure herror => Except.error.inj (herror.symm.trans hresult)
  refine ⟨?_, ?_, ?_, ?_⟩
  · intro hok
    cases hresult.symm.trans hok
  · intro failure herror
    exact ⟨by simp only [herror, exitCode], by simp [hrejection failure herror, Failure.sources]⟩
  · intro name _
    exact ⟨_, shown_of_unserved h, blameless_farewell⟩
  · intro failure herror hother
    simp [hrejection failure herror, Failure.isRejection] at hother

theorem reported_of_served (h : platform.backend = .ok backend) :
    Reported settings (run platform settings w interrupted).result
      (shown platform settings w interrupted) := by
  have hblameless : ∀ write ∈ writesOf (run platform settings w interrupted).session.log,
      write.blames = false := blameless_run h
  refine ⟨?_, ?_, ?_, ?_⟩
  · intro hok
    exact ⟨by simp only [hok, exitCode], shown_of_ok hok ▸ hblameless⟩
  · intro failure herror
    exact ⟨by simp only [herror, exitCode], (failure_of_served h herror).2⟩
  · intro name herror
    cases (failure_of_served h herror).1
  · intro failure herror hother
    have hreport : failure.report settings.tone = _ := failure.report_eq hother
    exact ⟨_, (shown_of_error herror).trans (congrArg _ hreport), hblameless⟩

/-- Every failure of a setup is reported once, when all else has been said. -/
theorem run_reported (platform : Platform) (settings : Settings) (w : World)
    (interrupted : Signal) :
    Reported settings (run platform settings w interrupted).result
      (shown platform settings w interrupted) := by
  cases hplatform : platform.backend with
  | error failure =>
      exact reported_of_unserved hplatform
  | ok backend =>
      exact reported_of_served hplatform

end Setup
end Provision

import Provision.Installer.Basic
import Provision.Proofs.Course

/-!
# Protocol — what the parts of the installer can go through

Each part of the installer goes through one of a few courses, and these are listed here.  Only the
packages that a tool needs are left as they are: their number is not fixed.  This file defines:

* `Consented`, `Prepared`, `Ensured`, `Built` — the courses of a question, of the package manager,
  of one package and of a tool that is built from source;
* `course_consent`, `course_prepare`, `course_ensure`, `course_carryOut_fromSource` — all of these
  courses are possible, and there are no others.
-/

namespace Provision
namespace Installer

open Procedure

variable {es : List Event} {result : Except Failure Unit}

/-! ## Interruption and consent -/

/-- The courses of a question. -/
inductive Consented (missing : String) : List Event → Except Failure Unit → Prop where
  | interrupted : Consented missing [⟨.poll, true⟩] (.error .interrupted)
  | overruled (yes : Bool) :
      Consented missing [⟨.poll, false⟩, ⟨.ask (offer missing), yes⟩, ⟨.poll, true⟩]
        (.error .interrupted)
  | declined :
      Consented missing [⟨.poll, false⟩, ⟨.ask (offer missing), false⟩, ⟨.poll, false⟩]
        (.error (.declined (refusal missing)))
  | agreed :
      Consented missing [⟨.poll, false⟩, ⟨.ask (offer missing), true⟩, ⟨.poll, false⟩] (.ok ())

theorem course_checkpoint :
    checkpoint.Course es result ↔
      (es = [⟨.poll, true⟩] ∧ result = .error .interrupted) ∨
        (es = [⟨.poll, false⟩] ∧ result = .ok ()) := by
  constructor
  · intro h
    rcases course_perform_bind.1 h with ⟨interrupted, rest, rfl, hrest⟩
    cases interrupted with
    | true =>
        rcases course_stop.1 hrest with ⟨rfl, rfl⟩
        exact Or.inl ⟨rfl, rfl⟩
    | false =>
        rcases course_done.1 hrest with ⟨rfl, rfl⟩
        exact Or.inr ⟨rfl, rfl⟩
  · intro hcase
    rcases hcase with ⟨rfl, rfl⟩ | ⟨rfl, rfl⟩
    · exact course_perform_bind.2 ⟨true, [], rfl, Course.stop _⟩
    · exact course_perform_bind.2 ⟨false, [], rfl, Course.done ()⟩

/-- An interruption ends a course; otherwise the course goes on behind the poll. -/
theorem course_checkpoint_bind {f : Unit → Procedure Unit} :
    (checkpoint >>= f).Course es result ↔
      (es = [⟨.poll, true⟩] ∧ result = .error .interrupted) ∨
        ∃ rest, es = ⟨.poll, false⟩ :: rest ∧ (f ()).Course rest result := by
  constructor
  · intro h
    rcases course_bind.1 h with ⟨failure, hfirst, rfl⟩ | ⟨_, front, back, rfl, hfirst, hback⟩
    · rcases course_checkpoint.1 hfirst with ⟨rfl, hfailure⟩ | ⟨_, hok⟩
      · have hinterrupted : failure = .interrupted := Except.error.inj hfailure
        exact Or.inl ⟨rfl, by rw [hinterrupted]⟩
      · cases hok
    · rcases course_checkpoint.1 hfirst with ⟨_, hfailure⟩ | ⟨rfl, _⟩
      · cases hfailure
      · exact Or.inr ⟨back, rfl, hback⟩
  · intro hcase
    rcases hcase with ⟨rfl, rfl⟩ | ⟨rest, rfl, hrest⟩
    · have hstopped : checkpoint.Course [⟨.poll, true⟩] (.error .interrupted) :=
        course_checkpoint.2 (Or.inl ⟨rfl, rfl⟩)
      exact hstopped.bind_error
    · have hpassed : checkpoint.Course [⟨.poll, false⟩] (.ok ()) :=
        course_checkpoint.2 (Or.inr ⟨rfl, rfl⟩)
      exact hpassed.bind_ok hrest

theorem course_consent {missing : String} :
    (consent missing).Course es result ↔ Consented missing es result := by
  constructor
  · intro h
    rcases course_checkpoint_bind.1 h with ⟨rfl, rfl⟩ | ⟨rest, rfl, hask⟩
    · exact Consented.interrupted
    rcases course_perform_bind.1 hask with ⟨yes, rest, rfl, hpoll⟩
    -- the second poll comes before the answer counts
    rcases course_checkpoint_bind.1 hpoll with ⟨rfl, rfl⟩ | ⟨rest, rfl, hanswer⟩
    · exact Consented.overruled yes
    cases yes with
    | true =>
        rcases course_done.1 hanswer with ⟨rfl, rfl⟩
        exact Consented.agreed
    | false =>
        rcases course_stop.1 hanswer with ⟨rfl, rfl⟩
        exact Consented.declined
  · intro h
    cases h with
    | interrupted =>
        exact course_checkpoint_bind.2 (Or.inl ⟨rfl, rfl⟩)
    | overruled yes =>
        refine course_checkpoint_bind.2 (Or.inr ⟨_, rfl, course_perform_bind.2 ⟨yes, _, rfl, ?_⟩⟩)
        exact course_checkpoint_bind.2 (Or.inl ⟨rfl, rfl⟩)
    | declined =>
        refine course_checkpoint_bind.2 (Or.inr ⟨_, rfl, course_perform_bind.2 ⟨false, _, rfl, ?_⟩⟩)
        exact course_checkpoint_bind.2 (Or.inr ⟨[], rfl, Course.stop _⟩)
    | agreed =>
        refine course_checkpoint_bind.2 (Or.inr ⟨_, rfl, course_perform_bind.2 ⟨true, _, rfl, ?_⟩⟩)
        exact course_checkpoint_bind.2 (Or.inr ⟨[], rfl, Course.done ()⟩)

/-! ## The package manager -/

/-- The courses of making the package manager ready. -/
inductive Prepared (manager : String) : List Event → Except Failure Unit → Prop where
  | updated (outcome : Except Failure Unit) :
      Prepared manager
        [⟨.available, true⟩, ⟨.inform ("updating " ++ manager), ()⟩, ⟨.update, outcome⟩]
        (outcome.mapError (.update manager))
  | refused {es : List Event} {failure : Failure} (h : Consented manager es (.error failure)) :
      Prepared manager (⟨.available, false⟩ :: es) (.error failure)
  | bootstrapped {es : List Event} (outcome : Except Failure Unit)
      (h : Consented manager es (.ok ())) :
      Prepared manager
        (⟨.available, false⟩ :: es ++
          [⟨.inform ("installing " ++ manager), ()⟩, ⟨.bootstrap, outcome⟩])
        (outcome.mapError (.bootstrap manager))

/-- An operation is reported before it is made. -/
theorem course_operation {message : String} {r : Request} {f : r.Answer → Procedure Unit} :
    (inform message >>= fun _ => perform r >>= f).Course es result ↔
      ∃ answer rest, es = ⟨.inform message, ()⟩ :: ⟨r, answer⟩ :: rest ∧
        (f answer).Course rest result := by
  constructor
  · intro h
    rcases course_perform_bind.1 h with ⟨_, rest, rfl, hr⟩
    rcases course_perform_bind.1 hr with ⟨answer, rest, rfl, hrest⟩
    exact ⟨answer, rest, rfl, hrest⟩
  · intro hcase
    rcases hcase with ⟨answer, rest, rfl, hrest⟩
    exact course_perform_bind.2 ⟨(), _, rfl, course_perform_bind.2 ⟨answer, rest, rfl, hrest⟩⟩

theorem course_prepare {manager : String} :
    (prepare manager).Course es result ↔ Prepared manager es result := by
  constructor
  · intro h
    rcases course_perform_bind.1 h with ⟨available, rest, rfl, hrest⟩
    -- the rest depends on whether there is a package manager at all
    cases available with
    | true =>
        rcases course_operation.1 hrest with ⟨outcome, rest, rfl, hend⟩
        rcases course_accept.1 hend with ⟨rfl, rfl⟩
        exact Prepared.updated outcome
    | false =>
        rcases course_bind.1 hrest with
          ⟨failure, hconsent, rfl⟩ | ⟨_, front, back, rfl, hconsent, hback⟩
        · exact Prepared.refused (course_consent.1 hconsent)
        · rcases course_operation.1 hback with ⟨outcome, rest, rfl, hend⟩
          rcases course_accept.1 hend with ⟨rfl, rfl⟩
          exact Prepared.bootstrapped outcome (course_consent.1 hconsent)
  · intro h
    cases h with
    | updated outcome =>
        refine course_perform_bind.2 ⟨true, _, rfl, ?_⟩
        exact course_operation.2 ⟨outcome, [], rfl, course_accept.2 ⟨rfl, rfl⟩⟩
    | refused h =>
        exact course_perform_bind.2 ⟨false, _, rfl, (course_consent.2 h).bind_error⟩
    | bootstrapped outcome h =>
        refine course_perform_bind.2 ⟨false, _, rfl, (course_consent.2 h).bind_ok ?_⟩
        exact course_operation.2 ⟨outcome, [], rfl, course_accept.2 ⟨rfl, rfl⟩⟩

/-! ## Packages -/

/-- The courses of providing a package. -/
inductive Ensured (package : String) : List Event → Except Failure Unit → Prop where
  | interrupted : Ensured package [⟨.poll, true⟩] (.error .interrupted)
  | unchecked (failure : Failure) :
      Ensured package [⟨.poll, false⟩, ⟨.check package, .error failure⟩]
        (.error (.package "check" package failure))
  | upgraded (outcome : Except Failure Unit) :
      Ensured package
        [⟨.poll, false⟩, ⟨.check package, .ok true⟩, ⟨.inform ("upgrading " ++ quoted package), ()⟩,
          ⟨.upgrade package, outcome⟩]
        (outcome.mapError (.package "upgrade" package))
  | refused {es : List Event} {failure : Failure} (h : Consented package es (.error failure)) :
      Ensured package (⟨.poll, false⟩ :: ⟨.check package, .ok false⟩ :: es) (.error failure)
  | installed {es : List Event} (outcome : Except Failure Unit)
      (h : Consented package es (.ok ())) :
      Ensured package
        (⟨.poll, false⟩ :: ⟨.check package, .ok false⟩ :: es ++
          [⟨.inform ("installing " ++ quoted package), ()⟩, ⟨.install package, outcome⟩])
        (outcome.mapError (.package "install" package))

theorem course_ensure {package : String} :
    (ensure package).Course es result ↔ Ensured package es result := by
  constructor
  · intro h
    rcases course_checkpoint_bind.1 h with ⟨rfl, rfl⟩ | ⟨rest, rfl, hcheck⟩
    · exact Ensured.interrupted
    rcases course_perform_bind.1 hcheck with ⟨checked, rest, rfl, hrest⟩
    -- a check fails, or finds the package, or does not
    cases checked with
    | error failure =>
        rcases course_stop.1 hrest with ⟨rfl, rfl⟩
        exact Ensured.unchecked failure
    | ok present =>
        cases present with
        | true =>
            rcases course_operation.1 hrest with ⟨outcome, rest, rfl, hend⟩
            rcases course_accept.1 hend with ⟨rfl, rfl⟩
            exact Ensured.upgraded outcome
        | false =>
            -- without the package the operator is asked, and only a yes leads on
            rcases (course_bind (p := consent package)).1 hrest with
              ⟨failure, hconsent, rfl⟩ | ⟨_, front, back, rfl, hconsent, hback⟩
            · exact Ensured.refused (course_consent.1 hconsent)
            · rcases course_operation.1 hback with ⟨outcome, rest, rfl, hend⟩
              rcases course_accept.1 hend with ⟨rfl, rfl⟩
              exact Ensured.installed outcome (course_consent.1 hconsent)
  · intro h
    cases h with
    | interrupted =>
        exact course_checkpoint_bind.2 (Or.inl ⟨rfl, rfl⟩)
    | unchecked failure =>
        refine course_checkpoint_bind.2 (Or.inr ⟨_, rfl, ?_⟩)
        exact course_perform_bind.2 ⟨.error failure, [], rfl, Course.stop _⟩
    | upgraded outcome =>
        refine course_checkpoint_bind.2 (Or.inr ⟨_, rfl, ?_⟩)
        refine course_perform_bind.2 ⟨.ok true, _, rfl, ?_⟩
        exact course_operation.2 ⟨outcome, [], rfl, course_accept.2 ⟨rfl, rfl⟩⟩
    | refused h =>
        refine course_checkpoint_bind.2 (Or.inr ⟨_, rfl, ?_⟩)
        exact course_perform_bind.2 ⟨.ok false, _, rfl, (course_consent.2 h).bind_error⟩
    | installed outcome h =>
        refine course_checkpoint_bind.2 (Or.inr ⟨_, rfl, ?_⟩)
        refine course_perform_bind.2 ⟨.ok false, _, rfl, (course_consent.2 h).bind_ok ?_⟩
        exact course_operation.2 ⟨outcome, [], rfl, course_accept.2 ⟨rfl, rfl⟩⟩

/-! ## Tools that are built from source -/

/-- The courses of a tool that is built from source, on behalf of a requested identifier. -/
inductive Built (id : String) (probe : Probe) (needs : List String) (script : Script) :
    List Event → Except Failure Unit → Prop where
  | already :
      Built id probe needs script
        [⟨.probe probe, true⟩, ⟨.inform (quoted id ++ " is already built"), ()⟩] (.ok ())
  | needy {es : List Event} {failure : Failure} (h : (ensureAll needs).Course es (.error failure)) :
      Built id probe needs script (⟨.probe probe, false⟩ :: es) (.error failure)
  | interrupted {es : List Event} (h : (ensureAll needs).Course es (.ok ())) :
      Built id probe needs script (⟨.probe probe, false⟩ :: es ++ [⟨.poll, true⟩])
        (.error .interrupted)
  | ran {es : List Event} (outcome : Except Failure Unit)
      (h : (ensureAll needs).Course es (.ok ())) :
      Built id probe needs script
        (⟨.probe probe, false⟩ :: es ++
          [⟨.poll, false⟩, ⟨.inform ("building " ++ quoted id ++ " from source"), ()⟩,
            ⟨.build script, outcome⟩])
        (outcome.mapError (.script id))

theorem course_carryOut_fromSource {id : String} {probe : Probe} {needs : List String}
    {script : Script} :
    (carryOut id (.fromSource probe needs script)).Course es result ↔
      Built id probe needs script es result := by
  constructor
  · intro h
    rcases course_perform_bind.1 h with ⟨built, rest, rfl, hrest⟩
    -- a tool that is found built is left alone
    cases built with
    | true =>
        rcases course_perform.1 hrest with ⟨_, rfl, rfl⟩
        exact Built.already
    | false =>
        rcases course_bind.1 hrest with
          ⟨failure, hneeds, rfl⟩ | ⟨_, front, back, rfl, hneeds, hback⟩
        · exact Built.needy hneeds
        rcases course_checkpoint_bind.1 hback with ⟨rfl, rfl⟩ | ⟨rest, rfl, hbuild⟩
        · exact Built.interrupted hneeds
        rcases course_operation.1 hbuild with ⟨outcome, rest, rfl, hend⟩
        rcases course_accept.1 hend with ⟨rfl, rfl⟩
        exact Built.ran outcome hneeds
  · intro h
    cases h with
    | already =>
        exact course_perform_bind.2 ⟨true, _, rfl, course_perform.2 ⟨(), rfl, rfl⟩⟩
    | needy h =>
        exact course_perform_bind.2 ⟨false, _, rfl, h.bind_error⟩
    | interrupted h =>
        refine course_perform_bind.2 ⟨false, _, rfl, h.bind_ok ?_⟩
        exact course_checkpoint_bind.2 (Or.inl ⟨rfl, rfl⟩)
    | ran outcome h =>
        refine course_perform_bind.2 ⟨false, _, rfl, h.bind_ok ?_⟩
        refine course_checkpoint_bind.2 (Or.inr ⟨_, rfl, ?_⟩)
        exact course_operation.2 ⟨outcome, [], rfl, course_accept.2 ⟨rfl, rfl⟩⟩

end Installer
end Provision

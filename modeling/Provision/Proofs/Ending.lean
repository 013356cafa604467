import Provision.Proofs.Walk

/-!
# Ending — how a run comes to its end

A run goes on as long as nothing is in its way.  A *setback* is an event that stands in its way: a
poll that reports an interruption, a question that is answered no, or a call that fails.  After a
setback comes at most one poll, and the result says which setback it was.  This file defines:

* `callsOf` — the calls to the package manager, the build host and the operator among some events;
* `Event.failure?`, `Event.isSetback` — the events that stand in the way of a run;
* `Setback` — the last events of a run that is broken off, with the failure that they lead to;
* `Ending` — events without a setback, up to the last ones;
* `ending_install` — every course of the installer ends in this way;
* `Ending.of_failed`, `Ending.of_refused`, `Ending.of_interrupted` — each kind of setback is at the
  end of a run, and its result tells which.
-/

namespace Provision

/-! ## Calls -/

/-- The event is a call to the package manager, the build host or the operator. -/
def Event.isCall (e : Event) : Bool :=
  match e.request with
  | .poll | .inform _ => false
  | _ => true

/-- The calls among some events. -/
def callsOf (es : List Event) : List Event :=
  es.filter Event.isCall

@[simp] theorem callsOf_nil : callsOf [] = [] :=
  rfl

theorem callsOf_cons {e : Event} {es : List Event} :
    callsOf (e :: es) = if e.isCall then e :: callsOf es else callsOf es :=
  List.filter_cons

@[simp] theorem callsOf_append (front back : List Event) :
    callsOf (front ++ back) = callsOf front ++ callsOf back :=
  List.filter_append ..

theorem mem_of_mem_callsOf {e : Event} {es : List Event} (h : e ∈ callsOf es) : e ∈ es :=
  (List.mem_filter.1 h).1

/-- An entry of two logs in a row is an entry of the first one or of the second one. -/
theorem cut_append {α : Type} {front back before after : List α} {a : α}
    (h : front ++ back = before ++ a :: after) :
    (∃ mid, front = before ++ a :: mid ∧ after = mid ++ back) ∨
      ∃ mid, before = front ++ mid ∧ back = mid ++ a :: after := by
  rcases List.append_eq_append_iff.1 h with ⟨mid, hbefore, hback⟩ | ⟨mid, hfront, hrest⟩
  · exact Or.inr ⟨mid, hbefore, hback⟩
  · cases mid with
    | nil =>
        exact Or.inr ⟨[], by simpa using hfront.symm, by simpa using hrest.symm⟩
    | cons other mid =>
        rcases List.cons.inj hrest with ⟨rfl, hafter⟩
        exact Or.inl ⟨mid, hfront, hafter⟩

/-- An entry of a log is its first one or an entry of the rest. -/
theorem cut_cons {α : Type} {first a : α} {rest before after : List α}
    (h : first :: rest = before ++ a :: after) :
    (before = [] ∧ a = first ∧ after = rest) ∨
      ∃ mid, before = first :: mid ∧ rest = mid ++ a :: after := by
  cases before with
  | nil =>
      rcases List.cons.inj h with ⟨rfl, rfl⟩
      exact Or.inl ⟨rfl, rfl, rfl⟩
  | cons other mid =>
      rcases List.cons.inj h with ⟨rfl, hrest⟩
      exact Or.inr ⟨mid, rfl, hrest⟩

/-! ## Setbacks -/

/-- The failure that a call to the package manager or the build host reports. -/
def Event.failure? : Event → Option Failure
  | ⟨.bootstrap, .error failure⟩ => some failure
  | ⟨.update, .error failure⟩ => some failure
  | ⟨.check _, .error failure⟩ => some failure
  | ⟨.install _, .error failure⟩ => some failure
  | ⟨.upgrade _, .error failure⟩ => some failure
  | ⟨.build _, .error failure⟩ => some failure
  | _ => none

/-- The event is an interruption, a no, or a failing call. -/
def Event.isSetback : Event → Bool
  | ⟨.poll, interrupted⟩ => interrupted
  | ⟨.ask _, yes⟩ => !yes
  | e => e.failure?.isSome

/-- Nothing stood in the way. -/
def Smooth (es : List Event) : Prop :=
  ∀ e ∈ es, e.isSetback = false

@[simp] theorem smooth_nil : Smooth [] := by
  simp [Smooth]

@[simp] theorem smooth_cons {e : Event} {es : List Event} :
    Smooth (e :: es) ↔ e.isSetback = false ∧ Smooth es := by
  simp [Smooth]

@[simp] theorem smooth_append {front back : List Event} :
    Smooth (front ++ back) ↔ Smooth front ∧ Smooth back := by
  induction front with
  | nil =>
      simp
  | cons e front ih =>
      simp [ih, and_assoc]

theorem isSetback_of_failure {e : Event} (h : e.failure?.isSome) : e.isSetback = true := by
  unfold Event.isSetback
  split
  · simp [Event.failure?] at h
  · simp [Event.failure?] at h
  · exact h

namespace Installer

open Procedure

/-- How a run that is broken off ends, and the failure that this leads to. -/
inductive Setback (manager : String) : List Event → Failure → Prop where
  | interrupted : Setback manager [⟨.poll, true⟩] .interrupted
  | overruled (question : String) :
      Setback manager [⟨.ask question, false⟩, ⟨.poll, true⟩] .interrupted
  | declined (missing : String) :
      Setback manager [⟨.ask (offer missing), false⟩, ⟨.poll, false⟩] (.declined (refusal missing))
  | update (failure : Failure) :
      Setback manager [⟨.update, .error failure⟩] (.update manager failure)
  | bootstrap (failure : Failure) :
      Setback manager [⟨.bootstrap, .error failure⟩] (.bootstrap manager failure)
  | check (package : String) (failure : Failure) :
      Setback manager [⟨.check package, .error failure⟩] (.package "check" package failure)
  | install (package : String) (failure : Failure) :
      Setback manager [⟨.install package, .error failure⟩] (.package "install" package failure)
  | upgrade (package : String) (failure : Failure) :
      Setback manager [⟨.upgrade package, .error failure⟩] (.package "upgrade" package failure)
  | build (id : String) (script : Script) (failure : Failure) :
      Setback manager [⟨.build script, .error failure⟩] (.script id failure)
  | unsupported (id platform : String) : Setback manager [] (.unsupportedPackage id platform)

/-- Events without a setback, and behind them what broke the run off, if anything did. -/
inductive Ending (manager : String) : List Event → Except Failure Unit → Prop where
  | completed {es : List Event} (hs : Smooth es) : Ending manager es (.ok ())
  | broken {es last : List Event} {failure : Failure} (hs : Smooth es)
      (h : Setback manager last failure) : Ending manager (es ++ last) (.error failure)

namespace Ending

variable {manager : String} {front back es : List Event} {result : Except Failure Unit}

theorem of_setback {last : List Event} {failure : Failure} (h : Setback manager last failure) :
    Ending manager last (.error failure) :=
  Ending.broken smooth_nil h

theorem smooth (h : Ending manager es (.ok ())) : Smooth es := by
  cases h with
  | completed hs =>
      exact hs

/-- What happened before without a setback does not change how a run ends. -/
theorem after (hs : Smooth front) (h : Ending manager back result) :
    Ending manager (front ++ back) result := by
  cases h with
  | completed hback =>
      exact Ending.completed (smooth_append.2 ⟨hs, hback⟩)
  | broken hback hlast =>
      rw [← List.append_assoc]
      exact Ending.broken (smooth_append.2 ⟨hs, hback⟩) hlast

theorem cons {e : Event} (he : e.isSetback = false) (h : Ending manager es result) :
    Ending manager (e :: es) result := by
  have hfront : Smooth [e] := smooth_cons.2 ⟨he, smooth_nil⟩
  exact Ending.after hfront h

theorem sequential : Sequential (Ending manager) where
  nil := Ending.completed smooth_nil
  append hfront hback := hback.after hfront.smooth

/-- A call at the end of a part either goes well or breaks the run off. -/
theorem of_call (call : Except Failure Unit → Event) (outcome : Except Failure Unit)
    {blame : Failure → Failure} (hok : (call (.ok ())).isSetback = false)
    (herror : ∀ failure, Setback manager [call (.error failure)] (blame failure)) :
    Ending manager [call outcome] (outcome.mapError blame) := by
  cases outcome with
  | ok value =>
      exact Ending.completed (smooth_cons.2 ⟨hok, smooth_nil⟩)
  | error failure =>
      exact Ending.of_setback (herror failure)

end Ending

/-! ## Endings of the parts -/

section Parts

variable {manager : String} {es : List Event} {result : Except Failure Unit}

theorem Consented.ending {missing : String} (h : Consented missing es result) :
    Ending manager es result := by
  cases h with
  | interrupted =>
      exact Ending.of_setback Setback.interrupted
  | overruled yes =>
      -- a yes is in nobody's way, but a no is: then the setback begins with the question
      cases yes with
      | true =>
          have hpoll : Ending manager [⟨.poll, true⟩] (.error .interrupted) :=
            Ending.of_setback Setback.interrupted
          exact Ending.cons rfl (Ending.cons rfl hpoll)
      | false =>
          have hask : Ending manager [⟨.ask (offer missing), false⟩, ⟨.poll, true⟩]
              (.error .interrupted) :=
            Ending.of_setback (Setback.overruled (offer missing))
          exact Ending.cons rfl hask
  | declined =>
      exact Ending.cons rfl (Ending.of_setback (Setback.declined missing))
  | agreed =>
      exact Ending.completed (by simp [Event.isSetback])

theorem Prepared.ending (h : Prepared manager es result) : Ending manager es result := by
  cases h with
  | updated outcome =>
      have hcall : Ending manager [⟨.update, outcome⟩] (outcome.mapError (.update manager)) :=
        Ending.of_call (fun outcome => ⟨.update, outcome⟩) outcome rfl Setback.update
      exact Ending.cons rfl (Ending.cons rfl hcall)
  | refused h =>
      exact Ending.cons rfl h.ending
  | bootstrapped outcome h =>
      have hcall : Ending manager [⟨.bootstrap, outcome⟩] (outcome.mapError (.bootstrap manager)) :=
        Ending.of_call (fun outcome => ⟨.bootstrap, outcome⟩) outcome rfl Setback.bootstrap
      have hasked : Ending manager _ (.ok ()) := h.ending
      have hreported : Ending manager
          [⟨.inform ("installing " ++ manager), ()⟩, ⟨.bootstrap, outcome⟩]
          (outcome.mapError (.bootstrap manager)) :=
        Ending.cons rfl hcall
      exact Ending.cons rfl (Ending.sequential.append hasked hreported)

theorem Ensured.ending {package : String} (h : Ensured package es result) :
    Ending manager es result := by
  cases h with
  | interrupted =>
      exact Ending.of_setback Setback.interrupted
  | unchecked failure =>
      exact Ending.cons rfl (Ending.of_setback (Setback.check package failure))
  | upgraded outcome =>
      have hcall : Ending manager [⟨.upgrade package, outcome⟩]
          (outcome.mapError (.package "upgrade" package)) :=
        Ending.of_call (fun outcome => ⟨.upgrade package, outcome⟩) outcome rfl
          (Setback.upgrade package)
      exact Ending.cons rfl (Ending.cons rfl (Ending.cons rfl hcall))
  | refused h =>
      exact Ending.cons rfl (Ending.cons rfl h.ending)
  | installed outcome h =>
      have hcall : Ending manager [⟨.install package, outcome⟩]
          (outcome.mapError (.package "install" package)) :=
        Ending.of_call (fun outcome => ⟨.install package, outcome⟩) outcome rfl
          (Setback.install package)
      have hasked : Ending manager _ (.ok ()) := h.ending
      have hreported : Ending manager
          [⟨.inform ("installing " ++ quoted package), ()⟩, ⟨.install package, outcome⟩]
          (outcome.mapError (.package "install" package)) :=
        Ending.cons rfl hcall
      exact Ending.cons rfl (Ending.cons rfl (Ending.sequential.append hasked hreported))

theorem ending_script (id : String) (script : Script) (outcome : Except Failure Unit) :
    Ending manager
      [⟨.poll, false⟩, ⟨.inform ("building " ++ quoted id ++ " from source"), ()⟩,
        ⟨.build script, outcome⟩]
      (outcome.mapError (.script id)) := by
  have hcall : Ending manager [⟨.build script, outcome⟩] (outcome.mapError (.script id)) :=
    Ending.of_call (fun outcome => ⟨.build script, outcome⟩) outcome rfl (Setback.build id script)
  exact Ending.cons rfl (Ending.cons rfl hcall)

theorem ending_piecewise : Piecewise manager (Ending manager) where
  toSequential := Ending.sequential
  prepared h := h.ending
  interrupted := Ending.of_setback Setback.interrupted
  passed := Ending.completed (by simp [Event.isSetback])
  ensured h := h.ending
  unsupported id platform := Ending.of_setback (Setback.unsupported id platform)
  found id probe := Ending.completed (by simp [Event.isSetback, Event.failure?])
  missed probe := Ending.completed (by simp [Event.isSetback, Event.failure?])
  script := ending_script

/-- A run ends without a setback, or with one that its result tells. -/
theorem ending_install (backend : Backend) (plan : Plan) :
    (install backend plan).Obeys (Ending backend.manager) :=
  ending_piecewise.install plan

end Parts

/-! ## Where setbacks are -/

theorem Setback.of_failed {manager : String} {last : List Event} {failure : Failure} {e : Event}
    (h : Setback manager last failure) (hmem : e ∈ last) (he : e.failure?.isSome) : last = [e] := by
  -- neither a poll nor a question is a failing call
  cases h with
  | unsupported id platform =>
      cases hmem
  | interrupted =>
      rw [List.mem_singleton.1 hmem] at he
      cases he
  | overruled question =>
      rcases List.mem_cons.1 hmem with rfl | hpoll
      · cases he
      · rw [List.mem_singleton.1 hpoll] at he
        cases he
  | declined missing =>
      rcases List.mem_cons.1 hmem with rfl | hpoll
      · cases he
      · rw [List.mem_singleton.1 hpoll] at he
        cases he
  | update | bootstrap | check | install | upgrade | build =>
      rw [List.mem_singleton.1 hmem]

/-- A question that is answered no is followed by one poll, and by nothing else. -/
theorem Setback.of_refused {manager : String} {last : List Event} {failure : Failure}
    {question : String} (h : Setback manager last failure) (hmem : ⟨.ask question, false⟩ ∈ last) :
    (last = [⟨.ask question, false⟩, ⟨.poll, true⟩] ∧ failure = .interrupted) ∨
      ∃ missing, question = offer missing ∧ last = [⟨.ask question, false⟩, ⟨.poll, false⟩] ∧
        failure = .declined (refusal missing) := by
  cases h with
  | overruled asked =>
      have heq : question = asked := by simpa using hmem
      subst heq
      exact Or.inl ⟨rfl, rfl⟩
  | declined missing =>
      have heq : question = offer missing := by simpa using hmem
      subst heq
      exact Or.inr ⟨missing, rfl, rfl, rfl⟩
  | _ =>
      simp at hmem

/-- An interruption that is reported is the very last event. -/
theorem Setback.of_interrupted {manager : String} {last : List Event} {failure : Failure}
    (h : Setback manager last failure) (hmem : ⟨.poll, true⟩ ∈ last) :
    failure = .interrupted ∧
      ∃ skipped, last = skipped ++ [⟨.poll, true⟩] ∧ (⟨.poll, true⟩ : Event) ∉ skipped := by
  cases h with
  | interrupted =>
      exact ⟨rfl, [], rfl, by simp⟩
  | overruled question =>
      exact ⟨rfl, [⟨.ask question, false⟩], rfl, by simp⟩
  | _ =>
      simp at hmem

/-- An event that is not at the front of a list is behind it. -/
theorem cut_of_not_mem {front last before after : List Event} {e : Event} (hfront : e ∉ front)
    (heq : before ++ e :: after = front ++ last) :
    ∃ skipped, before = front ++ skipped ∧ last = skipped ++ e :: after := by
  rcases cut_append heq.symm with ⟨mid, rfl, -⟩ | hbehind
  · exact absurd (by simp) hfront
  · exact hbehind

namespace Ending

variable {manager : String} {before after es : List Event} {result : Except Failure Unit}
  {e : Event}

/-- A setback is among the last events of a run. -/
theorem of_mem (h : Ending manager (before ++ e :: after) result) (he : e.isSetback = true) :
    ∃ skipped failure, result = .error failure ∧
      Setback manager (skipped ++ e :: after) failure := by
  generalize heq : before ++ e :: after = es at h
  cases h with
  | completed hs =>
      have hmem : e ∈ es := by
        rw [← heq]
        simp
      rw [hs e hmem] at he
      cases he
  | broken hs hb =>
      -- what came before the last events was smooth, so the setback is not there
      have hfront : e ∉ _ := fun hmem => by
        rw [hs e hmem] at he
        cases he
      rcases cut_of_not_mem hfront heq with ⟨skipped, rfl, rfl⟩
      exact ⟨skipped, _, rfl, hb⟩

/-- A failing call is the last event of a run, and the run fails on account of it. -/
theorem of_failed (h : Ending manager (before ++ e :: after) result) (he : e.failure?.isSome) :
    after = [] ∧ ∃ failure, result = .error failure ∧ Setback manager [e] failure := by
  rcases h.of_mem (isSetback_of_failure he) with ⟨skipped, failure, rfl, hb⟩
  -- a failing call breaks a run off alone, with nothing beside it
  have hlast : skipped ++ e :: after = [e] := hb.of_failed (by simp) he
  have hskipped : skipped = [] ∧ after = [] := by
    simpa [List.append_eq_singleton_iff] using hlast
  rcases hskipped with ⟨rfl, rfl⟩
  exact ⟨rfl, failure, rfl, hb⟩

/-- After a no there is one poll, and the result is its report or that the offer was declined. -/
theorem of_refused {question : String}
    (h : Ending manager (before ++ ⟨.ask question, false⟩ :: after) result) :
    (after = [⟨.poll, true⟩] ∧ result = .error .interrupted) ∨
      ∃ missing, question = offer missing ∧ after = [⟨.poll, false⟩] ∧
        result = .error (.declined (refusal missing)) := by
  rcases h.of_mem rfl with ⟨skipped, failure, rfl, hb⟩
  have hmem : (⟨.ask question, false⟩ : Event) ∈ skipped ++ ⟨.ask question, false⟩ :: after := by
    simp
  have hcases := hb.of_refused hmem
  cases skipped with
  | nil =>
      rcases hcases with ⟨hlast, rfl⟩ | ⟨missing, hquestion, hlast, rfl⟩
      · exact Or.inl ⟨(List.cons.inj hlast).2, rfl⟩
      · exact Or.inr ⟨missing, hquestion, (List.cons.inj hlast).2, rfl⟩
  | cons other skipped =>
      -- the no would be the second of the last two events, and that is a poll
      rcases hcases with ⟨hlast, -⟩ | ⟨missing, -, hlast, -⟩ <;>
        simp [List.append_eq_cons_iff] at hlast

/-- Nothing follows a poll that reports an interruption, and it is the result of the run. -/
theorem of_interrupted (h : Ending manager (before ++ ⟨.poll, true⟩ :: after) result) :
    after = [] ∧ result = .error .interrupted := by
  rcases h.of_mem rfl with ⟨skipped, failure, rfl, hb⟩
  rcases hb.of_interrupted (by simp) with ⟨rfl, front, hlast, hfront⟩
  rcases cut_of_not_mem hfront hlast with ⟨between, -, hend⟩
  have hafter : between = [] ∧ after = [] := by
    simpa [List.append_eq_singleton_iff] using hend.symm
  exact ⟨hafter.2, rfl⟩

/-- A run that fails ends with the events that its failure stands for. -/
theorem last_of_error {failure : Failure} (h : Ending manager es (.error failure)) :
    ∃ front last, es = front ++ last ∧ Smooth front ∧ Setback manager last failure := by
  cases h with
  | broken hs hb =>
      exact ⟨_, _, rfl, hs, hb⟩

/-- A run is interrupted if and only if a poll reports it. -/
theorem interrupted_iff (h : Ending manager es result) :
    result = .error .interrupted ↔ ⟨.poll, true⟩ ∈ es := by
  constructor
  · intro hresult
    subst hresult
    rcases h.last_of_error with ⟨front, last, rfl, -, hb⟩
    cases hb <;> simp
  · intro hmem
    rcases List.append_of_mem hmem with ⟨before, after, rfl⟩
    exact h.of_interrupted.2

end Ending

end Installer
end Provision

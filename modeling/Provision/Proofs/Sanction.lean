import Provision.Proofs.Ending

/-!
# Sanction — nothing changes on a host without a query and consent

Every call that changes something is sanctioned by the calls right before it: by what was found, and
by the operator's yes where something is missing.  A build script runs only after its own probe has
failed and the packages that it needs were provided.  A no is the last call of a run.  This file
defines:

* `Amid`, `Throughout` — a condition at every event of a log, on what came before it and what comes
  behind;
* `Provided`, `ProvidedAll` — the calls by which packages are provided;
* `Sanction` — what must stand before a call;
* `Sanctioned`, `install_sanctioned` — every run of the installer keeps to this.
-/

namespace Provision

/-! ## Conditions at every event -/

/-- At every event the condition holds of what came before it and of what comes behind it. -/
def Amid (condition : List Event → Event → List Event → Prop) (es : List Event) : Prop :=
  ∀ before e after, es = before ++ e :: after → condition before e after

section Amid

variable {condition : List Event → Event → List Event → Prop}

@[simp] theorem amid_nil : Amid condition [] := by
  intro before e after h
  simp at h

@[simp] theorem amid_cons {e : Event} {es : List Event} :
    Amid condition (e :: es) ↔
      condition [] e es ∧ Amid (fun before => condition (e :: before)) es := by
  constructor
  · intro h
    refine ⟨h [] e es rfl, ?_⟩
    intro before other after hes
    exact h (e :: before) other after (by rw [hes, List.cons_append])
  · intro h before other after hsplit
    rcases h with ⟨hfirst, hrest⟩
    cases before with
    | nil =>
        cases hsplit
        exact hfirst
    | cons first before =>
        rcases List.cons.inj hsplit with ⟨rfl, hes⟩
        exact hrest before other after hes

/-- A condition that more events on either side leave alone passes from two logs to the one after
the other. -/
theorem Amid.append
    (hmore : ∀ {before e after} (earlier later), condition before e after →
      condition (earlier ++ before) e (after ++ later))
    {front back : List Event} (hfront : Amid condition front) (hback : Amid condition back) :
    Amid condition (front ++ back) := by
  intro before e after hsplit
  rcases cut_append hsplit with ⟨mid, hcut, rfl⟩ | ⟨mid, rfl, hcut⟩
  · simpa using hmore [] back (hfront before e mid hcut)
  · simpa using hmore front [] (hback mid e after hcut)

end Amid

/-- At every event the condition holds of what came before it. -/
def Throughout (condition : List Event → Event → Prop) (es : List Event) : Prop :=
  ∀ before e after, es = before ++ e :: after → condition before e

section Throughout

variable {condition : List Event → Event → Prop}

theorem throughout_iff {es : List Event} :
    Throughout condition es ↔ Amid (fun before e _ => condition before e) es :=
  Iff.rfl

@[simp] theorem throughout_nil : Throughout condition [] :=
  throughout_iff.2 amid_nil

@[simp] theorem throughout_cons {e : Event} {es : List Event} :
    Throughout condition (e :: es) ↔
      condition [] e ∧ Throughout (fun before => condition (e :: before)) es := by
  simp only [throughout_iff, amid_cons]

@[simp] theorem throughout_append {front back : List Event} :
    Throughout condition (front ++ back) ↔
      Throughout condition front ∧ Throughout (fun before => condition (front ++ before)) back := by
  induction front generalizing condition with
  | nil =>
      simp
  | cons e front ih =>
      simp only [List.cons_append, throughout_cons, ih, and_assoc]

theorem Throughout.mono {weaker : List Event → Event → Prop} {es : List Event}
    (h : Throughout condition es) (hle : ∀ before e, condition before e → weaker before e) :
    Throughout weaker es := by
  intro before e after hes
  apply hle
  exact h before e after hes

/-- A condition that more events in front leave alone passes from two logs to the one after the
other. -/
theorem Throughout.append
    (hmore : ∀ {earlier before e}, condition before e → condition (earlier ++ before) e)
    {front back : List Event} (hfront : Throughout condition front)
    (hback : Throughout condition back) : Throughout condition (front ++ back) := by
  have hlater : Throughout (fun before => condition (front ++ before)) back :=
    hback.mono fun before e h => hmore h
  exact throughout_append.2 ⟨hfront, hlater⟩

end Throughout

namespace Installer

open Procedure

/-! ## Sanctions -/

/-- The calls by which a package is provided. -/
inductive Provided (package : String) : List Event → Prop where
  | upgraded : Provided package [⟨.check package, .ok true⟩, ⟨.upgrade package, .ok ()⟩]
  | installed :
      Provided package
        [⟨.check package, .ok false⟩, ⟨.ask (offer package), true⟩, ⟨.install package, .ok ()⟩]

/-- The calls by which packages are provided, one after another. -/
inductive ProvidedAll : List String → List Event → Prop where
  | nil : ProvidedAll [] []
  | cons {package : String} {packages : List String} {front back : List Event} :
      Provided package front → ProvidedAll packages back →
        ProvidedAll (package :: packages) (front ++ back)

/-- What must stand right before a call, when `ids` are requested. -/
def Sanction (backend : Backend) (ids : List String) (before : List Event) (e : Event) : Prop :=
  match e.request with
  | .update => [⟨.available, true⟩] <:+ before
  | .bootstrap => [⟨.available, false⟩, ⟨.ask (offer backend.manager), true⟩] <:+ before
  | .upgrade package => [⟨.check package, .ok true⟩] <:+ before
  | .install package => [⟨.check package, .ok false⟩, ⟨.ask (offer package), true⟩] <:+ before
  | .build script =>
      ∃ id ∈ ids, ∃ probe needs deps,
        (backend.step id).routine = some (.fromSource probe needs script) ∧
          ProvidedAll needs deps ∧ ⟨.probe probe, false⟩ :: deps <:+ before
  | _ => True

section Parts

variable {backend : Backend} {ids : List String} {es : List Event} {result : Except Failure Unit}

/-- What stands right before a call stays there when more comes before. -/
theorem Sanction.prepend {before : List Event} {e : Event} (earlier : List Event)
    (h : Sanction backend ids before e) : Sanction backend ids (earlier ++ before) e := by
  have hsuffix : ∀ last : List Event, last <:+ before → last <:+ earlier ++ before := by
    intro last hlast
    exact hlast.trans (List.suffix_append earlier before)
  rcases e with ⟨r, answer⟩
  cases r with
  | update | bootstrap | upgrade | install =>
      exact hsuffix _ h
  | build script =>
      rcases h with ⟨id, hid, probe, needs, deps, hroutine, hdeps, hlast⟩
      exact ⟨id, hid, probe, needs, deps, hroutine, hdeps, hsuffix _ hlast⟩
  | poll | available | check | ask | probe | inform =>
      exact trivial

/-- The calls among some events are sanctioned. -/
def Orderly (backend : Backend) (ids : List String) (es : List Event) : Prop :=
  Throughout (Sanction backend ids) (callsOf es)

theorem Orderly.append {front back : List Event} (hfront : Orderly backend ids front)
    (hback : Orderly backend ids back) : Orderly backend ids (front ++ back) := by
  rw [Orderly, callsOf_append]
  exact Throughout.append (fun h => h.prepend _) hfront hback

theorem orderly_sequential :
    Sequential fun es (_ : Except Failure Unit) => Orderly backend ids es where
  nil := throughout_nil
  append hfront hback := hfront.append hback

theorem Consented.orderly {missing : String} (h : Consented missing es result) :
    Orderly backend ids es := by
  cases h <;> simp [Orderly, callsOf_cons, Event.isCall, Sanction]

theorem Consented.calls {missing : String} (h : Consented missing es (.ok ())) :
    callsOf es = [⟨.ask (offer missing), true⟩] := by
  cases h
  rfl

theorem Prepared.orderly (h : Prepared backend.manager es result) : Orderly backend ids es := by
  cases h with
  | updated outcome =>
      simp [Orderly, callsOf_cons, Event.isCall, Sanction]
  | refused h =>
      have hrest : Orderly backend ids _ := h.orderly
      have hfirst : Orderly backend ids [⟨.available, false⟩] := by
        simp [Orderly, callsOf_cons, Event.isCall, Sanction]
      exact hfirst.append hrest
  | bootstrapped outcome h =>
      simp [Orderly, callsOf_cons, h.calls, Event.isCall, Sanction]

theorem Ensured.orderly {package : String} (h : Ensured package es result) :
    Orderly backend ids es := by
  cases h with
  | interrupted | unchecked | upgraded =>
      simp [Orderly, callsOf_cons, Event.isCall, Sanction]
  | refused h =>
      have hrest : Orderly backend ids _ := h.orderly
      have hfirst : Orderly backend ids [⟨.poll, false⟩, ⟨.check package, .ok false⟩] := by
        simp [Orderly, callsOf_cons, Event.isCall, Sanction]
      exact hfirst.append hrest
  | installed outcome h =>
      simp [Orderly, callsOf_cons, h.calls, Event.isCall, Sanction]

/-- A package that is ensured was provided. -/
theorem Ensured.provided {package : String} (h : Ensured package es (.ok ())) :
    Provided package (callsOf es) := by
  generalize hr : (Except.ok () : Except Failure Unit) = result at h
  cases h with
  | interrupted | unchecked | refused =>
      cases hr
  | upgraded outcome =>
      cases outcome <;> cases hr
      exact Provided.upgraded
  | installed outcome h =>
      cases outcome <;> cases hr
      -- the question is the only call between the check and the installation
      simpa [callsOf_cons, h.calls, Event.isCall] using Provided.installed

theorem providedAll_of_course {packages : List String}
    (h : (ensureAll packages).Course es (.ok ())) : ProvidedAll packages (callsOf es) := by
  induction packages generalizing es with
  | nil =>
      rcases course_done.1 h with ⟨rfl, -⟩
      exact ProvidedAll.nil
  | cons package packages ih =>
      rcases course_bind.1 h with ⟨failure, -, hfailure⟩ | ⟨_, front, back, rfl, hfront, hback⟩
      · cases hfailure
      have hfirst : Provided package (callsOf front) := (course_ensure.1 hfront).provided
      have hrest : ProvidedAll packages (callsOf back) := ih hback
      rw [callsOf_append]
      exact ProvidedAll.cons hfirst hrest

theorem orderly_ensure (package : String) :
    (ensure package).Obeys fun es _ => Orderly backend ids es := by
  intro es result h
  exact (course_ensure.1 h).orderly

theorem orderly_ensureAll (packages : List String) :
    (ensureAll packages).Obeys fun es _ => Orderly backend ids es :=
  obeys_ensureAll orderly_sequential fun package _ => orderly_ensure package

theorem orderly_checkpoint : checkpoint.Obeys fun es _ => Orderly backend ids es := by
  intro es result h
  rcases course_checkpoint.1 h with ⟨rfl, -⟩ | ⟨rfl, -⟩
  all_goals exact throughout_nil

theorem Built.orderly {id : String} {probe : Probe} {needs : List String} {script : Script}
    (hid : id ∈ ids) (hroutine : (backend.step id).routine = some (.fromSource probe needs script))
    (h : Built id probe needs script es result) : Orderly backend ids es := by
  have hprobe : ∀ built, Orderly backend ids [⟨.probe probe, built⟩] := by
    intro built
    simp [Orderly, callsOf_cons, Event.isCall, Sanction]
  cases h with
  | already =>
      exact hprobe true
  | needy h =>
      have hneeds : Orderly backend ids _ := orderly_ensureAll needs _ _ h
      exact (hprobe false).append hneeds
  | interrupted h =>
      have hneeds : Orderly backend ids _ := orderly_ensureAll needs _ _ h
      have hpoll : Orderly backend ids [⟨.poll, true⟩] := throughout_nil
      exact ((hprobe false).append hneeds).append hpoll
  | @ran deps outcome h =>
      have hneeds : Orderly backend ids deps := orderly_ensureAll needs _ _ h
      have hbefore : Orderly backend ids (⟨.probe probe, false⟩ :: deps) :=
        (hprobe false).append hneeds
      have hprovided : ProvidedAll needs (callsOf deps) := providedAll_of_course h
      have hcalls : callsOf (⟨.probe probe, false⟩ :: deps ++
          [⟨.poll, false⟩, ⟨.inform ("building " ++ quoted id ++ " from source"), ()⟩,
            ⟨.build script, outcome⟩]) =
          callsOf (⟨.probe probe, false⟩ :: deps) ++ [⟨.build script, outcome⟩] :=
        callsOf_append _ _
      -- the script is the last call, and all calls of the step stand before it
      have hscript : Sanction backend ids (callsOf (⟨.probe probe, false⟩ :: deps))
          ⟨.build script, outcome⟩ :=
        ⟨id, hid, probe, needs, callsOf deps, hroutine, hprovided, List.suffix_refl _⟩
      rw [Orderly, hcalls, throughout_append]
      refine ⟨hbefore, ?_⟩
      simpa using hscript

theorem orderly_step {id : String} (hid : id ∈ ids) :
    (step backend.platformName (backend.step id)).Obeys fun es _ => Orderly backend ids es := by
  refine obeys_step orderly_sequential throughout_nil
    (fun _ _ package _ => orderly_ensure package) ?_
  intro probe needs script es result hroutine h
  exact h.orderly hid hroutine

theorem orderly_install :
    (install backend (backend.plan ids)).Obeys fun es _ => Orderly backend ids es := by
  refine obeys_install orderly_sequential ?_ orderly_checkpoint ?_
  · intro es result h
    exact (course_prepare.1 h).orderly
  · intro s hs
    rcases List.mem_map.1 hs with ⟨id, hid, rfl⟩
    exact orderly_step hid

end Parts

/-! ## The call log -/

/-- What holds of the calls of a run and its result. -/
structure Sanctioned (backend : Backend) (ids : List String) (calls : List Event)
    (result : Except Failure Unit) : Prop where
  sanction : Throughout (Sanction backend ids) calls
  /-- A no is the last call, and the run fails on account of it or of an interruption. -/
  refused : ∀ before question after, calls = before ++ ⟨.ask question, false⟩ :: after →
    after = [] ∧ (result = .error .interrupted ∨
      ∃ missing, question = offer missing ∧ result = .error (.declined (refusal missing)))

/-- A call in the log stands among the events of the run. -/
theorem cut_of_callsOf {es before after : List Event} {e : Event}
    (h : callsOf es = before ++ e :: after) :
    ∃ front back, es = front ++ e :: back ∧ callsOf front = before ∧ callsOf back = after := by
  rcases List.filter_eq_append_iff.1 h with ⟨front, rest, rfl, hfront, hrest⟩
  -- polls and reports may stand between the earlier calls and this one
  rcases List.filter_eq_cons_iff.1 hrest with ⟨skipped, back, rfl, hskipped, -, hback⟩
  have hnone : callsOf skipped = [] := List.filter_eq_nil_iff.2 hskipped
  refine ⟨front ++ skipped, back, (List.append_assoc ..).symm, ?_, hback⟩
  calc
    callsOf (front ++ skipped)
        = callsOf front ++ callsOf skipped := callsOf_append front skipped
    _ = callsOf front := by rw [hnone, List.append_nil]
    _ = before := hfront

/-- In all surroundings the calls of a run are sanctioned by the calls before them. -/
theorem install_sanctioned {σ : Type} (env : Surroundings σ) (s : σ) (backend : Backend)
    (ids : List String) :
    Sanctioned backend ids
      (callsOf ((install backend (backend.plan ids)).run env s).events)
      ((install backend (backend.plan ids)).run env s).result := by
  have hrun := run_course env (install backend (backend.plan ids)) s
  have hending := ending_install backend (backend.plan ids) _ _ hrun
  refine ⟨orderly_install _ _ hrun, ?_⟩
  intro before question after hcalls
  rcases cut_of_callsOf hcalls with ⟨front, back, hes, -, rfl⟩
  rw [hes] at hending
  rcases hending.of_refused with ⟨rfl, hresult⟩ | ⟨missing, hquestion, rfl, hresult⟩
  · exact ⟨rfl, Or.inl hresult⟩
  · exact ⟨rfl, Or.inr ⟨missing, hquestion, hresult⟩⟩

end Installer
end Provision

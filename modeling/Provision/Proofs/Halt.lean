import Provision.Proofs.Ledger
import Provision.Proofs.Sanction

/-!
# Halt — what is still begun after an interruption

An interruption is noticed at the next poll.  There is a poll right before the package manager is
installed, before every package is installed and before every build script, so that none of these is
begun once the run was interrupted, during whatever call.  Between the check that finds a package
and its upgrade there is no poll: an interruption during this check comes too late for the upgrade.
This file defines:

* `Event.isChange` — the calls that change the host;
* `Guard` — what stands right before such a call, polls included;
* `Pursued` — a check that finds its package is followed by the upgrade;
* `Halted`, `install_halted` — what comes after a call during which the run was interrupted.
-/

namespace Provision

/-- The event is a call that changes the host. -/
def Event.isChange (e : Event) : Bool :=
  match e.request with
  | .bootstrap | .install _ | .upgrade _ | .build _ => true
  | _ => false

namespace Installer

open Procedure

/-! ## Polls before changes -/

/-- What must stand right before a check and before a change: a poll without an interruption, or for
an upgrade the check that found the package. -/
def Guard (before : List Event) (e : Event) : Prop :=
  match e.request with
  | .check _ => [⟨.poll, false⟩] <:+ before
  | .bootstrap | .install _ | .build _ =>
      ∃ message, [⟨.poll, false⟩, ⟨.inform message, ()⟩] <:+ before
  | .upgrade package =>
      ∃ message, [⟨.check package, .ok true⟩, ⟨.inform message, ()⟩] <:+ before
  | _ => True

/-- All checks and changes are guarded. -/
abbrev Guarded (es : List Event) : Prop :=
  Throughout Guard es

section Parts

variable {es : List Event} {result : Except Failure Unit}

theorem Guard.prepend {earlier before : List Event} {e : Event} (h : Guard before e) :
    Guard (earlier ++ before) e := by
  have hsuffix : ∀ {last : List Event}, last <:+ before → last <:+ earlier ++ before :=
    fun hlast => hlast.trans (List.suffix_append earlier before)
  rcases e with ⟨r, answer⟩
  cases r with
  | check package =>
      exact hsuffix h
  | bootstrap | install | upgrade | build =>
      rcases h with ⟨message, hlast⟩
      exact ⟨message, hsuffix hlast⟩
  | poll | available | update | ask | probe | inform =>
      exact trivial

theorem Guarded.append {front back : List Event} (hfront : Guarded front) (hback : Guarded back) :
    Guarded (front ++ back) :=
  Throughout.append Guard.prepend hfront hback

theorem Consented.guarded {missing : String} (h : Consented missing es result) : Guarded es := by
  cases h <;> simp [Guard]

theorem Prepared.guarded {manager : String} (h : Prepared manager es result) : Guarded es := by
  cases h with
  | updated outcome =>
      simp [Guard]
  | refused h =>
      have hfirst : Guarded [⟨.available, false⟩] := by simp [Guard]
      exact hfirst.append h.guarded
  | bootstrapped outcome h =>
      -- with consent, the last poll of the question is the one before the bootstrap
      cases h
      simp [Guard, List.suffix_cons_iff]

theorem Ensured.guarded {package : String} (h : Ensured package es result) : Guarded es := by
  cases h with
  | interrupted | unchecked =>
      simp [Guard]
  | upgraded outcome =>
      -- the only poll here stands before the check
      simp [Guard, List.suffix_cons_iff]
  | refused h =>
      have hfirst : Guarded [⟨.poll, false⟩, ⟨.check package, .ok false⟩] := by simp [Guard]
      exact hfirst.append h.guarded
  | installed outcome h =>
      -- here the last poll of the question stands before the installation
      cases h
      simp [Guard, List.suffix_cons_iff]

/-- All pieces of a run are guarded, each by itself. -/
theorem guarded_piecewise {manager : String} :
    Piecewise manager fun es (_ : Except Failure Unit) => Guarded es where
  nil := throughout_nil
  append hfront hback := hfront.append hback
  prepared h := h.guarded
  interrupted := by simp [Guard]
  passed := by simp [Guard]
  ensured h := h.guarded
  unsupported _ _ := throughout_nil
  found id probe := by simp [Guard]
  missed probe := by simp [Guard]
  script id script outcome := by simp [Guard, List.suffix_cons_iff]

end Parts

/-! ## Upgrades behind checks -/

/-- A check that finds its package is followed by the upgrade of the package, with only a report
between. -/
def Pursued (es : List Event) : Prop :=
  ∀ before package after, es = before ++ ⟨.check package, .ok true⟩ :: after →
    ∃ message outcome rest, after = ⟨.inform message, ()⟩ :: ⟨.upgrade package, outcome⟩ :: rest

section Pursued

variable {es : List Event} {result : Except Failure Unit}

/-- Behind such a check its upgrade stands. -/
def Pursuit (_ : List Event) (e : Event) (after : List Event) : Prop :=
  ∀ package, e = ⟨.check package, .ok true⟩ →
    ∃ message outcome rest, after = ⟨.inform message, ()⟩ :: ⟨.upgrade package, outcome⟩ :: rest

theorem pursued_iff : Pursued es ↔ Amid Pursuit es := by
  constructor
  · intro h before e after hes package he
    subst he
    exact h before package after hes
  · intro h before package after hes
    exact h before ⟨.check package, .ok true⟩ after hes package rfl

@[simp] theorem pursued_nil : Pursued [] :=
  pursued_iff.2 amid_nil

theorem pursued_cons {e : Event} :
    Pursued (e :: es) ↔
      (∀ package, e = ⟨.check package, .ok true⟩ →
        ∃ message outcome rest, es = ⟨.inform message, ()⟩ :: ⟨.upgrade package, outcome⟩ :: rest) ∧
      Pursued es := by
  rw [pursued_iff, pursued_iff]
  exact amid_cons

/-- Any event but a check that finds its package may stand in front. -/
theorem Pursued.cons {e : Event} (he : ∀ package, e ≠ ⟨.check package, .ok true⟩) (h : Pursued es) :
    Pursued (e :: es) :=
  pursued_cons.2 ⟨fun package heq => absurd heq (he package), h⟩

theorem Pursuit.extend {before after : List Event} {e : Event} (earlier later : List Event)
    (h : Pursuit before e after) : Pursuit (earlier ++ before) e (after ++ later) := by
  intro package he
  rcases h package he with ⟨message, outcome, rest, rfl⟩
  exact ⟨message, outcome, rest ++ later, rfl⟩

theorem Pursued.append {front back : List Event} (hfront : Pursued front) (hback : Pursued back) :
    Pursued (front ++ back) :=
  pursued_iff.2 (Amid.append Pursuit.extend (pursued_iff.1 hfront) (pursued_iff.1 hback))

theorem Consented.pursued {missing : String} (h : Consented missing es result) : Pursued es := by
  cases h <;> simp [pursued_cons]

theorem Prepared.pursued {manager : String} (h : Prepared manager es result) : Pursued es := by
  cases h with
  | updated outcome =>
      simp [pursued_cons]
  | refused h =>
      exact h.pursued.cons (by simp)
  | bootstrapped outcome h =>
      have hend : Pursued [⟨.inform ("installing " ++ manager), ()⟩, ⟨.bootstrap, outcome⟩] := by
        simp [pursued_cons]
      exact (h.pursued.append hend).cons (by simp)

theorem Ensured.pursued {package : String} (h : Ensured package es result) : Pursued es := by
  cases h with
  | interrupted | unchecked | upgraded =>
      simp [pursued_cons]
  | refused h =>
      exact (h.pursued.cons (by simp)).cons (by simp)
  | installed outcome h =>
      have hend : Pursued [⟨.inform ("installing " ++ quoted package), ()⟩,
          ⟨.install package, outcome⟩] := by
        simp [pursued_cons]
      exact ((h.pursued.append hend).cons (by simp)).cons (by simp)

/-- No piece of a run ends between a check and its upgrade. -/
theorem pursued_piecewise {manager : String} :
    Piecewise manager fun es (_ : Except Failure Unit) => Pursued es where
  nil := pursued_nil
  append hfront hback := hfront.append hback
  prepared h := h.pursued
  interrupted := by simp [pursued_cons]
  passed := by simp [pursued_cons]
  ensured h := h.pursued
  unsupported _ _ := pursued_nil
  found id probe := by simp [pursued_cons]
  missed probe := by simp [pursued_cons]
  script id script outcome := by simp [pursued_cons]

end Pursued

/-! ## After an interruption -/

/-- What stands right before some point behind an event stands behind it altogether, or holds the
event. -/
theorem mem_of_suffix {last before mid : List Event} {e : Event} (h : last <:+ before ++ e :: mid) :
    last <:+ mid ∨ e ∈ last := by
  rcases h with ⟨front, hsplit⟩
  rcases cut_append hsplit with ⟨more, -, rfl⟩ | ⟨more, -, rfl⟩
  · exact Or.inl (List.suffix_append more last)
  · exact Or.inr (by simp)

section Raised

variable {before mid after last : List Event} {e : Event}

/-- No poll without an interruption stands right before a point behind the call, when all polls from
the call on report one. -/
theorem not_polled_of_raised (hlast : ∀ other ∈ last, other.isCall = false)
    (hcall : e.isCall = true) (hraised : ∀ answer, ⟨.poll, answer⟩ ∈ mid → answer = true) :
    ¬ ⟨.poll, false⟩ :: last <:+ before ++ e :: mid := by
  intro hsuffix
  rcases mem_of_suffix hsuffix with hmid | hmem
  · have hpoll : (⟨.poll, false⟩ : Event) ∈ mid := hmid.subset (List.mem_cons_self ..)
    cases hraised false hpoll
  · -- the call itself is no poll, and no report
    rcases List.mem_cons.1 hmem with rfl | hmem
    · cases hcall
    · cases (hlast e hmem).symm.trans hcall

/-- Only a check that finds its package has a change behind it. -/
theorem Guarded.check_of_change (h : Guarded (before ++ e :: after)) (hcall : e.isCall = true)
    (hraised : ∀ answer, ⟨.poll, answer⟩ ∈ after → answer = true) {other : Event}
    (hother : other ∈ after) (hchange : other.isChange = true) :
    ∃ package, e = ⟨.check package, .ok true⟩ := by
  rcases List.append_of_mem hother with ⟨mid, rest, rfl⟩
  have hguard : Guard (before ++ e :: mid) other := h (before ++ e :: mid) other rest (by simp)
  have hmid : ∀ answer, ⟨.poll, answer⟩ ∈ mid → answer = true :=
    fun answer hpoll => hraised answer (List.mem_append_left _ hpoll)
  have hreport : ∀ message, ∀ report ∈ [(⟨.inform message, ()⟩ : Event)],
      report.isCall = false := by
    simp [Event.isCall]
  rcases other with ⟨r, outcome⟩
  cases r with
  | bootstrap | install | build =>
      rcases hguard with ⟨message, hsuffix⟩
      exact absurd hsuffix (not_polled_of_raised (hreport message) hcall hmid)
  | upgrade package =>
      rcases hguard with ⟨message, hsuffix⟩
      rcases mem_of_suffix hsuffix with hchecked | hmem
      · -- the check that found the package would come behind the call, so it would be behind a poll
        have hcheck : (⟨.check package, .ok true⟩ : Event) ∈ mid :=
          hchecked.subset (List.mem_cons_self ..)
        rcases List.append_of_mem hcheck with ⟨front, back, rfl⟩
        have hpolled : [⟨.poll, false⟩] <:+ before ++ e :: front :=
          h (before ++ e :: front) ⟨.check package, .ok true⟩
            (back ++ ⟨.upgrade package, outcome⟩ :: rest)
            (by simp)
        have hfront : ∀ answer, ⟨.poll, answer⟩ ∈ front → answer = true :=
          fun answer hpoll => hmid answer (List.mem_append_left _ hpoll)
        exact absurd hpolled (not_polled_of_raised (by simp) hcall hfront)
      · rcases List.mem_cons.1 hmem with rfl | hmem
        · exact ⟨package, rfl⟩
        · cases (hreport message e hmem).symm.trans hcall
  | poll | available | update | check | ask | probe | inform =>
      cases hchange

/-- Behind any call but a check that finds its package nothing is changed. -/
theorem Guarded.unchanged_of_raised (h : Guarded (before ++ e :: after)) (hcall : e.isCall = true)
    (hraised : ∀ answer, ⟨.poll, answer⟩ ∈ after → answer = true)
    (hcheck : ∀ package, e ≠ ⟨.check package, .ok true⟩) {other : Event} (hother : other ∈ after) :
    other.isChange = false := by
  apply Bool.eq_false_iff.2
  intro hchange
  rcases h.check_of_change hcall hraised hother hchange with ⟨package, he⟩
  exact hcheck package he

end Raised

/-- What comes of a run in which every poll behind the call `e` reports an interruption. -/
structure Halted (e : Event) (after : List Event) (result : Except Failure Unit) : Prop where
  failed : result ≠ .ok ()
  /-- Nothing is changed any more, unless the call is a check that finds its package. -/
  barred : (∀ package, e ≠ ⟨.check package, .ok true⟩) → ∀ other ∈ after, other.isChange = false
  /-- Behind such a check the package is upgraded, and then nothing is changed any more. -/
  pursued : ∀ package, e = ⟨.check package, .ok true⟩ →
    ∃ message outcome rest, after = ⟨.inform message, ()⟩ :: ⟨.upgrade package, outcome⟩ :: rest ∧
      ∀ other ∈ rest, other.isChange = false

/-- In all surroundings, an interruption that is raised during a call and stays bars every change
but the upgrade for a check. -/
theorem install_halted {σ : Type} (env : Surroundings σ) (s : σ) (backend : Backend)
    (ids : List String)
    {before after : List Event} {e : Event}
    (hrun : ((install backend (backend.plan ids)).run env s).events = before ++ e :: after)
    (hcall : e.isCall = true) (hraised : ∀ answer, ⟨.poll, answer⟩ ∈ after → answer = true) :
    Halted e after ((install backend (backend.plan ids)).run env s).result := by
  have hcourse := run_course env (install backend (backend.plan ids)) s
  rw [hrun] at hcourse
  have hguarded : Guarded (before ++ e :: after) := guarded_piecewise.install _ _ _ hcourse
  have hpursued : Pursued (before ++ e :: after) := pursued_piecewise.install _ _ _ hcourse
  refine ⟨?_, ?_, ?_⟩
  · intro hok
    -- the last event of a successful run is a poll without an interruption
    rw [hok] at hcourse
    rcases reached_of_ok hcourse with ⟨ready, work, hsplit, -, -⟩
    have hlast : [⟨.poll, false⟩] <:+ before ++ e :: after := ⟨ready ++ work, hsplit.symm⟩
    exact not_polled_of_raised (by simp) hcall hraised hlast
  · intro hcheck other hother
    exact hguarded.unchanged_of_raised hcall hraised hcheck hother
  · intro package he
    subst he
    rcases hpursued before package after rfl with ⟨message, outcome, rest, rfl⟩
    refine ⟨message, outcome, rest, rfl, ?_⟩
    intro other hother
    -- the upgrade is a call as well, made when the interruption had been raised already
    have hlater : Guarded ((before ++ [⟨.check package, .ok true⟩, ⟨.inform message, ()⟩]) ++
        ⟨.upgrade package, outcome⟩ :: rest) := by
      simpa using hguarded
    have hrest : ∀ answer, ⟨.poll, answer⟩ ∈ rest → answer = true :=
      fun answer hpoll => hraised answer (List.mem_cons_of_mem _ (List.mem_cons_of_mem _ hpoll))
    exact hlater.unchanged_of_raised rfl hrest (by simp) hother

end Installer

/-! ## A check that is interrupted -/

namespace Rehearsal

open Installer

/-- A scene that is interrupted while `nasm` is looked up. -/
def Scene.interruptedLookup : Scene :=
  { Scene.plain with interrupted := Interruption.afterCall "check nasm" }

/-- What happens there up to the check, when `nasm` is installed. -/
def beforeLookup : List Event :=
  [⟨.available, true⟩, ⟨.inform "updating apt", ()⟩, ⟨.update, .ok ()⟩, ⟨.poll, false⟩,
    ⟨.poll, false⟩]

/-- What happens behind the check, which finds `nasm`. -/
def afterLookup : List Event :=
  [⟨.inform "upgrading \"nasm\"", ()⟩, ⟨.upgrade "nasm", .ok ()⟩, ⟨.poll, true⟩]

theorem events_interruptedLookup :
    (Scene.interruptedLookup.rehearse .apt (Backend.apt.plan ["nasm"]) ⟨true, ["nasm"]⟩ []).events =
      beforeLookup ++ ⟨.check "nasm", .ok true⟩ :: afterLookup :=
  rfl

/-- The run fails, and the package is upgraded before. -/
theorem install_halted_nasm :
    (Scene.interruptedLookup.rehearse .apt (Backend.apt.plan ["nasm"]) ⟨true, ["nasm"]⟩ []).events =
        beforeLookup ++ ⟨.check "nasm", .ok true⟩ :: afterLookup ∧
      Halted ⟨.check "nasm", .ok true⟩ afterLookup
        (Scene.interruptedLookup.rehearse .apt (Backend.apt.plan ["nasm"]) ⟨true, ["nasm"]⟩
          []).result := by
  refine ⟨events_interruptedLookup, ?_⟩
  exact install_halted Scene.interruptedLookup.surroundings ⟨⟨true, ["nasm"]⟩, [], []⟩ .apt ["nasm"]
    events_interruptedLookup rfl (by simp [afterLookup])

/-- An interruption during a call does not bar every change: here the upgrade comes behind it. -/
theorem not_barred_nasm :
    ¬ ∀ before e after,
      (Scene.interruptedLookup.rehearse .apt (Backend.apt.plan ["nasm"]) ⟨true, ["nasm"]⟩
        []).events =
          before ++ e :: after →
        e.isCall = true → (∀ answer, ⟨.poll, answer⟩ ∈ after → answer = true) →
          ∀ other ∈ after, other.isChange = false := by
  intro h
  have hnone : (⟨.upgrade "nasm", .ok ()⟩ : Event).isChange = false :=
    h beforeLookup ⟨.check "nasm", .ok true⟩ afterLookup events_interruptedLookup rfl
      (by simp [afterLookup]) _ (by simp [afterLookup])
  cases hnone

end Rehearsal

end Provision

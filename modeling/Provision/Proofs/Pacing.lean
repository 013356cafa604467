import Provision.Proofs.Demand
import Provision.Proofs.Halt
import Provision.Proofs.Interruption
import Provision.Proofs.Progress

/-!
# Pacing — how polls and operations take turns

A run asks whether it was interrupted so often that no two operations follow each other without a
poll between them, and a question always stands between two polls.  In a run that succeeds the polls
can be counted: one for each step and one at the end, one for each check and each script, and two
for each question.  This file defines:

* `Event.isOperation` — the calls that change the host or refresh the index;
* `Enclosed` — a question has a poll on both sides;
* `Rested` — what came since the last poll, or since the beginning, is no operation;
* `Balance`, `Balanced` — the polls of some events are those that their calls bring, and some more;
* `Paced`, `install_paced` — every run of the installer is paced like this.
-/

namespace Provision

/-- The event is a call that changes the host or refreshes the index. -/
def Event.isOperation (e : Event) : Bool :=
  match e.request with
  | .bootstrap | .update | .install _ | .upgrade _ | .build _ => true
  | _ => false

def Event.isCheck (e : Event) : Bool :=
  match e.request with
  | .check _ => true
  | _ => false

/-- The event is the run of a build script. -/
def Event.isScript (e : Event) : Bool :=
  match e.request with
  | .build _ => true
  | _ => false

namespace Installer

open Procedure

section Parts

variable {es : List Event} {result : Except Failure Unit}

/-! ## Questions between polls -/

/-- A question has a poll right before it and a poll right behind it. -/
def Enclosure (before : List Event) (e : Event) (after : List Event) : Prop :=
  ∀ question yes, e = ⟨.ask question, yes⟩ →
    (∃ earlier, before = earlier ++ [⟨.poll, false⟩]) ∧
      ∃ answer later, after = ⟨.poll, answer⟩ :: later

/-- All questions have polls on both sides. -/
abbrev Enclosed (es : List Event) : Prop :=
  Amid Enclosure es

theorem Enclosure.extend {before after : List Event} {e : Event} (earlier later : List Event)
    (h : Enclosure before e after) : Enclosure (earlier ++ before) e (after ++ later) := by
  intro question yes he
  rcases h question yes he with ⟨⟨more, rfl⟩, answer, rest, rfl⟩
  exact ⟨⟨earlier ++ more, by simp⟩, answer, rest ++ later, rfl⟩

theorem Enclosed.append {front back : List Event} (hfront : Enclosed front)
    (hback : Enclosed back) : Enclosed (front ++ back) :=
  Amid.append Enclosure.extend hfront hback

theorem enclosed_of_quiet (h : questionsOf es = []) : Enclosed es := by
  intro before e after hes question yes he
  have hmem : question ∈ questionsOf es := mem_questionsOf.2 ⟨yes, by simp [hes, he]⟩
  rw [h] at hmem
  cases hmem

theorem Consented.enclosed {missing : String} (h : Consented missing es result) : Enclosed es := by
  cases h <;> simp [Enclosure]

theorem Prepared.enclosed {manager : String} (h : Prepared manager es result) : Enclosed es := by
  cases h with
  | updated outcome =>
      exact enclosed_of_quiet rfl
  | refused h =>
      have hfirst : Enclosed [⟨.available, false⟩] := enclosed_of_quiet rfl
      exact hfirst.append h.enclosed
  | bootstrapped outcome h =>
      have hfirst : Enclosed [⟨.available, false⟩] := enclosed_of_quiet rfl
      exact (hfirst.append h.enclosed).append (enclosed_of_quiet rfl)

theorem Ensured.enclosed {package : String} (h : Ensured package es result) : Enclosed es := by
  cases h with
  | interrupted | unchecked | upgraded =>
      exact enclosed_of_quiet rfl
  | refused h =>
      have hfirst : Enclosed [⟨.poll, false⟩, ⟨.check package, .ok false⟩] := enclosed_of_quiet rfl
      exact hfirst.append h.enclosed
  | installed outcome h =>
      have hfirst : Enclosed [⟨.poll, false⟩, ⟨.check package, .ok false⟩] := enclosed_of_quiet rfl
      exact (hfirst.append h.enclosed).append (enclosed_of_quiet rfl)

/-- Each piece of a run encloses its own questions. -/
theorem enclosed_piecewise {manager : String} :
    Piecewise manager fun es (_ : Except Failure Unit) => Enclosed es where
  nil := amid_nil
  append hfront hback := hfront.append hback
  prepared h := h.enclosed
  interrupted := enclosed_of_quiet rfl
  passed := enclosed_of_quiet rfl
  ensured h := h.enclosed
  unsupported _ _ := amid_nil
  found _ _ := enclosed_of_quiet rfl
  missed _ := enclosed_of_quiet rfl
  script _ _ _ := enclosed_of_quiet rfl

/-! ## Operations apart -/

/-- Behind every operation there was a poll. -/
def Rested (before : List Event) : Prop :=
  ∀ earlier e since, before = earlier ++ e :: since → e.isOperation = true →
    ∃ answer, ⟨.poll, answer⟩ ∈ since

theorem rested_of_idle {before : List Event} (h : ∀ e ∈ before, e.isOperation = false) :
    Rested before := by
  intro earlier e since hsplit hoperation
  have hidle : e.isOperation = false := h e (by simp [hsplit])
  exact Bool.noConfusion (hoperation.symm.trans hidle)

theorem rested_of_poll {earlier since : List Event} {answer : Bool}
    (h : ∀ e ∈ since, e.isOperation = false) : Rested (earlier ++ ⟨.poll, answer⟩ :: since) := by
  intro front e back hsplit hoperation
  rcases cut_append hsplit with ⟨mid, -, rfl⟩ | ⟨mid, -, hback⟩
  · exact ⟨answer, by simp⟩
  · -- the operation would be the poll itself, or be behind it
    have hmem : e ∈ (⟨.poll, answer⟩ : Event) :: since := by simp [hback]
    rcases List.mem_cons.1 hmem with rfl | hsince
    · cases hoperation
    · exact Bool.noConfusion (hoperation.symm.trans (h e hsince))

theorem Prepared.idle_before_update {manager : String} (h : Prepared manager es result) :
    Throughout
      (fun before e => e.request = .update → ∀ other ∈ before, other.isOperation = false) es := by
  cases h with
  | updated outcome =>
      simp [Event.isOperation]
  | refused h | bootstrapped _ h =>
      cases h <;> simp

/-- The index is refreshed before there is any other operation. -/
theorem idle_before_update {backend : Backend} {plan : Plan} {before after : List Event}
    {outcome : Except Failure Unit}
    (h : (install backend plan).Course (before ++ ⟨.update, outcome⟩ :: after) result) :
    ∀ e ∈ before, e.isOperation = false := by
  rcases course_bind.1 h with ⟨failure, hprepare, -⟩ | ⟨_, ready, work, hsplit, hready, hwork⟩
  · exact (course_prepare.1 hprepare).idle_before_update before ⟨.update, outcome⟩ after rfl rfl
  · rcases cut_append hsplit.symm with ⟨mid, rfl, -⟩ | ⟨mid, -, rfl⟩
    · exact (course_prepare.1 hready).idle_before_update before ⟨.update, outcome⟩ mid rfl rfl
    · -- the steps do not refresh the index
      have hunready : Unready (mid ++ ⟨.update, outcome⟩ :: after) := unready_steps _ _ _ _ hwork
      cases hunready ⟨.update, outcome⟩ (by simp)

/-- Before each operation the run has rested. -/
theorem rested_of_course {backend : Backend} {plan : Plan} {before after : List Event} {e : Event}
    (h : (install backend plan).Course (before ++ e :: after) result)
    (hoperation : e.isOperation = true) : Rested before := by
  have hguarded : Guarded (before ++ e :: after) := guarded_piecewise.install _ _ _ h
  have hguard : Guard before e := hguarded before e after rfl
  rcases e with ⟨r, outcome⟩
  cases r with
  | update =>
      exact rested_of_idle (idle_before_update h)
  | bootstrap | install | build =>
      rcases hguard with ⟨message, earlier, rfl⟩
      exact rested_of_poll (by simp [Event.isOperation])
  | upgrade package =>
      rcases hguard with ⟨message, earlier, rfl⟩
      -- the poll is the one before the check that found the package
      have hcheck : [⟨.poll, false⟩] <:+ earlier :=
        hguarded earlier ⟨.check package, .ok true⟩
          (⟨.inform message, ()⟩ :: ⟨.upgrade package, outcome⟩ :: after) (by simp)
      rcases hcheck with ⟨front, rfl⟩
      have hrested : Rested
          (front ++ ⟨.poll, false⟩ :: [⟨.check package, .ok true⟩, ⟨.inform message, ()⟩]) :=
        rested_of_poll (by simp [Event.isOperation])
      simpa using hrested
  | poll | available | check | ask | probe | inform =>
      cases hoperation

/-- Between two polls there is at most one operation. -/
theorem countP_operations {backend : Backend} {plan : Plan} {before between after : List Event}
    (h : (install backend plan).Course (before ++ between ++ after) result)
    (hpolls : ∀ e ∈ between, e.isPoll = false) : between.countP Event.isOperation ≤ 1 := by
  rw [List.countP_eq_length_filter]
  cases hfirst : between.filter Event.isOperation with
  | nil =>
      simp
  | cons first others =>
      cases others with
      | nil =>
          simp
      | cons second others =>
          -- two operations would have a poll between them
          rcases List.filter_eq_cons_iff.1 hfirst with ⟨front, rest, rfl, -, hop, hsecond⟩
          rcases List.filter_eq_cons_iff.1 hsecond with ⟨mid, back, rfl, -, hop', -⟩
          have hcourse : (install backend plan).Course
              ((before ++ front ++ first :: mid) ++ second :: (back ++ after)) result := by
            simpa using h
          rcases rested_of_course hcourse hop' (before ++ front) first mid rfl hop with
            ⟨answer, hpoll⟩
          have hnone : (⟨.poll, answer⟩ : Event).isPoll = false := hpolls _ (by simp [hpoll])
          cases hnone

end Parts

/-! ## Polls that are due -/

/-- There are as many polls as the checks, the questions and the scripts bring, and some more. -/
def Balance (more : Nat) (es : List Event) : Prop :=
  pollsOf es =
    more + es.countP Event.isCheck + 2 * (questionsOf es).length + es.countP Event.isScript

/-- A procedure that succeeds polls as often as its calls bring, and some more times. -/
def Balanced (p : Procedure Unit) (more : Nat) : Prop :=
  p.Obeys fun es result => result = .ok () → Balance more es

section Balance

variable {es front back : List Event} {m n : Nat}

theorem Balance.append (hfront : Balance m front) (hback : Balance n back) :
    Balance (m + n) (front ++ back) := by
  unfold Balance at *
  simp only [pollsOf_append, List.countP_append, questionsOf_append, List.length_append]
  omega

theorem Balanced.bind {p : Procedure Unit} {f : Unit → Procedure Unit} (hp : Balanced p m)
    (hf : Balanced (f ()) n) : Balanced (p >>= f) (m + n) := by
  intro es result h hok
  subst hok
  rcases course_bind.1 h with ⟨failure, -, hfailure⟩ | ⟨_, front, back, rfl, hfirst, hback⟩
  · cases hfailure
  · exact (hp front _ hfirst rfl).append (hf back _ hback rfl)

theorem balanced_sequential :
    Sequential fun es (result : Except Failure Unit) => result = .ok () → Balance 0 es where
  nil _ := rfl
  append hfront hback hok := (hfront rfl).append (hback hok)

theorem Consented.balance {missing : String} (h : Consented missing es (.ok ())) :
    Balance 0 es := by
  cases h
  rfl

theorem Prepared.balance {manager : String} {result : Except Failure Unit}
    (h : Prepared manager es result) (hok : result = .ok ()) : Balance 0 es := by
  cases h with
  | updated outcome =>
      rfl
  | refused h =>
      cases hok
  | bootstrapped outcome h =>
      have hfirst : Balance 0 [⟨.available, false⟩] := rfl
      have hlast : Balance 0 [⟨.inform ("installing " ++ manager), ()⟩, ⟨.bootstrap, outcome⟩] :=
        rfl
      exact (hfirst.append h.balance).append hlast

theorem Ensured.balance {package : String} {result : Except Failure Unit}
    (h : Ensured package es result) (hok : result = .ok ()) : Balance 0 es := by
  cases h with
  | interrupted | unchecked | refused =>
      cases hok
  | upgraded outcome =>
      rfl
  | installed outcome h =>
      have hfirst : Balance 0 [⟨.poll, false⟩, ⟨.check package, .ok false⟩] := rfl
      have hlast : Balance 0
          [⟨.inform ("installing " ++ quoted package), ()⟩, ⟨.install package, outcome⟩] := rfl
      exact (hfirst.append h.balance).append hlast

theorem balanced_checkpoint : Balanced checkpoint 1 := by
  intro es result h hok
  rcases course_checkpoint.1 h with ⟨-, rfl⟩ | ⟨rfl, -⟩
  · cases hok
  · rfl

/-- The polls of a step are those of its packages and of its script. -/
theorem balanced_step (platform : String) (s : Step) : Balanced (step platform s) 0 := by
  have hensure : ∀ package, Balanced (ensure package) 0 :=
    fun package es result h => (course_ensure.1 h).balance
  refine obeys_step balanced_sequential ?_ (fun _ _ package _ => hensure package) ?_
  · intro hok
    cases hok
  · intro probe needs script es result _ hbuilt
    refine hbuilt.obeys balanced_sequential (fun _ => rfl) (fun _ => rfl)
      (fun package _ => hensure package) ?_ (fun _ _ => rfl)
    intro hok
    cases hok

/-- There is one more poll for each step, and one at the end. -/
theorem balanced_steps (platform : String) (plan : Plan) :
    Balanced (steps platform plan) (plan.length + 1) := by
  induction plan with
  | nil =>
      exact balanced_checkpoint
  | cons s plan ih =>
      have hstep :
          Balanced (step platform s >>= fun _ => steps platform plan) (0 + (plan.length + 1)) :=
        Balanced.bind (balanced_step platform s) ih
      have hboth : Balanced (steps platform (s :: plan)) (1 + (0 + (plan.length + 1))) :=
        Balanced.bind balanced_checkpoint hstep
      have hcount : 1 + (0 + (plan.length + 1)) = (s :: plan).length + 1 := by
        rw [List.length_cons]
        omega
      exact hcount ▸ hboth

theorem balanced_install (backend : Backend) (plan : Plan) :
    Balanced (install backend plan) (plan.length + 1) := by
  have hprepare : Balanced (prepare backend.manager) 0 :=
    fun es result h => (course_prepare.1 h).balance
  have hboth : Balanced (install backend plan) (0 + (plan.length + 1)) :=
    Balanced.bind hprepare (balanced_steps backend.platformName plan)
  rwa [Nat.zero_add] at hboth

end Balance

/-! ## Every run -/

/-- How polls and operations take turns in a run of some steps. -/
structure Paced {σ : Type} (steps : Nat) (run : Run σ Unit) : Prop where
  /-- Where there is no poll there is at most one operation. -/
  dense : ∀ before between after, run.events = before ++ between ++ after →
    (∀ e ∈ between, e.isPoll = false) → between.countP Event.isOperation ≤ 1
  enclosed : ∀ before question yes after, run.events = before ++ ⟨.ask question, yes⟩ :: after →
    (∃ earlier, before = earlier ++ [⟨.poll, false⟩]) ∧
      ∃ answer later, after = ⟨.poll, answer⟩ :: later
  counted : run.result = .ok () →
    pollsOf run.events =
      steps + run.events.countP Event.isCheck + 2 * (questionsOf run.events).length +
        run.events.countP Event.isScript + 1
  last : run.result = .ok () → run.events.getLast? = some ⟨.poll, false⟩

/-- In all surroundings, whatever they answer, a run is paced by its polls. -/
theorem install_paced {σ : Type} (env : Surroundings σ) (s : σ) (backend : Backend)
    (ids : List String) : Paced ids.length ((install backend (backend.plan ids)).run env s) := by
  have hcourse := run_course env (install backend (backend.plan ids)) s
  refine ⟨?_, ?_, ?_, ?_⟩
  · intro before between after hsplit hpolls
    rw [hsplit] at hcourse
    exact countP_operations hcourse hpolls
  · intro before question yes after hsplit
    have henclosed : Enclosed _ := enclosed_piecewise.install _ _ _ hcourse
    exact henclosed before ⟨.ask question, yes⟩ after hsplit question yes rfl
  · intro hok
    have hbalance := balanced_install backend (backend.plan ids) _ _ hcourse hok
    have hlength : (backend.plan ids).length = ids.length := List.length_map _
    unfold Balance at hbalance
    omega
  · intro hok
    rw [hok] at hcourse
    rcases reached_of_ok hcourse with ⟨ready, work, hsplit, -, -⟩
    rw [hsplit]
    simp

end Installer

end Provision

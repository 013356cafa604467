import Provision.Proofs.Ending
import Provision.Proofs.Keeper

/-!
# Interruption — an interrupted run is the beginning of an uninterrupted one

Two runs of one procedure are compared: one that is never interrupted, and one that is interrupted
from poll `k` on.  They go the same way up to that poll.  There the second one ends, and if the
first one never gets there, they are the same run.  This file defines:

* `pollsOf` — the number of polls among some events;
* `Surroundings.Diverge` — surroundings that differ in the polls from `k` on, and in nothing else;
* `run_diverge` — the runs of a procedure in such surroundings;
* `Truncated`, `rehearse_truncated` — what an interruption leaves of a rehearsal.
-/

namespace Provision

variable {σ α : Type}

/-! ## Polls in the log -/

def Event.isPoll (e : Event) : Bool :=
  match e.request with
  | .poll => true
  | _ => false

/-- The number of polls among some events. -/
def pollsOf (es : List Event) : Nat :=
  es.countP Event.isPoll

@[simp] theorem pollsOf_append (front back : List Event) :
    pollsOf (front ++ back) = pollsOf front + pollsOf back :=
  List.countP_append

theorem pollsOf_cons {e : Event} {es : List Event} :
    pollsOf (e :: es) = pollsOf [e] + pollsOf es :=
  pollsOf_append [e] es

theorem pollsOf_other {e : Event} (h : e.request ≠ .poll) : pollsOf [e] = 0 := by
  rcases e with ⟨r, answer⟩
  cases r with
  | poll =>
      exact absurd rfl h
  | _ =>
      rfl

/-! ## Surroundings that diverge at a poll -/

/-- The second surroundings report an interruption from poll `k` on, the first ones never do, and
apart from that they are the same; `polls` counts the polls that a state has seen. -/
structure Surroundings.Diverge (k : Nat) (polls : σ → Nat) (calm cut : Surroundings σ) : Prop where
  calm_poll : ∀ s, (calm.answer .poll s).1 = false
  cut_poll : ∀ s, k ≤ polls s → (cut.answer .poll s).1 = true
  same : ∀ r s, (r = .poll → polls s < k) → cut.answer r s = calm.answer r s
  count : ∀ r s, polls (calm.answer r s).2 = polls s + pollsOf [⟨r, (calm.answer r s).1⟩]

namespace Procedure

/-- The runs part at poll `k`, or they are the same and do not get there. -/
inductive Parted (k : Nat) (calm cut : Surroundings σ) (polls : σ → Nat) (s : σ)
    (whole part : Run σ α) : Prop where
  | never (hpolls : polls s + pollsOf whole.events ≤ k) (hsame : part = whole) :
      Parted k calm cut polls s whole part
  | parts (before after more : List Event)
      (hwhole : whole.events = before ++ ⟨.poll, false⟩ :: after)
      (hpart : part.events = before ++ ⟨.poll, true⟩ :: more)
      (hpolls : polls s + pollsOf before = k) (hstate : cut.after before s = calm.after before s) :
      Parted k calm cut polls s whole part

/-- A reply that both surroundings give comes before the place where the runs part. -/
theorem Parted.cons {k : Nat} {polls : σ → Nat} {calm cut : Surroundings σ} {r : Request} {s : σ}
    {whole part : Run σ α} (hsame : cut.answer r s = calm.answer r s)
    (hcount : polls (calm.answer r s).2 = polls s + pollsOf [⟨r, (calm.answer r s).1⟩])
    (h : Parted k calm cut polls (calm.answer r s).2 whole part) :
    Parted k calm cut polls s
      { whole with events := ⟨r, (calm.answer r s).1⟩ :: whole.events }
      { part with events := ⟨r, (calm.answer r s).1⟩ :: part.events } := by
  cases h with
  | never hpolls hpart =>
      -- the polls of the rest are counted from the state behind the first reply
      refine Parted.never ?_ (by rw [hpart])
      rw [pollsOf_cons, ← Nat.add_assoc, ← hcount]
      exact hpolls
  | parts before after more hwhole hpart hpolls hstate =>
      refine Parted.parts (⟨r, (calm.answer r s).1⟩ :: before) after more ?_ ?_ ?_ ?_
      · rw [hwhole, List.cons_append]
      · rw [hpart, List.cons_append]
      · rw [pollsOf_cons, ← Nat.add_assoc, ← hcount]
        exact hpolls
      · rw [Surroundings.after, Surroundings.after, hsame]
        exact hstate

/-- Runs in diverging surroundings part at poll `k`, if they get there. -/
theorem run_diverge {k : Nat} {polls : σ → Nat} {calm cut : Surroundings σ}
    (h : Surroundings.Diverge k polls calm cut) (p : Procedure α) (s : σ) (hs : polls s ≤ k) :
    Parted k calm cut polls s (p.run calm s) (p.run cut s) := by
  -- the induction keeps poll `k` ahead: the state has seen at most `k` polls
  induction p generalizing s with
  | done value =>
      exact Parted.never hs rfl
  | stop failure =>
      exact Parted.never hs rfl
  | request r next ih =>
      by_cases hpart : r = .poll ∧ polls s = k
      · -- this is poll `k`, and the runs part here
        rcases hpart with ⟨rfl, hk⟩
        have hcalm : (calm.answer .poll s).1 = false := h.calm_poll s
        have hcut : (cut.answer .poll s).1 = true := h.cut_poll s (Nat.le_of_eq hk.symm)
        refine Parted.parts [] ((next false).run calm (calm.answer .poll s).2).events
          ((next true).run cut (cut.answer .poll s).2).events ?_ ?_ hk rfl
        · simp only [run, hcalm, List.nil_append]
        · simp only [run, hcut, List.nil_append]
      · have hbefore : r = .poll → polls s < k := by
          intro hr
          have hk : polls s ≠ k := fun hk => hpart ⟨hr, hk⟩
          exact Nat.lt_of_le_of_ne hs hk
        have hsame : cut.answer r s = calm.answer r s := h.same r s hbefore
        have hcount := h.count r s
        have hnext : polls (calm.answer r s).2 ≤ k := by
          -- only a poll raises the count, and this one comes before poll `k`
          by_cases hr : r = .poll
          · have hone : pollsOf [⟨r, (calm.answer r s).1⟩] ≤ 1 := List.countP_le_length
            have hless : polls s < k := hbefore hr
            omega
          · have hnone : pollsOf [⟨r, (calm.answer r s).1⟩] = 0 := pollsOf_other hr
            omega
        have hrest := ih (calm.answer r s).1 (calm.answer r s).2 hnext
        simp only [run, hsame]
        exact hrest.cons hsame hcount

end Procedure

/-! ## Rehearsals -/

namespace Rehearsal

namespace Scene

variable (scene : Scene)

/-- The scene, never interrupted. -/
def undisturbed : Scene :=
  { scene with interrupted := fun _ _ => false }

/-- The scene, interrupted from poll `k` on. -/
def interruptedFrom (k : Nat) : Scene :=
  { scene with interrupted := Interruption.fromPoll k }

theorem polls_answer (r : Request) (s : Stage) :
    (scene.surroundings.answer r s).2.polls =
      s.polls + pollsOf [⟨r, (scene.surroundings.answer r s).1⟩] := by
  cases r with
  | ask question =>
      cases hoperator : scene.operator with
      | console =>
          simp [surroundings, consult, hoperator, Stage.note, Stage.polls, pollsOf, Event.isPoll]
      | assumeYes =>
          simp [surroundings, consult, hoperator, pollsOf, Event.isPoll]
  | check package =>
      cases hfails : scene.fails (.check package) <;>
        simp [surroundings, hfails, Stage.note, Stage.polls, pollsOf, Event.isPoll]
  | poll | available | probe =>
      simp [surroundings, Stage.note, Stage.polls, pollsOf, Event.isPoll]
  | inform =>
      simp [surroundings, pollsOf, Event.isPoll]
  | bootstrap | update | install | upgrade | build =>
      simp only [surroundings, attempt]
      split <;> simp [Stage.note, Stage.withDepot, Stage.polls, pollsOf, Event.isPoll]

/-- What is on record stays there. -/
theorem record_answer (r : Request) (s : Stage) :
    s.record <+: (scene.surroundings.answer r s).2.record := by
  cases r with
  | ask question =>
      cases hoperator : scene.operator <;>
        simp [surroundings, consult, hoperator, Stage.note, Stage.say]
  | check package =>
      cases hfails : scene.fails (.check package) <;> simp [surroundings, hfails, Stage.note]
  | poll | available | probe | inform =>
      simp [surroundings, Stage.note, Stage.say]
  | bootstrap | update | install | upgrade | build =>
      simp only [surroundings, attempt]
      split <;> simp [Stage.note, Stage.withDepot]

theorem record_after (es : List Event) (s : Stage) :
    s.record <+: (scene.surroundings.after es s).record := by
  induction es generalizing s with
  | nil =>
      exact List.prefix_refl _
  | cons e es ih =>
      have hfirst := scene.record_answer e.request s
      exact hfirst.trans (ih (scene.surroundings.answer e.request s).2)

theorem diverge (k : Nat) :
    Surroundings.Diverge k Stage.polls scene.undisturbed.surroundings
      (scene.interruptedFrom k).surroundings where
  calm_poll _ := rfl
  cut_poll s hk := decide_eq_true hk
  same r s hbefore := by
    cases r with
    | poll =>
        have hk : decide (k ≤ s.polls) = false := decide_eq_false (Nat.not_le.2 (hbefore rfl))
        simp only [surroundings, undisturbed, interruptedFrom, Interruption.fromPoll, hk]
    | _ =>
        rfl
  count r s := scene.undisturbed.polls_answer r s

end Scene

/-- What is left of a run when it is interrupted from poll `k` on, in surroundings that were at
`start` in the beginning. -/
structure Truncated (env : Surroundings Stage) (start : Stage) (k : Nat)
    (whole part : Run Stage Unit) : Prop where
  /-- A run without that poll stays as it is. -/
  same : pollsOf whole.events ≤ k → part = whole
  /-- Otherwise the run ends at that poll, with all that was there when it came to it. -/
  cut : k < pollsOf whole.events → ∃ before after later,
    whole.events = before ++ ⟨.poll, false⟩ :: after ∧ pollsOf before = k ∧
      part.events = before ++ [⟨.poll, true⟩] ∧ part.result = .error .interrupted ∧
        part.state = (env.after before start).note (.polled true) ∧
          whole.state.record = (env.after before start).record ++ .polled false :: later

section Rehearse

variable {scene : Scene} {backend : Backend} {plan : Plan} {depot : Depot} {answers : List Bool}

theorem ending_rehearse :
    Installer.Ending backend.manager (scene.rehearse backend plan depot answers).events
      (scene.rehearse backend plan depot answers).result :=
  Installer.ending_install backend plan _ _ course_rehearse

/-- The state after a poll that reports an interruption. -/
theorem state_of_cut {k : Nat} {start : Stage} {before : List Event}
    (hanswered :
      (scene.interruptedFrom k).surroundings.Answered (before ++ [⟨.poll, true⟩]) start) :
    (scene.interruptedFrom k).surroundings.after (before ++ [⟨.poll, true⟩]) start =
      ((scene.interruptedFrom k).surroundings.after before start).note (.polled true) := by
  -- the poll was answered with an interruption, so it was not too early for one
  have hpoll : true =
      decide (k ≤ ((scene.interruptedFrom k).surroundings.after before start).polls) :=
    (Surroundings.answered_append.1 hanswered).2.1
  rw [Surroundings.after_append]
  show Stage.note _ (.polled (decide _)) = _
  rw [← hpoll]

/-- What follows a poll comes behind it on record. -/
theorem record_of_undisturbed {before after : List Event}
    (h : (scene.undisturbed.rehearse backend plan depot answers).events =
      before ++ ⟨.poll, false⟩ :: after) :
    ∃ later, (scene.undisturbed.rehearse backend plan depot answers).state.record =
      (scene.undisturbed.surroundings.after before ⟨depot, answers, []⟩).record ++
        .polled false :: later := by
  rw [state_rehearse, h, Surroundings.after_append]
  rcases scene.undisturbed.record_after after
    ((scene.undisturbed.surroundings.after before ⟨depot, answers, []⟩).note (.polled false))
    with ⟨later, hlater⟩
  refine ⟨later, hlater.symm.trans ?_⟩
  rw [Stage.note, List.append_assoc, List.singleton_append]

/-- Runs that part at poll `k` are a run and what is left of it. -/
theorem truncated_of_parted {k : Nat}
    (h : Procedure.Parted k scene.undisturbed.surroundings (scene.interruptedFrom k).surroundings
      Stage.polls ⟨depot, answers, []⟩ (scene.undisturbed.rehearse backend plan depot answers)
      ((scene.interruptedFrom k).rehearse backend plan depot answers)) :
    Truncated scene.undisturbed.surroundings ⟨depot, answers, []⟩ k
      (scene.undisturbed.rehearse backend plan depot answers)
      ((scene.interruptedFrom k).rehearse backend plan depot answers) := by
  have hzero : Stage.polls ⟨depot, answers, []⟩ = 0 := rfl
  cases h with
  | never hpolls hsame =>
      refine ⟨fun _ => hsame, fun hk => ?_⟩
      omega
  | parts before after more hwhole hpart hpolls hstate =>
      refine ⟨fun hk => ?_, fun _ => ?_⟩
      · -- the poll at which the runs part is one more than `k`
        have hcount : pollsOf (before ++ ⟨.poll, false⟩ :: after) =
            pollsOf before + (1 + pollsOf after) := by
          rw [pollsOf_append, pollsOf_cons]
          rfl
        rw [hwhole, hcount] at hk
        omega
      -- nothing comes after a poll that reports an interruption
      have hending : Installer.Ending backend.manager (before ++ ⟨.poll, true⟩ :: more)
          ((scene.interruptedFrom k).rehearse backend plan depot answers).result := by
        rw [← hpart]
        exact ending_rehearse
      rcases hending.of_interrupted with ⟨rfl, hresult⟩
      have hanswered : (scene.interruptedFrom k).surroundings.Answered (before ++ [⟨.poll, true⟩])
          ⟨depot, answers, []⟩ := by
        rw [← hpart]
        exact answered_rehearse
      have hend : ((scene.interruptedFrom k).rehearse backend plan depot answers).state =
          (scene.undisturbed.surroundings.after before ⟨depot, answers, []⟩).note
            (.polled true) := by
        rw [state_rehearse, hpart, state_of_cut hanswered, hstate]
      rcases record_of_undisturbed hwhole with ⟨later, hlater⟩
      exact ⟨before, after, later, hwhole, by omega, hpart, hresult, hend, hlater⟩

end Rehearse

/-- An interrupted rehearsal is the beginning of the undisturbed one, up to the poll that reports
the interruption; and no rehearsal in which a poll reports one has another result. -/
theorem rehearse_truncated (scene : Scene) (backend : Backend) (ids : List String) (depot : Depot)
    (answers : List Bool) :
    (∀ k, Truncated scene.undisturbed.surroundings ⟨depot, answers, []⟩ k
      (scene.undisturbed.rehearse backend (backend.plan ids) depot answers)
      ((scene.interruptedFrom k).rehearse backend (backend.plan ids) depot answers)) ∧
    (⟨.poll, true⟩ ∈ (scene.rehearse backend (backend.plan ids) depot answers).events →
      (scene.rehearse backend (backend.plan ids) depot answers).result = .error .interrupted) := by
  refine ⟨fun k => ?_, ending_rehearse.interrupted_iff.2⟩
  apply truncated_of_parted
  exact Procedure.run_diverge (scene.diverge k) _ _ (Nat.zero_le k)

end Rehearsal

end Provision

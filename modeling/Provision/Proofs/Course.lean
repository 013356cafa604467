import Provision.Installer.Procedure

/-!
# Course — what a procedure can do, whatever it is answered

A procedure meets surroundings that answer as they like.  A *course* of a procedure is one such
passage: the requests in order, each with an answer, and the result at the end.  Every run in any
surroundings is a course, so that what holds for all courses holds for all runs.  This file defines:

* `Procedure.Course p es result` — `p` can go through the events `es` and end with `result`;
* `Procedure.run_course` — a run is a course;
* `Procedure.course_bind` — the courses of two procedures one after the other;
* `Procedure.Course.unique` — answers decide: no course is a proper start of another;
* `Surroundings.after` — the state that surroundings reach by answering some events;
* `Surroundings.Answered` — events whose answers are those of the surroundings;
* `Run.Related`, `run_related` — runs in surroundings that cannot be told apart, and `run_map` — the
  case in which the one state decides the other.
-/

namespace Provision

variable {σ τ α β : Type}

namespace Procedure

/-! ## Courses -/

/-- The procedure can go through the events and end with the result. -/
inductive Course : Procedure α → List Event → Except Failure α → Prop where
  | done (value : α) : Course (.done value) [] (.ok value)
  | stop (failure : Failure) : Course (.stop failure) [] (.error failure)
  | request {r : Request} {next : r.Answer → Procedure α} {es : List Event}
      {result : Except Failure α} (answer : r.Answer) :
      Course (next answer) es result → Course (.request r next) (⟨r, answer⟩ :: es) result

/-- What a procedure does in some surroundings is one of its courses. -/
theorem run_course (env : Surroundings σ) (p : Procedure α) (s : σ) :
    p.Course (p.run env s).events (p.run env s).result := by
  induction p generalizing s with
  | done value =>
      exact Course.done value
  | stop failure =>
      exact Course.stop failure
  | request r next ih =>
      exact Course.request (env.answer r s).1 (ih (env.answer r s).1 (env.answer r s).2)

/-! ## Courses by the form of the procedure -/

section Forms

variable {es : List Event} {result : Except Failure α}

@[simp] theorem course_done {value : α} :
    (done value).Course es result ↔ es = [] ∧ result = .ok value := by
  constructor
  · intro h
    cases h
    exact ⟨rfl, rfl⟩
  · intro hcase
    rcases hcase with ⟨rfl, rfl⟩
    exact Course.done value

@[simp] theorem course_stop {failure : Failure} :
    (stop failure).Course es result ↔ es = [] ∧ result = .error failure := by
  constructor
  · intro h
    cases h
    exact ⟨rfl, rfl⟩
  · intro hcase
    rcases hcase with ⟨rfl, rfl⟩
    exact Course.stop failure

@[simp] theorem course_request {r : Request} {next : r.Answer → Procedure α} :
    (request r next).Course es result ↔
      ∃ answer rest, es = ⟨r, answer⟩ :: rest ∧ (next answer).Course rest result := by
  constructor
  · intro h
    cases h with
    | request answer hrest =>
        exact ⟨answer, _, rfl, hrest⟩
  · intro hcase
    rcases hcase with ⟨answer, rest, rfl, hrest⟩
    exact Course.request answer hrest

/-- A request, and then what its answer leads to. -/
@[simp] theorem course_perform_bind {r : Request} {f : r.Answer → Procedure α} :
    (perform r >>= f).Course es result ↔
      ∃ answer rest, es = ⟨r, answer⟩ :: rest ∧ (f answer).Course rest result :=
  course_request

@[simp] theorem course_perform {r : Request} {result : Except Failure r.Answer} :
    (perform r).Course es result ↔ ∃ answer, es = [⟨r, answer⟩] ∧ result = .ok answer := by
  simp only [perform, course_request, course_done]
  constructor
  · intro hcase
    rcases hcase with ⟨answer, rest, rfl, rfl, rfl⟩
    exact ⟨answer, rfl, rfl⟩
  · intro hcase
    rcases hcase with ⟨answer, rfl, rfl⟩
    exact ⟨answer, [], rfl, rfl, rfl⟩

/-- The outcome of an operation makes no request of its own. -/
@[simp] theorem course_accept {blame : Failure → Failure} {outcome : Except Failure α} :
    (accept blame outcome).Course es result ↔ es = [] ∧ result = outcome.mapError blame := by
  cases outcome with
  | ok value =>
      exact course_done
  | error failure =>
      exact course_stop

end Forms

/-! ## One procedure after another -/

theorem Course.bind_error {p : Procedure α} {f : α → Procedure β} {es : List Event}
    {failure : Failure} (h : p.Course es (.error failure)) :
    (p >>= f).Course es (.error failure) := by
  generalize hr : (Except.error failure : Except Failure α) = result at h
  induction h with
  | done value =>
      cases hr
  | stop failure' =>
      cases hr
      exact Course.stop failure
  | request answer _ ih =>
      exact Course.request answer (ih hr)

theorem Course.bind_ok {p : Procedure α} {f : α → Procedure β} {front back : List Event} {value : α}
    {result : Except Failure β} (h : p.Course front (.ok value))
    (hback : (f value).Course back result) : (p >>= f).Course (front ++ back) result := by
  generalize hr : (Except.ok value : Except Failure α) = first at h
  induction h with
  | done value' =>
      cases hr
      exact hback
  | stop failure =>
      cases hr
  | request answer _ ih =>
      exact Course.request answer (ih hr)

/-- The courses of two procedures in a row: the first one fails, or both are gone through. -/
theorem course_bind {p : Procedure α} {f : α → Procedure β} {es : List Event}
    {result : Except Failure β} :
    (p >>= f).Course es result ↔
      (∃ failure, p.Course es (.error failure) ∧ result = .error failure) ∨
        ∃ value front back, es = front ++ back ∧ p.Course front (.ok value) ∧
          (f value).Course back result := by
  constructor
  · intro h
    -- the first procedure decides: where it stops, the second one is left out
    induction p generalizing es with
    | done value =>
        exact Or.inr ⟨value, [], es, rfl, Course.done value, h⟩
    | stop failure =>
        rcases course_stop.1 h with ⟨rfl, rfl⟩
        exact Or.inl ⟨failure, Course.stop failure, rfl⟩
    | request r next ih =>
        rcases course_request.1 h with ⟨answer, rest, rfl, hrest⟩
        rcases ih answer hrest with
          ⟨failure, hfirst, rfl⟩ | ⟨value, front, back, rfl, hfirst, hback⟩
        · have hstopped : (request r next).Course (⟨r, answer⟩ :: rest) (.error failure) :=
            Course.request answer hfirst
          exact Or.inl ⟨failure, hstopped, rfl⟩
        · have hdone : (request r next).Course (⟨r, answer⟩ :: front) (.ok value) :=
            Course.request answer hfirst
          exact Or.inr ⟨value, ⟨r, answer⟩ :: front, back, rfl, hdone, hback⟩
  · intro hcase
    rcases hcase with ⟨failure, hfirst, rfl⟩ | ⟨value, front, back, rfl, hfirst, hback⟩
    · exact hfirst.bind_error
    · exact hfirst.bind_ok hback

/-! ## Answers decide -/

/-- A course that goes on from the events of another one is that one. -/
theorem Course.unique {p : Procedure α} {es more : List Event} {first second : Except Failure α}
    (h : p.Course es first) (hmore : p.Course (es ++ more) second) :
    more = [] ∧ second = first := by
  induction h with
  | done value =>
      simpa using hmore
  | stop failure =>
      simpa using hmore
  | request answer _ ih =>
      rcases course_request.1 hmore with ⟨answer', rest, heq, hrest⟩
      -- both courses show the same event here, so the procedure got the same answer
      cases heq
      exact ih hrest

/-- After a course of the first procedure only the second one is left. -/
theorem Course.rest_of_bind {p : Procedure α} {f : α → Procedure β} {front back : List Event}
    {value : α} {result : Except Failure β} (h : p.Course front (.ok value))
    (hboth : (p >>= f).Course (front ++ back) result) : (f value).Course back result := by
  generalize hr : (Except.ok value : Except Failure α) = first at h
  -- the events of the first course take the procedure to where the second one begins
  induction h with
  | done value' =>
      cases hr
      exact hboth
  | stop failure =>
      cases hr
  | request answer _ ih =>
      rcases course_request.1 hboth with ⟨answer', rest, heq, hrest⟩
      cases heq
      exact ih hrest hr

/-! ## Laws that hold along a course -/

/-- A relation of events and result that passes from two courses to the one after the other. -/
structure Sequential (law : List Event → Except Failure Unit → Prop) : Prop where
  nil : law [] (.ok ())
  append : ∀ {front back : List Event} {result : Except Failure Unit},
    law front (.ok ()) → law back result → law (front ++ back) result

/-- All courses of the procedure keep to the law. -/
def Obeys (p : Procedure Unit) (law : List Event → Except Failure Unit → Prop) : Prop :=
  ∀ (es : List Event) (result : Except Failure Unit), p.Course es result → law es result

section Laws

variable {law : List Event → Except Failure Unit → Prop}

theorem Obeys.done (hlaw : Sequential law) : (done ()).Obeys law := by
  intro es result h
  rcases course_done.1 h with ⟨rfl, rfl⟩
  exact hlaw.nil

theorem Obeys.bind (hlaw : Sequential law) {p : Procedure Unit} {f : Unit → Procedure Unit}
    (hp : p.Obeys law) (hf : (f ()).Obeys law) : (p >>= f).Obeys law := by
  intro es result h
  rcases course_bind.1 h with ⟨failure, hfirst, rfl⟩ | ⟨_, front, back, rfl, hfirst, hback⟩
  · exact hp es _ hfirst
  · have hfront : law front (.ok ()) := hp front _ hfirst
    have hrest : law back result := hf back result hback
    exact hlaw.append hfront hrest

end Laws

/-! ## Reordering -/

theorem bind_assoc {γ : Type} (p : Procedure α) (f : α → Procedure β) (g : β → Procedure γ) :
    p >>= f >>= g = p >>= fun value => f value >>= g := by
  induction p with
  | done value =>
      rfl
  | stop failure =>
      rfl
  | request r next ih =>
      -- both sides make the request first, and agree on what follows each answer
      exact congrArg (request r) (funext fun answer => ih answer)

end Procedure

/-! ## The state along a run -/

/-- The state after the requests of some events have been answered. -/
def Surroundings.after (env : Surroundings σ) : List Event → σ → σ
  | [], s => s
  | e :: es, s => env.after es (env.answer e.request s).2

namespace Surroundings

theorem after_append (env : Surroundings σ) (front back : List Event) (s : σ) :
    env.after (front ++ back) s = env.after back (env.after front s) := by
  induction front generalizing s with
  | nil =>
      rfl
  | cons e front ih =>
      exact ih (env.answer e.request s).2

/-- The surroundings give these answers to these requests, one after another. -/
def Answered (env : Surroundings σ) : List Event → σ → Prop
  | [], _ => True
  | e :: es, s => e.answer = (env.answer e.request s).1 ∧ env.Answered es (env.answer e.request s).2

theorem answered_append {env : Surroundings σ} {front back : List Event} {s : σ} :
    env.Answered (front ++ back) s ↔
      env.Answered front s ∧ env.Answered back (env.after front s) := by
  induction front generalizing s with
  | nil =>
      exact ⟨fun h => ⟨trivial, h⟩, fun h => h.2⟩
  | cons e front ih =>
      simp only [List.cons_append, Answered, after, ih, and_assoc]

theorem answered_run (env : Surroundings σ) (p : Procedure α) (s : σ) :
    env.Answered (p.run env s).events s := by
  induction p generalizing s with
  | done value =>
      exact trivial
  | stop failure =>
      exact trivial
  | request r next ih =>
      exact ⟨rfl, ih (env.answer r s).1 (env.answer r s).2⟩

/-- Each event was answered by the surroundings in some state. -/
theorem Answered.of_mem {env : Surroundings σ} {es : List Event} {s : σ} {e : Event}
    (h : env.Answered es s) (he : e ∈ es) : ∃ s', e = ⟨e.request, (env.answer e.request s').1⟩ := by
  rcases List.append_of_mem he with ⟨front, back, rfl⟩
  rcases answered_append.1 h with ⟨-, hanswer, -⟩
  refine ⟨env.after front s, ?_⟩
  rw [← hanswer]

/-- A run ends in the state that its events lead to. -/
theorem state_run (env : Surroundings σ) (p : Procedure α) (s : σ) :
    (p.run env s).state = env.after (p.run env s).events s := by
  induction p generalizing s with
  | done value =>
      rfl
  | stop failure =>
      rfl
  | request r next ih =>
      exact ih (env.answer r s).1 (env.answer r s).2

end Surroundings

/-! ## Two runs side by side -/

/-- The runs have the same course, and end in states that are related. -/
structure Run.Related (related : σ → τ → Prop) (first : Run σ α) (second : Run τ α) : Prop where
  result : first.result = second.result
  events : first.events = second.events
  state : related first.state second.state

namespace Procedure

variable {env : Surroundings σ} {env' : Surroundings τ}

/-- A run depends only on the answers to what it can ask, and on the state as far as these depend on
it. -/
theorem run_related {related : σ → τ → Prop} {asked : Request → Prop}
    (hanswer : ∀ r, asked r → ∀ s t, related s t →
      (env.answer r s).1 = (env'.answer r t).1 ∧
        related (env.answer r s).2 (env'.answer r t).2)
    (p : Procedure α) (hasked : ∀ es result, p.Course es result → ∀ e ∈ es, asked e.request)
    {s : σ} {t : τ} (h : related s t) : Run.Related related (p.run env s) (p.run env' t) := by
  -- the induction keeps the two states related
  induction p generalizing s t with
  | done value =>
      exact ⟨rfl, rfl, h⟩
  | stop failure =>
      exact ⟨rfl, rfl, h⟩
  | request r next ih =>
      have hr : asked r :=
        hasked _ _ (run_course env (request r next) s) _ (List.mem_cons_self ..)
      rcases hanswer r hr s t h with ⟨hsame, hnext⟩
      have hrest := ih (env.answer r s).1
        (fun es result hcourse e he =>
          hasked _ result (Course.request _ hcourse) e (List.mem_cons_of_mem _ he)) hnext
      simp only [run]
      rw [← hsame]
      exact ⟨hrest.result, congrArg (⟨r, (env.answer r s).1⟩ :: ·) hrest.events, hrest.state⟩

/-- Where a map of states goes with all answers, a run from the image of a state is the image of the
run from the state. -/
theorem run_map {g : σ → τ}
    (hanswer : ∀ r s, env'.answer r (g s) = ((env.answer r s).1, g (env.answer r s).2))
    (p : Procedure α) (s : σ) :
    p.run env' (g s) = ⟨(p.run env s).result, g (p.run env s).state, (p.run env s).events⟩ := by
  have hstep : ∀ r, True → ∀ s t, t = g s → (env.answer r s).1 = (env'.answer r t).1 ∧
      (env'.answer r t).2 = g (env.answer r s).2 := by
    rintro r - s t rfl
    rw [hanswer]
    exact ⟨rfl, rfl⟩
  have hrelated : Run.Related (fun s t => t = g s) (p.run env s) (p.run env' (g s)) :=
    run_related hstep p (fun _ _ _ _ _ => trivial) rfl
  rcases hrelated with ⟨hresult, hevents, hstate⟩
  rw [hresult, hevents, ← hstate]

end Procedure

end Provision

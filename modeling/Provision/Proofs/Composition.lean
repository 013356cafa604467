import Provision.Proofs.Settlement

/-!
# Composition — a run for two requests is a run for the one and a run for the other

Where nothing interrupts a run, what it does depends on the depot, the operator and the calls that
fail, and not on what it has done before.  So a run for a longer request goes on from where a run
for the first part of it has ended, except that it does not make the package manager ready again.
This file defines:

* `run_bind_error`, `run_bind_ok` — runs of two procedures in a row;
* `Stage.onto`, `run_onto` — a run that begins with something on record;
* `opening` — a run without its last look at the interruption;
* `Composed`, `rehearse_append` — the run for two lists of identifiers in a row.
-/

namespace Provision

variable {σ α β : Type}

namespace Procedure

/-! ## Runs of two procedures in a row -/

section Bind

variable {env : Surroundings σ} {p : Procedure α} {f : α → Procedure β} {s : σ}

/-- A failure of the first procedure ends both. -/
theorem run_bind_error {failure : Failure} (h : (p.run env s).result = .error failure) :
    (p >>= f).run env s = ⟨.error failure, (p.run env s).state, (p.run env s).events⟩ := by
  induction p generalizing s with
  | done value =>
      cases h
  | stop failure' =>
      cases h
      rfl
  | request r next ih =>
      have hrest := ih (env.answer r s).1 h
      rw [request_bind, run, hrest]
      rfl

/-- The second procedure goes on from where the first one has ended. -/
theorem run_bind_ok {value : α} (h : (p.run env s).result = .ok value) :
    (p >>= f).run env s =
      { (f value).run env (p.run env s).state with
        events := (p.run env s).events ++ ((f value).run env (p.run env s).state).events } := by
  induction p generalizing s with
  | done value' =>
      cases h
      rfl
  | stop failure =>
      cases h
  | request r next ih =>
      have hrest := ih (env.answer r s).1 h
      rw [request_bind, run, hrest]
      rfl

end Bind

end Procedure

namespace Rehearsal

/-! ## What is on record before -/

namespace Stage

/-- The stage as it is when it comes after another one: with the record of both. -/
def onto (s before : Stage) : Stage :=
  { s with record := before.record ++ s.record }

variable {s before : Stage} {e : Entry}

theorem calls_onto : (s.onto before).calls = before.calls ++ s.calls :=
  List.filterMap_append

theorem writes_onto : (s.onto before).writes = before.writes ++ s.writes :=
  List.filterMap_append

@[simp] theorem note_onto : (s.onto before).note e = (s.note e).onto before := by
  rw [note, onto, note, onto, List.append_assoc]

@[simp] theorem say_onto {writes : List Write} :
    (s.onto before).say writes = (s.say writes).onto before := by
  rw [say, onto, say, onto, List.append_assoc]

@[simp] theorem withDepot_onto {change : Depot → Depot} :
    (s.onto before).withDepot change = (s.withDepot change).onto before :=
  rfl

/-- A stage comes after what it has on record. -/
theorem eq_onto (s : Stage) : s = (⟨s.depot, s.answers, []⟩ : Stage).onto s := by
  rw [onto, List.append_nil]

end Stage

namespace Scene

/-- The scene is never interrupted. -/
def Calm (scene : Scene) : Prop :=
  ∀ polls calls, scene.interrupted polls calls = false

variable {scene : Scene}

theorem attempt_onto {call : Call} {effect : Depot → Depot} {s before : Stage} :
    scene.attempt call effect (s.onto before) =
      ((scene.attempt call effect s).1, (scene.attempt call effect s).2.onto before) := by
  cases h : scene.fails call <;> simp [attempt, h]

/-- The answers of a calm scene do not depend on what is on record. -/
theorem answer_onto (hcalm : scene.Calm) (before : Stage) (r : Request) (s : Stage) :
    scene.surroundings.answer r (s.onto before) =
      ((scene.surroundings.answer r s).1, (scene.surroundings.answer r s).2.onto before) := by
  cases r with
  | poll =>
      simp [surroundings, hcalm _ _]
  | check package =>
      cases hfails : scene.fails (.check package) <;>
        simp [surroundings, hfails, Stage.onto, Stage.note]
  | ask question =>
      cases hoperator : scene.operator <;>
        simp [surroundings, consult, hoperator, Stage.onto, Stage.note, Stage.say]
  | bootstrap | update | install | upgrade | build =>
      exact attempt_onto
  | available | probe | inform =>
      simp [surroundings, Stage.onto, Stage.note, Stage.say]

/-- In a calm scene it makes no difference to a procedure what is on record when it begins. -/
theorem run_onto (hcalm : scene.Calm) (p : Procedure α) (s before : Stage) :
    p.run scene.surroundings (s.onto before) =
      ⟨(p.run scene.surroundings s).result, (p.run scene.surroundings s).state.onto before,
        (p.run scene.surroundings s).events⟩ :=
  Procedure.run_map (answer_onto hcalm before) p s

/-- The run goes as the other one does, which begins with nothing on record. -/
structure Continues (before : Stage) (run fresh : Run Stage α) : Prop where
  result : run.result = fresh.result
  state : run.state = fresh.state.onto before

/-- In a calm scene a procedure goes on as if nothing had been before. -/
theorem continues_of_bind (hcalm : scene.Calm) {p : Procedure α} {f : α → Procedure β} {s : Stage}
    {value : α} (h : (p.run scene.surroundings s).result = .ok value) :
    Continues (p.run scene.surroundings s).state ((p >>= f).run scene.surroundings s)
      ((f value).run scene.surroundings
        ⟨(p.run scene.surroundings s).state.depot,
          (p.run scene.surroundings s).state.answers, []⟩) := by
  have hrest := run_onto hcalm (f value)
    ⟨(p.run scene.surroundings s).state.depot, (p.run scene.surroundings s).state.answers, []⟩
    (p.run scene.surroundings s).state
  rw [← Stage.eq_onto] at hrest
  rw [Procedure.run_bind_ok h, hrest]
  exact ⟨rfl, rfl⟩

end Scene

end Rehearsal

namespace Installer

open Procedure Rehearsal

/-! ## A run up to its last look at the interruption -/

/-- The package manager and the steps of a plan, without a look at the interruption behind them. -/
def opening (backend : Backend) (plan : Plan) : Procedure Unit :=
  prepare backend.manager >>= fun _ => walk backend.platformName plan

section Opening

variable {backend : Backend} {scene : Scene} {s : Stage}

theorem install_eq_opening (plan : Plan) :
    install backend plan = opening backend plan >>= fun _ => checkpoint := by
  rw [install, steps_eq_walk, opening, bind_assoc]

/-- The first part of a longer plan is opened in the same way. -/
theorem install_append_eq_opening (front back : Plan) :
    install backend (front ++ back) =
      opening backend front >>= fun _ => steps backend.platformName back := by
  rw [install_append, opening, bind_assoc]

theorem run_checkpoint (hcalm : scene.Calm) :
    checkpoint.run scene.surroundings s = ⟨.ok (), s.note (.polled false), [⟨.poll, false⟩]⟩ := by
  have hpoll : scene.surroundings.answer .poll s = (false, s.note (.polled false)) := by
    simp [Scene.surroundings, hcalm _ _]
  rw [checkpoint, perform, request_bind, run, hpoll]
  rfl

/-- What is on record when the package manager was there and its index was refreshed. -/
def refreshed (tone : Tone) (manager : String) (s : Stage) : Stage :=
  ((s.note (.called .available)).say (tone.info ("updating " ++ manager))).note (.called .update)

theorem calls_refreshed {tone : Tone} {manager : String} {depot : Depot} {answers : List Bool} :
    (refreshed tone manager ⟨depot, answers, []⟩).calls = [.available, .update] := by
  simp [refreshed, Stage.calls, Stage.note, Stage.say]

theorem writes_refreshed {tone : Tone} {manager : String} {depot : Depot} {answers : List Bool} :
    (refreshed tone manager ⟨depot, answers, []⟩).writes = tone.info ("updating " ++ manager) := by
  have hbegin : Stage.writes ⟨depot, answers, []⟩ = [] := rfl
  rw [refreshed, Stage.writes_called, Stage.writes_say, Stage.writes_called, hbegin,
    List.nil_append]

/-- Where the package manager is there, making it ready changes nothing but the record. -/
theorem run_prepare {manager : String} (havailable : s.depot.available = true)
    (hupdate : scene.fails .update = false) :
    (prepare manager).run scene.surroundings s =
      ⟨.ok (), refreshed scene.tone manager s,
        [⟨.available, true⟩, ⟨.inform ("updating " ++ manager), ()⟩, ⟨.update, .ok ()⟩]⟩ := by
  simp [prepare, perform, inform, accept, run, Scene.surroundings, Scene.attempt, havailable,
    hupdate, refreshed, Stage.withDepot, Stage.note, Stage.say]

end Opening

/-! ## Two requests -/

/-- The whole is a first run, and then a second one that does not make the package manager ready. -/
structure Composed (tone : Tone) (manager : String) (first second whole : Run Stage Unit) :
    Prop where
  result : whole.result = second.result
  depot : whole.state.depot = second.state.depot
  answers : whole.state.answers = second.state.answers
  calls : ∃ rest, second.state.calls = .available :: .update :: rest ∧
    whole.state.calls = first.state.calls ++ rest
  writes : ∃ rest, second.state.writes = tone.info ("updating " ++ manager) ++ rest ∧
    whole.state.writes = first.state.writes ++ rest

section Append

variable {scene : Scene} {backend : Backend} {xs ys : List String} {depot : Depot}
  {answers : List Bool}

/-- A run that fails in its opening fails in the same way with more steps behind it. -/
theorem rehearse_of_not_opened {front : Plan} {failure : Failure} (back : Plan)
    (hfailed : ((opening backend front).run scene.surroundings ⟨depot, answers, []⟩).result =
      .error failure) :
    (scene.rehearse backend front depot answers).result = .error failure ∧
      scene.rehearse backend (front ++ back) depot answers =
        scene.rehearse backend front depot answers := by
  rw [Scene.rehearse, Scene.rehearse, install_eq_opening, install_append_eq_opening,
    run_bind_error hfailed, run_bind_error hfailed]
  exact ⟨rfl, rfl⟩

/-- A run that is opened succeeds, with a last poll. -/
theorem rehearse_of_opened {plan : Plan} (hcalm : scene.Calm)
    (hopened : ((opening backend plan).run scene.surroundings ⟨depot, answers, []⟩).result =
        .ok ()) :
    (scene.rehearse backend plan depot answers).result = .ok () ∧
      (scene.rehearse backend plan depot answers).state =
        ((opening backend plan).run scene.surroundings ⟨depot, answers, []⟩).state.note
          (.polled false) := by
  rw [Scene.rehearse, install_eq_opening, run_bind_ok hopened, run_checkpoint hcalm]
  exact ⟨rfl, rfl⟩

/-- Where the package manager is there, a run is its steps behind a refreshed index. -/
theorem continues_of_available {plan : Plan} (hcalm : scene.Calm)
    (havailable : depot.available = true) (hupdate : scene.fails .update = false) :
    Scene.Continues (refreshed scene.tone backend.manager ⟨depot, answers, []⟩)
      (scene.rehearse backend plan depot answers)
      ((steps backend.platformName plan).run scene.surroundings ⟨depot, answers, []⟩) := by
  have hprepare : (prepare backend.manager).run scene.surroundings ⟨depot, answers, []⟩ = _ :=
    run_prepare havailable hupdate
  have hready : ((prepare backend.manager).run scene.surroundings ⟨depot, answers, []⟩).result =
      .ok () := by
    rw [hprepare]
  have hcontinues :=
    Scene.continues_of_bind (f := fun _ => steps backend.platformName plan) hcalm hready
  rw [hprepare] at hcontinues
  exact hcontinues

theorem Composed.of_continues {tone : Tone} {manager : String} {before : Stage}
    {first second whole rest : Run Stage Unit}
    (hwhole : Scene.Continues before whole rest)
    (hsecond : Scene.Continues (refreshed tone manager ⟨depot, answers, []⟩) second rest)
    (hfirst : first.state = before.note (.polled false)) :
    Composed tone manager first second whole where
  result := hwhole.result.trans hsecond.result.symm
  depot := by
    rw [hwhole.state, hsecond.state]
    rfl
  answers := by
    rw [hwhole.state, hsecond.state]
    rfl
  calls := by
    refine ⟨rest.state.calls, ?_, ?_⟩
    · rw [hsecond.state, Stage.calls_onto, calls_refreshed]
      rfl
    · have hcalls : first.state.calls = before.calls := by
        rw [hfirst]
        simp [Stage.calls, Stage.note]
      rw [hwhole.state, Stage.calls_onto, hcalls]
  writes := by
    refine ⟨rest.state.writes, ?_, ?_⟩
    · rw [hsecond.state, Stage.writes_onto, writes_refreshed]
    · have hwrites : first.state.writes = before.writes := by
        rw [hfirst]
        simp [Stage.writes, Stage.note]
      rw [hwhole.state, Stage.writes_onto, hwrites]

/-- Without interruptions a run for two lists of identifiers is a run for the first one, and if that
succeeds, then a run for the second one from where it has ended. -/
theorem rehearse_append (scene : Scene) (backend : Backend) (xs ys : List String) (depot : Depot)
    (answers : List Bool) (hcalm : scene.Calm) (hupdate : scene.fails .update = false) :
    ((scene.rehearse backend (backend.plan xs) depot answers).result ≠ .ok () →
      scene.rehearse backend (backend.plan (xs ++ ys)) depot answers =
        scene.rehearse backend (backend.plan xs) depot answers) ∧
    ((scene.rehearse backend (backend.plan xs) depot answers).result = .ok () →
      Composed scene.tone backend.manager (scene.rehearse backend (backend.plan xs) depot answers)
        (scene.rehearse backend (backend.plan ys)
          (scene.rehearse backend (backend.plan xs) depot answers).state.depot
          (scene.rehearse backend (backend.plan xs) depot answers).state.answers)
        (scene.rehearse backend (backend.plan (xs ++ ys)) depot answers)) := by
  have hplan : backend.plan (xs ++ ys) = backend.plan xs ++ backend.plan ys := List.map_append
  -- the opening for the first list is common to both runs, and it decides
  cases hopened : ((opening backend (backend.plan xs)).run scene.surroundings
      ⟨depot, answers, []⟩).result with
  | error failure =>
      rcases rehearse_of_not_opened (backend.plan ys) hopened with ⟨hfailed, hsame⟩
      refine ⟨?_, ?_⟩
      · intro _
        rw [hplan]
        exact hsame
      · intro hok
        rw [hfailed] at hok
        cases hok
  | ok =>
      rcases rehearse_of_opened hcalm hopened with ⟨hok, hstate⟩
      refine ⟨fun hfailed => absurd hok hfailed, fun _ => ?_⟩
      have hwhole :=
        Scene.continues_of_bind (f := fun _ => steps backend.platformName (backend.plan ys))
        hcalm hopened
      rw [← install_append_eq_opening, ← hplan] at hwhole
      -- the second run begins with the depot and the answers that the opening has left
      have havailable := (stocked_of_ok hok).available
      rw [hstate] at havailable ⊢
      exact Composed.of_continues hwhole (continues_of_available hcalm havailable hupdate) hstate

/-- A run for `make` and `nasm`: the package manager is made ready once, and each of the two is
asked for. -/
theorem rehearse_append_make_nasm :
    Scene.plain.Calm ∧ Scene.plain.fails .update = false ∧
      Composed {} "apt"
        (Scene.plain.rehearse .apt (Backend.apt.plan ["make"]) ⟨true, []⟩ [true, false])
        (Scene.plain.rehearse .apt (Backend.apt.plan ["nasm"]) ⟨true, ["make"]⟩ [false])
        (Scene.plain.rehearse .apt (Backend.apt.plan ["make", "nasm"]) ⟨true, []⟩
          [true, false]) := by
  have hcalm : Scene.plain.Calm := fun _ _ => rfl
  refine ⟨hcalm, rfl, ?_⟩
  exact (rehearse_append Scene.plain .apt ["make"] ["nasm"] ⟨true, []⟩ [true, false] hcalm
    rfl).2 rfl

end Append

end Installer
end Provision

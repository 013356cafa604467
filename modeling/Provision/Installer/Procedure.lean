import Provision.Failure
import Provision.Toolchain.Routine

/-!
# Procedure — programs of requests

A run of the installer is written once, as a tree of requests to its surroundings: a request, and
for each answer what to do next.  Surroundings answer requests and keep a state of their own, and
the same procedure runs in any of them.  This file defines:

* `Request` and `Request.Answer` — what can be asked of the surroundings, and the type of the
  answer;
* `Procedure` — programs of requests, which end with a value or a failure;
* `Surroundings`, `Procedure.run` — a run: its result, the state reached, and every request with its
  answer.
-/

namespace Provision

/-! ## Requests -/

/-- A request to the surroundings of a run. -/
inductive Request where
  /-- Was the run interrupted? -/
  | poll
  /-- Is the package manager usable? -/
  | available
  | bootstrap
  | update
  | check (package : String)
  | install (package : String)
  | upgrade (package : String)
  | ask (question : String)
  /-- Is the tool already built? -/
  | probe (probe : Probe)
  | build (script : Script)
  | inform (message : String)
  deriving DecidableEq, Repr

/-- The answers to a request. -/
@[reducible] def Request.Answer : Request → Type
  | .poll => Bool
  | .available => Bool
  | .bootstrap => Except Failure Unit
  | .update => Except Failure Unit
  | .check _ => Except Failure Bool
  | .install _ => Except Failure Unit
  | .upgrade _ => Except Failure Unit
  | .ask _ => Bool
  | .probe _ => Bool
  | .build _ => Except Failure Unit
  | .inform _ => Unit

/-! ## Procedures -/

inductive Procedure (α : Type) where
  | done (value : α)
  | stop (failure : Failure)
  | request (r : Request) (next : r.Answer → Procedure α)

namespace Procedure

variable {α β : Type}

/-- Go on with the value of a procedure; a failure ends both. -/
def bind : Procedure α → (α → Procedure β) → Procedure β
  | done value, f => f value
  | stop failure, _ => stop failure
  | request r next, f => request r fun answer => (next answer).bind f

instance : Monad Procedure where
  pure := done
  bind := bind

def perform (r : Request) : Procedure r.Answer :=
  request r done

/-- Go on with the value of an operation, or stop with its failure put into context. -/
def accept (blame : Failure → Failure) : Except Failure α → Procedure α
  | .ok value => done value
  | .error failure => stop (blame failure)

@[simp] theorem pure_bind (a : α) (f : α → Procedure β) : (pure a : Procedure α) >>= f = f a :=
  rfl

@[simp] theorem done_bind (a : α) (f : α → Procedure β) : done a >>= f = f a :=
  rfl

@[simp] theorem stop_bind (e : Failure) (f : α → Procedure β) : stop e >>= f = stop e :=
  rfl

@[simp] theorem request_bind (r : Request) (next : r.Answer → Procedure α) (f : α → Procedure β) :
    request r next >>= f = request r fun answer => next answer >>= f :=
  rfl

end Procedure

/-! ## Runs -/

/-- What answers the requests of a run, keeping a state. -/
structure Surroundings (σ : Type) where
  answer : (r : Request) → σ → r.Answer × σ

/-- A request with the answer that it got. -/
structure Event where
  request : Request
  answer : request.Answer

structure Run (σ α : Type) where
  result : Except Failure α
  state : σ
  events : List Event

/-- Run a procedure in some surroundings. -/
def Procedure.run {σ α : Type} (env : Surroundings σ) : Procedure α → σ → Run σ α
  | done value, s => ⟨.ok value, s, []⟩
  | stop failure, s => ⟨.error failure, s, []⟩
  | request r next, s =>
      let reply := env.answer r s
      let rest := (next reply.1).run env reply.2
      { rest with events := ⟨r, reply.1⟩ :: rest.events }

end Provision

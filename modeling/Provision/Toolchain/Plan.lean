import Provision.Text.Column
import Provision.Toolchain.Tool

/-!
# Plan — what a request comes to on a host

This file defines:

* `Step` — a requested identifier with its routine, if it names a tool;
* `Backend.plan` — the steps of a request, one per identifier and in its order;
* `Step.row`, `unsupported?` — the lines of a plan and its first identifier without a routine;
* `Step.work`, `Plan.work` — the packages and scripts that a plan comes to.
-/

namespace Provision

/-! ## Steps -/

structure Step where
  id : String
  routine : Option Routine
  deriving DecidableEq, Repr

/-- A request on a host: its steps in order. -/
abbrev Plan := List Step

def Backend.step (backend : Backend) (id : String) : Step :=
  ⟨id, (Tool.ofName? id).map backend.routine⟩

def Backend.plan (backend : Backend) (ids : List String) : Plan :=
  ids.map backend.step

/-! ## Rows -/

def Step.row (step : Step) : String :=
  Text.padRight 22 step.id ++ " " ++
    match step.routine with
    | some routine => routine.describe
    | none => "not available on this host"

/-- The first identifier that names no tool. -/
def Plan.unsupported? : Plan → Option String
  | [] => none
  | step :: steps => if step.routine.isNone then some step.id else unsupported? steps

/-! ## Work -/

/-- One thing to be done: provide a package, or run a build script. -/
inductive Work where
  | package (name : String)
  | script (script : Script)
  deriving DecidableEq, Repr

/-- The work of a step, when the tools of the programs in `built` are already built. -/
def Step.work (built : String → Bool) (step : Step) : List Work :=
  match step.routine with
  | none => []
  | some (.managed packages) => packages.map .package
  | some (.fromSource probe needs script) =>
      if built probe.program then [] else needs.map .package ++ [.script script]

/-- The work of a plan up to its first step without a routine. -/
def Plan.work (built : String → Bool) : Plan → List Work
  | [] => []
  | step :: steps =>
      if step.routine.isNone then [] else step.work built ++ work built steps

end Provision

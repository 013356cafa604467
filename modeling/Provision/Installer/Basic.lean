import Provision.Installer.Procedure
import Provision.Toolchain.Plan

/-!
# Installer — carrying out a plan

First the package manager is made ready: installed with the operator's consent, or its index
refreshed.  Then the steps of the plan follow in order, and the first failure ends the run.  A
package that is there is upgraded; one that is missing is installed with the operator's consent.
The run asks whether it was interrupted before every step, package and script, on both sides of
every question, and at the end.  This file defines:

* `Installer.ensure` — provide one package;
* `Installer.step` — carry out one step;
* `Installer.install` — carry out a plan.
-/

namespace Provision
namespace Installer

open Procedure

/-! ## Interruption and consent -/

/-- Stop if the run was interrupted. -/
def checkpoint : Procedure Unit := do
  let interrupted ← perform .poll
  if interrupted then stop .interrupted else done ()

def inform (message : String) : Procedure Unit :=
  perform (.inform message)

/-- The question whether to install something that is missing. -/
def offer (missing : String) : String :=
  missing ++ " is not installed... install it?"

/-- What is reported when the offer is turned down. -/
def refusal (missing : String) : String :=
  missing ++ " was not installed"

/-- Go on only with the operator's consent. -/
def consent (missing : String) : Procedure Unit := do
  checkpoint
  let yes ← perform (.ask (offer missing))
  -- an interruption while the question stood wins over the answer
  checkpoint
  if yes then done () else stop (.declined (refusal missing))

/-! ## The package manager -/

def prepare (manager : String) : Procedure Unit := do
  let available ← perform .available
  if available then
    inform ("updating " ++ manager)
    let updated ← perform .update
    accept (.update manager) updated
  else
    consent manager
    inform ("installing " ++ manager)
    let installed ← perform .bootstrap
    accept (.bootstrap manager) installed

/-! ## Packages -/

def quoted (name : String) : String :=
  "\"" ++ name ++ "\""

/-- Provide a package: upgrade it if it is there, else install it with consent. -/
def ensure (package : String) : Procedure Unit := do
  checkpoint
  let checked ← perform (.check package)
  let present ← accept (.package "check" package) checked
  if present then
    inform ("upgrading " ++ quoted package)
    let upgraded ← perform (.upgrade package)
    accept (.package "upgrade" package) upgraded
  else
    consent package
    inform ("installing " ++ quoted package)
    let installed ← perform (.install package)
    accept (.package "install" package) installed

def ensureAll : List String → Procedure Unit
  | [] => done ()
  | package :: packages => do
      ensure package
      ensureAll packages

/-! ## Steps -/

/-- Carry out a routine for the identifier that was requested. -/
def carryOut (id : String) : Routine → Procedure Unit
  | .managed packages => ensureAll packages
  | .fromSource probe needs script => do
      let built ← perform (.probe probe)
      if built then
        inform (quoted id ++ " is already built")
      else
        ensureAll needs
        checkpoint
        inform ("building " ++ quoted id ++ " from source")
        let ran ← perform (.build script)
        accept (.script id) ran

/-- Carry out a step; one without a routine fails. -/
def step (platform : String) (s : Step) : Procedure Unit :=
  match s.routine with
  | none => stop (.unsupportedPackage s.id platform)
  | some routine => carryOut s.id routine

/-- Carry out steps in order, with a last look at the interruption. -/
def steps (platform : String) : Plan → Procedure Unit
  | [] => checkpoint
  | s :: rest => do
      checkpoint
      step platform s
      steps platform rest

def install (backend : Backend) (plan : Plan) : Procedure Unit := do
  prepare backend.manager
  steps backend.platformName plan

end Installer
end Provision

/-!
# Failure — why a setup does not succeed

A failure is a cause.  Four of the causes say which operation failed and hold the failure of that
operation.  This file defines:

* `Failure` — the causes;
* `Failure.message` — the wording of a cause, without the one that it holds;
* `Failure.source?`, `Failure.sources` — the cause held directly, and all of them inwards.
-/

namespace Provision

inductive Failure where
  /-- No package manager is driven on the platform. -/
  | unsupportedPlatform (name : String)
  /-- The request itself is at fault. -/
  | configuration (detail : String)
  | declined (detail : String)
  | update (manager : String) (source : Failure)
  | bootstrap (manager : String) (source : Failure)
  /-- A package was not checked, installed or upgraded. -/
  | package (action package : String) (source : Failure)
  /-- The requested package has no routine. -/
  | unsupportedPackage (package platform : String)
  | script (package : String) (source : Failure)
  | scriptMissing (path : String)
  | manager (detail : String)
  | command (command reason : String)
  | interrupted
  deriving DecidableEq, Repr

namespace Failure

/-! ## Wording -/

def message : Failure → String
  | unsupportedPlatform _ => "unsupported host os"
  | configuration text => "Configuration error: " ++ text
  | declined text => "declined: " ++ text
  | update name _ => "failed to update " ++ name
  | bootstrap name _ => "failed to bootstrap " ++ name
  | package action name _ => "failed to " ++ action ++ " package \"" ++ name ++ "\""
  | unsupportedPackage name platform =>
      "package " ++ name ++ " can not be installed on " ++ platform
  | script name _ => "failed to execute installation script for " ++ name
  | scriptMissing path => "build script not found at '" ++ path ++ "'"
  | manager text => "Package manager error: " ++ text
  | command text reason => "System command '" ++ text ++ "' failed: " ++ reason
  | interrupted => "Operation interrupted by user"

/-! ## Sources -/

/-- The failure that a cause holds. -/
def source? : Failure → Option Failure
  | update _ source | bootstrap _ source | package _ _ source | script _ source => some source
  | _ => none

/-- The failures held, from the direct one inwards. -/
def sources : Failure → List Failure
  | update _ source | bootstrap _ source | package _ _ source | script _ source =>
      source :: source.sources
  | _ => []

theorem sources_eq_nil_iff {f : Failure} : f.sources = [] ↔ f.source? = none := by
  cases f <;> simp [sources, source?]

end Failure
end Provision

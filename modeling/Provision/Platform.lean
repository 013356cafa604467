import Provision.Failure
import Provision.Text.Blank

/-!
# Platform — the operating system and the package manager that serves it

This file defines:

* `Platform` — the families of operating systems, and `Platform.ofTag` that reads one;
* `Backend` — the two package managers that are driven;
* `Platform.backend` — the package manager for a platform, or the rejection of the platform;
* `isSupportedDistribution` — the check of the distribution that apt is driven on.
-/

namespace Provision

/-! ## Package managers -/

inductive Backend where
  | apt
  | homebrew
  deriving DecidableEq, Repr

namespace Backend

/-- The name of the package manager as the operator sees it. -/
def manager : Backend → String
  | apt => "apt"
  | homebrew => "homebrew"

/-- The name of the platform that it serves. -/
def platformName : Backend → String
  | apt => "Linux"
  | homebrew => "MacOS"

end Backend

/-! ## Platforms -/

inductive Platform where
  | macOS
  | linux
  | windows
  | unknown
  deriving DecidableEq, Repr

namespace Platform

/-- The family that a lower-case tag names; any other text is unknown. -/
def ofTag (tag : String) : Platform :=
  if tag = "macos" then macOS
  else if tag = "linux" then linux
  else if tag = "windows" then windows
  else unknown

/-- The name of the family as the operator sees it. -/
def name : Platform → String
  | macOS => "MacOS"
  | linux => "Linux"
  | windows => "Windows"
  | unknown => "Unknown"

/-- The package manager that serves the platform. -/
def backend : Platform → Except Failure Backend
  | macOS => .ok .homebrew
  | linux => .ok .apt
  | windows => .error (.unsupportedPlatform windows.name)
  | unknown => .error (.unsupportedPlatform unknown.name)

/-- What the operator of a rejected platform can do instead. -/
def hint : Platform → Option String
  | windows => some "please use wsl2 to build HydraOS"
  | _ => none

end Platform

/-! ## The distribution -/

/-- The one distribution on which apt is driven. -/
def supportedDistribution : String :=
  "Ubuntu"

/-- A report of the distribution names the supported one and nothing else but white space. -/
def isSupportedDistribution (report : List Char) : Bool :=
  Text.trim report = supportedDistribution.toList

end Provision

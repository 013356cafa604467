import Provision.Text.Blank
import Provision.Text.Lines
import Provision.Text.Null
import Provision.Text.Column
import Provision.Text.Fold
import Provision.Text.Utf8
import Provision.Text.Pattern
import Provision.Failure
import Provision.Platform
import Provision.PackageName
import Provision.Toolchain.Routine
import Provision.Toolchain.Tool
import Provision.Toolchain.Plan
import Provision.Inventory.Basic
import Provision.Inventory.Dpkg
import Provision.Inventory.Brew
import Provision.Console.Write
import Provision.Console.Prompt
import Provision.Installer.Procedure
import Provision.Installer.Basic
import Provision.Rehearsal
import Provision.Machine.Command
import Provision.Machine.Disk
import Provision.Machine.World
import Provision.Machine.Process
import Provision.Machine.Workshop
import Provision.Manager.Apt
import Provision.Manager.Homebrew
import Provision.Manager.Basic
import Provision.Settings
import Provision.Setup
import Provision.CommandLine.Arguments
import Provision.CommandLine.Help
import Provision.CommandLine.Basic
import Provision.Main
import Provision.Proofs.Naming
import Provision.Proofs.Course
import Provision.Proofs.Protocol
import Provision.Proofs.Walk
import Provision.Proofs.Attribution
import Provision.Proofs.Sanction
import Provision.Proofs.Progress
import Provision.Proofs.Interruption
import Provision.Proofs.Scope
import Provision.Proofs.Confinement
import Provision.Proofs.Demand
import Provision.Proofs.Settlement
import Provision.Proofs.Thrift
import Provision.Proofs.Composition
import Provision.Proofs.Preview
import Provision.Proofs.Utterance
import Provision.Proofs.Presentation
import Provision.Proofs.Enquiry
import Provision.Proofs.Installation
import Provision.Proofs.Assent
import Provision.Proofs.Encoding
import Provision.Proofs.Layout
import Provision.Proofs.Lookup
import Provision.Proofs.Spelling
import Provision.Proofs.Restraint
import Provision.Proofs.Distribution
import Provision.Proofs.Halt
import Provision.Proofs.Path
import Provision.Proofs.Footprint
import Provision.Proofs.Invocation
import Provision.Proofs.Acceptance
import Provision.Proofs.Fallback
import Provision.Proofs.Report
import Provision.Proofs.Dialogue
import Provision.Proofs.Grammar
import Provision.Proofs.Pacing
import Provision.Proofs.Supply
import Provision.Proofs.Errand
import Provision.Proofs.Construction
import Provision.Proofs.Echo
import Provision.Proofs.Resolution

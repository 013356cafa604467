import Provision.Platform
import Provision.Text.Fold
import Provision.Toolchain.Routine

/-!
# Tool — the tools of the build, their names and their routines

This file defines:

* `Tool` — the tools, with `Tool.id` and `Tool.aliases`;
* `Tool.ofName?` — the tool that an identifier names, whatever its letter case and the white space
  around it;
* `Backend.routine` — how a package manager's host gets a tool.
-/

namespace Provision

/-! ## Tools -/

inductive Tool where
  | make
  | gcc
  | gpp
  | crossBinutils
  | crossGcc
  | nasm
  | xorriso
  | grub2
  deriving DecidableEq, Repr

namespace Tool

def all : List Tool :=
  [make, gcc, gpp, crossBinutils, crossGcc, nasm, xorriso, grub2]

theorem mem_all (t : Tool) : t ∈ all := by
  cases t <;> decide

/-- The identifier under which a tool is listed. -/
def id : Tool → String
  | make => "make"
  | gcc => "gcc"
  | gpp => "g++"
  | crossBinutils => "x86_64-elf-binutils"
  | crossGcc => "x86_64-elf-gcc"
  | nasm => "nasm"
  | xorriso => "xorriso"
  | grub2 => "grub2"

def aliases : Tool → List String
  | gpp => ["gpp"]
  | crossBinutils => ["x86_64_elf_binutils", "cross-binutils"]
  | crossGcc => ["x86_64_elf_gcc", "cross-gcc"]
  | grub2 => ["grub"]
  | _ => []

def names (t : Tool) : List String :=
  t.id :: t.aliases

/-- The tool with this very identifier. -/
def find? (name : String) : Option Tool :=
  all.find? fun t => t.names.contains name

/-- An identifier as it is looked up: without white space around it, in lower case. -/
def canonical (name : String) : String :=
  String.ofList (Text.fold (Text.trim name.toList))

/-- The tool that an identifier names. -/
def ofName? (name : String) : Option Tool :=
  find? (canonical name)

/-- No two tools share a name. -/
theorem find?_eq_some_iff {name : String} {t : Tool} : find? name = some t ↔ name ∈ t.names := by
  constructor
  · intro h
    have hcontains : t.names.contains name = true := by simpa using List.find?_some h
    exact List.contains_iff_mem.1 hcontains
  · -- an earlier tool with this name would be found in its place
    have hnames : ∀ tool : Tool, ∀ n ∈ tool.names, find? n = some tool := by
      intro tool
      cases tool <;> decide
    exact hnames t name

/-- Every tool is found by each of its names. -/
theorem ofName?_of_mem_names {name : String} {t : Tool} (h : name ∈ t.names) :
    ofName? name = some t := by
  have hcanonical : ∀ tool : Tool, ∀ n ∈ tool.names, canonical n = n := by
    intro tool
    cases tool <;> decide
  rw [ofName?, hcanonical t name h]
  exact find?_eq_some_iff.2 h

theorem ofName?_id (t : Tool) : ofName? t.id = some t :=
  ofName?_of_mem_names (List.mem_cons_self ..)

/-- The identifiers that are set up when none is requested. -/
def standard : List String :=
  [make, crossBinutils, crossGcc, nasm, xorriso, grub2].map id

end Tool

/-! ## Routines of the package managers -/

namespace Backend

def linuxBinutils : Routine :=
  .fromSource ⟨"x86_64-elf-ld", "GNU ld (GNU Binutils)"⟩
    ["make", "bison", "flex", "libgmp3-dev", "libmpc-dev", "libmpfr-dev", "texinfo"]
    ⟨"bash", "linux/install_x86_64-elf-binutils.sh"⟩

def linuxGcc : Routine :=
  .fromSource ⟨"x86_64-elf-gcc", "x86_64-elf-gcc (GCC)"⟩ []
    ⟨"bash", "linux/install_x86_64-elf-gcc.sh"⟩

def macGrub : Routine :=
  .fromSource ⟨"grub-mkrescue", "grub-mkrescue (GRUB) 2."⟩
    ["pkg-config", "m4", "libtool", "automake", "autoconf", "objconv", "gawk"]
    ⟨"sh", "mac/install_grub2.sh"⟩

/-- How a host of this package manager gets a tool. -/
def routine : Backend → Tool → Routine
  | apt, .crossBinutils => linuxBinutils
  | apt, .crossGcc => linuxGcc
  | apt, .grub2 => .managed ["grub2-common", "grub-pc-bin"]
  | homebrew, .grub2 => macGrub
  | _, tool => .managed [tool.id]

end Backend
end Provision

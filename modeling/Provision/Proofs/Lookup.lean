import Provision.Manager.Basic
import Provision.Proofs.Encoding
import Provision.Proofs.Layout

/-!
# Lookup — both package managers answer for the same packages

Whether a package is there is looked up in the table of the one package manager and in the list of
the other.  Where both have been printed from the same installed releases the answers are equal, and
exact: a name counts only as a whole, and so does a version.  This file defines:

* `World.Prints` — a program of a host that prints a text in answer to some arguments;
* `Dpkg.Shows`, `Brew.Shows` — a table and a list of certain releases;
* `contains_table_iff`, `contains_list_iff` — what is found in them;
* `isInstalled_alike` — the answers of the package managers.
-/

namespace Provision

open Text Inventory

/-! ## Programs that print -/

/-- The host has this program, and with these arguments it prints the text and ends as it likes. -/
def World.Prints (w : World) (program : String) (args : List String) (text : String)
    (status : ExitStatus) : Prop :=
  ∃ rules errors, w.program? program = some (.rules rules) ∧
    Rule.effectOf rules args = ⟨bytes text, errors, status⟩

theorem captured_of_prints {w : World} {program text : String} {args : List String}
    {status : ExitStatus} (tone : Tone) (h : w.Prints program args text status)
    (hnull : ∀ arg ∈ program :: args, hasNull arg = false) :
    ∃ effect, (w.captured tone (.direct program args)).value = .ok effect ∧
      Utf8.lossy effect.stdout = text.toList ∧ effect.status = status := by
  rcases h with ⟨rules, errors, hprogram, heffect⟩
  have hclean : (Command.direct program args).hasNull = false := by
    simpa [Command.hasNull, Command.direct, Command.argv] using hnull
  have hstart : w.start (.direct program args) =
      .ok (⟨w.disk.home, program :: args⟩, ⟨bytes text, errors, status⟩) := by
    simp [World.start, hclean]
    simp [World.directoryOf, Command.direct, Command.argv, hprogram, heffect]
  refine ⟨⟨bytes text, errors, status⟩, ?_, Utf8.lossy_bytes text, rfl⟩
  simp [World.captured, World.launch, hstart]

/-! ## What is shown -/

namespace Inventory

/-- The rows of the table are those of these releases, in any order. -/
def Dpkg.Shows (table : List Dpkg.Line) (db : List Release) : Prop :=
  ∀ release, release ∈ db ↔ ∃ r, .row r ∈ table ∧ r.release = release

/-- The lines of the list have the versions of these releases, by name and in any order. -/
def Brew.Shows (list : List Brew.Line) (db : List Release) : Prop :=
  ∀ release : Release, release ∈ db ↔
    ∃ l ∈ list, l.name = release.name ∧ ∃ column ∈ l.columns, column.2 = release.version

/-- Some release has this very name, and this very version if one is given. -/
def Has (db : List Release) (name : String) (version : Option String) : Prop :=
  ∃ release ∈ db, release.name = name ∧ ∀ v ∈ version, release.version.text = v

section Shows

variable {db : List Release} {name : String} {version : Option String}

theorem contains_table_iff {table : List Dpkg.Line} (h : Dpkg.Shows table db) :
    contains (Dpkg.parse (Dpkg.print table).toList) name version = true ↔ Has db name version := by
  rw [contains_iff, Dpkg.parse_print]
  constructor
  · intro hfound
    rcases hfound with ⟨e, he, hname, hversion⟩
    rcases List.mem_filterMap.1 he with ⟨l, hl, hentry⟩
    cases l with
    | heading _ =>
        cases hentry
    | row r =>
        cases hentry
        refine ⟨r.release, (h r.release).2 ⟨r, hl, rfl⟩, hname, ?_⟩
        intro v hv
        exact (List.mem_singleton.1 (hversion v hv)).symm
  · intro hhas
    rcases hhas with ⟨release, hrelease, hname, hversion⟩
    rcases (h release).1 hrelease with ⟨r, hr, rfl⟩
    refine ⟨r.entry, List.mem_filterMap.2 ⟨.row r, hr, rfl⟩, hname, ?_⟩
    intro v hv
    exact List.mem_singleton.2 (hversion v hv).symm

theorem contains_list_iff {list : List Brew.Line} (h : Brew.Shows list db) :
    contains (Brew.parse (Brew.print list).toList) name version = true ↔ Has db name version := by
  rw [contains_iff, Brew.parse_print]
  constructor
  · intro hfound
    rcases hfound with ⟨e, he, hname, hversion⟩
    rcases List.mem_map.1 he with ⟨l, hl, rfl⟩
    have hshown : ∀ column ∈ l.columns, ⟨l.name, column.2, l.named⟩ ∈ db := fun column hcolumn =>
      (h ⟨l.name, column.2, l.named⟩).2 ⟨l, hl, rfl, column, hcolumn, rfl⟩
    cases version with
    | none =>
        -- a line has one version at least
        rcases List.exists_mem_of_ne_nil l.columns l.versioned with ⟨column, hcolumn⟩
        exact ⟨_, hshown column hcolumn, hname, by simp⟩
    | some v =>
        rcases List.mem_map.1 (hversion v rfl) with ⟨column, hcolumn, htext⟩
        refine ⟨_, hshown column hcolumn, hname, ?_⟩
        intro wanted hwanted
        cases hwanted
        exact htext
  · intro hhas
    rcases hhas with ⟨release, hrelease, hname, hversion⟩
    rcases (h release).1 hrelease with ⟨l, hl, hsame, column, hcolumn, hshown⟩
    refine ⟨l.entry, List.mem_map_of_mem hl, hsame.trans hname, ?_⟩
    intro v hv
    have htext : column.2.text = v := by
      rw [hshown]
      exact hversion v hv
    exact List.mem_map.2 ⟨column, hcolumn, htext⟩

end Shows

end Inventory

/-! ## The answers -/

section Answers

variable {w : World} {tone : Tone} {name : String} {version : Option String} {db : List Release}

/-- With apt the answer is read from the table, however the program ends. -/
theorem apt_isInstalled {table : List Dpkg.Line} {status : ExitStatus}
    (hname : PackageName.validate name = .ok ())
    (hprints : w.Prints "dpkg" ["-l", name] (Dpkg.print table) status) :
    (Backend.apt.isInstalled w tone name version).value =
      .ok (contains (Dpkg.parse (Dpkg.print table).toList) name version) := by
  have hnull : ∀ arg ∈ ["dpkg", "-l", name], hasNull arg = false := by
    have hfixed : hasNull "dpkg" = false ∧ hasNull "-l" = false := by decide
    simp [hfixed, PackageName.hasNull_of_validate hname]
  rcases captured_of_prints tone hprints hnull with ⟨effect, hvalue, htext, -⟩
  simp [Backend.isInstalled, Apt.isInstalled, hname, Logged.map, hvalue, htext, Except.map]

/-- With Homebrew the answer is read from the list, if that was printed with success. -/
theorem homebrew_isInstalled {list : List Brew.Line} (hname : PackageName.validate name = .ok ())
    (hprints : w.Prints "brew" ["list", "--versions"] (Brew.print list) (.exited 0)) :
    (Backend.homebrew.isInstalled w tone name version).value =
      .ok (contains (Brew.parse (Brew.print list).toList) name version) := by
  have hnull : ∀ arg ∈ ["brew", "list", "--versions"], hasNull arg = false := by decide
  rcases captured_of_prints tone hprints hnull with ⟨effect, hvalue, htext, hstatus⟩
  have hentries : Homebrew.entries effect = .ok (Brew.parse (Brew.print list).toList) := by
    simp [Homebrew.entries, hstatus, ExitStatus.isSuccess, htext]
  simp [Backend.isInstalled, Homebrew.isInstalled, Homebrew.command, hname, Logged.map, hvalue,
    Except.bind, hentries, Except.map]

/-- Where the same releases are shown, the package managers give the same answer, and it is
exact. -/
theorem isInstalled_alike {w' : World} {table : List Dpkg.Line} {list : List Brew.Line}
    {status : ExitStatus} (hname : PackageName.validate name = .ok ())
    (htable : Dpkg.Shows table db)
    (hlist : Brew.Shows list db) (hdpkg : w.Prints "dpkg" ["-l", name] (Dpkg.print table) status)
    (hbrew : w'.Prints "brew" ["list", "--versions"] (Brew.print list) (.exited 0))
    (tone tone' : Tone) (version : Option String) :
    ∃ answer, (Backend.apt.isInstalled w tone name version).value = .ok answer ∧
      (Backend.homebrew.isInstalled w' tone' name version).value = .ok answer ∧
      (answer = true ↔ Has db name version) ∧
      ((∀ release ∈ db, release.name ≠ name) → answer = false) := by
  have hexact : contains (Dpkg.parse (Dpkg.print table).toList) name version = true ↔
      Has db name version :=
    contains_table_iff htable
  have halike : contains (Brew.parse (Brew.print list).toList) name version =
      contains (Dpkg.parse (Dpkg.print table).toList) name version :=
    Bool.eq_iff_iff.2 ((contains_list_iff hlist).trans hexact.symm)
  refine ⟨_, apt_isInstalled hname hdpkg, ?_, hexact, ?_⟩
  · calc
      (Backend.homebrew.isInstalled w' tone' name version).value
          = .ok (contains (Brew.parse (Brew.print list).toList) name version) :=
            homebrew_isInstalled hname hbrew
      _ = .ok (contains (Dpkg.parse (Dpkg.print table).toList) name version) := by rw [halike]
  · intro hother
    apply Bool.eq_false_iff.2
    intro hfound
    rcases hexact.1 hfound with ⟨release, hrelease, hsame, -⟩
    exact hother release hrelease hsame

/-! ### Two hosts with the same releases -/

/-- A host with one program, which always prints the same text. -/
def World.printing (program text : String) (status : ExitStatus) : World :=
  ⟨[(program, .rules [⟨none, ⟨bytes text, [], status⟩⟩])], ⟨[], [], []⟩, []⟩

theorem World.prints_printing {program text : String} {status : ExitStatus}
    (h : program.isEmpty = false)
    (args : List String) :
    (World.printing program text status).Prints program args text status := by
  have hprogram : (World.printing program text status).program? program =
      some (.rules [⟨none, ⟨bytes text, [], status⟩⟩]) := by
    simp [World.program?, World.printing, h]
  exact ⟨_, [], hprogram, rfl⟩

def singleBlank : Gap :=
  ⟨[' '], by simp, by simp [isBlank, blankRanges], by simp⟩

def automakeRelease : Release :=
  ⟨"automake", ⟨"1:1.16.5", by simp, by simp [isBlank, blankRanges]⟩, rfl⟩

def nasmRelease : Release :=
  ⟨"nasm", ⟨"2.16.01-1", by simp, by simp [isBlank, blankRanges]⟩, rfl⟩

def sampleReleases : List Release :=
  [automakeRelease, nasmRelease]

/-- The table of a host with these two, under a heading. -/
def sampleTable : List Dpkg.Line :=
  [.heading ⟨"||/ Name Version Architecture".toList, by simp [Dpkg.isLowerLetter], by simp⟩,
    .row ⟨automakeRelease, singleBlank, none, singleBlank, " all".toList, by simp,
      by simp [isBlank, blankRanges], by simp⟩,
    .row ⟨nasmRelease, singleBlank, some "amd64".toList, singleBlank, [],
      by simp [isBlank, blankRanges], by simp, by simp⟩]

/-- The list of a host with these two. -/
def sampleList : List Brew.Line :=
  [⟨"nasm", [(singleBlank, nasmRelease.version)], rfl, by simp⟩,
    ⟨"automake", [(singleBlank, automakeRelease.version)], rfl, by simp⟩]

theorem shows_sampleTable : Dpkg.Shows sampleTable sampleReleases := by
  intro release
  simp [sampleTable, sampleReleases, eq_comm]

theorem shows_sampleList : Brew.Shows sampleList sampleReleases := by
  intro release
  have hautomake : release = automakeRelease ↔
      "automake" = release.name ∧ automakeRelease.version = release.version := by
    simp only [Release.ext_iff, automakeRelease, eq_comm]
  have hnasm : release = nasmRelease ↔
      "nasm" = release.name ∧ nasmRelease.version = release.version := by
    simp only [Release.ext_iff, nasmRelease, eq_comm]
  simp [sampleList, sampleReleases, hautomake, hnasm, or_comm, eq_comm]

/-- On such hosts `nasm` is there at its version. -/
theorem isInstalled_alike_nasm :
    ∃ answer,
      (Backend.apt.isInstalled (.printing "dpkg" (Dpkg.print sampleTable) (.exited 1)) {} "nasm"
          (some "2.16.01-1")).value = .ok answer ∧
        (Backend.homebrew.isInstalled (.printing "brew" (Brew.print sampleList) (.exited 0)) {}
          "nasm" (some "2.16.01-1")).value = .ok answer ∧ answer = true := by
  have hhas : Has sampleReleases "nasm" (some "2.16.01-1") :=
    ⟨nasmRelease, by simp [sampleReleases], rfl, by simp [nasmRelease]⟩
  have hdpkg : (World.printing "dpkg" (Dpkg.print sampleTable) (.exited 1)).Prints "dpkg"
      ["-l", "nasm"] (Dpkg.print sampleTable) (.exited 1) :=
    World.prints_printing rfl _
  have hbrew : (World.printing "brew" (Brew.print sampleList) (.exited 0)).Prints "brew"
      ["list", "--versions"] (Brew.print sampleList) (.exited 0) :=
    World.prints_printing rfl _
  rcases isInstalled_alike nasmRelease.named shows_sampleTable shows_sampleList hdpkg hbrew {} {}
    (some "2.16.01-1") with ⟨answer, hapt, hhomebrew, hexact, -⟩
  exact ⟨answer, hapt, hhomebrew, hexact.2 hhas⟩

end Answers

end Provision

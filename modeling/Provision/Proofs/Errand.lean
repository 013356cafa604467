import Provision.Proofs.Launch

/-!
# Errand — what a package manager does for one package

To look a package up, to install it and to upgrade it are errands with a name, and all of them keep
to one rule with both package managers.  The name is validated before anything else; then a single
command is attempted, and what comes of it decides how the errand ends.  This file defines:

* `Errand`, `Backend.attend` — the errands, and how a package manager does them;
* `Errand.command`, `Errand.display_command` — the command that an errand comes to, which is shown
  as it is;
* `Backend.attend_of_invalid` — an errand with a faulty name, and `attend_query`, `attend_install`,
  `attend_upgrade` — those with a valid one;
* `Errand.read` — the answer to a query, by what its command has printed;
* `Backend.attend_ok_iff`, `value_of_badEnd` — how a change ends, by its command;
* `Dutiful`, `attend_dutiful` — every errand keeps to the rule.
-/

namespace Provision

/-! ## Errands -/

/-- What a package manager can be asked to do about one package. -/
inductive Errand where
  /-- Is the package there, at the version if one is given? -/
  | query (version : Option String)
  | install
  | upgrade
  deriving DecidableEq, Repr

/-- The answers to an errand. -/
@[reducible] def Errand.Answer : Errand → Type
  | .query _ => Bool
  | .install => Unit
  | .upgrade => Unit

/-- A package manager does an errand. -/
def Backend.attend (w : World) (tone : Tone) (name : String) (backend : Backend) :
    (errand : Errand) → Logged (Except Failure errand.Answer)
  | .query version => backend.isInstalled w tone name version
  | .install => backend.install w tone name
  | .upgrade => backend.upgrade w tone name

namespace Errand

/-- The errand is to change something. -/
def changes : Errand → Bool
  | query _ => false
  | install | upgrade => true

/-- The command that an errand comes to. -/
def command (name : String) : Backend → Errand → Command
  | .apt, query _ => .direct "dpkg" ["-l", name]
  | .apt, install => .direct "sudo" ["apt", "install", "-y", name]
  | .apt, upgrade => .direct "sudo" ["apt", "upgrade", "-y", name]
  | .homebrew, query _ => .direct "brew" ["list", "--versions"]
  | .homebrew, install => .direct "brew" ["install", name]
  | .homebrew, upgrade => .direct "brew" ["upgrade", name]

/-- The request by which the installer has the errand done, for whatever version. -/
def request (name : String) : Errand → Request
  | query _ => .check name
  | install => .install name
  | upgrade => .upgrade name

/-- The command has the name in it; Homebrew lists all packages at once. -/
def isNamed : Backend → Errand → Bool
  | .homebrew, query _ => false
  | _, _ => true

/-- The answer to a query, read from what its command has printed. -/
def read (name : String) (version : Option String) : Backend → Effect → Except Failure Bool
  | .apt, effect =>
      .ok (Inventory.contains (Inventory.Dpkg.parse (Text.Utf8.lossy effect.stdout)) name version)
  | .homebrew, effect =>
      (Homebrew.entries effect).map fun list => Inventory.contains list name version

variable {backend : Backend} {errand : Errand} {name : String} {version : Option String}
  {effect : Effect}

/-- Where the command has a name in it, it is the last argument, as it was given. -/
theorem exists_lead (backend : Backend) (errand : Errand) :
    ∃ lead, ∀ name, (errand.command name backend).argv =
      if errand.isNamed backend then lead ++ [name] else lead := by
  cases backend with
  | apt =>
      cases errand with
      | query version =>
          exact ⟨["dpkg", "-l"], fun _ => rfl⟩
      | install =>
          exact ⟨["sudo", "apt", "install", "-y"], fun _ => rfl⟩
      | upgrade =>
          exact ⟨["sudo", "apt", "upgrade", "-y"], fun _ => rfl⟩
  | homebrew =>
      cases errand with
      | query version =>
          exact ⟨["brew", "list", "--versions"], fun _ => rfl⟩
      | install =>
          exact ⟨["brew", "install"], fun _ => rfl⟩
      | upgrade =>
          exact ⟨["brew", "upgrade"], fun _ => rfl⟩

/-- It is the command that the installer comes to when it makes the request. -/
theorem command?_request (w : World) :
    backend.command? w (errand.request name) = some (errand.command name backend) := by
  cases backend <;> cases errand <;> rfl

/-- With a valid name the command is shown as it is. -/
theorem display_command (w : World) (hname : PackageName.validate name = .ok ()) :
    (errand.command name backend).display =
      String.intercalate " " (errand.command name backend).argv := by
  have hvalid : ∀ package ∈ (errand.request name).package?,
      PackageName.validate package = .ok () := by
    cases errand <;> simpa [request, Request.package?] using hname
  exact Command.display_eq_argv (Backend.hasNull_of_command? hvalid (command?_request w))

/-- An answer cannot be read only where Homebrew does not end well. -/
theorem read_cases :
    if backend = .homebrew ∧ effect.status ≠ .exited 0 then
      ∃ detail, read name version backend effect = .error (.manager detail)
    else ∃ answer, read name version backend effect = .ok answer := by
  cases backend with
  | apt =>
      exact ⟨_, rfl⟩
  | homebrew =>
      by_cases hstatus : effect.status = .exited 0
      · simp [read, Homebrew.entries, ExitStatus.isSuccess, hstatus, Except.map]
      · simp [read, Homebrew.entries, ExitStatus.isSuccess, hstatus, Except.map]

end Errand

/-! ## The ways of an errand -/

namespace Backend

variable {w : World} {tone : Tone} {backend : Backend} {errand : Errand} {name : String}

/-- With a faulty name nothing is done but to report it. -/
theorem attend_of_invalid {failure : Failure} (hname : PackageName.validate name = .error failure) :
    backend.attend w tone name errand = .quietly (.error failure) := by
  cases backend with
  | apt =>
      cases errand <;>
        simp [attend, isInstalled, install, upgrade, Apt.isInstalled, Apt.install, Apt.upgrade,
          hname]
  | homebrew =>
      cases errand <;>
        simp [attend, isInstalled, install, upgrade, Homebrew.isInstalled, Homebrew.install,
          Homebrew.upgrade, hname]

/-- With a valid name the command of a query is captured and read. -/
theorem attend_query {version : Option String} (hname : PackageName.validate name = .ok ()) :
    backend.attend w tone name (.query version) =
      (w.captured tone (Errand.command name backend (.query version))).map fun r =>
        r.bind (Errand.read name version backend) := by
  cases backend with
  | apt =>
      have hread : ∀ r : Except Failure Effect,
          (r.map fun effect =>
            Inventory.contains (Inventory.Dpkg.parse (Text.Utf8.lossy effect.stdout)) name
              version) =
          r.bind (Errand.read name version .apt) := by
        intro r
        cases r <;> rfl
      simp only [attend, isInstalled, Apt.isInstalled, hname, hread]
      rfl
  | homebrew =>
      have hread : ∀ r : Except Failure Effect,
          ((r.bind Homebrew.entries).map fun list => Inventory.contains list name version) =
          r.bind (Errand.read name version .homebrew) := by
        intro r
        cases r <;> rfl
      simp only [attend, isInstalled, Homebrew.isInstalled, hname, hread]
      rfl

/-- With a valid name the command of a change is run on the console. -/
theorem attend_install (hname : PackageName.validate name = .ok ()) :
    backend.attend w tone name .install =
      w.checked tone (Errand.command name backend .install) := by
  cases backend <;> simp only [attend, install, Apt.install, Homebrew.install, hname] <;> rfl

theorem attend_upgrade (hname : PackageName.validate name = .ok ()) :
    backend.attend w tone name .upgrade =
      w.checked tone (Errand.command name backend .upgrade) := by
  cases backend <;> simp only [attend, upgrade, Apt.upgrade, Homebrew.upgrade, hname] <;> rfl

/-- A command that is not started decides the errand. -/
theorem value_of_refused {e : StartError} (hname : PackageName.validate name = .ok ())
    (h : w.start (errand.command name backend) = .error e) :
    (backend.attend w tone name errand).value =
      .error ((errand.command name backend).refusal e) := by
  cases errand with
  | query version =>
      rw [attend_query hname, captured_of_refused h]
      rfl
  | install =>
      rw [attend_install hname, checked_of_refused h]
  | upgrade =>
      rw [attend_upgrade hname, checked_of_refused h]

/-- What the command of a query prints is read. -/
theorem value_query_of_started {version : Option String} {process : Process} {effect : Effect}
    (hname : PackageName.validate name = .ok ())
    (h : w.start (Errand.command name backend (.query version)) = .ok (process, effect)) :
    (backend.attend w tone name (.query version)).value =
      Errand.read name version backend effect := by
  rw [attend_query hname, captured_of_started h]
  rfl

/-- A change succeeds if and only if its command is started and ends with code zero. -/
theorem attend_ok_iff (hname : PackageName.validate name = .ok ())
    (hchanges : errand.changes = true) :
    (∃ answer, (backend.attend w tone name errand).value = .ok answer) ↔
      ∃ process effect, w.start (errand.command name backend) = .ok (process, effect) ∧
        effect.status = .exited 0 := by
  cases errand with
  | query version =>
      cases hchanges
  | install =>
      rw [attend_install hname, ← checked_ok_iff]
      exact ⟨fun ⟨_, h⟩ => h, fun h => ⟨(), h⟩⟩
  | upgrade =>
      rw [attend_upgrade hname, ← checked_ok_iff]
      exact ⟨fun ⟨_, h⟩ => h, fun h => ⟨(), h⟩⟩

/-- Any other end of the command is reported. -/
theorem value_of_badEnd {process : Process} {effect : Effect}
    (hname : PackageName.validate name = .ok ()) (hchanges : errand.changes = true)
    (hstart : w.start (errand.command name backend) = .ok (process, effect))
    (hstatus : effect.status ≠ .exited 0) :
    (backend.attend w tone name errand).value =
      .error ((errand.command name backend).badEnd effect.status) := by
  cases errand with
  | query version =>
      cases hchanges
  | install =>
      rw [attend_install hname, checked_of_badEnd hstart hstatus]
  | upgrade =>
      rw [attend_upgrade hname, checked_of_badEnd hstart hstatus]

/-- What is logged with a valid name is one command. -/
theorem trace_attend (hname : PackageName.validate name = .ok ()) :
    (errand.command name backend).Trace w tone (backend.attend w tone name errand).log := by
  cases errand with
  | query version =>
      rw [attend_query hname]
      exact trace_captured
  | install =>
      rw [attend_install hname]
      exact trace_checked
  | upgrade =>
      rw [attend_upgrade hname]
      exact trace_checked

end Backend

/-! ## The rule -/

/-- How an errand goes: by the validation of the name, and then by its command. -/
structure Dutiful (w : World) (tone : Tone) (backend : Backend) (name : String) (errand : Errand) :
    Prop where
  /-- A faulty name is reported as it is; nothing is started, and in no tone is anything written. -/
  rejected : ∀ failure, PackageName.validate name = .error failure →
    (backend.attend w tone name errand).value = .error failure ∧
      attemptsOf (backend.attend w tone name errand).log = [] ∧
      writesOf (backend.attend w tone name errand).log = []
  /-- With any other name one command is attempted, whatever comes of it. -/
  attempted : PackageName.validate name = .ok () → ∃ process?,
    attemptsOf (backend.attend w tone name errand).log =
      [⟨(errand.command name backend).argv, process?⟩]
  /-- The name is the last argument and unchanged, unless the command has no name in it. -/
  named : ∃ lead, ∀ name, (errand.command name backend).argv =
    if errand.isNamed backend then lead ++ [name] else lead
  /-- A command that cannot be started is reported as it would be typed, with the reason. -/
  refused : PackageName.validate name = .ok () →
    ∀ e, w.start (errand.command name backend) = .error e →
      (backend.attend w tone name errand).value =
        .error (.command (String.intercalate " " (errand.command name backend).argv) e.text)
  /-- A change succeeds if and only if its command is started and ends with code zero. -/
  changed : PackageName.validate name = .ok () → errand.changes = true →
    ((∃ answer, (backend.attend w tone name errand).value = .ok answer) ↔
      ∃ process effect, w.start (errand.command name backend) = .ok (process, effect) ∧
        effect.status = .exited 0)
  /-- Any other end of the command of a change is a failure of the package manager. -/
  failed : PackageName.validate name = .ok () → errand.changes = true → ∀ process effect,
    w.start (errand.command name backend) = .ok (process, effect) → effect.status ≠ .exited 0 →
      ∃ detail, (backend.attend w tone name errand).value = .error (.manager detail)
  /-- A query whose command is started gives an answer, unless the list of Homebrew does not end
  well. -/
  queried : PackageName.validate name = .ok () → errand.changes = false → ∀ process effect,
    w.start (errand.command name backend) = .ok (process, effect) →
      if backend = .homebrew ∧ effect.status ≠ .exited 0 then
        ∃ detail, (backend.attend w tone name errand).value = .error (.manager detail)
      else ∃ answer, (backend.attend w tone name errand).value = .ok answer

/-- Every errand validates the name first, and then comes to one command that decides it. -/
theorem attend_dutiful (w : World) (tone : Tone) (backend : Backend) (name : String)
    (errand : Errand) : Dutiful w tone backend name errand := by
  refine
    { rejected := ?_
      attempted := ?_
      named := Errand.exists_lead backend errand
      refused := ?_
      changed := Backend.attend_ok_iff
      failed := fun hname hchanges _ _ hstart hstatus =>
        ⟨_, Backend.value_of_badEnd hname hchanges hstart hstatus⟩
      queried := ?_ }
  · intro failure hname
    rw [Backend.attend_of_invalid hname]
    exact ⟨rfl, rfl, rfl⟩
  · intro hname
    rcases (Backend.trace_attend hname).attempts with ⟨process?, hattempts, -⟩
    exact ⟨process?, hattempts⟩
  · intro hname e hstart
    rw [Backend.value_of_refused hname hstart, Command.refusal, Errand.display_command w hname]
  · intro hname hchanges process effect hstart
    cases errand with
    | query version =>
        rw [Backend.value_query_of_started hname hstart]
        exact Errand.read_cases
    | install | upgrade =>
        cases hchanges

end Provision

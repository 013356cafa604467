import Provision.Machine.Disk

/-!
# Path — where a path leads, and where a joined one does

The components of a joined path are those of the first path and then those of the second, up to an
empty one that stays where it is.  So a file below a directory is found in two steps: first the
directory, and from there the file.  This file defines:

* `Path.components_append` — the components of two paths with a slash between them;
* `Path.join_assoc` — of two joins it does not matter which is made first;
* `Path.destination` — where a path leads, if it leads anywhere, and
  `Disk.eq_destination_of_directory?` — a disk decides no more than that;
* `Disk.resolve_join`, `resolve_join_of_resolve` — a joined path leads where its second part leads
  from the end of the first one;
* `Disk.directory?_of_isFile_join` — what is found below a directory is found below a directory.
-/

namespace Provision

/-! ## Components -/

namespace Path

variable {base path : List Char}

theorem isAbsolute_append (h : base ≠ []) : isAbsolute (base ++ path) = isAbsolute base := by
  cases base with
  | nil =>
      exact absurd rfl h
  | cons c base =>
      simp [isAbsolute]

theorem components_ne_nil : components path ≠ [] := by
  simp [components]

/-- A slash ends a component, and another one begins behind it. -/
theorem components_append (base path : List Char) :
    components (base ++ '/' :: path) = components base ++ components path := by
  induction base with
  | nil =>
      simp [components, Text.pieces]
  | cons c base ih =>
      have hparts : (Text.pieces '/' (base ++ '/' :: path)).1 ::
          (Text.pieces '/' (base ++ '/' :: path)).2 =
          ((Text.pieces '/' base).1 :: (Text.pieces '/' base).2) ++ components path := ih
      rcases List.cons.inj hparts with ⟨hfirst, hrest⟩
      by_cases hc : c = '/'
      · simp [components, Text.pieces, hc, hfirst, hrest]
      · simp [components, Text.pieces, hc, hfirst, hrest]

/-- What joining puts behind the first path adds the components of the second one to it, in place of
the empty one that a slash at its end makes. -/
theorem exists_joinChars (hbase : base ≠ []) (hpath : isAbsolute path = false) :
    ∃ more, joinChars base path = base ++ more ∧
      (components (base ++ more) = components base ++ components path ∨
        ∃ front, components base = front ++ [[]] ∧
          components (base ++ more) = front ++ components path) := by
  by_cases hlast : base.getLast? = some '/'
  · rcases List.getLast?_eq_some_iff.1 hlast with ⟨front, rfl⟩
    refine ⟨path, by simp [joinChars, hpath], Or.inr ⟨components front, ?_, ?_⟩⟩
    · exact components_append front []
    · simpa using components_append front path
  · exact ⟨'/' :: path, by simp [joinChars, hpath, hlast, hbase],
      Or.inl (components_append base path)⟩

/-- What joining puts between a path and one that goes on from it. -/
def separator (base : List Char) : List Char :=
  if base.isEmpty || base.getLast? = some '/' then [] else ['/']

theorem joinChars_of_absolute (h : isAbsolute path = true) : joinChars base path = path := by
  simp [joinChars, h]

theorem joinChars_of_relative (h : isAbsolute path = false) :
    joinChars base path = base ++ separator base ++ path := by
  unfold joinChars separator
  split
  · simp_all
  · split <;> simp

/-- What comes before a path has no part in what is put behind it. -/
theorem separator_append (h : path ≠ []) : separator (base ++ path) = separator path := by
  have hlast : (base ++ path).getLast? = path.getLast? := by
    rw [List.getLast?_append, List.getLast?_eq_some_getLast h]
    rfl
  simp [separator, hlast, h]

theorem separator_joined : separator (base ++ separator base) = [] := by
  by_cases hbase : base.isEmpty || base.getLast? = some '/'
  · simp_all [separator]
  · simp_all [separator]

/-- It does not matter which of two joins is made first. -/
theorem joinChars_assoc (first second third : List Char) :
    joinChars (joinChars first second) third = joinChars first (joinChars second third) := by
  cases hthird : isAbsolute third with
  | true =>
      simp only [joinChars_of_absolute hthird]
  | false =>
      cases hsecond : isAbsolute second with
      | true =>
          -- an absolute path stays one when another path is put behind it
          have hne : second ≠ [] := by
            intro hempty
            simp [hempty, isAbsolute] at hsecond
          have hjoined : isAbsolute (joinChars second third) = true := by
            rw [joinChars_of_relative hthird, List.append_assoc, isAbsolute_append hne, hsecond]
          rw [joinChars_of_absolute hsecond, joinChars_of_absolute hjoined]
      | false =>
          by_cases hne : second = []
          · subst hne
            have hempty : joinChars [] third = third := by simp [joinChars]
            rw [hempty, joinChars_of_relative hsecond, List.append_nil,
              joinChars_of_relative hthird, joinChars_of_relative hthird, separator_joined,
              List.append_nil]
          · have hjoined : isAbsolute (joinChars second third) = false := by
              rw [joinChars_of_relative hthird, List.append_assoc, isAbsolute_append hne, hsecond]
            rw [joinChars_of_relative hjoined, joinChars_of_relative hthird,
              joinChars_of_relative hthird, joinChars_of_relative hsecond, separator_append hne]
            simp only [List.append_assoc]

theorem join_ne_empty {base path : String} (hbase : base ≠ "") : join base path ≠ "" := by
  intro hempty
  have hchars : joinChars base.toList path.toList = [] := by
    simpa [join] using congrArg String.toList hempty
  cases habsolute : isAbsolute path.toList with
  | true =>
      rw [joinChars_of_absolute habsolute] at hchars
      simp [hchars, isAbsolute] at habsolute
  | false =>
      rw [joinChars_of_relative habsolute] at hchars
      exact hbase (by simpa using (List.append_eq_nil_iff.1 (List.append_eq_nil_iff.1 hchars).1).1)

theorem join_assoc (first second third : String) :
    join (join first second) third = join first (join second third) := by
  simp only [join, String.toList_ofList, joinChars_assoc]

/-- Where one component leads from a location. -/
def next (loc : Location) (c : List Char) : Location :=
  if c.isEmpty || c = ['.'] then loc
  else if c = ['.', '.'] then loc.dropLast
  else loc ++ [c]

/-- Where a path begins: an absolute one at the root, and any other one in the working directory. -/
def origin (home : Location) (path : List Char) : Location :=
  if isAbsolute path then [] else home

/-- Where a path leads from a working directory, on every disk on which it leads anywhere. -/
def destination (home : Location) (path : List Char) : Location :=
  (components path).foldl next (origin home path)

end Path

/-! ## Walks -/

namespace Disk

variable {d : Disk} {home loc mid place : Location} {c : List Char} {cs : List (List Char)}

/-- Every step of a walk begins in a directory, and goes where its component leads. -/
theorem walk_cons_eq_some (h : d.walk loc (c :: cs) = some place) :
    d.isDirectoryAt loc = true ∧ d.walk (Path.next loc c) cs = some place := by
  cases hdir : d.isDirectoryAt loc with
  | false =>
      simp [walk, hdir] at h
  | true =>
      refine ⟨rfl, ?_⟩
      simp only [walk, hdir, Bool.not_true, Bool.false_eq_true, if_false] at h
      unfold Path.next
      split
      · simpa [*] using h
      · split
        · simpa [*] using h
        · simp_all

/-- An empty component stays, where there is a directory to stay in. -/
theorem walk_empty (h : d.isDirectoryAt loc = true) : d.walk loc [[]] = some loc := by
  simp [walk, h]

/-- The disk decides whether a walk leads anywhere, and the components decide where. -/
theorem eq_foldl_of_walk (h : d.walk loc cs = some place) : place = cs.foldl Path.next loc := by
  induction cs generalizing loc with
  | nil =>
      exact (Option.some.inj h).symm
  | cons c cs ih =>
      exact ih (walk_cons_eq_some h).2

/-- Only the empty path leads nowhere by itself. -/
theorem resolve_of_ne {path : String} (h : path ≠ "") :
    d.resolve home path = d.walk (Path.origin home path.toList) (Path.components path.toList) := by
  simp [resolve, Path.origin, h]

theorem eq_destination_of_directory? {path : String} (h : d.directory? path = some place) :
    place = Path.destination d.home path.toList := by
  have hresolve : d.resolve d.home path = some place := (Option.filter_eq_some_iff.1 h).1
  by_cases hpath : path = ""
  · simp [resolve, hpath] at hresolve
  · exact eq_foldl_of_walk ((resolve_of_ne hpath).symm.trans hresolve)

/-! ## Joined paths -/

/-- A slash at the end of the first part adds a component that stays, in a directory that is needed
anyway. -/
theorem walk_slash (hcs : cs ≠ []) (front : List (List Char)) :
    d.walk loc (front ++ cs) = (d.walk loc (front ++ [[]])).bind fun mid => d.walk mid cs := by
  have hstay : ∀ mid, d.walk mid cs = (d.walk mid [[]]).bind fun mid => d.walk mid cs := by
    intro mid
    cases hdir : d.isDirectoryAt mid with
    | false =>
        cases cs with
        | nil =>
            exact absurd rfl hcs
        | cons c cs =>
            simp [walk, hdir]
    | true =>
        simp [walk_empty hdir]
  calc
    d.walk loc (front ++ cs) = (d.walk loc front).bind fun mid => d.walk mid cs :=
      walk_append d loc front cs
    _ = (d.walk loc front).bind fun mid => (d.walk mid [[]]).bind fun mid => d.walk mid cs := by
          simp only [← hstay]
    _ = (d.walk loc (front ++ [[]])).bind fun mid => d.walk mid cs := by
          rw [walk_append, Option.bind_assoc]

variable {base path : String}

/-- A joined path leads where its second part leads from the end of the first one. -/
theorem resolve_join (hbase : base ≠ "") (hpath : Path.isAbsolute path.toList = false) :
    d.resolve home (Path.join base path) =
      (d.resolve home base).bind fun mid => d.walk mid (Path.components path.toList) := by
  have hchars : base.toList ≠ [] := by simpa using hbase
  rcases Path.exists_joinChars hchars hpath with ⟨more, hmore, hparts⟩
  have hjoin : (Path.join base path).toList = base.toList ++ more := by simp [Path.join, hmore]
  have hne : Path.join base path ≠ "" := by
    intro hempty
    simp [hempty, hbase] at hjoin
  have horigin : Path.origin home (base.toList ++ more) = Path.origin home base.toList := by
    simp [Path.origin, Path.isAbsolute_append hchars]
  rw [resolve_of_ne hne, resolve_of_ne hbase, hjoin, horigin]
  rcases hparts with hparts | ⟨front, hfront, hparts⟩
  · rw [hparts, walk_append]
  · rw [hparts, hfront, walk_slash Path.components_ne_nil]

/-- An absolute path leads to the same place from everywhere. -/
theorem resolve_of_absolute (h : Path.isAbsolute path.toList = true) :
    d.resolve home path = d.walk [] (Path.components path.toList) := by
  have hne : path ≠ "" := by
    intro hempty
    simp [hempty, Path.isAbsolute] at h
  rw [resolve_of_ne hne, Path.origin, h]
  rfl

/-- A path that is put behind a way to a place leads where it leads from that place. -/
theorem resolve_join_of_resolve (hbase : d.resolve home base = some place) (hpath : path ≠ "") :
    d.resolve home (Path.join base path) = d.resolve place path := by
  cases habsolute : Path.isAbsolute path.toList with
  | true =>
      have hjoin : Path.join base path = path := by
        simp [Path.join, Path.joinChars_of_absolute habsolute]
      rw [hjoin, resolve_of_absolute habsolute, resolve_of_absolute habsolute]
  | false =>
      have hne : base ≠ "" := by
        intro hempty
        simp [hempty, resolve] at hbase
      rw [resolve_join hne habsolute, hbase, resolve_of_ne hpath, Path.origin, habsolute]
      rfl

/-- What is found below a directory is found below a directory. -/
theorem directory?_of_isFile_join (hbase : base ≠ "") (hpath : Path.isAbsolute path.toList = false)
    (h : d.isFile (Path.join base path) = true) :
    ∃ directory, d.directory? base = some directory := by
  have hresolve : ∃ place, d.resolve d.home (Path.join base path) = some place := by
    unfold isFile at h
    split at h
    · exact ⟨_, ‹_›⟩
    · cases h
  rcases hresolve with ⟨place, hplace⟩
  rw [resolve_join hbase hpath] at hplace
  rcases Option.bind_eq_some_iff.1 hplace with ⟨mid, hmid, hwalk⟩
  -- the path goes on from there, so there is a directory
  have hdir : d.isDirectoryAt mid = true := by
    cases hcs : Path.components path.toList with
    | nil =>
        exact absurd hcs Path.components_ne_nil
    | cons c cs =>
        rw [hcs] at hwalk
        exact (walk_cons_eq_some hwalk).1
  exact ⟨mid, Option.filter_eq_some_iff.2 ⟨hmid, hdir⟩⟩

end Disk
end Provision

/-!
# Inventory — which packages are installed, at which versions

A name matches only as a whole, so `make` is neither `automake` nor `makedepend`.  This file
defines:

* `Entry` — an installed package with its versions;
* `Entry.isFor`, `contains` — the question whether a package is there, at any version or a given
  one.
-/

namespace Provision
namespace Inventory

structure Entry where
  name : String
  versions : List String
  deriving DecidableEq, Repr

/-- The entry is for this very name, and has the version if one is given. -/
def Entry.isFor (e : Entry) (name : String) (version : Option String) : Bool :=
  e.name = name &&
    match version with
    | none => true
    | some v => e.versions.contains v

/-- Some entry is for the name, at the version if one is given. -/
def contains (entries : List Entry) (name : String) (version : Option String) : Bool :=
  entries.any fun e => e.isFor name version

theorem contains_iff {entries : List Entry} {name : String} {version : Option String} :
    contains entries name version = true ↔
      ∃ e ∈ entries, e.name = name ∧ ∀ v ∈ version, v ∈ e.versions := by
  simp only [contains, List.any_eq_true]
  constructor
  · rintro ⟨e, he, h⟩
    refine ⟨e, he, ?_⟩
    cases version with
    | none => simpa [Entry.isFor] using h
    | some v => simpa [Entry.isFor] using h
  · rintro ⟨e, he, hn, hv⟩
    refine ⟨e, he, ?_⟩
    cases version with
    | none => simp [Entry.isFor, hn]
    | some v => simpa [Entry.isFor, hn] using hv

end Inventory
end Provision

import Provision.PackageName
import Provision.Text.Blank
import Provision.Text.Null

/-!
# Naming — which names are accepted, and what is wrong with any other

A name is accepted when it belongs to the safe language.  Any other name has a fault, of which there
are five, and it is rejected with the first of them in a fixed order.  A list of names is rejected
with the first of its names that is.  This file defines:

* `PackageName.InAlphabet` — the characters of the safe language, by their ranges, and
  `not_inAlphabet_of_shell` — none of them means anything to a shell;
* `PackageName.Fault.In`, `Fault.order`, `FirstFault` — the faults of a name without the tests for
  them, and the one that is blamed;
* `PackageName.fault?_eq_find?`, `safe_iff` — the tests look for this one, and the safe names have
  none;
* `PackageName.validateAll_ok_iff`, `validateAll_error_iff` — lists of names;
* `PackageName.Vetted`, `validate_vetted` — every name and every list is treated in this way.
-/

namespace Provision
namespace PackageName

variable {name : String} {names : List String} {c : Char} {failure : Failure}

/-! ## The alphabet -/

/-- An ASCII letter or digit, or one of six marks. -/
def InAlphabet (c : Char) : Prop :=
  ('a' ≤ c ∧ c ≤ 'z') ∨ ('A' ≤ c ∧ c ≤ 'Z') ∨ ('0' ≤ c ∧ c ≤ '9') ∨
    c ∈ ['@', '.', '_', '+', '/', '-']

theorem isNameCharacter_iff : isNameCharacter c = true ↔ InAlphabet c := by
  have hupper : c.isUpper = true ↔ 'A' ≤ c ∧ c ≤ 'Z' := decide_eq_true_iff
  have hlower : c.isLower = true ↔ 'a' ≤ c ∧ c ≤ 'z' :=
    Bool.and_eq_true_iff.trans (and_congr decide_eq_true_iff decide_eq_true_iff)
  have hdigit : c.isDigit = true ↔ '0' ≤ c ∧ c ≤ '9' :=
    Bool.and_eq_true_iff.trans (and_congr decide_eq_true_iff decide_eq_true_iff)
  have halphanum : c.isAlphanum = (c.isUpper || c.isLower || c.isDigit) := rfl
  simp only [isNameCharacter, halphanum, Bool.or_eq_true, hupper, hlower, hdigit,
    List.contains_iff_mem, InAlphabet, punctuation]
  -- the upper case letters come first in the one and second in the other
  rw [or_assoc, or_assoc, or_left_comm]

instance : DecidablePred InAlphabet :=
  fun _ => decidable_of_iff _ isNameCharacter_iff

/-- No character of the alphabet means anything to a shell. -/
theorem not_inAlphabet_of_shell (h : c ∈ shellCharacters) : ¬InAlphabet c := by
  have hall : (shellCharacters.all fun d => !isNameCharacter d) = true := by decide
  have hnone : isNameCharacter c = false := by simpa using List.all_eq_true.1 hall c h
  intro hc
  exact Bool.noConfusion (hnone.symm.trans (isNameCharacter_iff.2 hc))

/-- Name characters lie between the plus sign and the letter z. -/
theorem toNat_of_nameCharacter (h : isNameCharacter c = true) : 43 ≤ c.toNat ∧ c.toNat ≤ 122 := by
  rcases Bool.or_eq_true_iff.1 h with halnum | hmark
  · have hclasses : c.isAlphanum =
        (decide ('A'.val ≤ c.val ∧ c.val ≤ 'Z'.val) || ('a'.val ≤ c.val && c.val ≤ 'z'.val) ||
          ('0'.val ≤ c.val && c.val ≤ '9'.val)) := rfl
    have hval : c.val.toNat = c.toNat := rfl
    simp only [hclasses, Bool.or_eq_true, Bool.and_eq_true, decide_eq_true_eq,
      UInt32.le_iff_toNat_le, Char.reduceVal, UInt32.reduceToNat, hval] at halnum
    omega
  · have hall : ∀ d ∈ punctuation, 43 ≤ d.toNat ∧ d.toNat ≤ 122 := by simp [punctuation]
    exact hall c (List.contains_iff_mem.1 hmark)

theorem not_blank_of_nameCharacter (h : isNameCharacter c = true) : Text.isBlank c = false := by
  have hbounds := toNat_of_nameCharacter h
  simp [Text.isBlank, Text.blankRanges]
  omega

theorem ne_of_nameCharacter {d : Char} (h : isNameCharacter c = true)
    (hd : isNameCharacter d = false) : c ≠ d := by
  intro hsame
  rw [hsame, hd] at h
  cases h

theorem hasDoubleDot_iff {cs : List Char} :
    hasDoubleDot cs = true ↔ ∃ before after, cs = before ++ '.' :: '.' :: after := by
  constructor
  · intro h
    fun_induction hasDoubleDot cs with
    | case1 after =>
        exact ⟨[], after, rfl⟩
    | case2 c cs _ ih =>
        rcases ih h with ⟨before, after, rfl⟩
        exact ⟨c :: before, after, rfl⟩
    | case3 =>
        cases h
  · intro h
    rcases h with ⟨before, after, rfl⟩
    induction before with
    | nil =>
        rfl
    | cons c before ih =>
        rw [List.cons_append]
        unfold hasDoubleDot
        split
        · rfl
        · next heq =>
            rcases List.cons.inj heq with ⟨-, rfl⟩
            exact ih
        · next heq =>
            cases heq

/-! ## Faults -/

namespace Fault

/-- The name has the fault. -/
def In (name : String) : Fault → Prop
  | empty => name.toList = []
  | tooLong => 256 < name.toList.length
  | shellCharacter => ∃ c ∈ name.toList, c ∈ shellCharacters
  | invalidCharacter => ∃ c ∈ name.toList, ¬InAlphabet c
  | doubleDot => ∃ before after, name.toList = before ++ '.' :: '.' :: after

/-- The faults in the order in which they are blamed. -/
def order : List Fault :=
  [empty, tooLong, shellCharacter, invalidCharacter, doubleDot]

theorem mem_order (fault : Fault) : fault ∈ order := by
  cases fault <;> decide

instance (name : String) : DecidablePred (In name)
  | empty => inferInstanceAs (Decidable (name.toList = []))
  | tooLong => inferInstanceAs (Decidable (256 < name.toList.length))
  | shellCharacter => List.decidableBEx (fun c => c ∈ shellCharacters) name.toList
  | invalidCharacter => List.decidableBEx (fun c => ¬InAlphabet c) name.toList
  | doubleDot => decidable_of_iff _ hasDoubleDot_iff

end Fault

/-- The name has this fault, and none that comes before it in the order. -/
def FirstFault (name : String) (fault : Fault) : Prop :=
  ∃ earlier later, Fault.order = earlier ++ fault :: later ∧ fault.In name ∧
    ∀ other ∈ earlier, ¬other.In name

/-- The tests are made in the order of the faults, each for its own one. -/
theorem fault?_eq_find? : fault? name = Fault.order.find? fun fault => fault.In name := by
  have hempty : name.toList.isEmpty = true ↔ Fault.empty.In name := List.isEmpty_iff
  have hlong : maxLength < name.toList.length ↔ Fault.tooLong.In name := Iff.rfl
  have hshell : name.toList.any shellCharacters.contains = true ↔ Fault.shellCharacter.In name := by
    simp [Fault.In]
  have hinvalid : (!name.toList.all isNameCharacter) = true ↔ Fault.invalidCharacter.In name := by
    simp [Fault.In, ← isNameCharacter_iff]
  have hdots : hasDoubleDot name.toList = true ↔ Fault.doubleDot.In name := hasDoubleDot_iff
  have hcons : ∀ (fault : Fault) (faults : List Fault),
      (fault :: faults).find? (fun other => other.In name) =
        if fault.In name then some fault else faults.find? fun other => other.In name := by
    intro fault faults
    by_cases h : fault.In name <;> simp [h]
  simp only [fault?, Fault.order, hcons, List.find?_nil, hempty, hlong, hshell, hinvalid, hdots]

theorem fault?_eq_some_iff {fault : Fault} : fault? name = some fault ↔ FirstFault name fault := by
  rw [fault?_eq_find?, List.find?_eq_some_iff_append]
  constructor
  · intro h
    rcases h with ⟨hfault, earlier, later, horder, hearlier⟩
    exact ⟨earlier, later, horder, by simpa using hfault, by simpa using hearlier⟩
  · intro h
    rcases h with ⟨earlier, later, horder, hfault, hearlier⟩
    exact ⟨by simpa using hfault, earlier, later, horder, by simpa using hearlier⟩

theorem fault?_eq_none_iff : fault? name = none ↔ ∀ fault : Fault, ¬fault.In name := by
  simp [fault?_eq_find?, Fault.mem_order]

/-- The safe names are those without a fault. -/
theorem safe_iff : Safe name ↔ ∀ fault : Fault, ¬fault.In name := by
  constructor
  · intro h fault hfault
    cases fault with
    | empty =>
        have hempty : name.toList.length = 0 := congrArg List.length hfault
        exact absurd h.nonempty (by omega)
    | tooLong =>
        exact absurd h.bounded (Nat.not_le.2 hfault)
    | shellCharacter =>
        rcases hfault with ⟨c, hc, hshell⟩
        exact not_inAlphabet_of_shell hshell (isNameCharacter_iff.1 (h.characters c hc))
    | invalidCharacter =>
        rcases hfault with ⟨c, hc, hother⟩
        exact hother (isNameCharacter_iff.1 (h.characters c hc))
    | doubleDot =>
        rcases hfault with ⟨before, after, hdots⟩
        exact h.separated before after hdots
  · intro h
    refine ⟨?_, ?_, ?_, ?_⟩
    · exact List.length_pos_iff.2 (h .empty)
    · exact Nat.not_lt.1 (h .tooLong)
    · intro c hc
      refine isNameCharacter_iff.2 (Decidable.byContradiction fun hother => ?_)
      exact h .invalidCharacter ⟨c, hc, hother⟩
    · intro before after hdots
      exact h .doubleDot ⟨before, after, hdots⟩

/-! ## Names -/

theorem validate_ok_iff : validate name = .ok () ↔ Safe name := by
  rw [safe_iff, ← fault?_eq_none_iff, validate]
  cases fault? name <;> simp

/-- A name that is not accepted is rejected with its first fault. -/
theorem validate_error_iff :
    validate name = .error failure ↔
      ∃ fault, FirstFault name fault ∧ failure = .configuration (fault.detail name) := by
  simp only [← fault?_eq_some_iff, validate]
  cases fault? name <;> simp [eq_comm]

/-- A name is rejected by a fault of the request. -/
theorem configuration_of_validate (h : validate name = .error failure) :
    ∃ detail, failure = .configuration detail := by
  unfold validate at h
  split at h
  · cases h
    exact ⟨_, rfl⟩
  · cases h

/-- A valid name is made of name characters, of at least one. -/
theorem characters_of_validate (h : validate name = .ok ()) :
    name.toList ≠ [] ∧ ∀ c ∈ name.toList, isNameCharacter c = true := by
  have hsafe : Safe name := validate_ok_iff.1 h
  exact ⟨List.length_pos_iff.1 hsafe.nonempty, hsafe.characters⟩

/-- No accepted name has a null character. -/
theorem hasNull_of_validate (h : validate name = .ok ()) : Text.hasNull name = false := by
  have hnull : '\x00' ∉ name.toList := by
    intro hmem
    exact absurd ((characters_of_validate h).2 _ hmem) (by decide)
  simpa [Text.hasNull] using hnull

/-- Of a name that is too long the first fifty characters are shown. -/
theorem exists_shown_of_long (h : 256 < name.toList.length) :
    ∃ shown hidden, name.toList = shown ++ hidden ∧ shown.length = 50 ∧
      validate name = .error (.configuration
        ("Package name too long (max 256 chars): " ++ String.ofList shown)) := by
  have hfirst : FirstFault name .tooLong := by
    refine ⟨[.empty], [.shellCharacter, .invalidCharacter, .doubleDot], rfl, h, ?_⟩
    intro other hother hempty
    cases List.mem_singleton.1 hother
    have hlength : name.toList.length = 0 := congrArg List.length hempty
    omega
  refine ⟨name.toList.take 50, name.toList.drop 50, (List.take_append_drop 50 _).symm, ?_, ?_⟩
  · rw [List.length_take]
    omega
  · exact validate_error_iff.2 ⟨.tooLong, hfirst, rfl⟩

/-! ## Lists of names -/

theorem validateAll_cons_of_ok (h : validate name = .ok ()) :
    validateAll (name :: names) = validateAll names := by
  simp [validateAll, h]

theorem validateAll_cons_of_error (h : validate name = .error failure) :
    validateAll (name :: names) = .error failure := by
  simp [validateAll, h]

/-- A list of names is accepted when each of them is. -/
theorem validateAll_ok_iff :
    validateAll names = .ok () ↔ ∀ name ∈ names, validate name = .ok () := by
  induction names with
  | nil =>
      simp [validateAll]
  | cons name names ih =>
      cases hname : validate name with
      | error failure =>
          simp [validateAll_cons_of_error hname, hname]
      | ok =>
          simp [validateAll_cons_of_ok hname, hname, ih]

/-- A list of names is rejected by its first name that is. -/
theorem validateAll_error_iff :
    validateAll names = .error failure ↔
      ∃ earlier name later, names = earlier ++ name :: later ∧
        (∀ other ∈ earlier, validate other = .ok ()) ∧ validate name = .error failure := by
  constructor
  · intro h
    induction names with
    | nil =>
        cases h
    | cons name names ih =>
        cases hname : validate name with
        | error reported =>
            have hreported : reported = failure :=
              Except.error.inj ((validateAll_cons_of_error hname).symm.trans h)
            exact ⟨[], name, names, rfl, by simp, by rw [hname, hreported]⟩
        | ok =>
            rcases ih ((validateAll_cons_of_ok hname).symm.trans h) with
              ⟨earlier, faulty, later, rfl, hearlier, hfaulty⟩
            exact ⟨name :: earlier, faulty, later, rfl, by simpa [hname] using hearlier, hfaulty⟩
  · intro h
    rcases h with ⟨earlier, name, later, rfl, hearlier, hname⟩
    induction earlier with
    | nil =>
        exact validateAll_cons_of_error hname
    | cons other earlier ih =>
        have hother : validate other = .ok () := hearlier other (List.mem_cons_self ..)
        have hrest : ∀ more ∈ earlier, validate more = .ok () :=
          fun more hmore => hearlier more (List.mem_cons_of_mem _ hmore)
        exact (validateAll_cons_of_ok hother).trans (ih hrest)

/-- A list of names is rejected by a fault of the request. -/
theorem configuration_of_validateAll (h : validateAll names = .error failure) :
    ∃ detail, failure = .configuration detail := by
  rcases validateAll_error_iff.1 h with ⟨_, name, _, _, _, hname⟩
  exact configuration_of_validate hname

/-! ## All names -/

/-- How a name and a list of names are vetted. -/
structure Vetted (name : String) (names : List String) : Prop where
  /-- The accepted names are those of the safe language. -/
  accepted : validate name = .ok () ↔
    1 ≤ name.toList.length ∧ name.toList.length ≤ 256 ∧ (∀ c ∈ name.toList, InAlphabet c) ∧
      ∀ before after, name.toList ≠ before ++ '.' :: '.' :: after
  /-- Of the faults that a name has, the first one in their order is blamed. -/
  blamed : ∀ failure, validate name = .error failure ↔
    ∃ fault, FirstFault name fault ∧ failure = .configuration (fault.detail name)
  /-- Of a name that is too long the report has the first fifty characters. -/
  shortened : 256 < name.toList.length →
    ∃ shown hidden, name.toList = shown ++ hidden ∧ shown.length = 50 ∧
      validate name = .error (.configuration
        ("Package name too long (max 256 chars): " ++ String.ofList shown))
  allAccepted : validateAll names = .ok () ↔ ∀ name ∈ names, validate name = .ok ()
  /-- A list is rejected as its first name that is. -/
  firstBlamed : ∀ failure, validateAll names = .error failure ↔
    ∃ earlier name later, names = earlier ++ name :: later ∧
      (∀ other ∈ earlier, validate other = .ok ()) ∧ validate name = .error failure

/-- The validation accepts the safe language, and blames the first fault of any other name. -/
theorem validate_vetted (name : String) (names : List String) : Vetted name names := by
  refine
    { accepted := ?_
      blamed := fun _ => validate_error_iff
      shortened := exists_shown_of_long
      allAccepted := validateAll_ok_iff
      firstBlamed := fun _ => validateAll_error_iff }
  rw [validate_ok_iff]
  constructor
  · intro h
    exact ⟨h.nonempty, h.bounded, fun c hc => isNameCharacter_iff.1 (h.characters c hc),
      h.separated⟩
  · intro h
    rcases h with ⟨hnonempty, hbounded, hcharacters, hseparated⟩
    exact ⟨hnonempty, hbounded, fun c hc => isNameCharacter_iff.2 (hcharacters c hc), hseparated⟩

/-- A name with several faults is rejected for the one that comes first. -/
example : validate "a..b;c" =
    .error (.configuration "Package name contains unsafe characters: a..b;c") := by
  rfl

end PackageName
end Provision

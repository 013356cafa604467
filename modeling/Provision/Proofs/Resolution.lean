import Provision.Proofs.Naming
import Provision.Toolchain.Tool

/-!
# Resolution — which tool an identifier names

An identifier is looked up without the white space around it and in lower case, whatever its
alphabet.  Of an accepted name this changes nothing but the ASCII capitals, and whatever names a
tool comes in this way to an accepted name of the tool.  This file defines:

* `Text.trim_eq_self` — texts in which there is nothing to trim;
* `Text.Lowering` — a lower-casing of all texts, of which only what the versions of the Unicode
  tables have in common is said;
* `Text.Lowering.lower_eq_iff`, `Text.Lowering.lower_of_ascii` — it comes to the same ASCII texts as
  `Text.fold`, and what it makes of an ASCII text;
* `Tool.validate_of_mem_names`, `Tool.ofName?_of_validate` — the names of the tools are accepted,
  and what an accepted name names;
* `Tool.Resolved`, `Tool.names_resolved` — how an identifier is resolved, with any lower-casing.
-/

namespace Provision

/-! ## Texts that are left as they are -/

namespace Text

variable {c : Char} {cs word before after : List Char}

theorem trim_eq_self (h : ∀ c ∈ cs, isBlank c = false) : trim cs = cs := by
  -- the end of the text is trimmed as the front of its reverse
  have hdrop : ∀ ds : List Char, (∀ d ∈ ds, isBlank d = false) → ds.dropWhile isBlank = ds := by
    intro ds hds
    cases ds with
    | nil =>
        rfl
    | cons d ds =>
        simp [hds d (List.mem_cons_self ..)]
  have hreverse : ∀ d ∈ cs.reverse, isBlank d = false := fun d hd => h d (List.mem_reverse.1 hd)
  rw [trim, trimLeft, hdrop cs h, trimRight, hdrop cs.reverse hreverse, List.reverse_reverse]

/-! ## Lower case -/

theorem toList_toLower (text : String) : text.toLower.toList = text.toList.map Char.toLower :=
  String.toList_map

/-- The ASCII part of the map leaves every other character as it is. -/
theorem toLower_of_not_ascii (h : 128 ≤ c.toNat) : c.toLower = c := by
  have hval : c.val.toNat = c.toNat := rfl
  have hcapital : ¬(c.val ≥ 'A'.val ∧ c.val ≤ 'Z'.val) := by
    simp only [ge_iff_le, UInt32.le_iff_toNat_le, Char.reduceVal, UInt32.reduceToNat, hval]
    omega
  exact dif_neg hcapital

/-- The lower-case form of the character is a single ASCII character. -/
def HasAsciiForm (c : Char) : Prop :=
  c.toNat < 128 ∨ c = kelvinSign

theorem foldChar_of_ascii (h : c.toNat < 128) : foldChar c = c.toLower := by
  have hkelvin : c ≠ kelvinSign := by
    rintro rfl
    exact absurd h (by decide)
  exact if_neg hkelvin

theorem fold_of_ascii (h : ∀ c ∈ cs, c.toNat < 128) : fold cs = cs.map Char.toLower :=
  List.map_congr_left fun c hc => foldChar_of_ascii (h c hc)

theorem foldChar_of_not_hasAsciiForm (h : ¬HasAsciiForm c) : foldChar c = c := by
  rcases not_or.1 h with ⟨hforeign, hkelvin⟩
  rw [foldChar, if_neg hkelvin, toLower_of_not_ascii (Nat.not_lt.1 hforeign)]

/-- A lower-casing of texts.  The form of a character may have several characters, and it may depend
on what stands before and behind the character, as that of the Greek sigma does. -/
structure Lowering where
  form : (before : List Char) → Char → (after : List Char) → List Char
  form_ascii : ∀ before c after, c.toNat < 128 → form before c after = [c.toLower]
  form_kelvin : ∀ before after, form before kelvinSign after = ['k']
  /-- Every other character has a form with a character outside ASCII. -/
  exists_foreign : ∀ before c after, 128 ≤ c.toNat → c ≠ kelvinSign →
    ∃ d ∈ form before c after, 128 ≤ d.toNat

namespace Lowering

variable (lowering : Lowering)

/-- The lower-case form of a text behind another one. -/
def lowerFrom (before : List Char) : List Char → List Char
  | [] => []
  | c :: cs => lowering.form before c cs ++ lowerFrom (before ++ [c]) cs

def lower (cs : List Char) : List Char :=
  lowering.lowerFrom [] cs

theorem form_of_hasAsciiForm (h : HasAsciiForm c) :
    lowering.form before c after = [foldChar c] := by
  rcases h with hascii | rfl
  · rw [lowering.form_ascii before c after hascii, foldChar_of_ascii hascii]
  · exact lowering.form_kelvin before after

theorem lowerFrom_eq_fold (h : ∀ c ∈ cs, HasAsciiForm c) :
    lowering.lowerFrom before cs = fold cs := by
  -- what stands before the text grows with each character, but it takes no part in these forms
  induction cs generalizing before with
  | nil =>
      rfl
  | cons c cs ih =>
      have hc : HasAsciiForm c := h c (List.mem_cons_self ..)
      have hcs : ∀ d ∈ cs, HasAsciiForm d := fun d hd => h d (List.mem_cons_of_mem _ hd)
      rw [lowerFrom, lowering.form_of_hasAsciiForm hc, ih hcs]
      rfl

/-- The form of each character of a text is a part of the form of the text. -/
theorem exists_form (before : List Char) (h : c ∈ cs) :
    ∃ front back, ∀ d ∈ lowering.form front c back, d ∈ lowering.lowerFrom before cs := by
  induction cs generalizing before with
  | nil =>
      cases h
  | cons e cs ih =>
      rcases List.mem_cons.1 h with rfl | hmem
      · exact ⟨before, cs, fun d hd => List.mem_append_left _ hd⟩
      · rcases ih (before ++ [e]) hmem with ⟨front, back, hform⟩
        exact ⟨front, back, fun d hd => List.mem_append_right _ (hform d hd)⟩

/-- A lower-casing and `fold` come to the same ASCII texts. -/
theorem lower_eq_iff (hword : ∀ c ∈ word, c.toNat < 128) :
    lowering.lower cs = word ↔ fold cs = word := by
  by_cases h : ∀ c ∈ cs, HasAsciiForm c
  · rw [lower, lowering.lowerFrom_eq_fold h]
  · -- a character without such a form leaves one outside ASCII in both texts
    obtain ⟨c, hc⟩ := Classical.not_forall.1 h
    obtain ⟨hmem, hother⟩ := Classical.not_imp.1 hc
    have hforeign : 128 ≤ c.toNat := Nat.not_lt.1 (not_or.1 hother).1
    constructor
    · intro hlower
      rcases lowering.exists_form [] hmem with ⟨front, back, hform⟩
      rcases lowering.exists_foreign front c back hforeign (not_or.1 hother).2 with
        ⟨d, hd, houtside⟩
      have hinside : d.toNat < 128 := hword d (hlower ▸ hform d hd)
      omega
    · intro hfold
      have hfolded : foldChar c ∈ word := hfold ▸ List.mem_map_of_mem hmem
      rw [foldChar_of_not_hasAsciiForm hother] at hfolded
      have hinside : c.toNat < 128 := hword c hfolded
      omega

theorem lower_of_ascii (h : ∀ c ∈ cs, c.toNat < 128) : lowering.lower cs = cs.map Char.toLower :=
  calc
    lowering.lower cs = fold cs := lowering.lowerFrom_eq_fold fun c hc => Or.inl (h c hc)
    _ = cs.map Char.toLower := fold_of_ascii h

/-- A lower-casing in which the form of the dotted capital I has two characters, and that of the
capital sigma at the end of a text is the final sigma. -/
def withSpecials : Lowering where
  form _ c after :=
    if c = '\u0130' then ['i', '\u0307']
    else if c = '\u03A3' then (if after.isEmpty then ['\u03C2'] else ['\u03C3'])
    else [foldChar c]
  form_ascii before c after h := by
    have hdotted : c ≠ '\u0130' := by
      rintro rfl
      exact absurd h (by decide)
    have hsigma : c ≠ '\u03A3' := by
      rintro rfl
      exact absurd h (by decide)
    rw [if_neg hdotted, if_neg hsigma, foldChar_of_ascii h]
  form_kelvin _ _ := rfl
  exists_foreign before c after h hkelvin := by
    have hother : ¬HasAsciiForm c := not_or.2 ⟨Nat.not_lt.2 h, hkelvin⟩
    by_cases hdotted : c = '\u0130'
    · simp [hdotted]
    · by_cases hsigma : c = '\u03A3'
      · cases after <;> simp [hsigma]
      · simpa [hdotted, hsigma, foldChar_of_not_hasAsciiForm hother] using h

end Lowering

end Text

/-! ## Accepted names -/

namespace Tool

open Text

variable {name other : String} {tool : Tool}

/-- Every name of a tool is accepted. -/
theorem validate_of_mem_names (h : name ∈ tool.names) : PackageName.validate name = .ok () := by
  have hnames : ∀ t : Tool, ∀ n ∈ t.names, PackageName.fault? n = none := by
    intro t
    cases t <;> decide
  have hfaultless := PackageName.fault?_eq_none_iff.1 (hnames tool name h)
  exact PackageName.validate_ok_iff.2 (PackageName.safe_iff.2 hfaultless)

section Accepted

variable (h : PackageName.validate name = .ok ())
include h

theorem ascii_of_validate : ∀ c ∈ name.toList, c.toNat < 128 := by
  intro c hc
  have hbounds := PackageName.toNat_of_nameCharacter ((PackageName.characters_of_validate h).2 c hc)
  omega

theorem trim_of_validate : trim name.toList = name.toList := by
  refine trim_eq_self fun c hc => ?_
  exact PackageName.not_blank_of_nameCharacter ((PackageName.characters_of_validate h).2 c hc)

theorem lower_of_validate (lowering : Lowering) :
    lowering.lower name.toList = name.toLower.toList := by
  rw [lowering.lower_of_ascii (ascii_of_validate h), toList_toLower]

theorem canonical_of_validate : canonical name = name.toLower := by
  rw [← String.toList_inj, canonical, String.toList_ofList, trim_of_validate h,
    fold_of_ascii (ascii_of_validate h), toList_toLower]

theorem ofName?_of_validate :
    ofName? name = some tool ↔ name.toLower = tool.id ∨ name.toLower ∈ tool.aliases := by
  rw [ofName?, canonical_of_validate h, find?_eq_some_iff, names, List.mem_cons]

end Accepted

/-! ## Identifiers -/

/-- An identifier without white space around it, in the lower case of some lower-casing. -/
def canonicalBy (lowering : Lowering) (name : String) : String :=
  String.ofList (lowering.lower (trim name.toList))

section Identifiers

variable (lowering : Lowering)

/-- Whatever the lower-casing, the same identifiers come to a name of a tool. -/
theorem canonicalBy_eq_iff (h : other ∈ tool.names) :
    canonicalBy lowering name = other ↔ canonical name = other := by
  have hascii : ∀ c ∈ other.toList, c.toNat < 128 := ascii_of_validate (validate_of_mem_names h)
  simp only [← String.toList_inj, canonicalBy, canonical, String.toList_ofList]
  exact lowering.lower_eq_iff hascii

theorem find?_canonicalBy : find? (canonicalBy lowering name) = ofName? name := by
  refine Option.ext fun tool => ?_
  rw [ofName?, find?_eq_some_iff, find?_eq_some_iff]
  -- the two forms of the identifier may differ, but not where one of them is a name of the tool
  constructor
  · intro h
    rwa [(canonicalBy_eq_iff lowering h).1 rfl]
  · intro h
    rwa [(canonicalBy_eq_iff lowering h).2 rfl]

/-- How an identifier is resolved, whichever lower-casing is used. -/
structure Resolved (lowering : Lowering) (name : String) : Prop where
  found : find? (canonicalBy lowering name) = ofName? name
  /-- In an accepted name there is nothing to trim, and only ASCII capitals are put in lower
  case. -/
  untouched : PackageName.validate name = .ok () →
    trim name.toList = name.toList ∧ lowering.lower name.toList = name.toLower.toList
  /-- An accepted name, in ASCII lower case, is looked up among the identifiers and the aliases. -/
  named : PackageName.validate name = .ok () →
    ∀ tool, ofName? name = some tool ↔ name.toLower = tool.id ∨ name.toLower ∈ tool.aliases
  /-- Accepted names that differ only in the case of ASCII letters name the same tool, or both
  none. -/
  alike : PackageName.validate name = .ok () →
    ∀ other, PackageName.validate other = .ok () → other.toLower = name.toLower →
      ofName? other = ofName? name
  /-- What names a tool is, once it is trimmed and in lower case, an accepted name of this tool. -/
  settled : ∀ tool, ofName? name = some tool →
    canonicalBy lowering name = canonical name ∧ PackageName.validate (canonical name) = .ok () ∧
      ofName? (canonical name) = some tool

/-- Accepted names are looked up as they are but for the case of ASCII letters, and every identifier
that names a tool comes to an accepted name of it. -/
theorem names_resolved (name : String) : Resolved lowering name where
  found := find?_canonicalBy lowering
  untouched h := ⟨trim_of_validate h, lower_of_validate h lowering⟩
  named h _ := ofName?_of_validate h
  alike h other hother hcase := by
    refine Option.ext fun tool => ?_
    rw [ofName?_of_validate hother, ofName?_of_validate h, hcase]
  settled tool h := by
    have hname : canonical name ∈ tool.names := find?_eq_some_iff.1 h
    have hsame : canonicalBy lowering name = canonical name :=
      (canonicalBy_eq_iff lowering hname).2 rfl
    exact ⟨hsame, validate_of_mem_names hname, ofName?_of_mem_names hname⟩

end Identifiers

/-- An accepted name with capitals, and a text with the Kelvin sign that is none but comes to
one. -/
theorem names_resolved_kelvin :
    PackageName.validate "Cross-GCC" = .ok () ∧ ofName? "Cross-GCC" = some .crossGcc ∧
      PackageName.fault? " Ma\u212Ae\n" = some .shellCharacter ∧
      find? (canonicalBy .withSpecials " Ma\u212Ae\n") = some .make ∧
      canonicalBy .withSpecials " Ma\u212Ae\n" = "make" ∧ PackageName.validate "make" = .ok () := by
  have hname : PackageName.validate "Cross-GCC" = .ok () := rfl
  have hlower : "Cross-GCC".toLower = "cross-gcc" :=
    String.toList_inj.1 ((toList_toLower "Cross-GCC").trans rfl)
  have hmake : ofName? " Ma\u212Ae\n" = some .make := by decide
  have hcanonical : canonical " Ma\u212Ae\n" = "make" := by decide
  have hresolved := names_resolved .withSpecials " Ma\u212Ae\n"
  rcases hresolved.settled .make hmake with ⟨hsame, haccepted, -⟩
  rw [hcanonical] at hsame haccepted
  refine ⟨hname, ?_, by decide, hresolved.found.trans hmake, hsame, haccepted⟩
  refine ((names_resolved .withSpecials "Cross-GCC").named hname .crossGcc).2 (Or.inr ?_)
  rw [hlower]
  decide

end Tool
end Provision

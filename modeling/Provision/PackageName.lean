import Provision.Failure

/-!
# PackageName — the names that may be put on a command line

A name is safe when it has between 1 and 256 characters, each an ASCII letter or digit or one of
`@ . _ + / -`, and no two dots side by side.  This file defines:

* `PackageName.fault?` — the first fault of a name, in a fixed order of the faults;
* `PackageName.validate`, `PackageName.validateAll` — the rejection of a name, and of a list of
  names by its first faulty one;
* `PackageName.Safe` — the language of the safe names, said without the faults.
-/

namespace Provision
namespace PackageName

/-! ## Characters -/

/-- The characters that a shell would interpret. -/
def shellCharacters : List Char :=
  [';', '\x60', '$', '(', ')', '\x7b', '\x7d', '|', '&', '<', '>', '\\', '\x27', '\x22', '\n', '\r',
    '\t']

/-- The characters allowed besides letters and digits. -/
def punctuation : List Char :=
  ['@', '.', '_', '+', '/', '-']

def isNameCharacter (c : Char) : Bool :=
  c.isAlphanum || punctuation.contains c

/-- Two dots stand side by side. -/
def hasDoubleDot : List Char → Bool
  | '.' :: '.' :: _ => true
  | _ :: cs => hasDoubleDot cs
  | [] => false

/-! ## Faults -/

def maxLength : Nat :=
  256

inductive Fault where
  | empty
  | tooLong
  | shellCharacter
  | invalidCharacter
  | doubleDot
  deriving DecidableEq, Repr

def fault? (name : String) : Option Fault :=
  let cs := name.toList
  if cs.isEmpty then some .empty
  else if maxLength < cs.length then some .tooLong
  else if cs.any shellCharacters.contains then some .shellCharacter
  else if !cs.all isNameCharacter then some .invalidCharacter
  else if hasDoubleDot cs then some .doubleDot
  else none

/-- The wording of a fault; of a name that is too long only the start is shown. -/
def Fault.detail (name : String) : Fault → String
  | empty => "Package name cannot be empty"
  | tooLong => "Package name too long (max 256 chars): " ++ String.ofList (name.toList.take 50)
  | shellCharacter => "Package name contains unsafe characters: " ++ name
  | invalidCharacter => "Package name contains invalid characters: " ++ name
  | doubleDot => "Package name cannot contain path traversal: " ++ name

/-! ## Validation -/

/-- Reject a name that has a fault. -/
def validate (name : String) : Except Failure Unit :=
  match fault? name with
  | some fault => .error (.configuration (fault.detail name))
  | none => .ok ()

/-- Reject a list of names by its first name that has a fault. -/
def validateAll : List String → Except Failure Unit
  | [] => .ok ()
  | name :: names =>
      match validate name with
      | .error failure => .error failure
      | .ok _ => validateAll names

/-! ## The safe language -/

/-- A name of the safe language. -/
structure Safe (name : String) : Prop where
  nonempty : 1 ≤ name.toList.length
  bounded : name.toList.length ≤ maxLength
  characters : ∀ c ∈ name.toList, isNameCharacter c = true
  separated : ∀ before after, name.toList ≠ before ++ '.' :: '.' :: after

end PackageName
end Provision

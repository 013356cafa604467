import Provision.Text.Column
import Provision.Text.Utf8

/-!
# Write — what appears on the console

Whatever a run prints is a list of writes, each tagged with its kind.  Some are made only in a
certain tone, and it is where they would be made that the tone is asked for.  Styles are part of a
write, and whether there are colours decides no more than its bytes.  This file defines:

* `Write` — the kinds of writes;
* `Tone` — quiet and verbose, or not;
* `Tone.info`, `Tone.header`, `Tone.echo` — the writes that are made in some tones only;
* `Write.bytes`, `render` — the bytes of a write, and of several.
-/

namespace Provision

/-! ## Kinds of writes -/

inductive Write where
  | info (message : String)
  | warning (message : String)
  | error (message : String)
  | header (title : String)
  /-- A line that is indented by two blanks for each level. -/
  | row (level : Nat) (text : String)
  | cause (message : String)
  | echo (command : String)
  /-- A question, after which the cursor stays on the line. -/
  | prompt (question : String)
  /-- The end of a prompt that got no line. -/
  | noAnswer
  /-- The end of a prompt whose line could not be read. -/
  | badAnswer (reason : String)
  /-- Output of a program that shares the console. -/
  | child (output : List UInt8)
  deriving DecidableEq, Repr

/-! ## Tones -/

structure Tone where
  quiet : Bool := false
  verbose : Bool := false
  deriving DecidableEq, Repr

namespace Tone

/-- Give information, unless quiet. -/
def info (tone : Tone) (message : String) : List Write :=
  if tone.quiet then [] else [.info message]

/-- Print a title, unless quiet. -/
def header (tone : Tone) (title : String) : List Write :=
  if tone.quiet then [] else [.header title]

/-- Show a command that is about to be run, if verbose. -/
def echo (tone : Tone) (command : String) : List Write :=
  if tone.verbose then [.echo command] else []

section Members

variable {tone : Tone} {text : String} {write : Write}

@[simp] theorem mem_info : write ∈ tone.info text ↔ tone.quiet = false ∧ write = .info text := by
  cases hquiet : tone.quiet <;> simp [info, hquiet]

@[simp] theorem mem_header :
    write ∈ tone.header text ↔ tone.quiet = false ∧ write = .header text := by
  cases hquiet : tone.quiet <;> simp [header, hquiet]

@[simp] theorem mem_echo : write ∈ tone.echo text ↔ tone.verbose = true ∧ write = .echo text := by
  cases hverbose : tone.verbose <;> simp [echo, hverbose]

end Members

end Tone

/-! ## Bytes -/

/-- A text between the sequences that switch a style on and all styles off. -/
def styled (color : Bool) (codes text : String) : String :=
  if color then "\x1b[" ++ codes ++ "m" ++ text ++ "\x1b[0m" else text

def warningTag (color : Bool) : String :=
  styled color "1;33" "warn:"

def Write.bytes (color : Bool) : Write → List UInt8
  | info message => Text.bytes (styled color "1;34" "info:" ++ " " ++ message ++ "\n")
  | warning message => Text.bytes (warningTag color ++ " " ++ message ++ "\n")
  | error message => Text.bytes (styled color "1;31" "error:" ++ " " ++ message ++ "\n")
  | header title => Text.bytes ("\n" ++ styled color "1;4" title ++ "\n")
  | row level text => Text.bytes (Text.indentation level ++ text ++ "\n")
  | cause message => Text.bytes (Text.indentation 1 ++ "caused by: " ++ message ++ "\n")
  | echo command =>
      Text.bytes ("  " ++ styled color "90" "$" ++ " " ++ styled color "90" command ++ "\n")
  | prompt question => Text.bytes (styled color "1;33" "?" ++ " " ++ question ++ " [y/n] ")
  | noAnswer => Text.bytes "\n"
  | badAnswer reason =>
      Text.bytes ("\n" ++ warningTag color ++ " failed to read input: " ++ reason ++ "\n")
  | child output => output

def render (color : Bool) (writes : List Write) : List UInt8 :=
  writes.flatMap (Write.bytes color)

end Provision

import Provision.Console.Write
import Provision.Text.Blank
import Provision.Text.Fold

/-!
# Prompt — yes/no questions

A question is asked again until a line of input answers it.  The end of the input, and a line that
is not text, count as no.  This file defines:

* `parseAnswer` — the answer that a text gives;
* `Reply` — an answer with the input that is left and what was written;
* `askLines` — the dialogue on the lines of an input, and `ask` also for a console that cannot be
  written to;
* `Operator` — who answers: a person at the console, or a standing yes.
-/

namespace Provision

open Text

/-! ## Answers -/

/-- A text answers yes or no when it is one of four words, whatever the letter case and the white
space around it. -/
def parseAnswer (text : List Char) : Option Bool :=
  let word := fold (trim text)
  if word = ['y'] ∨ word = ['y', 'e', 's'] then some true
  else if word = ['n'] ∨ word = ['n', 'o'] then some false
  else none

/-- The lines of input that are not read yet. -/
abbrev Input := List (List UInt8)

structure Reply where
  answer : Bool
  rest : Input
  writes : List Write
  deriving DecidableEq, Repr

/-! ## The dialogue -/

def askAgain : Write :=
  .warning "please answer yes or no"

def notText : Write :=
  .badAnswer "stream did not contain valid UTF-8"

/-- Ask until a line decides. -/
def askLines (question : String) : Input → Reply
  | [] => ⟨false, [], [.prompt question, .noAnswer]⟩
  | line :: rest =>
      match Utf8.strict line with
      | none => ⟨false, rest, [.prompt question, notText]⟩
      | some text =>
          match parseAnswer text with
          | some answer => ⟨answer, rest, [.prompt question]⟩
          | none =>
              let reply := askLines question rest
              { reply with writes := .prompt question :: askAgain :: reply.writes }

/-- Ask on a console; where the question cannot be written, the answer is no and nothing is read. -/
def ask (writable : Bool) (question : String) (input : Input) : Reply :=
  if writable then askLines question input else ⟨false, input, []⟩

/-! ## Operators -/

/-- Who answers the questions of a run. -/
inductive Operator where
  | console
  /-- A standing yes, which is reported for each question. -/
  | assumeYes
  deriving DecidableEq, Repr

def Operator.reply (operator : Operator) (tone : Tone) (question : String) (input : Input) :
    Reply :=
  match operator with
  | console => askLines question input
  | assumeYes => ⟨true, input, tone.info (question ++ " yes")⟩

end Provision

import Provision.Console.Prompt
import Provision.Proofs.Encoding
import Provision.Text.Lines

/-!
# Dialogue — how a question is settled by the lines of an input

A question is put again and again until a line of the input decides: an answer, or a line that is no
text and counts as no.  What comes before is passed over with a warning, what comes behind is left
for the next question, and at the end of the input every question is answered no.  This file
defines:

* `Lined`, `inputLines_eq_iff` — the lines of an input, and that there is one way to cut it;
* `Ruling`, `ruling?` — what a line decides, if it decides anything;
* `Dialogue` — the answer, the lines that are left and all that is written, in the three cases there
  are;
* `askEach` — questions that are asked one after another on one input;
* `Conversed`, `ask_conversed` — every dialogue on every input goes like this.
-/

namespace Provision

open Text

/-! ## The lines of an input -/

/-- Lines of an input: each ends with its only line feed, and the last one may lack it. -/
inductive Lined : Input → Prop where
  | nil : Lined []
  | last {body : List UInt8} (hbody : lineFeed ∉ body) (hne : body ≠ []) : Lined [body]
  | cons {body : List UInt8} {rest : Input} (hbody : lineFeed ∉ body) (hrest : Lined rest) :
      Lined ((body ++ [lineFeed]) :: rest)

section Lines

variable {body bs : List UInt8} {ls : Input} {b : UInt8}

/-- Another byte than a line feed belongs to the first line. -/
theorem Lined.pushByte (hb : b ≠ lineFeed) (h : Lined ls) : Lined (pushByte b ls) := by
  cases h with
  | nil =>
      exact Lined.last (by simpa using hb.symm) (by simp)
  | last hbody hne =>
      exact Lined.last (by simp [hb.symm, hbody]) (by simp)
  | @cons body rest hbody hrest =>
      have hfirst : lineFeed ∉ b :: body := by simp [hb.symm, hbody]
      exact Lined.cons hfirst hrest

theorem lined_inputLines (bs : List UInt8) : Lined (inputLines bs) := by
  induction bs with
  | nil =>
      exact Lined.nil
  | cons b bs ih =>
      unfold inputLines
      split
      next hb =>
        subst hb
        have hempty : lineFeed ∉ ([] : List UInt8) := List.not_mem_nil
        exact Lined.cons hempty ih
      next hb =>
        exact ih.pushByte hb

/-- A line feed ends a line, and the lines behind it are those of the other bytes. -/
theorem inputLines_append (hbody : lineFeed ∉ body) (bs : List UInt8) :
    inputLines (body ++ lineFeed :: bs) = (body ++ [lineFeed]) :: inputLines bs := by
  induction body with
  | nil =>
      simp [inputLines]
  | cons b body ih =>
      have hb : b ≠ lineFeed := fun hsame => hbody (by simp [hsame])
      have hrest : lineFeed ∉ body := fun hmem => hbody (List.mem_cons_of_mem _ hmem)
      simp [inputLines, hb, ih hrest, Text.pushByte]

theorem inputLines_of_not_mem (hbody : lineFeed ∉ body) (hne : body ≠ []) :
    inputLines body = [body] := by
  induction body with
  | nil =>
      exact absurd rfl hne
  | cons b body ih =>
      have hb : b ≠ lineFeed := fun hsame => hbody (by simp [hsame])
      have hrest : lineFeed ∉ body := fun hmem => hbody (List.mem_cons_of_mem _ hmem)
      by_cases hlast : body = []
      · subst hlast
        simp [inputLines, hb, Text.pushByte]
      · simp [inputLines, hb, ih hrest hlast, Text.pushByte]

theorem Lined.inputLines_flatten (h : Lined ls) : inputLines ls.flatten = ls := by
  induction h with
  | nil =>
      rfl
  | last hbody hne =>
      simpa using inputLines_of_not_mem hbody hne
  | @cons body rest hbody _ ih =>
      calc
        inputLines ((body ++ [lineFeed]) :: rest).flatten
            = inputLines (body ++ lineFeed :: rest.flatten) := by simp
        _ = (body ++ [lineFeed]) :: inputLines rest.flatten := inputLines_append hbody rest.flatten
        _ = (body ++ [lineFeed]) :: rest := by rw [ih]

/-- There is one way to cut an input into lines. -/
theorem inputLines_eq_iff : inputLines bs = ls ↔ Lined ls ∧ ls.flatten = bs := by
  constructor
  · intro h
    subst h
    exact ⟨lined_inputLines bs, flatten_inputLines bs⟩
  · intro h
    rcases h with ⟨hlined, rfl⟩
    exact hlined.inputLines_flatten

/-- Behind some lines come lines again. -/
theorem Lined.drop {front rest : Input} (h : Lined (front ++ rest)) : Lined rest := by
  induction front with
  | nil =>
      exact h
  | cons line front ih =>
      apply ih
      generalize hls : line :: front ++ rest = ls at h
      cases h with
      | nil =>
          cases hls
      | last hbody hne =>
          have hnone : front ++ rest = [] := (List.cons.inj hls).2
          rw [hnone]
          exact Lined.nil
      | cons hbody hrest =>
          have hsame : front ++ rest = _ := (List.cons.inj hls).2
          rw [hsame]
          exact hrest

end Lines

/-! ## What a line decides -/

/-- What a line can decide. -/
inductive Ruling where
  | answer (yes : Bool)
  /-- The line is no text, which counts as no. -/
  | garbled
  deriving DecidableEq, Repr

namespace Ruling

def yes : Ruling → Bool
  | answer yes => yes
  | garbled => false

/-- What is written when a line has decided. -/
def writes : Ruling → List Write
  | answer _ => []
  | garbled => [notText]

end Ruling

/-- What a line decides, if it decides anything. -/
def ruling? (line : List UInt8) : Option Ruling :=
  match Utf8.strict line with
  | none => some .garbled
  | some text => (parseAnswer text).map .answer

/-- A line that is text decides as its text answers; any other one is garbled. -/
theorem ruling?_cases (line : List UInt8) :
    (ruling? line = some .garbled ∧ ∀ text : String, line ≠ bytes text) ∨
      ∃ text : String, line = bytes text ∧
        ruling? line = (parseAnswer text.toList).map .answer := by
  unfold ruling?
  cases hstrict : Utf8.strict line with
  | none =>
      refine Or.inl ⟨rfl, ?_⟩
      intro text htext
      rw [Utf8.strict_iff.2 htext] at hstrict
      cases hstrict
  | some cs =>
      have htext : line = bytes (String.ofList cs) := by
        rw [← Utf8.strict_iff, hstrict, String.toList_ofList]
      exact Or.inr ⟨String.ofList cs, htext, by simp⟩

/-- The lines that decide, by what they decide. -/
def rulings (ls : Input) : List Ruling :=
  ls.filterMap ruling?

/-- None of the lines decides. -/
def Undecided (ls : Input) : Prop :=
  ∀ line ∈ ls, ruling? line = none

section Rulings

variable {ls front rest : Input} {line : List UInt8} {ruling : Ruling}

theorem Undecided.rulings (h : Undecided ls) : rulings ls = [] :=
  List.filterMap_eq_nil_iff.2 h

theorem rulings_append (hfront : Undecided front) (hline : ruling? line = some ruling) :
    rulings (front ++ line :: rest) = ruling :: rulings rest := by
  have hnone : List.filterMap ruling? front = [] := hfront.rulings
  simp [Provision.rulings, hnone, hline]

/-- A first line decides, or none does. -/
theorem exists_ruling (ls : Input) :
    Undecided ls ∨ ∃ front line rest ruling, ls = front ++ line :: rest ∧ Undecided front ∧
      ruling? line = some ruling := by
  induction ls with
  | nil =>
      exact Or.inl (by simp [Undecided])
  | cons line ls ih =>
      cases hline : ruling? line with
      | some ruling =>
          exact Or.inr ⟨[], line, ls, ruling, rfl, by simp [Undecided], hline⟩
      | none =>
          rcases ih with hnone | ⟨front, other, rest, ruling, rfl, hfront, hother⟩
          · exact Or.inl (by simpa [Undecided, hline] using hnone)
          · have hmore : Undecided (line :: front) := by simpa [Undecided, hline] using hfront
            exact Or.inr ⟨line :: front, other, rest, ruling, rfl, hmore, hother⟩

end Rulings

/-! ## The dialogue -/

/-- A question that is put a number of times, with a warning between two times. -/
def asked (question : String) (times : Nat) : List Write :=
  (List.replicate times (.prompt question)).intersperse askAgain

/-- How a question is settled on the lines of an input. -/
inductive Dialogue (question : String) (ls : Input) : Reply → Prop where
  /-- The first line that decides is an answer. -/
  | answered {front rest : Input} {line : List UInt8} {yes : Bool}
      (hls : ls = front ++ line :: rest)
      (hfront : Undecided front) (hline : ruling? line = some (.answer yes)) :
      Dialogue question ls ⟨yes, rest, asked question (front.length + 1)⟩
  /-- The first line that decides is no text. -/
  | garbled {front rest : Input} {line : List UInt8} (hls : ls = front ++ line :: rest)
      (hfront : Undecided front) (hline : ruling? line = some .garbled) :
      Dialogue question ls ⟨false, rest, asked question (front.length + 1) ++ [notText]⟩
  /-- The input ends before a line decides. -/
  | unanswered (hls : Undecided ls) :
      Dialogue question ls ⟨false, [], asked question (ls.length + 1) ++ [.noAnswer]⟩

section Dialogue

variable {question : String} {ls front rest : Input} {line : List UInt8} {ruling : Ruling}

theorem askLines_cons_of_none (hline : ruling? line = none) :
    askLines question (line :: rest) =
      ⟨(askLines question rest).answer, (askLines question rest).rest,
        .prompt question :: askAgain :: (askLines question rest).writes⟩ := by
  unfold ruling? at hline
  split at hline
  next =>
    cases hline
  next text htext =>
    have hnone : parseAnswer text = none := by simpa using hline
    simp [askLines, htext, hnone]

theorem askLines_cons_of_some (hline : ruling? line = some ruling) :
    askLines question (line :: rest) = ⟨ruling.yes, rest, .prompt question :: ruling.writes⟩ := by
  unfold ruling? at hline
  split at hline
  next htext =>
    cases hline
    simp [askLines, htext, Ruling.yes, Ruling.writes]
  next text htext =>
    rcases Option.map_eq_some_iff.1 hline with ⟨yes, hyes, rfl⟩
    simp [askLines, htext, hyes, Ruling.yes, Ruling.writes]

/-- The first line that decides settles the question, and what is behind it is left. -/
theorem askLines_append (hfront : Undecided front) (hline : ruling? line = some ruling) :
    askLines question (front ++ line :: rest) =
      ⟨ruling.yes, rest, asked question (front.length + 1) ++ ruling.writes⟩ := by
  induction front with
  | nil =>
      exact askLines_cons_of_some hline
  | cons first front ih =>
      have hfirst : ruling? first = none := hfront first (List.mem_cons_self ..)
      have hothers : Undecided front :=
        fun other hother => hfront other (List.mem_cons_of_mem _ hother)
      rw [List.cons_append, askLines_cons_of_none hfirst, ih hothers]
      rfl

/-- Without a line that decides, the question is put once more than there are lines. -/
theorem askLines_of_undecided (h : Undecided ls) :
    askLines question ls = ⟨false, [], asked question (ls.length + 1) ++ [.noAnswer]⟩ := by
  induction ls with
  | nil =>
      rfl
  | cons line ls ih =>
      have hline : ruling? line = none := h line (List.mem_cons_self ..)
      have hothers : Undecided ls := fun other hother => h other (List.mem_cons_of_mem _ hother)
      rw [askLines_cons_of_none hline, ih hothers]
      rfl

theorem dialogue_askLines (question : String) (ls : Input) :
    Dialogue question ls (askLines question ls) := by
  rcases exists_ruling ls with hnone | ⟨front, line, rest, ruling, rfl, hfront, hline⟩
  · rw [askLines_of_undecided hnone]
    exact Dialogue.unanswered hnone
  · rw [askLines_append hfront hline]
    cases ruling with
    | answer yes =>
        rw [Ruling.writes, List.append_nil]
        exact Dialogue.answered rfl hfront hline
    | garbled =>
        exact Dialogue.garbled rfl hfront hline

/-- A dialogue answers as the first ruling says, and leaves the other ones. -/
theorem rulings_askLines (question : String) (ls : Input) :
    (askLines question ls).answer = ((rulings ls).head?.map Ruling.yes).getD false ∧
      rulings (askLines question ls).rest = (rulings ls).tail := by
  rcases exists_ruling ls with hnone | ⟨front, line, rest, ruling, rfl, hfront, hline⟩
  · rw [askLines_of_undecided hnone, hnone.rulings]
    exact ⟨rfl, rfl⟩
  · rw [askLines_append hfront hline, rulings_append hfront hline]
    exact ⟨rfl, rfl⟩

end Dialogue

/-! ## One question after another -/

/-- The replies to questions that are asked one after another, each on what is left of the input. -/
def askEach : List String → Input → List Reply
  | [], _ => []
  | question :: questions, input =>
      let reply := ask true question input
      reply :: askEach questions reply.rest

/-- Each question is answered by a ruling of its own, in order, and by no when there are no more. -/
theorem answer_askEach {questions : List String} {i : Nat} (hi : i < questions.length)
    (ls : Input) :
    (askEach questions ls)[i]?.map Reply.answer =
      some (((rulings ls)[i]?.map Ruling.yes).getD false) := by
  induction questions generalizing ls i with
  | nil =>
      cases hi
  | cons question questions ih =>
      rcases rulings_askLines question ls with ⟨hanswer, hrest⟩
      cases i with
      | zero =>
          simp [askEach, ask, hanswer, List.head?_eq_getElem?]
      | succ i =>
          -- the other questions meet the rulings that the first one has left
          have hothers := ih (Nat.lt_of_succ_lt_succ hi) (askLines question ls).rest
          rw [hrest, List.getElem?_tail] at hothers
          simpa [askEach, ask] using hothers

/-! ## Dialogues on an input -/

/-- How dialogues go on an input of bytes. -/
structure Conversed (input : List UInt8) : Prop where
  /-- The lines of the input are known by their ends. -/
  lines : ∀ ls, inputLines input = ls ↔ Lined ls ∧ ls.flatten = input
  /-- A line that is text decides as its text answers; any other one is garbled. -/
  verdict : ∀ line ∈ inputLines input,
    (ruling? line = some .garbled ∧ ∀ text : String, line ≠ bytes text) ∨
      ∃ text : String, line = bytes text ∧ ruling? line = (parseAnswer text.toList).map .answer
  settled : ∀ question, Dialogue question (inputLines input) (ask true question (inputLines input))
  /-- With some lines their bytes are gone, and the other bytes have the other lines. -/
  left : ∀ front rest, inputLines input = front ++ rest →
    input = front.flatten ++ rest.flatten ∧ inputLines rest.flatten = rest
  /-- The operator at the console is asked like this in every tone, and each write is shown. -/
  shown : ∀ (question : String) (tone : Tone) (color : Bool),
    render color (Operator.console.reply tone question (inputLines input)).writes =
      (ask true question (inputLines input)).writes.flatMap (Write.bytes color)
  /-- Where nothing can be written, nothing is read. -/
  mute : ∀ question, ask false question (inputLines input) = ⟨false, inputLines input, []⟩
  /-- Each question has a deciding line of its own, and the answer is no when there are no more. -/
  each : ∀ (questions : List String) (i : Nat), i < questions.length →
    (askEach questions (inputLines input))[i]?.map Reply.answer =
      some (((rulings (inputLines input))[i]?.map Ruling.yes).getD false)

/-- On every input each question is settled by the first line that decides, and no byte behind it is
read. -/
theorem ask_conversed (input : List UInt8) : Conversed input where
  lines _ := inputLines_eq_iff
  verdict line _ := ruling?_cases line
  settled question := dialogue_askLines question (inputLines input)
  left := by
    intro front rest hcut
    have hlined : Lined (front ++ rest) := hcut ▸ lined_inputLines input
    refine ⟨?_, hlined.drop.inputLines_flatten⟩
    calc
      input = (inputLines input).flatten := (flatten_inputLines input).symm
      _ = front.flatten ++ rest.flatten := by rw [hcut, List.flatten_append]
  shown _ _ _ := rfl
  mute _ := rfl
  each _ _ hi := answer_askEach hi (inputLines input)

end Provision

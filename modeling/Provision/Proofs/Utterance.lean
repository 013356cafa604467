import Provision.Proofs.Launch

/-!
# Utterance — what a host writes while it serves

For a request a host shows a command and what it prints, or gives information, or holds the dialogue
on a question; and all of this is made of a few kinds of writes.  This file defines:

* `Write.isReport`, `Write.isDialogue` — what tells of a command, and what belongs to a dialogue;
* `Operator.wrote_of_reply` — what is written for a question;
* `Host.wrote_of_serve` — what is written for any request;
* `Write.isOfRun`, `Host.ofRun_of_logOf` — the kinds of writes that the installer comes to on a
  host.
-/

namespace Provision

/-! ## Kinds of writes -/

namespace Write

/-- The write says what is done, or shows what a command prints. -/
def isReport : Write → Bool
  | info _ | echo _ | child _ => true
  | _ => false

/-- The write belongs to the dialogue on a question. -/
def isDialogue : Write → Bool
  | warning _ | prompt _ | noAnswer | badAnswer _ => true
  | _ => false

/-- The write is of a kind that the installer comes to on a host. -/
def isOfRun (write : Write) : Bool :=
  write.isReport || write.isDialogue

end Write

/-! ## Questions -/

/-- A dialogue is made of questions, complaints and their ends. -/
theorem dialogue_of_askLines {question : String} {input : Input} :
    ∀ write ∈ (askLines question input).writes, write.isDialogue = true := by
  induction input with
  | nil =>
      simp [askLines, Write.isDialogue]
  | cons line rest ih =>
      unfold askLines
      split
      · simp [notText, Write.isDialogue]
      · split
        · simp [Write.isDialogue]
        · simpa [askAgain, Write.isDialogue] using ih

/-- An operator holds a dialogue, or has a standing yes that is reported. -/
theorem Operator.wrote_of_reply {operator : Operator} {tone : Tone} {question : String}
    {input : Input} :
    ∀ write ∈ (operator.reply tone question input).writes,
      write.isDialogue = true ∨ write = .info (question ++ " yes") := by
  intro write hwrite
  cases operator with
  | console =>
      exact Or.inl (dialogue_of_askLines write hwrite)
  | assumeYes =>
      exact Or.inr (Tone.mem_info.1 hwrite).2

/-! ## Requests -/

theorem Command.Trace.report {w : World} {tone : Tone} {c : Command} {log : List Activity}
    (h : c.Trace w tone log) : ∀ write, .wrote write ∈ log → write.isReport = true := by
  cases h <;> simp +contextual [Command.echo, Write.isReport, or_imp]

namespace Host

variable {host : Host} {r : Request} {s : Session}

/-- Whatever is written for a request is a report, or it belongs to the dialogue of a question. -/
theorem wrote_of_serve {write : Write} (h : .wrote write ∈ (host.serve s r).log) :
    write.isReport = true ∨
      ∃ question, r = .ask question ∧
        write ∈ (host.operator.reply host.tone question s.input).writes := by
  cases hspeaks : r.speaks with
  | false =>
      have htraced : (host.serve s r).Traced host.world host.tone (host.command? r) :=
        traced_serve hspeaks
      -- what is written then belongs to the command of the request, if it comes to one
      rcases htraced with hnone | ⟨c, -, htrace⟩
      · simp [hnone] at h
      · exact Or.inl (htrace.report write h)
  | true =>
      cases r with
      | ask question =>
          have hreply : write ∈ (host.operator.reply host.tone question s.input).writes := by
            simpa [serve] using h
          exact Or.inr ⟨question, rfl, hreply⟩
      | inform message =>
          have hinfo : host.tone.quiet = false ∧ write = .info message := by simpa [serve] using h
          simp [hinfo.2, Write.isReport]
      | _ =>
          cases hspeaks

theorem ofRun_of_serve : ∀ write, .wrote write ∈ (host.serve s r).log → write.isOfRun = true := by
  intro write hwrite
  rcases wrote_of_serve hwrite with hreport | ⟨question, -, hreply⟩
  · simp [Write.isOfRun, hreport]
  · rcases Operator.wrote_of_reply write hreply with hdialogue | rfl
    · simp [Write.isOfRun, hdialogue]
    · rfl

/-- What is written while some requests are answered. -/
theorem ofRun_of_logOf {es : List Event} :
    ∀ write, .wrote write ∈ host.logOf s es → write.isOfRun = true := by
  intro write hwrite
  rcases exists_of_mem_logOf hwrite with ⟨e, -, s', hmem⟩
  exact ofRun_of_serve write hmem

end Host
end Provision

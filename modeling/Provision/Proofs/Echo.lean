import Provision.Proofs.Confinement
import Provision.Proofs.Installation
import Provision.Proofs.Utterance

/-!
# Echo — a verbose setup shows each command before it is run

The echoes of a setup are no list of their own that has to be kept in step with what is started: if
it is verbose, each stands in the log directly before the attempt that it shows, and no attempt is
without one.  This file defines:

* `typed`, `echoesOf` — a command line, and the echoes among some writes;
* `Activity.Heralded` — what stands around an activity in a log where each command is shown first;
* `Told` — such logs, built from commands and from other writes;
* `Host.display_of_command?` — the commands of a run are shown as they are;
* `Host.told_serve`, `told_logOf` — what a host logs for one request, and for a run;
* `Setup.Echoed`, `Setup.run_echoed` — the echoes of a setup.
-/

namespace Provision

open Installer

/-! ## Echoes -/

/-- A program and its arguments as they are typed in, with single blanks between them. -/
def typed (argv : List String) : String :=
  String.intercalate " " argv

def Write.echo? : Write → Option String
  | echo line => some line
  | _ => none

/-- The echoes among some writes. -/
def echoesOf (writes : List Write) : List String :=
  writes.filterMap Write.echo?

/-- The write is the echo of a command, or what the command prints. -/
def Write.isOfCommand : Write → Bool
  | echo _ | child _ => true
  | _ => false

section Echoes

variable {write : Write}

theorem echoesOf_append (front back : List Write) :
    echoesOf (front ++ back) = echoesOf front ++ echoesOf back :=
  List.filterMap_append

theorem echo?_of_not_ofCommand (h : write.isOfCommand = false) : write.echo? = none := by
  cases write <;> first | rfl | cases h

theorem not_ofCommand_of_notice (h : write.isNotice = true) : write.isOfCommand = false := by
  cases write <;> first | rfl | cases h

theorem not_ofCommand_of_dialogue (h : write.isDialogue = true) : write.isOfCommand = false := by
  cases write <;> first | rfl | cases h

end Echoes

/-! ## Logs in which each command is shown first -/

/-- What stands around an activity of a log where each command is shown directly before it is
attempted. -/
def Activity.Heralded (before after : List Activity) : Activity → Prop
  | .started process => [.wrote (.echo (typed process.argv))] <:+ before
  | .refused c => [.wrote (.echo (typed c.argv))] <:+ before
  -- an echo shows the attempt that comes next
  | .wrote (.echo line) =>
      ∃ activity attempt, [activity] <+: after ∧ activity.attempt? = some attempt ∧
        line = typed attempt.argv
  -- what is printed is printed by the process that was shown and started last
  | .wrote (.child _) =>
      ∃ process, [.wrote (.echo (typed process.argv)), .started process] <:+ before
  | .wrote _ => True

/-- A log of commands that are shown as they are, if at all, and of writes that belong to no
command. -/
inductive Told (w : World) (tone : Tone) : List Activity → Prop where
  | nil : Told w tone []
  | said {write : Write} {log : List Activity} (hwrite : write.isOfCommand = false)
      (h : Told w tone log) : Told w tone (.wrote write :: log)
  | ran {c : Command} {trace log : List Activity} (htrace : c.Trace w tone trace)
      (hshown : c.display = typed c.argv) (h : Told w tone log) : Told w tone (trace ++ log)

section Told

variable {w : World} {tone : Tone} {c : Command} {trace log front back : List Activity}

theorem Told.append (hfront : Told w tone front) (hback : Told w tone back) :
    Told w tone (front ++ back) := by
  induction hfront with
  | nil =>
      exact hback
  | said hwrite _ ih =>
      exact .said hwrite ih
  | ran htrace hshown _ ih =>
      rw [List.append_assoc]
      exact .ran htrace hshown ih

theorem told_of_trace (htrace : c.Trace w tone trace) (hshown : c.display = typed c.argv) :
    Told w tone trace := by
  simpa using Told.ran htrace hshown .nil

theorem told_said {writes : List Write} (h : ∀ write ∈ writes, write.isOfCommand = false) :
    Told w tone (writes.map .wrote) := by
  induction writes with
  | nil =>
      exact .nil
  | cons write writes ih =>
      have hrest : ∀ other ∈ writes, other.isOfCommand = false :=
        fun other hother => h other (List.mem_cons_of_mem _ hother)
      exact .said (h write (List.mem_cons_self ..)) (ih hrest)

theorem echo_of_verbose (hverbose : tone.verbose = true) :
    c.echo tone = [.wrote (.echo c.display)] := by
  simp [Command.echo, Tone.echo, hverbose]

theorem echo_of_not_verbose (hverbose : tone.verbose = false) : c.echo tone = [] := by
  simp [Command.echo, Tone.echo, hverbose]

theorem Command.Trace.echoes (h : c.Trace w tone trace) (hverbose : tone.verbose = true) :
    echoesOf (writesOf trace) = [c.display] := by
  cases h <;> rw [echo_of_verbose hverbose] <;> rfl

theorem Command.Trace.unechoed (h : c.Trace w tone trace) (hverbose : tone.verbose = false) :
    echoesOf (writesOf trace) = [] := by
  cases h <;> rw [echo_of_not_verbose hverbose] <;> rfl

/-- The echoes of such a log are its attempts, in order. -/
theorem Told.echoes (h : Told w tone log) (hverbose : tone.verbose = true) :
    echoesOf (writesOf log) = (attemptsOf log).map fun attempt => typed attempt.argv := by
  induction h with
  | nil =>
      rfl
  | @said write log hwrite h ih =>
      calc
        echoesOf (writesOf (.wrote write :: log))
            = echoesOf (writesOf log) := List.filterMap_cons_none (echo?_of_not_ofCommand hwrite)
        _ = (attemptsOf (.wrote write :: log)).map fun attempt => typed attempt.argv := ih
  | @ran c trace log htrace hshown h ih =>
      rcases htrace.attempts with ⟨process?, hattempts, -⟩
      rw [writesOf_append, echoesOf_append, attemptsOf_append, htrace.echoes hverbose, hattempts,
        ih, hshown]
      rfl

/-- Where nothing is verbose there are none. -/
theorem Told.unechoed (h : Told w tone log) (hverbose : tone.verbose = false) :
    echoesOf (writesOf log) = [] := by
  induction h with
  | nil =>
      rfl
  | @said write log hwrite h ih =>
      exact (List.filterMap_cons_none (echo?_of_not_ofCommand hwrite)).trans ih
  | @ran c trace log htrace hshown h ih =>
      rw [writesOf_append, echoesOf_append, htrace.unechoed hverbose, ih]
      rfl

namespace Activity

variable {before after : List Activity} {activity : Activity}

/-- It does not matter what was logged earlier, and what is logged later. -/
theorem Heralded.extend (h : activity.Heralded before after) (front back : List Activity) :
    activity.Heralded (front ++ before) (after ++ back) := by
  cases activity with
  | started process | refused c =>
      exact h.trans (List.suffix_append ..)
  | wrote write =>
      cases write with
      | echo line =>
          rcases h with ⟨next, attempt, hnext, hattempt, hline⟩
          exact ⟨next, attempt, hnext.trans (List.prefix_append ..), hattempt, hline⟩
      | child output =>
          rcases h with ⟨process, hprocess⟩
          exact ⟨process, hprocess.trans (List.suffix_append ..)⟩
      | _ =>
          trivial

theorem heralded_of_not_ofCommand {write : Write} (h : write.isOfCommand = false) :
    (wrote write).Heralded before after := by
  cases write with
  | echo line | child output =>
      cases h
  | _ =>
      trivial

end Activity

/-- An echo and the attempt that it shows are heralded, whatever is logged later. -/
theorem heralded_of_shown {shown activity : Activity} {attempt : Attempt}
    {rest before after : List Activity} (hattempt : shown.attempt? = some attempt)
    (hcut : .wrote (.echo (typed attempt.argv)) :: shown :: rest = before ++ activity :: after) :
    activity.Heralded before after ∨
      ∃ mid, before = .wrote (.echo (typed attempt.argv)) :: shown :: mid ∧
        rest = mid ++ activity :: after := by
  rcases cut_cons hcut with ⟨rfl, rfl, rfl⟩ | ⟨mid, rfl, hshown⟩
  · exact Or.inl ⟨shown, attempt, List.prefix_append [_] rest, hattempt, rfl⟩
  · rcases cut_cons hshown with ⟨rfl, rfl, rfl⟩ | ⟨mid, rfl, hrest⟩
    · cases activity <;> cases hattempt
      · exact Or.inl (List.suffix_refl _)
      · exact Or.inl (List.suffix_refl _)
    · exact Or.inr ⟨mid, rfl, hrest⟩

/-- A command is shown, attempted, and then has its output, if there is a process and any output of
it. -/
theorem Command.Trace.heralded (h : c.Trace w tone trace) (hverbose : tone.verbose = true)
    (hshown : c.display = typed c.argv) :
    ∀ before activity after, trace = before ++ activity :: after →
      activity.Heralded before after := by
  intro before activity after hcut
  cases h with
  | refused =>
      have hattempt : (Activity.refused c).attempt? = some ⟨c.argv, none⟩ := rfl
      rw [echo_of_verbose hverbose, hshown] at hcut
      rcases heralded_of_shown hattempt hcut with hheralded | ⟨mid, -, hnone⟩
      · exact hheralded
      · simp at hnone
  | @captured process hstarted =>
      have hattempt : (Activity.started process).attempt? = some ⟨process.argv, some process⟩ := rfl
      rw [echo_of_verbose hverbose, hshown, ← hstarted.argv] at hcut
      rcases heralded_of_shown hattempt hcut with hheralded | ⟨mid, -, hnone⟩
      · exact hheralded
      · simp at hnone
  | @shown process output hstarted =>
      have hattempt : (Activity.started process).attempt? = some ⟨process.argv, some process⟩ := rfl
      rw [echo_of_verbose hverbose, hshown, ← hstarted.argv] at hcut
      rcases heralded_of_shown hattempt hcut with hheralded | ⟨mid, rfl, houtput⟩
      · exact hheralded
      · -- the output is the last entry, behind the echo and the process
        rcases cut_cons houtput with ⟨rfl, rfl, rfl⟩ | ⟨mid, rfl, hnone⟩
        · exact ⟨process, List.suffix_refl _⟩
        · simp at hnone

/-- Every activity of such a log is heralded. -/
theorem Told.heralded (h : Told w tone log) (hverbose : tone.verbose = true) :
    ∀ before activity after, log = before ++ activity :: after →
      activity.Heralded before after := by
  induction h with
  | nil =>
      intro before activity after hcut
      simp at hcut
  | @said write log hwrite h ih =>
      intro before activity after hcut
      rcases cut_cons hcut with ⟨rfl, rfl, rfl⟩ | ⟨mid, rfl, hrest⟩
      · exact Activity.heralded_of_not_ofCommand hwrite
      · simpa using (ih mid activity after hrest).extend [.wrote write] []
  | @ran c trace log htrace hshown h ih =>
      intro before activity after hcut
      rcases cut_append hcut with ⟨mid, hfront, rfl⟩ | ⟨mid, rfl, hback⟩
      · exact (htrace.heralded hverbose hshown before activity mid hfront).extend [] log
      · simpa using (ih mid activity after hback).extend trace []

end Told

/-! ## The commands of a run -/

/-- What a routine has for the system besides its packages. -/
def Routine.parts : Routine → List String
  | .managed _ => []
  | .fromSource probe _ script => [probe.program, script.interpreter, script.path]

/-- The catalogue has nothing that could not be handed to the system. -/
theorem Backend.hasNull_of_mem_parts {backend : Backend} {tool : Tool} {part : String}
    (h : part ∈ (backend.routine tool).parts) : Text.hasNull part = false := by
  have hall : ∀ b : Backend, ∀ t ∈ Tool.all, ∀ p ∈ (b.routine t).parts, Text.hasNull p = false := by
    intro b
    cases b <;> decide
  exact hall backend tool tool.mem_all part h

namespace Host

variable {host : Host} {ids : List String} {r : Request} {c : Command}

/-- The commands of a run are shown as they are. -/
theorem display_of_command? (hr : Within host.backend ids r) (hc : host.command? r = some c) :
    c.display = typed c.argv := by
  apply Command.display_eq_argv
  cases r with
  | probe probe =>
      rcases hr.probe with ⟨needs, script, id, -, tool, -, hroutine⟩
      have hparts : ∀ part ∈ (Routine.fromSource probe needs script).parts,
          Text.hasNull part = false :=
        fun part hpart => Backend.hasNull_of_mem_parts (hroutine ▸ hpart)
      have hversion : Text.hasNull "--version" = false := by decide
      cases hc
      simp [Command.direct, Command.argv, hparts probe.program (by simp [Routine.parts]), hversion]
  | build script =>
      rcases hr.build with ⟨probe, needs, id, -, tool, -, hroutine⟩
      intro text htext
      have hpart : text ∈ (Routine.fromSource probe needs script).parts := by
        cases hc
        exact List.mem_cons_of_mem _ htext
      exact Backend.hasNull_of_mem_parts (hroutine ▸ hpart)
  | _ =>
      exact Backend.hasNull_of_command? hr.valid hc

/-- For one request a command is shown and run, or something is said that belongs to no command. -/
theorem told_serve {s : Session} (hr : Within host.backend ids r) :
    Told host.world host.tone (host.serve s r).log := by
  cases hspeaks : r.speaks with
  | false =>
      have htraced : (host.serve s r).Traced host.world host.tone (host.command? r) :=
        traced_serve hspeaks
      rcases htraced with hnone | ⟨c, hc, htrace⟩
      · rw [hnone]
        exact .nil
      · exact told_of_trace htrace (display_of_command? hr hc)
  | true =>
      cases r with
      | ask question =>
          apply told_said
          intro write hwrite
          rcases Operator.wrote_of_reply write hwrite with hdialogue | rfl
          · exact not_ofCommand_of_dialogue hdialogue
          · rfl
      | inform message =>
          apply told_said
          intro write hwrite
          rw [(Tone.mem_info.1 hwrite).2]
          rfl
      | _ =>
          cases hspeaks

/-- Request by request this is the log of a run. -/
theorem told_logOf {es : List Event} (hes : ∀ e ∈ es, Within host.backend ids e.request)
    (s : Session) : Told host.world host.tone (host.logOf s es) := by
  induction es generalizing s with
  | nil =>
      exact .nil
  | cons e es ih =>
      have hfirst : Told host.world host.tone (host.serve s e.request).log :=
        told_serve (hes e (List.mem_cons_self ..))
      exact hfirst.append (ih (fun other hother => hes other (List.mem_cons_of_mem _ hother)) _)

end Host

/-! ## The whole setup -/

namespace Setup

/-- What holds of the echoes in the log of a setup. -/
structure Echoed (settings : Settings) (log : List Activity) : Prop where
  /-- A verbose setup makes one echo for each attempt, whatever comes of it, in order. -/
  echoes : settings.verbose = true →
    echoesOf (writesOf log) =
      (attemptsOf log).map fun attempt => String.intercalate " " attempt.argv
  /-- The attempts that came to something are the processes. -/
  processes : (attemptsOf log).filterMap Attempt.process? = processesOf log ∧
    ((attemptsOf log).filter fun attempt => attempt.process?.isSome).map Attempt.argv =
      (processesOf log).map Process.argv
  /-- Each echo comes before the attempt that it shows, and before all that the process prints. -/
  heralded : settings.verbose = true → ∀ before activity after,
    log = before ++ activity :: after → activity.Heralded before after
  silent : settings.verbose = false → echoesOf (writesOf log) = []

variable {platform : Platform} {settings : Settings} {w : World} {interrupted : Signal}

theorem told_run :
    Told w settings.tone (run platform settings w interrupted).session.log := by
  cases hinstalls : installs platform settings with
  | none =>
      rw [log_of_not_installs hinstalls]
      exact told_said fun write hwrite => not_ofCommand_of_notice (notice_of_verdict hwrite)
  | some backend =>
      have hprologue : Told w settings.tone ((prologue settings.tone platform).map .wrote) :=
        told_said fun write hwrite => not_ofCommand_of_notice (notice_of_prologue hwrite)
      have hwithin : ∀ e ∈ (installation backend platform settings w interrupted).events,
          Within backend settings.packages e.request :=
        within_of_course (Procedure.run_course _ _ _)
      have hlater : Told (hostOf backend settings w interrupted).world settings.tone
          ((hostOf backend settings w interrupted).logOf (ready settings.tone platform w)
            (installation backend platform settings w interrupted).events) :=
        Host.told_logOf hwithin _
      rw [log_of_installs hinstalls]
      exact hprologue.append hlater

/-- In a verbose setup each command is echoed once, before it is run, and nothing else is. -/
theorem run_echoed (platform : Platform) (settings : Settings) (w : World)
    (interrupted : Signal) : Echoed settings (run platform settings w interrupted).session.log := by
  have htold : Told w settings.tone (run platform settings w interrupted).session.log := told_run
  exact ⟨htold.echoes, ⟨process?_attemptsOf _, argv_attemptsOf _⟩, htold.heralded, htold.unechoed⟩

/-- Where `dpkg` is missing its echo is the last one, though no process comes of it. -/
example :
    let settings : Settings := { packages := ["nasm"], verbose := true }
    let ubuntu : Program := .rules [⟨none, ⟨Text.bytes "Ubuntu", [], .exited 0⟩⟩]
    let w : World := ⟨[("lsb_release", ubuntu), ("sudo", .rules [])], ⟨[], [], []⟩, []⟩
    let log := (run .linux settings w .never).session.log
    echoesOf (writesOf log) = ["lsb_release -is", "sudo apt update", "dpkg -l nasm"] ∧
      (processesOf log).map Process.argv = [["lsb_release", "-is"], ["sudo", "apt", "update"]] := by
  decide

end Setup
end Provision

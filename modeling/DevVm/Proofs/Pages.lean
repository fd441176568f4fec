import DevVm.Host.System
import DevVm.Machine.Operations
import DevVm.Proofs.Reports
import DevVm.World.Computer

/-!
# What the tool prints, line by line

A `page` is a text of lines that each end in one of the two line breaks. A line that ends in a
carriage return of its own loses it to a line feed, so what comes of a page does not depend on its
line breaks only if a reader makes no difference between a line with a carriage return at its end and
the line without it. All readers of the tool's output are of this kind (`IgnoresReturn`), and such a
reader finds in a page what it finds in its lines one by one (`IgnoresReturn.map_lines`).

The second part is about who reads. On a computer a request to the hypervisor is a run of the tool,
and a task is made of requests: `asked_eq` brings the first down to the part of
the computer that runs commands, and `run_carryOut_request` the second to its first request.
-/

namespace DevVm

namespace Hypervisor

open Text

/-! ## Pages -/

/-- A line with the line break after it. -/
structure ClosedLine extends LineText where
  crlf : Bool := false

def ClosedLine.text (l : ClosedLine) : List Char :=
  l.chars ++ if l.crlf then ['\r', '\n'] else ['\n']

/-- Lines as they are printed. -/
def page (ls : List ClosedLine) : List Char := ls.flatMap ClosedLine.text

/-- What comes behind a line: nothing, or a line break and any text. -/
inductive Ending where
  | unclosed
  | closed (crlf : Bool) (rest : List Char)

def Ending.text : Ending → List Char
  | unclosed => []
  | closed crlf rest => (if crlf then ['\r', '\n'] else ['\n']) ++ rest

/-- A reader of lines does not care for a carriage return at the end of one. -/
def IgnoresReturn {β : Type} (read : List Char → β) : Prop :=
  ∀ line, read (line ++ ['\r']) = read line

section IgnoresReturn

variable {β : Type} {read : List Char → β}

theorem IgnoresReturn.readBack (h : IgnoresReturn read) (line : List Char) :
    read (readBack line) = read line := by
  unfold Text.readBack
  split
  next hend =>
    obtain ⟨start, rfl⟩ := List.getLast?_eq_some_iff.mp hend
    rw [List.dropLast_concat, h]
  next => rfl

/-- White space at the end goes before anything is read. -/
theorem trim_append_return (text : List Char) : trim (text ++ ['\r']) = trim text :=
  trim_append_blanks (List.forall_mem_singleton.mpr (by decide)) text

/-- A page reads as its lines do, whatever their line breaks, and then as what follows it. -/
theorem IgnoresReturn.map_lines (h : IgnoresReturn read) (ls : List ClosedLine)
    (rest : List Char) :
    (lines (page ls ++ rest)).map read = ls.map (read ·.chars) ++ (lines rest).map read := by
  induction ls with
  | nil => rfl
  | cons l more ih =>
    have hcons : page (l :: more) ++ rest = l.text ++ (page more ++ rest) := by
      rw [page, List.flatMap_cons, List.append_assoc, ← page]
    have hline : (lines (l.text ++ (page more ++ rest))).map read =
        read l.chars :: (lines (page more ++ rest)).map read := by
      unfold ClosedLine.text
      rw [List.append_assoc]
      split
      · exact congrArg (List.map read) (lines_append_crlf l.oneLine _)
      · rw [← h.readBack l.chars]
        exact congrArg (List.map read) (lines_append_readBack l.oneLine _)
    rw [hcons, hline, ih, List.map_cons, List.cons_append]

/-- A page alone. -/
theorem IgnoresReturn.map_lines_page (h : IgnoresReturn read) (ls : List ClosedLine) :
    (lines (page ls)).map read = ls.map (read ·.chars) := by
  have hmap := h.map_lines ls []
  rwa [List.append_nil, lines_nil, List.map_nil, List.append_nil] at hmap

/-- A line behind a page reads as it stands, however it ends. -/
theorem IgnoresReturn.map_lines_ending (h : IgnoresReturn read) (before : List ClosedLine)
    {line : LineText} (hne : line.chars ≠ []) (ending : Ending) :
    ∃ more, (lines (page before ++ (line.chars ++ ending.text))).map read =
      before.map (read ·.chars) ++ read line.chars :: more := by
  cases ending with
  | unclosed =>
    refine ⟨[], ?_⟩
    rw [Ending.text, List.append_nil, h.map_lines, lines_unclosed line.oneLine hne]
    rfl
  | closed crlf rest =>
    have hpage : page before ++ (line.chars ++ (Ending.closed crlf rest).text) =
        page (before ++ [{ toLineText := line, crlf }]) ++ rest := by
      simp only [page, Ending.text, ClosedLine.text, List.flatMap_append, List.flatMap_singleton,
        List.append_assoc]
    refine ⟨(lines rest).map read, ?_⟩
    rw [hpage, h.map_lines, List.map_append, List.append_assoc]
    rfl

end IgnoresReturn

/-- The tool gives the text that it hands over. -/
theorem run_invoke_hands {σ : Type} (host : Host runnerSignature σ) {tool : Tool}
    {args : List String} {text : List Char} {s : σ}
    (h : Hands text (host.answer (.run ⟨tool.program, args⟩) s).1) :
    ∃ es s', Program.run host (ExceptT.run (tool.invoke args)) s =
      ⟨some (.ok (String.ofList text)), es, s'⟩ := by
  have hrun : Program.run host (ExceptT.run (tool.invoke args)) s = _ := run_invoke rfl
  rw [h.verdict_eq] at hrun
  exact ⟨_, _, hrun⟩

end Hypervisor

/-! ## Requests on a computer -/

section Computer

variable {σ ε α β : Type}

/-- The part of a computer that runs commands. -/
def Host.runner (host : Host systemSignature σ) : Host runnerSignature σ :=
  ⟨fun c s => host.answer (.runner c) s⟩

/-- A call of the part that runs commands, as one of the computer. -/
def Event.onComputer (e : Event runnerSignature) : Event systemSignature :=
  ⟨.runner e.call, e.reply⟩

/-- A task that runs commands concerns the part of a computer that does so. -/
theorem run_ofRunner (host : Host systemSignature σ) (task : RunnerTask ε α) (s : σ) :
    Program.run host (ExceptT.run (SystemTask.ofRunner task)) s =
      let o := Program.run host.runner (ExceptT.run task) s
      ⟨o.result, o.events.map Event.onComputer, o.state⟩ := by
  show Program.run host (Program.refine _ (ExceptT.run task)) s = _
  induction ExceptT.run task generalizing s with
  | done value => rfl
  | cut => rfl
  | call c next ih =>
    have hrun := ih (host.answer (.runner c) s).1 (host.answer (.runner c) s).2
    exact congrArg (fun o : Outcome systemSignature σ (Except ε α) =>
      { o with events := Event.onComputer ⟨c, (host.answer (.runner c) s).1⟩ :: o.events }) hrun

/-- What a request to the hypervisor comes to on a computer. -/
def asked (host : Host systemSignature σ) (tool : Hypervisor.Tool) (request : HypervisorCall)
    (s : σ) : Option (Except HypervisorError request.Value) :=
  (Program.run host ((Call.hypervisor request).carryOut tool) s).result

theorem asked_eq (host : Host systemSignature σ) (tool : Hypervisor.Tool)
    (request : HypervisorCall) (s : σ) :
    asked host tool request s =
      (Program.run host.runner (ExceptT.run (tool.perform request)) s).result := by
  have hrun : Program.run host ((Call.hypervisor request).carryOut tool) s = _ :=
    run_ofRunner host (tool.perform request) s
  unfold asked
  rw [hrun]

/-- A task goes on with what its first request came to. -/
theorem run_carryOut_request {host : Host systemSignature σ} {tool : Hypervisor.Tool}
    {request : HypervisorCall} {s : σ} {v : request.Value}
    (h : asked host tool request s = some (.ok v)) (f : request.Value → Task MachineError α) :
    (Program.run host (ExceptT.run (Task.carryOut tool (Machine.hypervisor request >>= f))) s).result =
      (Program.run host (ExceptT.run (Task.carryOut tool (f v)))
        (Program.run host ((Call.hypervisor request).carryOut tool) s).state).result := by
  have hrun := Program.run_bind host ((Call.hypervisor request).carryOut tool)
    (fun reply => ExceptT.run (Task.carryOut tool
      (ExceptT.mk (ExceptT.bindCont f (reply.mapError MachineError.hypervisor))))) s
  rw [show (Program.run host ((Call.hypervisor request).carryOut tool) s).result = _ from h] at hrun
  have hresult := congrArg Outcome.result hrun
  exact hresult

end Computer

/-- Rules that answer each of some commands with one output. -/
def printingRules (commands : List Command) (output : Output) : List World.ScriptRule :=
  commands.map fun command => ⟨command, [output]⟩

theorem pick?_printingRules {commands : List Command} {command : Command} (h : command ∈ commands)
    (output : Output) :
    ∃ rules, World.Script.pick? command (printingRules commands output) = some (output, rules) := by
  unfold printingRules
  induction commands with
  | nil => cases h
  | cons first more ih =>
    rw [List.map_cons, World.Script.pick?]
    split
    next => exact ⟨_, rfl⟩
    next hne =>
      obtain ⟨rules, hrules⟩ := ih ((List.mem_cons.mp h).resolve_left (Ne.symm hne))
      rw [hrules]
      exact ⟨_, rfl⟩

/-- A computer whose tool answers some commands with one text. -/
def printingComputer (commands : List Command) (text : List Char) : World.Computer where
  script := {
    installed := commands.map (·.program)
    rules := printingRules commands { out := Text.Utf8.encode (String.ofList text) } }
  keyPairs _ := ⟨[], []⟩

theorem printingComputer_hands {commands : List Command} {command : Command}
    (hmem : command ∈ commands) (hstart : command.canStart = true) (text : List Char) :
    Hypervisor.Hands text
      (World.Computer.host.answer (.runner (.run command)) (printingComputer commands text)).1 := by
  obtain ⟨rules, hrules⟩ := pick?_printingRules hmem
    { out := Text.Utf8.encode (String.ofList text) }
  have hrun : (World.Script.run command (printingComputer commands text).script).1 =
      some { out := Text.Utf8.encode (String.ofList text) } := by
    unfold World.Script.run printingComputer
    dsimp only
    rw [if_pos ⟨List.mem_map_of_mem hmem, hstart⟩, hrules]
  exact ⟨_, hrun, rfl, rfl⟩

end DevVm

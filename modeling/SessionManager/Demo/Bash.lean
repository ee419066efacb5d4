import SessionManager.Library.Pieces
import SessionManager.Library.Transition
import SessionManager.Library.Unicode

/-! The shell behind the bash tool. -/

namespace session_manager.bash

def sentinel : List Char := "<<exit>>".toList

def timeout_message : String := "timed out: bash has not returned in 120.0 seconds and must be restarted"

/-- A shell process: the commands written to it, the newest first, what its
standard output has delivered, and what the readers of its two outputs buffer. -/
structure Process where
  written : List String := []
  printed : List UInt8 := []
  stdout : List UInt8 := []
  stderr : List UInt8 := []
  returncode : Option Int := none
deriving DecidableEq, Repr

structure _BashSession where
  started : Bool := true
  process : Process := {}
  timed_out : Bool := false
deriving DecidableEq, Repr

inductive Outcome
  | CLIResult (output error : List Char)
  | ToolResult (system : String) (error : Option String)
  | ToolError (message : String)
  /-- What leaves the collection of tools too: a `UnicodeDecodeError`, or that no
  process could be started. -/
  | raised
deriving DecidableEq, Repr

/-- A call of the tool that has ended: its command, how many shells had been
started, and what had been written to the last one. -/
structure Returned where
  command : Option String
  shell : Nat
  written : List String
  outcome : Outcome
deriving DecidableEq, Repr

/-- The tool, the command of the call that waits for its output, and the calls
that have ended, the newest first. -/
structure State where
  session : Option _BashSession := none
  running : Option String := none
  shells : Nat := 0
  returned : List Returned := []
deriving DecidableEq, Repr

/-- `starts` tells whether a process can be started. -/
inductive Label
  | call (command : Option String) (restart starts : Bool)
  | poll
  | deadline
  | stdout (bytes : List UInt8)
  | stderr (bytes : List UInt8)
  | exit (returncode : Int)
deriving DecidableEq, Repr

namespace State

def written (s : State) : List String := (s.session.map (·.process.written)).getD []

def returns (s : State) (command : Option String) (outcome : Outcome) : State :=
  { s with running := none, returned := ⟨command, s.shells, s.written, outcome⟩ :: s.returned }

/-- The session of a process that has been started, or has not. -/
def start (s : State) : Bool → State
  | true => { s with session := some {}, shells := s.shells + 1 }
  | false => { s with session := some { started := false } }

def update (s : State) (session : _BashSession) (f : Process → Process) : State :=
  { s with session := some { session with process := f session.process } }

end State

/-- `_BashSession.run` up to its loop. -/
def _BashSession.run (session : _BashSession) (s : State) (command : String) : State :=
  if !session.started then s.returns command (.ToolError "Session has not started.")
  else match session.process.returncode with
    | some returncode => s.returns command (.ToolResult "tool must be restarted"
        s!"bash has exited with returncode {returncode}")
    | none =>
      if session.timed_out then s.returns command (.ToolError timeout_message)
      else { s.update session (fun process => { process with written := command :: process.written }) with
        running := command }

/-- `BashTool20250124.__call__` -/
def call (s : State) (command : Option String) (restart starts : Bool) : State :=
  if restart then
    -- `stop` of a session that has not started
    if s.session.any (!·.started) then s.returns command (.ToolError "Session has not started.")
    else (s.start starts).returns command (if starts then .ToolResult "tool has been restarted." none else .raised)
  else
    let s' := if s.session.isNone then s.start starts else s
    if s.session.isNone ∧ starts = false then s'.returns command .raised
    else match command, s'.session with
      | some command, some session => session.run s' command
      | _, _ => s'.returns command (.ToolError "no command provided.")

/-- `if text.endswith("\n"): text = text[:-1]` -/
def strip (text : List Char) : List Char := if text.getLast? = some '\n' then text.dropLast else text

/-- An iteration of the loop of `run`. -/
def poll (s : State) (command : String) (session : _BashSession) : State :=
  match unicode.decode? session.process.stdout with
  | none => s.returns command .raised
  | some output =>
    if sentinel <:+: output then
      match unicode.decode? session.process.stderr with
      | none => s.returns command .raised
      | some error => (s.update session fun process => { process with stdout := [], stderr := [] }).returns command
          (.CLIResult (strip ((pieces.split sentinel output).headD [])) (strip error))
    else s

/-- The bytes that the `echo` after a command prints. -/
def mark : List UInt8 := unicode.encode sentinel

/-- What a shell prints to the commands written to it, when it prints nothing
but in answer to them; the newest one is the head. -/
def transcript (answer : List String → List UInt8) : List String → List UInt8
  | [] => []
  | command :: before => transcript answer before ++ answer (command :: before) ++ mark ++ [10]

/-- One step of the tool or of the last shell. A shell's standard output delivers
a beginning of its transcript; `answer` tells what the last of the commands
written to the `n`th shell prints. -/
def step (answer : Nat → List String → List UInt8) (s : State) : Label → Option State
  | .call command restart starts => if s.running.isNone then some (call s command restart starts) else none
  | .poll => match s.running, s.session with
    | some command, some session => some (poll s command session)
    | _, _ => none
  | .deadline => match s.running, s.session with
    | some command, some session =>
      some ({ s with session := some { session with timed_out := true } }.returns command (.ToolError timeout_message))
    | _, _ => none
  | .stdout bytes => (s.session.filter (·.started)).bind fun session =>
    if session.process.printed ++ bytes <+: transcript (answer s.shells) session.process.written then
      some (s.update session fun process =>
        { process with printed := process.printed ++ bytes, stdout := process.stdout ++ bytes })
    else none
  | .stderr bytes => (s.session.filter (·.started)).map fun session =>
    s.update session fun process => { process with stderr := process.stderr ++ bytes }
  | .exit returncode => (s.session.filter (·.started)).map fun session =>
    s.update session fun process => { process with returncode := some returncode }

/-- What a poll finds is text, and unless `late`, the line break after a sentinel
has come along with it. -/
def Orderly (late : Bool) (s : State) : Label → Prop
  | .poll => ∀ session ∈ s.session, (unicode.decode? session.process.stdout).isSome = true ∧
      (unicode.decode? session.process.stderr).isSome = true ∧ (late = true ∨ ¬ mark <:+ session.process.stdout)
  | _ => True

instance (late : Bool) (s : State) (l : Label) : Decidable (Orderly late s l) :=
  match l with
  | .poll => inferInstanceAs (Decidable (∀ session ∈ s.session, _ ∧ _ ∧ (_ ∨ ¬ _)))
  | .call .. | .deadline | .stdout _ | .stderr _ | .exit _ => inferInstanceAs (Decidable True)

end session_manager.bash

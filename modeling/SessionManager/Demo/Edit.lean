import SessionManager.Agents.Values
import SessionManager.Demo.Strings

namespace session_manager.edit

open remote_tools str

/-- A `pathlib.Path`: its root and the names behind it. -/
structure Path where
  root : String
  parts : List String
deriving DecidableEq, Repr

namespace Path

/-- `Path(path)` drops empty names and `.`; exactly two slashes stay a root of their own. -/
def of (path : String) : Path :=
  let slashes := (path.toList.takeWhile (· = '/')).length
  { root := if slashes = 0 then "" else if slashes = 2 then "//" else "/"
    parts := (split path "/").filter fun name => name ≠ "" ∧ name ≠ "." }

def str (path : Path) : String :=
  if path.root = "" ∧ path.parts = [] then "." else path.root ++ "/".intercalate path.parts

def is_absolute (path : Path) : Bool := path.root ≠ ""

end Path

inductive Node
  | file (content : String)
  /-- A file whose `read_text` raises. -/
  | unreadable (error : String)
  | directory
deriving DecidableEq, Repr

/-- What the machine does while a command runs: the node that a path leads to,
whether a write succeeds, or else its error and what it leaves behind, and what
`find` prints, if it does not time out. -/
structure Host where
  resolve : Path → String
  write : Option (String × Option Node) := none
  find : Option (String × String) := none

inductive EditError
  | ToolError (message : String)
  | ValueError
  | TimeoutError
deriving DecidableEq, Repr

/-- The file system, and `_file_history`. -/
structure State where
  disk : Table String Node := .empty
  _file_history : Table Path (List String) := .empty

abbrev Edit := EStateM EditError State

/-- The arguments of the tool. -/
structure Args where
  command : String
  path : String
  file_text : Option String := none
  view_range : Option (List Json) := none
  old_str : Option String := none
  new_str : Option String := none
  insert_line : Option PyInt := none
  insert_text : Option String := none

def SNIPPET_LINES : Nat := 4

def MAX_RESPONSE_LEN : Nat := 16000

def TRUNCATED_MESSAGE : String :=
  "<response clipped><NOTE>To save on context only part of this file has been shown to you. You should " ++
    "retry this tool after you have searched inside the file with `grep -n` in order to find the line " ++
    "numbers of what you are looking for.</NOTE>"

def maybe_truncate (content : String) : String :=
  if content.length ≤ MAX_RESPONSE_LEN then content
  else String.ofList (content.toList.take MAX_RESPONSE_LEN) ++ TRUNCATED_MESSAGE

/-- The lines of a text with their numbers. -/
def numbered (init_line : Nat) (lines : List String) : String :=
  "\n".intercalate (lines.mapIdx fun i line => width6 (i + init_line) ++ "\t" ++ line)

def _make_output (file_content file_descriptor : String) (init_line : Nat) : String :=
  let file_content := expandtabs (maybe_truncate file_content)
  s!"Here's the result of running `cat -n` on {file_descriptor}:\n" ++
    numbered init_line (split file_content "\n") ++ "\n"

/-- The success message of `str_replace`, with a snippet of the edited section. -/
def replace_result (path : Path) (file_content new_file_content old_str new_str : String) : ToolResult :=
  let name := path.str
  let replacement_line := count ((split file_content old_str).headD "") "\n"
  let start_line := replacement_line - SNIPPET_LINES
  let end_line := replacement_line + SNIPPET_LINES + count new_str "\n"
  let snippet := "\n".intercalate (((split new_file_content "\n").take (end_line + 1)).drop start_line)
  { output := some (s!"The file {name} has been edited. " ++
      _make_output snippet s!"a snippet of {name}" (start_line + 1) ++
      "Review the changes and make sure they are as expected. Edit the file again if necessary.") }

/-- The success message of `insert`. -/
def insert_result (path : Path) (file_text_lines new_str_lines : List String) (at_line : Nat) : ToolResult :=
  let name := path.str
  let snippet_lines := (file_text_lines.take at_line).drop (at_line - SNIPPET_LINES) ++ new_str_lines ++
    (file_text_lines.drop at_line).take SNIPPET_LINES
  { output := some (s!"The file {name} has been edited. " ++
      _make_output ("\n".intercalate snippet_lines) "a snippet of the edited file"
        (max 1 (at_line - SNIPPET_LINES + 1)) ++
      "Review the changes and make sure they are as expected (correct indentation, no duplicate lines, " ++
      "etc). Edit the file again if necessary.") }

section Commands

variable (host : Host)

def lookup (s : State) (path : Path) : Option Node := s.disk.get? (host.resolve path)

def read_file (path : Path) : Edit String := do
  let name := path.str
  match lookup host (← get) path with
  | some (.file content) => return String.ofList (newlines content.toList)
  | some (.unreadable error) => throw (.ToolError s!"Ran into {error} while trying to read {name}")
  | some .directory =>
    throw (.ToolError s!"Ran into [Errno 21] Is a directory: '{name}' while trying to read {name}")
  | none =>
    throw (.ToolError s!"Ran into [Errno 2] No such file or directory: '{name}' while trying to read {name}")

def write_file (path : Path) (file : String) : Edit Unit := do
  let name := path.str
  match host.write with
  | none => modify fun s => { s with disk := s.disk.assign (host.resolve path) (.file file) }
  | some (error, left) =>
    match left with
    | some node => modify fun s => { s with disk := s.disk.assign (host.resolve path) node }
    | none => pure ()
    throw (.ToolError s!"Ran into {error} while trying to write to {name}")

/-- `self._file_history[path].append(content)` -/
def remember (path : Path) (content : String) : Edit Unit := modify fun s => { s with
  _file_history := s._file_history.assign path ((s._file_history.get? path).getD [] ++ [content]) }

def validate_path (command : String) (path : Path) : Edit Unit := do
  let name := path.str
  if ¬ path.is_absolute then
    throw (.ToolError (s!"The path {name} is not an absolute path, it should start with `/`. " ++
      s!"Maybe you meant {name}?"))
  let node := lookup host (← get) path
  if node = none ∧ command ≠ "create" then
    throw (.ToolError s!"The path {name} does not exist. Please provide a valid path.")
  if node ≠ none ∧ command = "create" then
    throw (.ToolError s!"File already exists at: {name}. Cannot overwrite files using command `create`.")
  if node = some .directory ∧ command ≠ "view" then
    throw (.ToolError (s!"The path {name} is a directory and only the `view` command can be used " ++
      "on directories"))

/-- The lines that `view_range` asks for; the error is the message of a `ToolError`. -/
def ranged (view_range : List Json) (file_content : String) : Except String (String × Nat) :=
  match view_range.map Json.int? with
  | [some init_line, some final_line] =>
    let file_lines := split file_content "\n"
    let n_lines_file := file_lines.length
    let range := listed [init_line.str, final_line.str]
    let init := init_line.str
    let final := final_line.str
    if init_line.val < 1 ∨ init_line.val > n_lines_file then
      .error (s!"Invalid `view_range`: {range}. Its first element `{init}` should be within the " ++
        s!"range of lines of the file: [1, {n_lines_file}]")
    else if final_line.val > n_lines_file then
      .error (s!"Invalid `view_range`: {range}. Its second element `{final}` should be smaller than " ++
        s!"the number of lines in the file: `{n_lines_file}`")
    else if final_line.val ≠ -1 ∧ final_line.val < init_line.val then
      .error (s!"Invalid `view_range`: {range}. Its second element `{final}` should be larger or " ++
        s!"equal than its first `{init}`")
    else
      let from_init := file_lines.drop (init_line.val.toNat - 1)
      let lines :=
        if final_line.val = -1 then from_init
        else from_init.take (final_line.val.toNat - (init_line.val.toNat - 1))
      .ok ("\n".intercalate lines, init_line.val.toNat)
  | _ => .error "Invalid `view_range`. It should be a list of two integers."

/-- An empty list is as good as none. -/
def view (path : Path) (view_range : Option (List Json)) : Edit ToolResult := do
  let name := path.str
  let view_range := view_range.getD []
  if lookup host (← get) path = some .directory then
    if view_range ≠ [] then
      throw (.ToolError "The `view_range` parameter is not allowed when `path` points to a directory.")
    match host.find with
    | none => throw .TimeoutError
    | some (stdout, stderr) =>
      let listing := (s!"Here's the files and directories up to 2 levels deep in {name}, excluding " ++
        s!"hidden items:\n{stdout}\n")
      return { output := some (if stderr = "" then listing else stdout), error := some stderr }
  let file_content ← read_file host path
  if view_range = [] then return { output := some (_make_output file_content name 1) }
  match ranged view_range file_content with
  | .error message => throw (.ToolError message)
  | .ok (file_content, init_line) => return { output := some (_make_output file_content name init_line) }

def str_replace (path : Path) (old_str : String) (new_str : Option String) : Edit ToolResult := do
  let name := path.str
  let file_content := expandtabs (← read_file host path)
  let old_str := expandtabs old_str
  let new_str := expandtabs (new_str.getD "")
  let occurrences := count file_content old_str
  if occurrences = 0 then
    throw (.ToolError s!"No replacement was performed, old_str `{old_str}` did not appear verbatim in {name}.")
  else if occurrences > 1 then
    let lines := listed (((split file_content "\n").zipIdx.filter fun (line, _) => contains line old_str).map
      fun (_, idx) => toString (idx + 1))
    throw (.ToolError (s!"No replacement was performed. Multiple occurrences of old_str `{old_str}` in " ++
      s!"lines {lines}. Please ensure it is unique"))
  let new_file_content := replace file_content old_str new_str
  write_file host path new_file_content
  remember path file_content
  -- `file_content.split("")`
  if old_str = "" then throw .ValueError
  return replace_result path file_content new_file_content old_str new_str

def insert (path : Path) (insert_line : PyInt) (new_str : String) : Edit ToolResult := do
  let line := insert_line.str
  let file_text := expandtabs (← read_file host path)
  let new_str := expandtabs new_str
  let file_text_lines := split file_text "\n"
  let n_lines_file := file_text_lines.length
  if insert_line.val < 0 ∨ insert_line.val > n_lines_file then
    throw (.ToolError (s!"Invalid `insert_line` parameter: {line}. It should be within the range of " ++
      s!"lines of the file: [0, {n_lines_file}]"))
  let at_line := insert_line.val.toNat
  let new_str_lines := split new_str "\n"
  let new_file_text_lines := file_text_lines.take at_line ++ new_str_lines ++ file_text_lines.drop at_line
  write_file host path ("\n".intercalate new_file_text_lines)
  remember path file_text
  return insert_result path file_text_lines new_str_lines at_line

/-- `EditTool20250728.__call__` -/
def call (args : Args) : Edit ToolResult := do
  let path := Path.of args.path
  let name := path.str
  let command := args.command
  validate_path host command path
  match command with
  | "view" => view host path args.view_range
  | "create" =>
    match args.file_text with
    | none => throw (.ToolError "Parameter `file_text` is required for command: create")
    | some file_text =>
      write_file host path file_text
      remember path file_text
      return { output := some s!"File created successfully at: {name}" }
  | "str_replace" =>
    match args.old_str with
    | none => throw (.ToolError "Parameter `old_str` is required for command: str_replace")
    | some old_str => str_replace host path old_str args.new_str
  | "insert" =>
    match args.insert_line with
    | none => throw (.ToolError "Parameter `insert_line` is required for command: insert")
    | some insert_line =>
      match args.insert_text with
      | none => throw (.ToolError "Parameter `insert_text` is required for command: insert")
      | some insert_text => insert host path insert_line insert_text
  | _ =>
    throw (.ToolError (s!"Unrecognized command {command}. The allowed commands for the " ++
      "str_replace_based_edit_tool tool are: view, create, str_replace, insert"))

/-- `ToolCollection.run` turns a `ToolError` into a result. -/
def run (args : Args) : Edit ToolResult :=
  tryCatch (call host args) fun
    | .ToolError message => return { error := some message }
    | error => throw error

end Commands

end session_manager.edit

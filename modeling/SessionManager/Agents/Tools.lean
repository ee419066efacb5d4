import SessionManager.Agents.Values

namespace session_manager

namespace remote_tools

def MAX_TOOL_OUTPUT : Nat := 16000

structure CommandResult where
  exit_code : Int := 0
  stdout : List UInt8 := []
  stderr : List UInt8 := []
deriving DecidableEq, Repr

inductive ToolException
  | TypeError (message : String)
  | ValueError (message : String)
  /-- Anything else, such as the RuntimeError of a lost sandbox. -/
  | other (message : String)
deriving DecidableEq, Repr

/-- One command of a call, with its answer. -/
structure Sent where
  command : List String
  answer : Except ToolException CommandResult
deriving DecidableEq

/-- What the sandbox answers to a command after those it has been sent. -/
structure SandboxExecutor where
  answer : List Sent → List String → Except ToolException CommandResult

/-- A call of a tool, with the commands it has sent so far. -/
abbrev Tool := EStateM ToolException (List Sent)

def SandboxExecutor.execute (executor : SandboxExecutor) (command : List String) :
    Tool CommandResult := do
  let answer := executor.answer (← get) command
  modify fun sent => sent ++ [⟨command, answer⟩]
  match answer with
  | .ok result => return result
  | .error exc => throw exc

/-- A check of an argument within a call. -/
def check {α : Type} : Except ToolException α → Tool α
  | .ok value => pure value
  | .error exc => throw exc

/-- The value at `key`, or None. -/
def ToolInput.get (tool_input : ToolInput) (key : String) : Json := (tool_input.get? key).getD .null

inductive Click
  | left_click | right_click | middle_click | double_click | triple_click
deriving DecidableEq, Repr

def Click.args : Click → List String
  | left_click => ["click", "1"]
  | right_click => ["click", "3"]
  | middle_click => ["click", "2"]
  | double_click => ["click", "--repeat", "2", "--delay", "10", "1"]
  | triple_click => ["click", "--repeat", "3", "--delay", "10", "1"]

/-- The actions `_dispatch` knows. -/
inductive Action
  | screenshot | wait | mouse_move | left_click_drag | left_mouse_down | left_mouse_up | type | key
  | cursor_position | click (click : Click) | scroll | hold_key | zoom
deriving DecidableEq, Repr

def Action.value : Action → String
  | screenshot => "screenshot"
  | wait => "wait"
  | mouse_move => "mouse_move"
  | left_click_drag => "left_click_drag"
  | left_mouse_down => "left_mouse_down"
  | left_mouse_up => "left_mouse_up"
  | type => "type"
  | key => "key"
  | cursor_position => "cursor_position"
  | click .left_click => "left_click"
  | click .right_click => "right_click"
  | click .middle_click => "middle_click"
  | click .double_click => "double_click"
  | click .triple_click => "triple_click"
  | scroll => "scroll"
  | hold_key => "hold_key"
  | zoom => "zoom"

def Action.all : List Action :=
  [screenshot, wait, mouse_move, left_click_drag, left_mouse_down, left_mouse_up, type, key,
    cursor_position, click .left_click, click .right_click, click .middle_click, click .double_click,
    click .triple_click, scroll, hold_key, zoom]

/-- The branch of `_dispatch` an action leads to. -/
def Action.of_value (value : String) : Option Action := all.find? fun action => action.value = value

/-- `uuid_hex` is what `uuid.uuid4().hex` gives after the commands sent, and `repr`
the one of Python. -/
structure RemoteComputerTool where
  executor : SandboxExecutor
  width : Int := 1024
  height : Int := 768
  uuid_hex : List Sent → String
  repr : Json → String

def _text : Json → Except ToolException String
  | .string "" => .error (.ValueError "text 必须是非空字符串")
  | .string value => .ok value
  | _ => .error (.ValueError "text 必须是非空字符串")

def _duration (value : Json) : Except ToolException Rat :=
  let duration : Option Rat := match value with
    | .number x => some x
    | value => value.int?.map fun i => (i.val : Rat)
  match duration with
  | some x => if 0 ≤ x ∧ x ≤ 100 then .ok x else .error (.ValueError "duration 必须是 0 到 100 的数字")
  | none => .error (.ValueError "duration 必须是 0 到 100 的数字")

def _decode (value : List UInt8) : String :=
  String.ofList ((utf8.decode value).toList.take MAX_TOOL_OUTPUT)

/-- `text[start : start + 50]` for `start in range(0, len(text), 50)`. -/
def pieces (text : String) : List String :=
  (List.range ((text.toList.length + 49) / 50)).map fun i =>
    String.ofList ((text.toList.drop (50 * i)).take 50)

def scroll_button : String → Option String
  | "up" => some "4"
  | "down" => some "5"
  | "left" => some "6"
  | "right" => some "7"
  | _ => none

def scroll_amount (amount : Json) : Option PyInt :=
  amount.int?.filter fun n => 0 ≤ n.val && n.val ≤ 1000

namespace RemoteComputerTool

variable (tool : RemoteComputerTool)

def _coordinate : Json → Except ToolException (PyInt × PyInt)
  | .array [x, y] =>
    match x.int?, y.int? with
    | some x, some y =>
      if 0 ≤ x.val ∧ x.val < tool.width ∧ 0 ≤ y.val ∧ y.val < tool.height then .ok (x, y)
      else .error (.ValueError "coordinate 超出桌面范围")
    | _, _ => .error (.ValueError "coordinate 必须是整数")
  | _ => .error (.ValueError "coordinate 必须包含两个整数")

def screenshot_path (uuid_hex : String) : String := s!"/tmp/computer-use-{uuid_hex}.png"

/-- How scrot is told the area. -/
def area_args : Option (PyInt × PyInt × PyInt × PyInt) → List String
  | some (x, y, w, h) => ["-a", ",".intercalate [x.str, y.str, w.str, h.str]]
  | none => []

def _capture (area : Option (PyInt × PyInt × PyInt × PyInt)) : Tool ToolResult := do
  let path := screenshot_path (tool.uuid_hex (← get))
  let created ← tool.executor.execute (["scrot", "-p"] ++ area_args area ++ [path])
  if created.exit_code ≠ 0 then
    return { error := or_none (_decode created.stderr) <|> some "截图失败。" }
  else
    let encoded ← tool.executor.execute ["base64", "-w", "0", path]
    let _ ← tool.executor.execute ["rm", "-f", path]
    if encoded.exit_code ≠ 0 then
      return { error := or_none (_decode encoded.stderr) <|> some "读取截图失败。" }
    else
      match ascii.decode encoded.stdout with
      | .ok image => return { base64_image := some image }
      -- a UnicodeDecodeError is a ValueError
      | .error message => throw (.ValueError message)

def screenshot : Tool ToolResult := tool._capture none

def _execute (command : List String) (screenshot : Bool) : Tool ToolResult := do
  let result ← tool.executor.execute command
  let output := or_none (_decode result.stdout)
  if result.exit_code ≠ 0 then
    return { output, error := or_none (_decode result.stderr) <|> some s!"sandbox 命令退出码：{result.exit_code}" }
  else if screenshot then
    let captured ← tool.screenshot
    return { output, base64_image := captured.base64_image }
  else return { output }

def _xdotool (args : List String) : Tool ToolResult := tool._execute ("xdotool" :: args) true

/-- How `_click` and `_scroll` begin: the pointer moves first, when there is a coordinate. -/
def _move (coordinate : Json) (rest : Tool ToolResult) : Tool ToolResult :=
  match coordinate with
  | .null => rest
  | _ => do
    let (x, y) ← check (tool._coordinate coordinate)
    let moved ← tool._execute ["xdotool", "mousemove", "--sync", x.str, y.str] false
    if truthy moved.error then return moved else rest

/-- `_click` once the pointer is where it should be. -/
def _clicked (click : Click) : Json → Tool ToolResult
  | .null => do
    let result ← tool._execute ("xdotool" :: click.args) false
    if truthy result.error then return result else tool.screenshot
  | key => do
    let pressed ← tool._execute ["xdotool", "keydown", ← check (_text key)] false
    if truthy pressed.error then return pressed
    else
      let result ← tool._execute ("xdotool" :: click.args) false
      let released ← tool._execute ["xdotool", "keyup", ← check (_text key)] false
      let result := if truthy released.error && !truthy result.error then released else result
      if truthy result.error then return result else tool.screenshot

def _click (click : Click) (coordinate key : Json) : Tool ToolResult :=
  tool._move coordinate (tool._clicked click key)

/-- `_scroll` once the pointer is where it should be. -/
def _scrolled (modifier : Json) (amount : PyInt) (button : String) : Tool ToolResult :=
  if modifier.truthy then do
    let _ ← tool._execute ["xdotool", "keydown", ← check (_text modifier)] false
    let result ← tool._execute ["xdotool", "click", "--repeat", amount.str, button] false
    let _ ← tool._execute ["xdotool", "keyup", ← check (_text modifier)] false
    if truthy result.error then return result else tool.screenshot
  else do
    let result ← tool._execute ["xdotool", "click", "--repeat", amount.str, button] false
    if truthy result.error then return result else tool.screenshot

def _scroll (tool_input : ToolInput) : Tool ToolResult :=
  match scroll_button (((tool_input.get? "scroll_direction").getD (.string "")).str tool.repr) with
  | none => return { error := some "scroll_direction 必须是 up/down/left/right。" }
  | some button =>
    match scroll_amount (tool_input.get "scroll_amount") with
    | none => return { error := some "scroll_amount 必须是 0 到 1000 的整数。" }
    | some amount =>
      tool._move (tool_input.get "coordinate") (tool._scrolled (tool_input.get "text") amount button)

def _hold_key (tool_input : ToolInput) : Tool ToolResult := do
  let key ← check (_text (tool_input.get "text"))
  let _ ← check (_duration (tool_input.get "duration"))
  let pressed ← tool._execute ["xdotool", "keydown", key] false
  if truthy pressed.error then return pressed
  else
    -- the try block only sleeps, so that its finally is what comes next
    let _ ← tool._execute ["xdotool", "keyup", key] false
    tool.screenshot

def _zoom : Json → Tool ToolResult
  | .array [left, top, right, bottom] => do
    let (x0, y0) ← check (tool._coordinate (.array [left, top]))
    let (x1, y1) ← check (tool._coordinate (.array [right, bottom]))
    if x1.val ≤ x0.val ∨ y1.val ≤ y0.val then
      return { error := some "zoom region 的右下角必须大于左上角。" }
    else tool._capture (some (x0, y0, .int (x1.val - x0.val), .int (y1.val - y0.val)))
  | _ => return { error := some "zoom region 必须包含四个坐标。" }

/-- The branch of `_dispatch` for `type`, from these pieces on. -/
def _type : List String → Tool ToolResult
  | [] => tool.screenshot
  | piece :: pieces => do
    let result ← tool._execute ["xdotool", "type", "--delay", "12", "--", piece] false
    if truthy result.error then return result else _type pieces

def _dispatch (action : String) (tool_input : ToolInput) : Tool ToolResult := do
  let coordinate := tool_input.get "coordinate"
  match Action.of_value action with
  | some .screenshot => tool.screenshot
  | some .wait =>
    let _ ← check (_duration (tool_input.get "duration"))
    tool.screenshot
  | some .mouse_move =>
    let (x, y) ← check (tool._coordinate coordinate)
    tool._xdotool ["mousemove", "--sync", x.str, y.str]
  | some .left_click_drag =>
    let (start_x, start_y) ← check (tool._coordinate (tool_input.get "start_coordinate"))
    let (end_x, end_y) ← check (tool._coordinate coordinate)
    tool._xdotool ["mousemove", "--sync", start_x.str, start_y.str, "mousedown", "1",
      "mousemove", "--sync", end_x.str, end_y.str, "mouseup", "1"]
  | some .left_mouse_down => tool._xdotool ["mousedown", "1"]
  | some .left_mouse_up => tool._xdotool ["mouseup", "1"]
  | some .type =>
    let text ← check (_text (tool_input.get "text"))
    tool._type (pieces text)
  | some .key => tool._xdotool ["key", "--", ← check (_text (tool_input.get "text"))]
  | some .cursor_position => tool._execute ["xdotool", "getmouselocation", "--shell"] false
  | some (.click click) => tool._click click coordinate (tool_input.get "key")
  | some .scroll => tool._scroll tool_input
  | some .hold_key => tool._hold_key tool_input
  | some .zoom => tool._zoom (tool_input.get "region")
  | none => return { error := some s!"不支持的 computer action：{action}" }

/-- The error of a call with an argument that does not pass its check. -/
def invalid_input (message : String) : ToolResult :=
  { error := some s!"无效的 computer 工具参数：{message}" }

/-- `except (TypeError, ValueError)` -/
def handler : ToolException → Tool ToolResult
  | .TypeError message | .ValueError message => return invalid_input message
  | .other message => throw (.other message)

/-- `__call__` -/
def call (tool_input : ToolInput) : Tool ToolResult :=
  let action := ((tool_input.get? "action").getD (.string "")).str tool.repr
  tryCatch (tool._dispatch action tool_input) handler

end RemoteComputerTool

structure RemoteBashTool where
  executor : SandboxExecutor

/-- How the bash tool has a command executed. -/
def wrapped (command : String) : List String :=
  ["timeout", "--signal=KILL", "120s", "/bin/bash", "-lc", command]

/-- The result of a command of the bash tool. -/
def bash_result (result : CommandResult) : ToolResult :=
  let output := _decode result.stdout
  let error := _decode result.stderr
  let error := if result.exit_code ≠ 0 ∧ error = "" then s!"bash 退出码：{result.exit_code}" else error
  { output := or_none output, error := or_none error }

/-- `__call__` -/
def RemoteBashTool.call (tool : RemoteBashTool) (tool_input : ToolInput) : Tool ToolResult :=
  if (tool_input.get "restart").truthy then
    return { system := some "bash 工具使用无状态隔离执行，无需重启。" }
  else
    match _text (tool_input.get "command") with
    | .error _ => return { error := some "bash command 必须是非空字符串。" }
    | .ok command => bash_result <$> tool.executor.execute (wrapped command)

inductive RemoteTool
  | computer (tool : RemoteComputerTool)
  | bash (tool : RemoteBashTool)

namespace RemoteTool

def name : RemoteTool → String
  | computer _ => "computer"
  | bash _ => "bash"

def class_name : RemoteTool → String
  | computer _ => "RemoteComputerTool"
  | bash _ => "RemoteBashTool"

/-- `tool(**tool_input)`: a key that is the name of the first parameter clashes with it. -/
def call (tool : RemoteTool) (tool_input : ToolInput) : Tool ToolResult :=
  if "self" ∈ tool_input.keys then
    throw (.TypeError s!"{tool.class_name}.__call__() got multiple values for argument 'self'")
  else
    match tool with
    | computer tool => tool.call tool_input
    | bash tool => tool.call tool_input

end RemoteTool

structure RemoteToolCollection where
  tools : Table String RemoteTool

namespace RemoteToolCollection

/-- `__init__` -/
def of (tools : List RemoteTool) : RemoteToolCollection :=
  ⟨.ofPairs (tools.map fun tool => (tool.name, tool))⟩

def run (collection : RemoteToolCollection) (name : String) (tool_input : ToolInput) : Tool ToolResult :=
  match collection.tools.get? name with
  | none => return { error := some s!"未知工具：{shlex.quote name}" }
  | some tool => tool.call tool_input

end RemoteToolCollection

end remote_tools

end session_manager

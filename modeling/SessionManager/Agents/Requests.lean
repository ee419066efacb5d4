import SessionManager.Agents.Tools
import SessionManager.Library.Effect

open effect

namespace session_manager

namespace remote_tools

/-- A pixel of a desktop. -/
structure Point (width height : Int) where
  x : PyInt
  y : PyInt
  inside : 0 ≤ x.val ∧ x.val < width ∧ 0 ≤ y.val ∧ y.val < height

/-- A part of a desktop, by two of its corners. -/
structure Area (width height : Int) where
  start : Point width height
  stop : Point width height
  left : start.x.val < stop.x.val
  above : start.y.val < stop.y.val

/-- How often a scroll clicks. -/
abbrev Amount := { amount : PyInt // 0 ≤ amount.val ∧ amount.val ≤ 1000 }

/-- The key to hold during a click or a scroll. It is checked after the pointer has
moved. -/
inductive Modifier
  | absent
  | key (key : String)
  | invalid (message : String)
deriving DecidableEq, Repr

/-- What takes one command of xdotool, with a screenshot after it. -/
inductive Gesture (width height : Int)
  | mouse_move (target : Point width height)
  | left_click_drag (start stop : Point width height)
  | left_mouse_down
  | left_mouse_up
  | key (text : String)

/-- What an input asks for, once it has passed the checks made before the first
command. -/
inductive Request (width height : Int)
  | screenshot
  | gesture (gesture : Gesture width height)
  | type (text : String)
  | cursor_position
  | click (target : Option (Point width height)) (modifier : Modifier) (click : Click)
  | scroll (target : Option (Point width height)) (modifier : Modifier) (amount : Amount) (button : String)
  | hold_key (key : String)
  | zoom (area : Area width height)

variable {width height : Int}

def Point.mousemove (point : Point width height) : List String :=
  ["mousemove", "--sync", point.x.str, point.y.str]

def Gesture.args : Gesture width height → List String
  | mouse_move target => target.mousemove
  | left_click_drag start stop => start.mousemove ++ ["mousedown", "1"] ++ stop.mousemove ++ ["mouseup", "1"]
  | left_mouse_down => ["mousedown", "1"]
  | left_mouse_up => ["mouseup", "1"]
  | key text => ["key", "--", text]

def keydown (key : String) : List String := ["xdotool", "keydown", key]

def keyup (key : String) : List String := ["xdotool", "keyup", key]

def scroll_click (amount : Amount) (button : String) : List String :=
  ["xdotool", "click", "--repeat", amount.val.str, button]

def type_piece (piece : String) : List String := ["xdotool", "type", "--delay", "12", "--", piece]

/-- The arguments of the area for scrot. -/
def Area.geometry (area : Area width height) : PyInt × PyInt × PyInt × PyInt :=
  (area.start.x, area.start.y, .int (area.stop.x.val - area.start.x.val),
    .int (area.stop.y.val - area.start.y.val))

def ToolException.message : ToolException → String
  | TypeError message | ValueError message | other message => message

def Modifier.of_text (text : Json) : Modifier :=
  match _text text with
  | .ok value => .key value
  | .error exc => .invalid exc.message

/-- The `key` of a click. -/
def Modifier.of_key : Json → Modifier
  | .null => .absent
  | value => .of_text value

/-- The `text` of a scroll. -/
def Modifier.of_scroll_text (text : Json) : Modifier := if text.truthy then .of_text text else .absent

/-- A check within `__call__`. -/
def checked {α : Type} : Except ToolException α → Except ToolResult α :=
  Except.mapError fun exc => RemoteComputerTool.invalid_input exc.message

def Amount.read (value : Json) : Option Amount :=
  value.int?.bind fun amount => if h : 0 ≤ amount.val ∧ amount.val ≤ 1000 then some ⟨amount, h⟩ else none

private theorem scroll_amount_eq (value : Json) : scroll_amount value = (Amount.read value).map Subtype.val := by
  unfold scroll_amount Amount.read
  cases value.int? with
  | none => rfl
  | some amount =>
    by_cases h : 0 ≤ amount.val ∧ amount.val ≤ 1000
    · simp [h]
    · simp [h, Option.filter]

namespace RemoteComputerTool

variable (tool : RemoteComputerTool)

private theorem inside_of_coordinate {value : Json} {x y : PyInt} (h : tool._coordinate value = .ok (x, y)) :
    0 ≤ x.val ∧ x.val < tool.width ∧ 0 ≤ y.val ∧ y.val < tool.height := by
  unfold _coordinate at h
  split at h
  · split at h
    · split at h
      · rename_i hinside
        cases h
        exact hinside
      · cases h
    · cases h
  · cases h

def point (value : Json) : Except ToolException (Point tool.width tool.height) :=
  match h : tool._coordinate value with
  | .ok (x, y) => .ok ⟨x, y, tool.inside_of_coordinate h⟩
  | .error exc => .error exc

/-- The target of a click or a scroll, if it has one. -/
def target : Json → Except ToolException (Option (Point tool.width tool.height))
  | .null => .ok none
  | coordinate => (tool.point coordinate).map some

/-- The region of a zoom. -/
def zoom : Json → Except ToolResult (Request tool.width tool.height)
  | .array [left, top, right, bottom] => do
    let start ← checked (tool.point (.array [left, top]))
    let stop ← checked (tool.point (.array [right, bottom]))
    if h : start.x.val < stop.x.val ∧ start.y.val < stop.y.val then return .zoom ⟨start, stop, h.1, h.2⟩
    else throw { error := some "zoom region 的右下角必须大于左上角。" }
  | _ => .error { error := some "zoom region 必须包含四个坐标。" }

/-- What an input asks the tool for, or the error it is answered with at once. -/
def read (tool_input : ToolInput) : Except ToolResult (Request tool.width tool.height) :=
  let action := ((tool_input.get? "action").getD (.string "")).str tool.repr
  let text := checked (_text (tool_input.get "text"))
  let duration := checked (_duration (tool_input.get "duration"))
  let coordinate := checked (tool.point (tool_input.get "coordinate"))
  let target := checked (tool.target (tool_input.get "coordinate"))
  match Action.of_value action with
  | none => .error { error := some s!"不支持的 computer action：{action}" }
  | some .screenshot => .ok .screenshot
  | some .wait => do
    let _ ← duration
    return .screenshot
  | some .mouse_move => return .gesture (.mouse_move (← coordinate))
  | some .left_click_drag => do
    let start ← checked (tool.point (tool_input.get "start_coordinate"))
    let stop ← coordinate
    return .gesture (.left_click_drag start stop)
  | some .left_mouse_down => .ok (.gesture .left_mouse_down)
  | some .left_mouse_up => .ok (.gesture .left_mouse_up)
  | some .type => return .type (← text)
  | some .key => return .gesture (.key (← text))
  | some .cursor_position => .ok .cursor_position
  | some (.click click) => return .click (← target) (.of_key (tool_input.get "key")) click
  | some .scroll =>
    match scroll_button (((tool_input.get? "scroll_direction").getD (.string "")).str tool.repr) with
    | none => .error { error := some "scroll_direction 必须是 up/down/left/right。" }
    | some button =>
      match Amount.read (tool_input.get "scroll_amount") with
      | none => .error { error := some "scroll_amount 必须是 0 到 1000 的整数。" }
      | some amount => return .scroll (← target) (.of_scroll_text (tool_input.get "text")) amount button
  | some .hold_key => do
    let text ← text
    let _ ← duration
    return .hold_key text
  | some .zoom => tool.zoom (tool_input.get "region")

/-- The pointer moves first, when there is a target. -/
def moved (target : Option (Point tool.width tool.height)) (rest : Tool ToolResult) : Tool ToolResult :=
  match target with
  | none => rest
  | some point => do
    let moved ← tool._execute ("xdotool" :: point.mousemove) false
    if truthy moved.error then return moved else rest

/-- What is done for a request. -/
def perform : Request tool.width tool.height → Tool ToolResult
  | .screenshot => tool.screenshot
  | .gesture gesture => tool._xdotool gesture.args
  | .type text => tool._type (pieces text)
  | .cursor_position => tool._execute ["xdotool", "getmouselocation", "--shell"] false
  | .click target modifier click => tool.moved target <|
    match modifier with
    | .invalid message => throw (.ValueError message)
    | .absent => do
      let result ← tool._execute ("xdotool" :: click.args) false
      if truthy result.error then return result else tool.screenshot
    | .key key => do
      let pressed ← tool._execute (keydown key) false
      if truthy pressed.error then return pressed
      else
        let result ← tool._execute ("xdotool" :: click.args) false
        let released ← tool._execute (keyup key) false
        let result := if truthy released.error && !truthy result.error then released else result
        if truthy result.error then return result else tool.screenshot
  | .scroll target modifier amount button => tool.moved target <|
    match modifier with
    | .invalid message => throw (.ValueError message)
    | .absent => do
      let result ← tool._execute (scroll_click amount button) false
      if truthy result.error then return result else tool.screenshot
    | .key key => do
      let _ ← tool._execute (keydown key) false
      let result ← tool._execute (scroll_click amount button) false
      let _ ← tool._execute (keyup key) false
      if truthy result.error then return result else tool.screenshot
  | .hold_key key => do
    let pressed ← tool._execute (keydown key) false
    if truthy pressed.error then return pressed
    else
      let _ ← tool._execute (keyup key) false
      tool.screenshot
  | .zoom area => tool._capture (some area.geometry)

/-- What is done for an input that has been read. -/
def serve : Except ToolResult (Request tool.width tool.height) → Tool ToolResult
  | .error result => pure result
  | .ok request => tryCatch (tool.perform request) handler

variable {tool}

private theorem text_error {value : Json} {exc : ToolException} (h : _text value = .error exc) :
    ∃ message, exc = .ValueError message := by
  unfold _text at h
  split at h <;> cases h
  · exact ⟨_, rfl⟩
  · exact ⟨_, rfl⟩

private theorem duration_error {value : Json} {exc : ToolException} (h : _duration value = .error exc) :
    ∃ message, exc = .ValueError message := by
  unfold _duration at h
  dsimp only at h
  split at h
  · split at h <;> cases h
    exact ⟨_, rfl⟩
  · cases h
    exact ⟨_, rfl⟩

private theorem coordinate_error {value : Json} {exc : ToolException} (h : tool._coordinate value = .error exc) :
    ∃ message, exc = .ValueError message := by
  unfold _coordinate at h
  split at h
  · split at h
    · split at h <;> cases h
      exact ⟨_, rfl⟩
    · cases h
      exact ⟨_, rfl⟩
  · cases h
    exact ⟨_, rfl⟩

private theorem coordinate_eq (value : Json) :
    tool._coordinate value = (tool.point value).map fun point => (point.x, point.y) := by
  unfold point
  split <;> simp_all [Except.map]

private theorem point_error {value : Json} {exc : ToolException} (h : tool.point value = .error exc) :
    ∃ message, exc = .ValueError message := by
  have hcoordinate : tool._coordinate value = .error exc := by
    rw [coordinate_eq, h]
    rfl
  exact coordinate_error hcoordinate

/-- A check fails with a ValueError, which `__call__` answers with an error. -/
private theorem handled {α : Type} {x : Except ToolException α} {f : α → Tool ToolResult}
    {g : α → Except ToolResult (Request tool.width tool.height)}
    (hok : ∀ a, tryCatch (f a) handler = tool.serve (g a))
    (herror : ∀ exc, x = .error exc → ∃ message, exc = .ValueError message) :
    tryCatch (check x >>= f) handler = tool.serve (checked x >>= g) := by
  cases x with
  | ok a => exact hok a
  | error exc =>
    obtain ⟨message, rfl⟩ := herror exc rfl
    rfl

private theorem error_of_map {α β : Type} {x : Except ToolException α} {f : α → β} {exc : ToolException}
    (h : x.map f = .error exc) : x = .error exc := by
  cases x with
  | ok => cases h
  | error => exact congrArg _ (Except.error.inj h)

private theorem target_error {coordinate : Json} {exc : ToolException} (h : tool.target coordinate = .error exc) :
    ∃ message, exc = .ValueError message := by
  unfold target at h
  split at h
  · cases h
  · exact point_error (error_of_map h)

private theorem move_eq (coordinate : Json) (rest : Tool ToolResult) :
    tool._move coordinate rest = check (tool.target coordinate) >>= fun target => tool.moved target rest := by
  cases coordinate with
  | null => rfl
  | _ =>
    unfold _move target
    dsimp only
    rw [coordinate_eq]
    cases tool.point _ <;> rfl

/-- A click does with its key what it does with the modifier the key is read as, so two
keys with one reading send the same commands. -/
theorem click_eq (click : Click) (target : Option (Point tool.width tool.height)) (key : Json) :
    tool.perform (.click target (.of_key key) click) = tool.moved target (tool._clicked click key) := by
  cases key with
  | null => rfl
  | _ =>
    unfold Modifier.of_key Modifier.of_text _clicked
    dsimp only
    cases htext : _text _ with
    | ok => rfl
    | error exc =>
      obtain ⟨message, rfl⟩ := text_error htext
      rfl

private theorem scroll_eq (target : Option (Point tool.width tool.height)) (text : Json) (amount : Amount)
    (button : String) :
    tool.perform (.scroll target (.of_scroll_text text) amount button) =
      tool.moved target (tool._scrolled text amount button) := by
  unfold Modifier.of_scroll_text Modifier.of_text _scrolled
  by_cases htext : text.truthy = true
  · rw [if_pos htext, if_pos htext]
    cases htext : _text text with
    | ok => rfl
    | error exc =>
      obtain ⟨message, rfl⟩ := text_error htext
      rfl
  · rw [if_neg htext, if_neg htext]
    rfl

private theorem point_check {f : PyInt × PyInt → Tool ToolResult} (value : Json) :
    check (tool._coordinate value) >>= f = check (tool.point value) >>= fun point => f (point.x, point.y) := by
  rw [coordinate_eq]
  cases tool.point value <;> rfl

private theorem zoom_corners (left top right bottom : Json) :
    tryCatch (tool._zoom (.array [left, top, right, bottom])) handler =
      tool.serve (tool.zoom (.array [left, top, right, bottom])) := by
  unfold _zoom zoom
  dsimp only
  rw [point_check]
  refine handled (fun start => ?_) fun _ => point_error
  rw [point_check]
  refine handled (fun stop => ?_) fun _ => point_error
  dsimp only
  by_cases h : start.x.val < stop.x.val ∧ start.y.val < stop.y.val
  · rw [dif_pos h, if_neg (by omega)]
    rfl
  · rw [dif_neg h, if_pos (by omega)]
    rfl

private theorem zoom_eq (region : Json) :
    tryCatch (tool._zoom region) handler = tool.serve (tool.zoom region) := by
  by_cases hcorners : ∃ left top right bottom, region = .array [left, top, right, bottom]
  · obtain ⟨left, top, right, bottom, rfl⟩ := hcorners
    exact zoom_corners left top right bottom
  · have herror : tool._zoom region = pure { error := some "zoom region 必须包含四个坐标。" } := by
      unfold _zoom
      split
      · exact absurd ⟨_, _, _, _, rfl⟩ hcorners
      · rfl
    have hzoom : tool.zoom region = .error { error := some "zoom region 必须包含四个坐标。" } := by
      unfold zoom
      split
      · exact absurd ⟨_, _, _, _, rfl⟩ hcorners
      · rfl
    rw [herror, hzoom]
    rfl

/-- A call does what its input, once it is read, asks for. The checks come before the
first command, so an input that fails one sends nothing. -/
theorem call_eq (tool_input : ToolInput) : tool.call tool_input = tool.serve (tool.read tool_input) := by
  unfold call read
  generalize ((tool_input.get? "action").getD (.string "")).str tool.repr = action
  unfold _dispatch
  dsimp only
  cases Action.of_value action with
  | none => rfl
  | some action =>
    cases action with
    | screenshot | left_mouse_down | left_mouse_up | cursor_position => rfl
    | wait => exact handled (fun _ => rfl) fun _ => duration_error
    | mouse_move =>
      dsimp only
      rw [point_check]
      exact handled (fun _ => rfl) fun _ => point_error
    | left_click_drag =>
      dsimp only
      rw [point_check]
      refine handled (fun start => ?_) fun _ => point_error
      rw [point_check]
      exact handled (fun _ => rfl) fun _ => point_error
    | type | key => exact handled (fun _ => rfl) fun _ => text_error
    | click click =>
      dsimp only
      unfold _click
      rw [move_eq]
      refine handled (fun target => ?_) fun _ => target_error
      rw [← click_eq]
      rfl
    | scroll =>
      dsimp only
      unfold _scroll
      cases scroll_button _ with
      | none => rfl
      | some button =>
        dsimp only
        rw [scroll_amount_eq]
        cases Amount.read _ with
        | none => rfl
        | some amount =>
          dsimp only [Option.map_some]
          rw [move_eq]
          refine handled (fun target => ?_) fun _ => target_error
          rw [← scroll_eq]
          rfl
    | hold_key =>
      refine handled (fun key => ?_) fun _ => text_error
      exact handled (fun _ => rfl) fun _ => duration_error
    | zoom => exact zoom_eq _

end RemoteComputerTool

end remote_tools

end session_manager

import SessionManager.Library.Table

namespace session_manager

/-- What `json.loads` returns. -/
inductive Json
  | null
  | bool (b : Bool)
  | int (i : Int)
  | number (x : Rat)
  | string (s : String)
  | array (items : List Json)
  | object (members : List (String × Json))

namespace remote_tools

/-- The keyword arguments of a tool. -/
abbrev ToolInput := Table String Json

/-- One call of `RemoteToolCollection.run`. -/
structure Call where
  name : String
  input : ToolInput

structure ToolResult where
  output : Option String := none
  error : Option String := none
  base64_image : Option String := none
  system : Option String := none
deriving DecidableEq, Repr

end remote_tools

end session_manager

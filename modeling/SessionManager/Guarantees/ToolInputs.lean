import SessionManager.Agents.Commands

open effect

namespace session_manager

namespace remote_tools

/-- The target and the modifier of a click or a scroll. -/
def Request.around {width height : Int} :
    Request width height → Option (Point width height) × Modifier
  | click target modifier _ | scroll target modifier _ _ => (target, modifier)
  | _ => (none, .absent)

namespace RemoteComputerTool

/-- The action is unknown, or an argument of it does not pass its check. -/
def Rejects (tool : RemoteComputerTool) (tool_input : ToolInput) : Prop :=
  match tool.read tool_input with
  | .error _ => True
  | .ok request => ∃ message, request.around.2 = .invalid message

/-- The modifier does not pass its check, and by then the pointer has moved. -/
def RejectsLate (tool : RemoteComputerTool) (tool_input : ToolInput) : Prop :=
  ∃ request point message, tool.read tool_input = .ok request ∧
    request.around = (some point, .invalid message) ∧
    tool.executor.status [] ("xdotool" :: point.mousemove) = .succeeded

end RemoteComputerTool

namespace RemoteTool

def executor : RemoteTool → SandboxExecutor
  | computer tool => tool.executor
  | bash tool => tool.executor

def Rejects : RemoteTool → ToolInput → Prop
  | computer tool, tool_input => tool.Rejects tool_input
  | bash _, tool_input => (tool_input.get "restart").truthy = false ∧
      ∃ exc, _text (tool_input.get "command") = .error exc

end RemoteTool

namespace RemoteToolCollection

variable (collection : RemoteToolCollection)

/-- The tool is unknown, or it rejects the input. -/
def Rejects (name : String) (tool_input : ToolInput) : Prop :=
  ∀ tool, collection.tools.get? name = some tool → tool.Rejects tool_input

/-- A result, and it is an error caused by the input only when nothing has been sent:
the input is rejected and no command that was sent has failed. -/
def Answers (name : String) (tool_input : ToolInput) : Prop :=
  Ensures (collection.run name tool_input) []
    (fun result sent => collection.Rejects name tool_input → truthy result.error = true →
      (∀ s ∈ sent, s.status = .succeeded) → sent = [])
    (fun _ _ => False)

/-- The input of a known tool has a key that clashes with the name of a parameter. -/
def Clashes (name : String) (tool_input : ToolInput) : Prop :=
  (collection.tools.get? name).isSome ∧ "self" ∈ tool_input.keys

end RemoteToolCollection

section Computer

variable {tool : RemoteComputerTool} {tool_input : ToolInput}

private theorem perform_invalid {request : Request tool.width tool.height}
    {target : Option (Point tool.width tool.height)} {message : String}
    (h : request.around = (target, .invalid message)) :
    tool.perform request = tool.moved target (throw (.ValueError message)) := by
  cases request with
  | click target' modifier kind =>
    obtain ⟨rfl, rfl⟩ : target' = target ∧ modifier = .invalid message := by simpa [Request.around] using h
    rfl
  | scroll target' modifier amount button =>
    obtain ⟨rfl, rfl⟩ : target' = target ∧ modifier = .invalid message := by simpa [Request.around] using h
    rfl
  | screenshot | gesture | type | cursor_position | hold_key | zoom => simp [Request.around] at h

/-- A rejected modifier ends the call with an error, which comes too late just when the
pointer has moved. -/
theorem invalid_ensures (hanswers : tool.executor.Answers)
    (target : Option (Point tool.width tool.height)) (message : String) :
    Ensures (tryCatch (tool.moved target (throw (.ValueError message))) RemoteComputerTool.handler) []
      (fun result sent => truthy result.error = true ∧ (((∀ s ∈ sent, s.status = .succeeded) → sent = []) ↔
        ¬ ∃ point, target = some point ∧
          tool.executor.status [] ("xdotool" :: point.mousemove) = .succeeded))
      (fun _ _ => False) := by
  have herror : truthy (RemoteComputerTool.invalid_input message).error = true := by
    rw [RemoteComputerTool.invalid_input, truthy_some]
    exact decide_eq_true (append_ne_empty (by decide))
  apply Ensures.handle
  cases target with
  | none => exact .raise (.ret ⟨herror, by simp⟩)
  | some point =>
    simp only [Option.some.injEq, exists_eq_left']
    apply Ensures.bind
    apply execute_ensures
    · intro hstatus moved hmoved
      rw [hmoved]
      refine .raise (.ret ⟨herror, iff_of_false ?_ (not_not.mpr hstatus)⟩)
      intro hempty
      have hsent := hempty fun s hs => by
        obtain rfl := List.mem_singleton.mp hs
        exact hstatus
      simp [SandboxExecutor.sends] at hsent
    · intro hstatus moved hmoved
      rw [hmoved]
      refine .ret ⟨hmoved, iff_of_true (fun hall => ?_) (by simp [hstatus])⟩
      have hsucceeded := hall _ (List.mem_singleton_self _)
      cases hstatus.symm.trans hsucceeded
    · exact fun hstatus => absurd hstatus (hanswers _ _)

/-- Once the other arguments are read, only a modifier can be to blame. It is the one
argument that may be looked at after a command. -/
theorem rejects_iff {request : Request tool.width tool.height} (hread : tool.read tool_input = .ok request) :
    tool.Rejects tool_input ↔ ∃ message, request.around.2 = .invalid message := by
  rw [RemoteComputerTool.Rejects, hread]

/-- It is found out too late when there is a target that the pointer has moved to
before. -/
theorem rejects_late_iff {request : Request tool.width tool.height}
    (hread : tool.read tool_input = .ok request) :
    tool.RejectsLate tool_input ↔ ∃ point message, request.around = (some point, .invalid message) ∧
      tool.executor.status [] ("xdotool" :: point.mousemove) = .succeeded := by
  simp only [RemoteComputerTool.RejectsLate, hread, Except.ok.injEq, existsAndEq, true_and]

/-- What a call makes of its input, when the sandbox answers: an error without a command
for an input to blame, unless it is found out too late. -/
theorem call_ensures (hanswers : tool.executor.Answers) (tool_input : ToolInput) :
    Ensures (tool.call tool_input) []
      (fun result sent => (tool.Rejects tool_input → truthy result.error = true →
        (∀ s ∈ sent, s.status = .succeeded) → sent = []) ↔ ¬ tool.RejectsLate tool_input)
      (fun _ _ => False) := by
  rw [RemoteComputerTool.call_eq]
  cases hread : tool.read tool_input with
  | error result => exact .ret (by simp [RemoteComputerTool.RejectsLate, hread])
  | ok request =>
    rw [rejects_iff hread, rejects_late_iff hread]
    rcases haround : request.around with ⟨target, modifier⟩
    cases modifier with
    | invalid message =>
      unfold RemoteComputerTool.serve
      dsimp only
      rw [perform_invalid haround]
      apply (invalid_ensures hanswers target message).mono _ fun _ _ h => h
      rintro result sent ⟨herror, hsent⟩
      simpa [herror] using hsent
    | absent | key =>
      apply Ensures.handle
      apply (perform_sends (.answers hanswers) request []).mono
      · exact fun _ _ _ => iff_of_true (by simp) (by simp)
      · rintro exc sent ⟨⟨message, rfl⟩, -⟩
        exact .ret (iff_of_true (by simp) (by simp))

end Computer

/-- The tool `bash` checks its input before it sends anything, and raises nothing. -/
theorem bash_ensures {tool : RemoteBashTool} (hanswers : tool.executor.Answers) (tool_input : ToolInput) :
    Ensures (tool.call tool_input) []
      (fun result sent => RemoteTool.Rejects (.bash tool) tool_input → truthy result.error = true →
        (∀ s ∈ sent, s.status = .succeeded) → sent = [])
      (fun _ _ => False) := by
  unfold RemoteBashTool.call
  split
  · exact .ret fun _ _ _ => rfl
  · split
    · exact .ret fun _ _ _ => rfl
    · rename_i command hcommand
      have hvalid : ¬ RemoteTool.Rejects (.bash tool) tool_input := by
        rintro ⟨-, exc, hexc⟩
        cases hcommand.symm.trans hexc
      rw [map_eq_pure_bind]
      apply Ensures.bind
      apply SandboxExecutor.execute_ensures
      · exact fun _ _ => .ret fun hrejects => absurd hrejects hvalid
      · exact fun hraised => absurd hraised (hanswers _ _)

namespace RemoteToolCollection

variable {collection : RemoteToolCollection}

private theorem clash_raises {name : String} {tool_input : ToolInput} (h : collection.Clashes name tool_input) :
    ¬ collection.Answers name tool_input := by
  obtain ⟨hknown, hself⟩ := h
  obtain ⟨tool, htool⟩ := Option.isSome_iff_exists.mp hknown
  unfold Answers run
  rw [htool]
  unfold RemoteTool.call
  dsimp only
  rw [if_pos hself]
  exact fun hfalse => hfalse

/-- A computer answers every input without a key `self`, unless it finds out too late
that the input is to blame. -/
theorem computer_answers {tool : RemoteComputerTool} {name : String} {tool_input : ToolInput}
    (hname : collection.tools.get? name = some (.computer tool)) (hanswers : tool.executor.Answers)
    (hself : "self" ∉ tool_input.keys) :
    collection.Answers name tool_input ↔ ¬ tool.RejectsLate tool_input := by
  apply Ensures.iff_of_ends
  unfold run Rejects RemoteTool.call
  simp only [hname, if_neg hself, Option.some.injEq, forall_eq']
  exact (call_ensures hanswers tool_input).mono (fun _ _ h => h) fun _ _ => False.elim

/-- A bash answers every input without a key `self`, as it has nothing to find out late. -/
theorem bash_answers {tool : RemoteBashTool} {name : String} {tool_input : ToolInput}
    (hname : collection.tools.get? name = some (.bash tool)) (hanswers : tool.executor.Answers)
    (hself : "self" ∉ tool_input.keys) : collection.Answers name tool_input := by
  unfold Answers run Rejects RemoteTool.call
  simp only [hname, if_neg hself, Option.some.injEq, forall_eq']
  exact bash_ensures hanswers tool_input

/-- The tools answer every input with a result, and an input that is to blame before
they send a command, but for two kinds of input. -/
theorem run_answers
    (hanswers : ∀ name tool, collection.tools.get? name = some tool → tool.executor.Answers)
    (name : String) (tool_input : ToolInput) :
    collection.Answers name tool_input ↔ ¬ collection.Clashes name tool_input ∧
      ∀ tool, collection.tools.get? name = some (.computer tool) → ¬ tool.RejectsLate tool_input := by
  by_cases hclashes : collection.Clashes name tool_input
  · exact iff_of_false (clash_raises hclashes) fun h => h.1 hclashes
  · simp only [hclashes, not_false_eq_true, true_and]
    cases hname : collection.tools.get? name with
    | none =>
      refine iff_of_true ?_ (by simp)
      unfold Answers run
      rw [hname]
      exact .ret fun _ _ _ => rfl
    | some tool =>
      have hself : "self" ∉ tool_input.keys := fun hself => hclashes ⟨by simp [hname], hself⟩
      have htool := hanswers name tool hname
      cases tool with
      | computer tool => simpa using computer_answers hname htool hself
      | bash tool => exact iff_of_true (bash_answers hname htool hself) (by simp)

def desktop : RemoteComputerTool := { executor := willing, uuid_hex := fun _ => "0", repr := fun _ => "" }

def toolbox : RemoteToolCollection := .of [.computer desktop, .bash ⟨willing⟩]

/-- The tools of the toolbox have a sandbox that answers. -/
theorem toolbox_answers (name : String) (tool : RemoteTool) (h : toolbox.tools.get? name = some tool) :
    tool.executor.Answers := by
  have htools : (name, tool) ∈ [("computer", RemoteTool.computer desktop), ("bash", .bash ⟨willing⟩)] :=
    (Table.get?_eq_some_iff_mem _).mp h
  simp only [List.mem_cons, Prod.mk.injEq, List.not_mem_nil, or_false] at htools
  rcases htools with ⟨-, rfl⟩ | ⟨-, rfl⟩ <;> (intro _ _ h; cases h)

private theorem toolbox_computer {tool : RemoteComputerTool}
    (h : toolbox.tools.get? "computer" = some (.computer tool)) : tool = desktop := by
  have hcomputer : toolbox.tools.get? "computer" = some (.computer desktop) := rfl
  cases h.symm.trans hcomputer
  rfl

/-- A click with ctrl. -/
theorem run_answers_click :
    toolbox.Answers "computer" (.ofPairs [("action", .string "left_click"),
      ("coordinate", .array [.int 10, .int 10]), ("key", .string "ctrl")]) := by
  refine (run_answers toolbox_answers _ _).mpr ⟨?_, ?_⟩
  · exact fun hclashes => absurd hclashes.2 (by decide)
  · rintro tool htool ⟨request, point, message, hread, haround, -⟩
    obtain rfl := toolbox_computer htool
    have hmodifier : ((desktop.read (.ofPairs [("action", .string "left_click"),
        ("coordinate", .array [.int 10, .int 10]), ("key", .string "ctrl")])).toOption.map
          fun request => request.around.2) = some (.key "ctrl") := by decide +kernel
    rw [hread] at hmodifier
    simp [haround, Except.toOption] at hmodifier

/-- A key named `self`, and a click whose key is a number. -/
theorem run_fails :
    ¬ toolbox.Answers "computer" (.ofPairs [("action", .string "screenshot"), ("self", .null)]) ∧
      ¬ toolbox.Answers "computer" (.ofPairs [("action", .string "left_click"),
        ("coordinate", .array [.int 10, .int 10]), ("key", .int 5)]) := by
  constructor
  · exact clash_raises ⟨rfl, by decide⟩
  · have hread : desktop.read (.ofPairs [("action", .string "left_click"),
        ("coordinate", .array [.int 10, .int 10]), ("key", .int 5)]) =
          .ok (.click (some ⟨.int 10, .int 10, by decide⟩) (.invalid "text 必须是非空字符串") .left_click) := rfl
    have hcomputer : toolbox.tools.get? "computer" = some (.computer desktop) := rfl
    rw [computer_answers hcomputer (toolbox_answers _ _ hcomputer) (by decide)]
    exact not_not.mpr ⟨_, _, _, hread, rfl, rfl⟩

end RemoteToolCollection

end remote_tools

end session_manager

import SessionManager.Agents.Commands
import SessionManager.Agents.Runner

open effect

namespace session_manager

namespace remote_tools

open anthropic

/-- The text is somewhere in the content. -/
def Shows (content : List Content) (text : String) : Prop :=
  ∃ t, .text t ∈ content ∧ text.toList <:+: t.toList

/-- The content of a block of the user. -/
def contents : UserBlock → List Content
  | .content content => [content]
  | .tool_result _ content _ => content

/-- How the text of a fallback result begins. -/
def fallback_header (name status : String) : String := s!"Actual sandbox result for {name} ({status}):\n"

/-- What both ways to send a result back have to do with the answer to a command: show
its streams, and call it an error exactly when its exit code is not zero. -/
structure Delivers (result : CommandResult) (tool_use_id : String) (tool_result : ToolResult) : Prop where
  native_streams : ∀ stream ∈ [result.stdout, result.stderr], _decode stream ≠ "" →
    Shows (contents (_tool_result_block tool_result tool_use_id)) (_decode stream)
  native_error : ∃ content, _tool_result_block tool_result tool_use_id =
    .tool_result tool_use_id content (decide (result.exit_code ≠ 0))
  fallback_streams : ∀ stream ∈ [result.stdout, result.stderr], _decode stream ≠ "" →
    Shows ((_fallback_result_content "bash" tool_result).flatMap contents) (_decode stream)
  fallback_error : ∃ t blocks, _fallback_result_content "bash" tool_result = .content (.text t) :: blocks ∧
    ((fallback_header "bash" "error").toList <+: t.toList ↔ result.exit_code ≠ 0)

/-- The text of a failure. -/
def failure_text (result : CommandResult) : String :=
  if _decode result.stderr = "" then s!"bash 退出码：{result.exit_code}" else _decode result.stderr

/-- Nothing on stderr on success; on failure nothing on stdout but what the text of the
failure says anyway. -/
def Delivered (result : CommandResult) : Prop :=
  if result.exit_code = 0 then _decode result.stderr = ""
  else (_decode result.stdout).toList <:+: (failure_text result).toList

variable {result : CommandResult} {tool_use_id : String}

private theorem bash_result_succeeded (hexit : result.exit_code = 0) :
    bash_result result =
      { output := or_none (_decode result.stdout), error := or_none (_decode result.stderr) } := by
  simp [bash_result, hexit]

private theorem bash_result_failed (hexit : result.exit_code ≠ 0) :
    bash_result result =
      { output := or_none (_decode result.stdout), error := some (failure_text result) } := by
  unfold bash_result failure_text
  by_cases hstderr : _decode result.stderr = ""
  · have hne : s!"bash 退出码：{result.exit_code}" ≠ "" := append_ne_empty (by decide)
    simp only [hexit, hstderr, ne_eq, not_false_eq_true, and_self, if_true]
    rw [or_none_of_ne_empty hne]
  · simp [hstderr, or_none_of_ne_empty hstderr]

private theorem failure_text_ne_empty : failure_text result ≠ "" := by
  unfold failure_text
  split
  · exact append_ne_empty (by decide)
  · assumption

/-- Where there is an error, the output is left out. -/
private theorem native_of_error {output : Option String} {error : String} (herror : error ≠ "") :
    _tool_result_block { output, error := some error } tool_use_id =
      .tool_result tool_use_id [.text error] true := by
  simp [_tool_result_block, _tool_result_text, image_content, herror]

private theorem fallback_eq (name : String) (tool_result : ToolResult) :
    _fallback_result_content name tool_result =
      .content (.text (fallback_header name (if truthy tool_result.error then "error" else "success") ++
        if truthy tool_result.error then tool_result.error.getD ""
        else if truthy tool_result.output then tool_result.output.getD "" else "(no textual output)")) ::
      (image_content tool_result).map .content := rfl

private theorem fallback_of_error {name error : String} {output : Option String} (herror : error ≠ "") :
    _fallback_result_content name { output, error := some error } =
      [.content (.text (fallback_header name "error" ++ error))] := by
  rw [fallback_eq]
  simp [herror, image_content]

private theorem native_of_output {output : String} :
    _tool_result_block { output := or_none output } tool_use_id =
      .tool_result tool_use_id (if output = "" then [] else [.text output]) false := by
  simp [_tool_result_block, _tool_result_text, image_content]

private theorem fallback_of_output {name output : String} :
    _fallback_result_content name { output := or_none output } =
      [.content (.text (fallback_header name "success" ++
        if output = "" then "(no textual output)" else output))] := by
  rw [fallback_eq]
  by_cases houtput : output = "" <;> simp [houtput, image_content]

private theorem not_error_header (text : String) :
    ¬ (fallback_header "bash" "error").toList <+: (fallback_header "bash" "success" ++ text).toList := by
  have herror : (fallback_header "bash" "error").toList =
      "Actual sandbox result for bash (".toList ++ "error):\n".toList := by decide
  have hsuccess : (fallback_header "bash" "success").toList =
      "Actual sandbox result for bash (".toList ++ "success):\n".toList := by decide
  rw [String.toList_append, herror, hsuccess, List.append_assoc, List.prefix_append_right_inj]
  simp

private theorem shows_singleton {t text : String} : Shows [.text t] text ↔ text.toList <:+: t.toList := by
  simp [Shows]

/-- A failed command is delivered when its output is part of the text of its error,
which is all that is sent. -/
theorem delivers_of_failure (hexit : result.exit_code ≠ 0) :
    Delivers result tool_use_id (bash_result result) ↔
      (_decode result.stdout).toList <:+: (failure_text result).toList := by
  rw [bash_result_failed hexit]
  have herror := @failure_text_ne_empty result
  have hnative := @native_of_error tool_use_id (or_none (_decode result.stdout)) _ herror
  have hfallback := @fallback_of_error "bash" _ (or_none (_decode result.stdout)) herror
  constructor
  · intro h
    by_cases hstdout : _decode result.stdout = ""
    · simp [hstdout]
    · have hshows := h.native_streams result.stdout (by simp) hstdout
      rwa [hnative, contents, shows_singleton] at hshows
  · intro hstdout
    have hstreams : ∀ stream ∈ [result.stdout, result.stderr], _decode stream ≠ "" →
        (_decode stream).toList <:+: (failure_text result).toList := by
      intro stream hstream hne
      simp only [List.mem_cons, List.not_mem_nil, or_false] at hstream
      rcases hstream with rfl | rfl
      · exact hstdout
      · rw [failure_text, if_neg hne]
    refine ⟨fun stream hstream hne => ?_, ?_, fun stream hstream hne => ?_, ?_⟩
    · rw [hnative, contents, shows_singleton]
      exact hstreams stream hstream hne
    · exact ⟨_, by rw [hnative, decide_eq_true hexit]⟩
    · rw [hfallback]
      have hinfix := (hstreams stream hstream hne).trans
        (List.suffix_append (fallback_header "bash" "error").toList _).isInfix
      simpa [contents, Shows] using hinfix
    · refine ⟨_, _, hfallback, iff_of_true ?_ hexit⟩
      simp

/-- A command that has succeeded is delivered when it has written nothing to stderr,
which would be sent as an error. -/
theorem delivers_of_success (hexit : result.exit_code = 0) :
    Delivers result tool_use_id (bash_result result) ↔ _decode result.stderr = "" := by
  rw [bash_result_succeeded hexit]
  constructor
  · intro h
    by_contra hstderr
    obtain ⟨content, hcontent⟩ := h.native_error
    rw [or_none_of_ne_empty hstderr, native_of_error hstderr] at hcontent
    simp [hexit] at hcontent
  · intro hstderr
    rw [hstderr]
    have hstreams : ∀ stream ∈ [result.stdout, result.stderr], _decode stream ≠ "" →
        stream = result.stdout := by
      intro stream hstream hne
      simp only [List.mem_cons, List.not_mem_nil, or_false] at hstream
      rcases hstream with rfl | rfl
      · rfl
      · exact absurd hstderr hne
    have hnative := @native_of_output tool_use_id (_decode result.stdout)
    have hfallback := @fallback_of_output "bash" (_decode result.stdout)
    refine ⟨fun stream hstream hne => ?_, ?_, fun stream hstream hne => ?_, ?_⟩
    · obtain rfl := hstreams stream hstream hne
      rw [if_neg hne] at hnative
      rw [show or_none "" = none from rfl, hnative, contents, shows_singleton]
    · have hcode : decide (result.exit_code ≠ 0) = false := by simp [hexit]
      rw [hcode]
      exact ⟨_, hnative⟩
    · obtain rfl := hstreams stream hstream hne
      rw [if_neg hne] at hfallback
      have hinfix := (List.suffix_append (fallback_header "bash" "success").toList
        (_decode result.stdout).toList).isInfix
      rw [show or_none "" = none from rfl, hfallback]
      simpa [contents, Shows] using hinfix
    · refine ⟨_, _, hfallback, iff_of_false ?_ (not_not.mpr hexit)⟩
      exact not_error_header _

/-- Both contents the runner sends back for a command show its streams and call it an
error as its exit code says exactly when no stream gets in the way of the other. -/
theorem bash_delivers (tool : RemoteBashTool) {tool_input : ToolInput} {command : String}
    (hrestart : (tool_input.get "restart").truthy = false)
    (hcommand : _text (tool_input.get "command") = .ok command)
    (hanswer : tool.executor.answer [] (wrapped command) = .ok result) (tool_use_id : String) :
    Ensures (tool.call tool_input) [] (fun tool_result _ => Delivers result tool_use_id tool_result)
        (fun _ _ => False) ↔ Delivered result := by
  apply Ensures.iff_of_ends
  unfold RemoteBashTool.call
  rw [hrestart, hcommand]
  dsimp only [Bool.false_eq_true, if_false]
  rw [map_eq_pure_bind]
  apply Ensures.bind
  apply SandboxExecutor.execute_ensures
  · intro result' hresult'
    cases hanswer.symm.trans hresult'
    refine .ret ?_
    unfold Delivered
    split
    · exact delivers_of_success ‹_›
    · exact delivers_of_failure ‹_›
  · intro hraised
    have hstatus := status_of_ok hanswer
    rw [hraised] at hstatus
    split at hstatus <;> cases hstatus

/-- The command `echo ok`. -/
theorem bash_delivers_echo :
    let result : CommandResult := { stdout := [0x6f, 0x6b, 0x0a] }
    let tool : RemoteBashTool := ⟨⟨fun _ _ => .ok result⟩⟩
    Ensures (tool.call (.ofPairs [("command", .string "echo ok")])) []
      (fun tool_result _ => Delivers result "tool-1" tool_result) (fun _ _ => False) := by
  intro result tool
  exact (bash_delivers tool rfl rfl rfl "tool-1").mpr rfl

/-- `ok` on stdout and `!` on stderr: with exit code 0 the call is an error, and with
exit code 1 the output is gone. -/
theorem bash_output_lost :
    ¬ Delivers { exit_code := 0, stdout := [0x6f, 0x6b], stderr := [0x21] } "tool-1"
        (bash_result { exit_code := 0, stdout := [0x6f, 0x6b], stderr := [0x21] }) ∧
      ¬ Delivers { exit_code := 1, stdout := [0x6f, 0x6b], stderr := [0x21] } "tool-1"
        (bash_result { exit_code := 1, stdout := [0x6f, 0x6b], stderr := [0x21] }) := by
  constructor
  · rw [delivers_of_success rfl]
    decide +kernel
  · rw [delivers_of_failure (by decide)]
    decide +kernel

end remote_tools

end session_manager

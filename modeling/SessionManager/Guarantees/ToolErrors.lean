import SessionManager.Agents.Commands

open effect

namespace session_manager

namespace remote_tools

/-- A result with an error, if one of the commands has failed. -/
def Reports (result : ToolResult) (sent : List Sent) : Prop :=
  (∃ s ∈ sent, s.Failed) → truthy result.error = true

/-- No command has failed. -/
def Clean (sent : List Sent) : Prop := ∀ s ∈ sent, ¬ s.Failed

/-- Commands of this request fail, and yet it ends like one that succeeded: the
screenshot after a gesture, the keydown or the keyup around a scroll, the keyup after a
held key. -/
def RemoteComputerTool.Overlooks (tool : RemoteComputerTool) : Request tool.width tool.height → Prop
  | .gesture asked =>
    let command := "xdotool" :: asked.args
    tool.executor.status [] command = .succeeded ∧
      tool.captures none (tool.executor.sends [] command) = .failed
  | .scroll target (.key key) amount button => ∃ sent, tool.arrives target = some sent ∧
    let pressed := tool.executor.sends sent (keydown key)
    let clicked := tool.executor.sends pressed (scroll_click amount button)
    tool.executor.status pressed (scroll_click amount button) = .succeeded ∧
      (tool.executor.status sent (keydown key) = .failed ∨ tool.executor.status clicked (keyup key) = .failed) ∧
      tool.captures none (tool.executor.sends clicked (keyup key)) = .taken
  | .hold_key key =>
    let pressed := tool.executor.sends [] (keydown key)
    tool.executor.status [] (keydown key) = .succeeded ∧ tool.executor.status pressed (keyup key) = .failed ∧
      tool.captures none (tool.executor.sends pressed (keyup key)) = .taken
  | _ => False

/-- A ValueError, which the call turns into an error. -/
def Rejected (exc : ToolException) : Prop := ∃ message, exc = .ValueError message

variable {tool : RemoteComputerTool} {sent : List Sent} {command : List String} {result : ToolResult}

private theorem reports_of_error (h : truthy result.error = true) : Reports result sent := fun _ => h

private theorem reports_of_clean (h : Clean sent) : Reports result sent := fun ⟨s, hs, hfailed⟩ => absurd hfailed (h s hs)

private theorem Clean.sends {executor : SandboxExecutor} (h : Clean sent)
    (hstatus : executor.status sent command = .succeeded) : Clean (executor.sends sent command) := by
  intro s hs
  rcases List.mem_append.mp hs with hs | hs
  · exact h s hs
  · obtain rfl := List.mem_singleton.mp hs
    exact not_failed_of_succeeded hstatus

private theorem clean_sends_iff {executor : SandboxExecutor} (hcommand : command.head? ≠ some "rm") :
    Clean (executor.sends sent command) ↔ Clean sent ∧ executor.status sent command ≠ .failed := by
  unfold Clean SandboxExecutor.sends
  rw [List.forall_mem_append, List.forall_mem_singleton]
  apply and_congr_right
  intro _
  simp [Sent.Failed, hcommand]

private theorem clean_of_arrives {target : Option (Point tool.width tool.height)} (h : tool.arrives target = some sent) :
    Clean sent := by
  rintro s hs ⟨hfailed, -⟩
  cases hfailed.symm.trans (arrives_sent h s hs).1

section Answering

variable (hanswers : tool.executor.Answers)
include hanswers

/-- A capture at the end reports its own failures, and nothing from before; so it is
right if all before it was clean. -/
theorem capture_reports (area : Option (PyInt × PyInt × PyInt × PyInt)) (sent : List Sent) :
    Ensures (tool._capture area) sent
      (fun result sent' => Reports result sent' ↔ (tool.captures area sent = .taken → Clean sent))
      (fun exc _ => Rejected exc ∧ tool.captures area sent = .garbled) := by
  apply capture_ensures hanswers
  · intro hcaptures result more herror _
    exact iff_of_true (reports_of_error herror) (by simp [hcaptures])
  · intro hcaptures result more herror hmore
    simp only [hcaptures, true_implies]
    constructor
    · intro hreports s hs hfailed
      have htrue := hreports ⟨s, List.mem_append_left _ hs, hfailed⟩
      rw [herror] at htrue
      cases htrue
    · intro hclean
      apply reports_of_clean
      intro s hs
      rcases List.mem_append.mp hs with hs | hs
      · exact hclean s hs
      · exact hmore s hs
  · exact fun hcaptures message more _ => ⟨⟨message, rfl⟩, hcaptures⟩

private theorem clean_capture_reports (area : Option (PyInt × PyInt × PyInt × PyInt)) (h : Clean sent) :
    Ensures (tool._capture area) sent Reports (fun exc _ => Rejected exc) :=
  (capture_reports hanswers area sent).mono (fun _ _ hreports => hreports.mpr fun _ => h) fun _ _ h => h.1

/-- The rule for a command with respect to what is reported: the result tells a failure
from a success. -/
theorem execute_reports {Q : ToolResult → List Sent → Prop} {E : ToolException → List Sent → Prop}
    (hsucceeded : tool.executor.status sent command = .succeeded → ∀ result, truthy result.error = false →
      Q result (tool.executor.sends sent command))
    (hfailed : tool.executor.status sent command = .failed → ∀ result, truthy result.error = true →
      Q result (tool.executor.sends sent command)) :
    Ensures (tool._execute command false) sent Q E :=
  execute_ensures hsucceeded hfailed fun hraised => absurd hraised (hanswers _ _)

/-- `type` stops at the first piece that fails, and ends with its error. -/
theorem type_reports (pieces : List String) (h : Clean sent) :
    Ensures (tool._type pieces) sent Reports (fun exc _ => Rejected exc) := by
  induction pieces generalizing sent with
  | nil => exact clean_capture_reports hanswers none h
  | cons piece pieces ih =>
    apply Ensures.bind
    apply execute_reports hanswers
    · intro hstatus result hresult
      rw [hresult]
      exact ih (h.sends hstatus)
    · intro _ result hresult
      rw [hresult]
      exact .ret (reports_of_error hresult)

/-- A gesture reports the failure of its command and not that of the screenshot behind
it. -/
theorem gesture_reports (gesture : Gesture tool.width tool.height) :
    Ensures (tool._xdotool gesture.args) []
      (fun result sent => Reports result sent ↔ ¬ tool.Overlooks (.gesture gesture))
      (fun exc _ => Rejected exc ∧ ¬ tool.Overlooks (.gesture gesture)) := by
  generalize hcommand : "xdotool" :: gesture.args = command
  have hoverlooks : tool.Overlooks (.gesture gesture) ↔ tool.executor.status [] command = .succeeded ∧
      tool.captures none (tool.executor.sends [] command) = .failed := by
    rw [← hcommand]
    rfl
  rw [hoverlooks]
  unfold RemoteComputerTool._xdotool
  rw [hcommand]
  apply Ensures.bind
  apply SandboxExecutor.execute_ensures _ fun hraised => absurd hraised (hanswers _ _)
  intro answer hanswer
  have hstatus := status_of_ok hanswer
  dsimp only
  split
  · rename_i hexit
    rw [if_neg hexit] at hstatus
    refine .ret (iff_of_true (reports_of_error ?_) (by simp [hstatus]))
    exact truthy_or_default _ (append_ne_empty (by decide))
  · rename_i hexit
    rw [if_pos (not_not.mp hexit)] at hstatus
    simp only [hstatus, true_and, if_true]
    apply Ensures.bind
    apply capture_ensures hanswers
    · intro hcaptures _ more _ hmore
      obtain ⟨s, hs, hfailed⟩ := hmore
      refine .ret (iff_of_false (fun hreports => ?_) (by simp [hcaptures]))
      cases hreports ⟨s, List.mem_append_right _ hs, hfailed⟩
    · intro hcaptures _ more _ hmore
      refine .ret (iff_of_true (reports_of_clean fun s hs => ?_) (by simp [hcaptures]))
      have hclean : Clean [] := by simp [Clean]
      rcases List.mem_append.mp hs with hs | hs
      · exact hclean.sends hstatus s hs
      · exact hmore s hs
    · exact fun hcaptures message _ _ => ⟨⟨message, rfl⟩, by simp [hcaptures]⟩

/-- It is enough to look at what is done at the target, where the pointer has moved. -/
theorem moved_reports {target : Option (Point tool.width tool.height)} {rest : Tool ToolResult} {p : Prop}
    (hnone : tool.arrives target = none → p)
    (hrest : ∀ sent, tool.arrives target = some sent → Clean sent →
      Ensures rest sent (fun result sent' => Reports result sent' ↔ p) (fun exc _ => Rejected exc ∧ p)) :
    Ensures (tool.moved target rest) [] (fun result sent => Reports result sent ↔ p)
      (fun exc _ => Rejected exc ∧ p) := by
  apply moved_ensures
  · exact fun sent harrives => hrest sent harrives (clean_of_arrives harrives)
  · exact fun harrives result sent hresult _ _ => iff_of_true (reports_of_error hresult) (hnone harrives)
  · rintro - exc sent - ⟨command, hraised⟩
    exact absurd hraised (hanswers _ _)

omit hanswers in
private theorem reports_iff {p : Prop} {x : Tool ToolResult} (hp : p)
    (h : Ensures x sent Reports (fun exc _ => Rejected exc)) :
    Ensures x sent (fun result sent' => Reports result sent' ↔ p) (fun exc _ => Rejected exc ∧ p) :=
  h.mono (fun _ _ hreports => iff_of_true hreports hp) fun _ _ hrejected => ⟨hrejected, hp⟩

/-- How a click or a scroll without a key ends: each of the two commands is looked at,
and the first failure is the result. -/
theorem click_reports (h : Clean sent) (command : List String) :
    Ensures (do
        let result ← tool._execute command false
        if truthy result.error then return result else tool.screenshot) sent
      Reports (fun exc _ => Rejected exc) := by
  apply Ensures.bind
  apply execute_reports hanswers
  · intro hstatus result hresult
    rw [hresult]
    exact clean_capture_reports hanswers none (h.sends hstatus)
  · intro _ result hresult
    rw [hresult]
    exact .ret (reports_of_error hresult)

/-- A click at a held key looks at the result of each of its commands, the keyup
included. -/
theorem key_click_reports (h : Clean sent) (key : String) (command : List String) :
    Ensures (do
        let pressed ← tool._execute (keydown key) false
        if truthy pressed.error then return pressed
        else
          let result ← tool._execute command false
          let released ← tool._execute (keyup key) false
          let result := if truthy released.error && !truthy result.error then released else result
          if truthy result.error then return result else tool.screenshot) sent
      Reports (fun exc _ => Rejected exc) := by
  apply Ensures.bind
  apply execute_reports hanswers
  · intro hpressed pressed hnone
    rw [hnone]
    apply Ensures.bind
    apply execute_reports hanswers
    · intro hclicked result hresult
      apply Ensures.bind
      apply execute_reports hanswers
      · intro hreleased released hreleased'
        simp only [hresult, hreleased', Bool.false_and, if_false, Bool.false_eq_true]
        exact clean_capture_reports hanswers none (((h.sends hpressed).sends hclicked).sends hreleased)
      · intro hreleased released hreleased'
        simp only [hresult, hreleased', Bool.not_false, Bool.and_self, if_true]
        exact .ret (reports_of_error hreleased')
    · intro hclicked result hresult
      apply Ensures.bind
      apply execute_reports hanswers <;>
      · intro _ released _
        simp only [hresult, Bool.not_true, Bool.and_false, Bool.false_eq_true, if_false, if_true]
        exact .ret (reports_of_error hresult)
  · intro hpressed pressed hpressed'
    rw [hpressed']
    exact .ret (reports_of_error hpressed')

/-- A scroll looks at the result of its click only, neither at that of the keydown nor
at that of the keyup. -/
theorem key_scroll_reports (h : Clean sent) (key : String) (hcommand : command.head? ≠ some "rm") :
    let pressed := tool.executor.sends sent (keydown key)
    let clicked := tool.executor.sends pressed command
    let p := ¬ (tool.executor.status pressed command = .succeeded ∧
      (tool.executor.status sent (keydown key) = .failed ∨ tool.executor.status clicked (keyup key) = .failed) ∧
      tool.captures none (tool.executor.sends clicked (keyup key)) = .taken)
    Ensures (do
        let _ ← tool._execute (keydown key) false
        let result ← tool._execute command false
        let _ ← tool._execute (keyup key) false
        if truthy result.error then return result else tool.screenshot) sent
      (fun result sent' => Reports result sent' ↔ p) (fun exc _ => Rejected exc ∧ p) := by
  intro pressed clicked p
  have hclean : Clean (tool.executor.sends clicked (keyup key)) ↔
      ¬ (tool.executor.status sent (keydown key) = .failed ∨ tool.executor.status clicked (keyup key) = .failed) ∧
        tool.executor.status pressed command ≠ .failed := by
    rw [clean_sends_iff (by simp [keyup]), clean_sends_iff hcommand, clean_sends_iff (by simp [keydown])]
    simp only [h, true_and]
    tauto
  have hclicked : Ensures (do
        let result ← tool._execute command false
        let _ ← tool._execute (keyup key) false
        if truthy result.error then return result else tool.screenshot) pressed
      (fun result sent' => Reports result sent' ↔ p) (fun exc _ => Rejected exc ∧ p) := by
    apply Ensures.bind
    apply execute_reports hanswers
    · intro hstatus result hresult
      have hshown : Ensures (if truthy result.error then pure result else tool.screenshot)
          (tool.executor.sends clicked (keyup key))
          (fun result sent' => Reports result sent' ↔ p) (fun exc _ => Rejected exc ∧ p) := by
        rw [hresult]
        apply (capture_reports hanswers none _).mono
        · intro result sent' hreports
          rw [hreports, hclean]
          simp only [p, hstatus]
          tauto
        · rintro exc _ ⟨hrejected, hgarbled⟩
          exact ⟨hrejected, by simp [p, hgarbled]⟩
      apply Ensures.bind
      exact execute_reports hanswers (fun _ _ _ => hshown) fun _ _ _ => hshown
    · intro hstatus result hresult
      have hreturned : Ensures (if truthy result.error then pure result else tool.screenshot)
          (tool.executor.sends clicked (keyup key))
          (fun result sent' => Reports result sent' ↔ p) (fun exc _ => Rejected exc ∧ p) := by
        rw [hresult]
        exact .ret (iff_of_true (reports_of_error hresult) (by simp [p, hstatus]))
      apply Ensures.bind
      exact execute_reports hanswers (fun _ _ _ => hreturned) fun _ _ _ => hreturned
  apply Ensures.bind
  exact execute_reports hanswers (fun _ _ _ => hclicked) fun _ _ _ => hclicked

/-- `hold_key` looks at the result of the keydown, and not at that of the keyup, which
is the failure it overlooks. -/
theorem hold_key_reports (key : String) :
    Ensures (tool.perform (.hold_key key)) []
      (fun result sent' => Reports result sent' ↔ ¬ tool.Overlooks (.hold_key key))
      (fun exc _ => Rejected exc ∧ ¬ tool.Overlooks (.hold_key key)) := by
  apply Ensures.bind
  apply execute_reports hanswers
  · intro hpressed pressed hnone
    rw [hnone]
    have hshown : Ensures tool.screenshot
        (tool.executor.sends (tool.executor.sends [] (keydown key)) (keyup key))
        (fun result sent' => Reports result sent' ↔ ¬ tool.Overlooks (.hold_key key))
        (fun exc _ => Rejected exc ∧ ¬ tool.Overlooks (.hold_key key)) := by
      have hclean : Clean [] := by simp [Clean]
      apply (capture_reports hanswers none _).mono
      · intro result sent' hreports
        rw [hreports, clean_sends_iff (by simp [keyup]), RemoteComputerTool.Overlooks]
        simp only [hclean.sends hpressed, hpressed]
        tauto
      · rintro exc _ ⟨hrejected, hgarbled⟩
        exact ⟨hrejected, by simp [RemoteComputerTool.Overlooks, hgarbled]⟩
    apply Ensures.bind
    exact execute_reports hanswers (fun _ _ _ => hshown) fun _ _ _ => hshown
  · intro hpressed pressed hfailed
    rw [hfailed]
    exact .ret (iff_of_true (reports_of_error hfailed) (by simp [RemoteComputerTool.Overlooks, hpressed]))

/-- A request reports its failures unless it overlooks them, for every sandbox that
answers. -/
theorem perform_reports (request : Request tool.width tool.height) :
    Ensures (tool.perform request) [] (fun result sent => Reports result sent ↔ ¬ tool.Overlooks request)
      (fun exc _ => Rejected exc ∧ ¬ tool.Overlooks request) := by
  have hclean : Clean [] := by simp [Clean]
  cases request with
  | screenshot => exact reports_iff (fun h => h) (clean_capture_reports hanswers none hclean)
  | gesture gesture => exact gesture_reports hanswers gesture
  | type text => exact reports_iff (fun h => h) (type_reports hanswers _ hclean)
  | cursor_position =>
    refine reports_iff (fun h => h) (execute_reports hanswers ?_ ?_)
    · exact fun hstatus _ _ => reports_of_clean (hclean.sends hstatus)
    · exact fun _ _ => reports_of_error
  | click target modifier kind =>
    refine moved_reports hanswers (fun _ h => h) fun sent _ hsent => reports_iff (fun h => h) ?_
    cases modifier with
    | absent => exact click_reports hanswers hsent _
    | invalid message => exact .raise ⟨message, rfl⟩
    | key key => exact key_click_reports hanswers hsent key _
  | scroll target modifier amount button =>
    cases modifier with
    | absent =>
      refine moved_reports hanswers (fun _ h => h) fun sent _ hsent => reports_iff (fun h => h) ?_
      exact click_reports hanswers hsent _
    | invalid message =>
      refine moved_reports hanswers (fun _ h => h) fun sent _ hsent => reports_iff (fun h => h) ?_
      exact .raise ⟨message, rfl⟩
    | key key =>
      apply moved_reports hanswers
      · rintro hnone ⟨sent, hsent, -⟩
        cases hnone.symm.trans hsent
      · intro sent harrives hsent
        have hoverlooks : tool.Overlooks (.scroll target (.key key) amount button) ↔ _ :=
          ⟨fun ⟨sent', harrives', h⟩ => by
            obtain rfl : sent = sent' := Option.some.inj (harrives.symm.trans harrives')
            exact h, fun h => ⟨sent, harrives, h⟩⟩
        rw [hoverlooks]
        exact key_scroll_reports hanswers hsent key (by simp [scroll_click])
  | hold_key key => exact hold_key_reports hanswers key
  | zoom area => exact reports_iff (fun h => h) (clean_capture_reports hanswers _ hclean)

end Answering

namespace RemoteComputerTool

private theorem call_reports (hanswers : tool.executor.Answers) (tool_input : ToolInput) :
    Ensures (tool.call tool_input) []
      (fun result sent => Reports result sent ↔
        ∀ request, tool.read tool_input = .ok request → ¬ tool.Overlooks request)
      (fun _ _ => False ↔ ∀ request, tool.read tool_input = .ok request → ¬ tool.Overlooks request) := by
  rw [call_eq]
  cases hread : tool.read tool_input with
  | error result => exact .ret (iff_of_true (reports_of_clean (by simp [Clean])) (by simp))
  | ok request =>
    simp only [Except.ok.injEq, forall_eq']
    apply Ensures.handle
    apply (perform_reports hanswers request).mono fun _ _ h => h
    rintro exc sent ⟨⟨message, rfl⟩, hoverlooks⟩
    refine .ret (iff_of_true (reports_of_error ?_) hoverlooks)
    rw [invalid_input, truthy_some]
    exact decide_eq_true (append_ne_empty (by decide))

/-- A call one of whose commands fails ends with an error, unless it overlooks the
failure. -/
theorem failures_reported (hanswers : tool.executor.Answers) (tool_input : ToolInput) :
    Ensures (tool.call tool_input) [] Reports (fun _ _ => False) ↔
      ∀ request, tool.read tool_input = .ok request → ¬ tool.Overlooks request :=
  Ensures.iff_of_ends (call_reports hanswers tool_input)

/-- A sandbox where these commands fail. -/
def failing (commands : List (List String)) : RemoteComputerTool where
  executor := ⟨fun _ command => .ok { exit_code := if command ∈ commands then 1 else 0 }⟩
  uuid_hex := fun _ => "0"
  repr := fun _ => ""

private theorem failing_answers (commands : List (List String)) : (failing commands).executor.Answers := by
  intro sent command
  have hanswer : (failing commands).executor.answer sent command =
      .ok { exit_code := if command ∈ commands then 1 else 0 } := rfl
  rw [status_of_ok hanswer]
  split <;> decide

/-- A click with a key whose keyup fails. -/
theorem failures_reported_click :
    Ensures ((failing [keyup "ctrl"]).call (.ofPairs [("action", .string "left_click"), ("key", .string "ctrl")]))
      [] Reports (fun _ _ => False) := by
  refine (failures_reported (failing_answers _) _).mpr fun request hread => ?_
  have hrequest : (failing [keyup "ctrl"]).read
      (.ofPairs [("action", .string "left_click"), ("key", .string "ctrl")]) =
        .ok (.click none (.key "ctrl") .left_click) := rfl
  cases hread.symm.trans hrequest
  exact fun h => h

/-- The screenshot after a gesture fails; the keydown before a scroll fails. -/
theorem failures_unreported :
    ¬ Ensures ((failing [scrot none "/tmp/computer-use-0.png"]).call
        (.ofPairs [("action", .string "left_mouse_down")])) [] Reports (fun _ _ => False) ∧
      ¬ Ensures ((failing [keydown "ctrl"]).call (.ofPairs [("action", .string "scroll"),
        ("scroll_direction", .string "up"), ("scroll_amount", .int 1), ("text", .string "ctrl")]))
        [] Reports (fun _ _ => False) := by
  constructor
  · rw [Ensures.iff_of_ends (call_reports (failing_answers _) _)]
    intro hnever
    refine hnever (.gesture .left_mouse_down) rfl ⟨by decide, ?_⟩
    decide +kernel
  · rw [Ensures.iff_of_ends (call_reports (failing_answers _) _)]
    intro hnever
    refine hnever (.scroll none (.key "ctrl") ⟨.int 1, by decide⟩ "4") rfl ⟨[], rfl, ?_⟩
    decide +kernel

end RemoteComputerTool

end remote_tools

end session_manager

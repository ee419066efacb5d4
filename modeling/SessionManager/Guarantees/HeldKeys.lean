import SessionManager.Agents.Commands

open effect

namespace session_manager

namespace remote_tools

/-- Every keydown that exited with 0 has a keyup of its key after it. -/
def Released : List Sent → Prop
  | [] => True
  | s :: sent =>
    (∀ key, s.command = keydown key → s.status = .succeeded → ∃ s' ∈ sent, s'.command = keyup key) ∧
      Released sent

/-- The command is no keydown. -/
def Leaves (command : List String) : Prop := ∀ key, command ≠ keydown key

variable {sent sent' after : List Sent} {down : Sent} {key : String} {tool : RemoteComputerTool}

private theorem released_of_leaves (h : ∀ s ∈ sent, Leaves s.command) : Released sent := by
  induction sent with
  | nil => trivial
  | cons s sent ih =>
    refine ⟨fun key hkey => absurd hkey (h s List.mem_cons_self key), ih fun s hs => ?_⟩
    exact h s (List.mem_cons_of_mem _ hs)

private theorem released_append_iff (h : ∀ s ∈ sent, Leaves s.command) :
    Released (sent ++ sent') ↔ Released sent' := by
  induction sent with
  | nil => rfl
  | cons s sent ih =>
    have hrest := ih fun s hs => h s (List.mem_cons_of_mem _ hs)
    refine ⟨fun hreleased => hrest.mp hreleased.2, fun hreleased => ⟨fun key hkey => ?_, hrest.mpr hreleased⟩⟩
    exact absurd hkey (h s List.mem_cons_self key)

/-- With one keydown among the commands, it is all about what follows it: whether the
key is sent up again, if it has gone down. -/
theorem released_iff (hdown : down.command = keydown key) (hsent : ∀ s ∈ sent, Leaves s.command)
    (hafter : ∀ s ∈ after, Leaves s.command) :
    Released (sent ++ down :: after) ↔ (down.status = .succeeded → ∃ s ∈ after, s.command = keyup key) := by
  rw [released_append_iff hsent]
  constructor
  · exact fun hreleased => hreleased.1 key hdown
  · intro hkeyup
    refine ⟨fun key' hkey' => ?_, released_of_leaves hafter⟩
    obtain rfl : key = key' := by simpa [keydown] using hdown.symm.trans hkey'
    exact hkeyup

private theorem shot_leaves {area : Option (PyInt × PyInt × PyInt × PyInt)} {command : List String}
    (h : Shot area command) : Leaves command := by
  rintro key rfl
  obtain ⟨path, h | h | h⟩ := h <;> simp [keydown, scrot, base64, rm] at h

private theorem keyup_leaves : Leaves (keyup key) := fun key' h => by simp [keyup, keydown] at h

/-- What a click or a scroll does while it holds a key: where to, which key, which
command. -/
def Request.holds {width height : Int} :
    Request width height → Option (Option (Point width height) × String × List String)
  | click target (.key key) kind => some (target, key, "xdotool" :: kind.args)
  | scroll target (.key key) amount button => some (target, key, scroll_click amount button)
  | _ => none

/-- The sandbox raises at the click that follows a keydown that exited with 0. -/
def RemoteComputerTool.Sticks (tool : RemoteComputerTool) (request : Request tool.width tool.height) : Prop :=
  ∃ target key command sent, request.holds = some (target, key, command) ∧
    tool.arrives target = some sent ∧ tool.executor.status sent (keydown key) = .succeeded ∧
    tool.executor.status (tool.executor.sends sent (keydown key)) command = .raised

private theorem sticks_iff {request : Request tool.width tool.height}
    {target : Option (Point tool.width tool.height)} {command : List String}
    (hholds : request.holds = some (target, key, command)) (harrives : tool.arrives target = some sent) :
    tool.Sticks request ↔ tool.executor.status sent (keydown key) = .succeeded ∧
      tool.executor.status (tool.executor.sends sent (keydown key)) command = .raised := by
  constructor
  · rintro ⟨target', key', command', sent', hholds', harrives', hsticks⟩
    obtain ⟨rfl, rfl, rfl⟩ : target = target' ∧ key = key' ∧ command = command' := by
      simpa using hholds.symm.trans hholds'
    obtain rfl : sent = sent' := Option.some.inj (harrives.symm.trans harrives')
    exact hsticks
  · exact fun hsticks => ⟨target, key, command, sent, hholds, harrives, hsticks⟩

private theorem not_sticks {request : Request tool.width tool.height} (hholds : request.holds = none) :
    ¬ tool.Sticks request := by
  rintro ⟨target, key, command, sent, hholds', -⟩
  cases hholds.symm.trans hholds'

private theorem released_of_extends (h : Released sent) (hextends : Extends Leaves sent sent') : Released sent' := by
  obtain ⟨more, rfl, hmore⟩ := hextends
  induction sent with
  | nil => exact released_of_leaves hmore
  | cons s sent ih =>
    refine ⟨fun key hkey hstatus => ?_, ih h.2⟩
    obtain ⟨s', hs', hkeyup⟩ := h.1 key hkey hstatus
    exact ⟨s', List.mem_append_left _ hs', hkeyup⟩

/-- Once the keyup is sent, what follows leaves the key alone, whatever its answer is
and also when it raises. -/
theorem keyup_releases {between : List Sent} {f : ToolResult → Tool ToolResult}
    (hsent : ∀ s ∈ sent, Leaves s.command) (hbetween : ∀ s ∈ between, Leaves s.command)
    (hf : ∀ released, Sends Leaves (fun _ => True) (f released)) :
    Ensures (tool._execute (keyup key) false >>= f) (tool.executor.sends sent (keydown key) ++ between)
      (fun _ => Released) (fun _ => Released) := by
  generalize hsofar : tool.executor.sends sent (keydown key) ++ between = sofar
  have hreleased : Released (tool.executor.sends sofar (keyup key)) := by
    have hlist : tool.executor.sends sofar (keyup key) = sent ++ tool.executor.next sent (keydown key) ::
        (between ++ [tool.executor.next sofar (keyup key)]) := by
      rw [SandboxExecutor.sends, ← hsofar]
      simp [SandboxExecutor.sends]
    rw [hlist]
    refine (released_iff rfl hsent ?_).mpr fun _ => ?_
    · intro s hs
      rcases List.mem_append.mp hs with hs | hs
      · exact hbetween s hs
      · obtain rfl := List.mem_singleton.mp hs
        exact keyup_leaves
    · exact ⟨_, List.mem_append_right _ (List.mem_singleton_self _), rfl⟩
  apply Ensures.bind
  have hrest : ∀ released, Ensures (f released) (tool.executor.sends sofar (keyup key))
      (fun _ => Released) (fun _ => Released) :=
    fun released => (hf released _).mono (fun _ _ h => released_of_extends hreleased h)
      fun _ _ h => released_of_extends hreleased h.2
  exact execute_ensures (fun _ released _ => hrest released) (fun _ released _ => hrest released)
    fun _ _ => hreleased

/-- A keydown that did not exit with 0 has not pressed the key, so there is nothing to
release after it. -/
theorem released_of_status (hsent : ∀ s ∈ sent, Leaves s.command)
    (hstatus : tool.executor.status sent (keydown key) ≠ .succeeded) :
    Released (tool.executor.sends sent (keydown key)) :=
  (released_iff rfl hsent (by simp)).mpr fun hsucceeded => absurd hsucceeded hstatus

/-- The click and the release, after the keydown. Between the two only the click can
raise. -/
theorem click_releases {command : List String} {f : ToolResult → ToolResult → Tool ToolResult}
    (hsent : ∀ s ∈ sent, Leaves s.command) (hcommand : Leaves command) (hkeyup : command ≠ keyup key)
    (hf : ∀ result released, Sends Leaves (fun _ => True) (f result released)) :
    Ensures (do
        let result ← tool._execute command false
        let released ← tool._execute (keyup key) false
        f result released) (tool.executor.sends sent (keydown key))
      (fun _ sent' => Released sent' ↔ ¬ (tool.executor.status sent (keydown key) = .succeeded ∧
        tool.executor.status (tool.executor.sends sent (keydown key)) command = .raised))
      (fun _ sent' => Released sent' ↔ ¬ (tool.executor.status sent (keydown key) = .succeeded ∧
        tool.executor.status (tool.executor.sends sent (keydown key)) command = .raised)) := by
  have hclicked : tool.executor.status (tool.executor.sends sent (keydown key)) command ≠ .raised →
      ∀ sent', Released sent' → (Released sent' ↔ ¬ (tool.executor.status sent (keydown key) = .succeeded ∧
        tool.executor.status (tool.executor.sends sent (keydown key)) command = .raised)) :=
    fun hstatus sent' hreleased => iff_of_true hreleased fun hraised => hstatus hraised.2
  apply Ensures.bind
  apply execute_ensures
  · intro hstatus result _
    have hne := hclicked (by simp [hstatus])
    exact (keyup_releases hsent (by simpa using hcommand) (hf result)).mono (fun _ => hne) fun _ => hne
  · intro hstatus result _
    have hne := hclicked (by simp [hstatus])
    exact (keyup_releases hsent (by simpa using hcommand) (hf result)).mono (fun _ => hne) fun _ => hne
  · intro hstatus exc
    rw [SandboxExecutor.sends_two, released_iff rfl hsent (by simpa using hcommand)]
    have hno : ¬ ∃ s ∈ [tool.executor.next (tool.executor.sends sent (keydown key)) command],
        s.command = keyup key := by simpa using hkeyup
    simp only [hno, hstatus, and_true, SandboxExecutor.next_status]

private theorem click_leaves (kind : Click) : Leaves ("xdotool" :: kind.args) := by
  cases kind <;> simp [Leaves, Click.args, keydown]

private theorem click_ne_keyup (kind : Click) (key : String) : "xdotool" :: kind.args ≠ keyup key := by
  cases kind <;> simp [Click.args, keyup]

private theorem scroll_leaves (amount : Amount) (button : String) : Leaves (scroll_click amount button) := by
  simp [Leaves, scroll_click, keydown]

private theorem scroll_ne_keyup (amount : Amount) (button key : String) : scroll_click amount button ≠ keyup key := by
  simp [scroll_click, keyup]

private theorem around_leaves {width height : Int} {target : Option (Point width height)} {modifier : Modifier}
    (hmodifier : ∀ key, modifier ≠ .key key) {command : List String} (h : Around target modifier command) :
    Leaves command := by
  rintro key rfl
  rcases h with ⟨point, -, h⟩ | ⟨key', h, -⟩
  · simp [keydown, Point.mousemove] at h
  · exact hmodifier key' h

private theorem arrives_leaves {target : Option (Point tool.width tool.height)} (h : tool.arrives target = some sent) :
    ∀ s ∈ sent, Leaves s.command := by
  intro s hs
  obtain ⟨-, point, -, hcommand⟩ := arrives_sent h s hs
  rw [hcommand]
  simp [Leaves, Point.mousemove, keydown]

/-- It is enough to look at what is done at the target: on the way there no key is
pressed. -/
theorem releases_of_moved {request : Request tool.width tool.height} {command : List String}
    {target : Option (Point tool.width tool.height)} (hholds : request.holds = some (target, key, command))
    {rest : Tool ToolResult}
    (hrest : ∀ sent, (∀ s ∈ sent, Leaves s.command) → tool.arrives target = some sent →
      Ensures rest sent (fun _ sent' => Released sent' ↔ ¬ (tool.executor.status sent (keydown key) = .succeeded ∧
          tool.executor.status (tool.executor.sends sent (keydown key)) command = .raised))
        (fun _ sent' => Released sent' ↔ ¬ (tool.executor.status sent (keydown key) = .succeeded ∧
          tool.executor.status (tool.executor.sends sent (keydown key)) command = .raised))) :
    Ensures (tool.moved target rest) [] (fun _ sent => Released sent ↔ ¬ tool.Sticks request)
      (fun _ sent => Released sent ↔ ¬ tool.Sticks request) := by
  have hstopped : tool.arrives target = none → ∀ sent, Extends (Around target .absent) [] sent →
      (Released sent ↔ ¬ tool.Sticks request) := by
    rintro hnone sent ⟨more, rfl, hmore⟩
    refine iff_of_true (released_of_leaves fun s hs => ?_) ?_
    · exact around_leaves (by simp) (hmore s (by simpa using hs))
    · rintro ⟨target', key', command', sent, hholds', harrives, -⟩
      obtain rfl : target = target' := by
        have hsame := hholds.symm.trans hholds'
        simp only [Option.some.injEq, Prod.mk.injEq] at hsame
        exact hsame.1
      cases hnone.symm.trans harrives
  apply moved_ensures
  · intro sent harrives
    rw [sticks_iff hholds harrives]
    exact hrest sent (arrives_leaves harrives) harrives
  · exact fun hnone _ sent _ hsent _ => hstopped hnone sent hsent
  · exact fun hnone _ sent hsent _ => hstopped hnone sent hsent

/-- A request that holds no key presses none, so there is nothing to be released at any
of its ends. -/
theorem leaves_releases {request : Request tool.width tool.height} (hholds : request.holds = none)
    (hmay : ∀ command, request.May command → Leaves command) :
    Ensures (tool.perform request) [] (fun _ sent => Released sent ↔ ¬ tool.Sticks request)
      (fun _ sent => Released sent ↔ ¬ tool.Sticks request) := by
  have hreleased : ∀ sent, Extends request.May [] sent → (Released sent ↔ ¬ tool.Sticks request) := by
    rintro sent ⟨more, rfl, hmore⟩
    refine iff_of_true ?_ (not_sticks hholds)
    exact released_of_leaves fun s hs => hmay _ (hmore s (by simpa using hs))
  exact (perform_sends (.any _) request []).mono (fun _ => hreleased) fun _ sent h => hreleased sent h.2

/-- A click at a held key: the key stays pressed just when the click raises after the
keydown has succeeded. -/
theorem click_key_releases (target : Option (Point tool.width tool.height)) (key : String) (kind : Click) :
    Ensures (tool.perform (.click target (.key key) kind)) []
      (fun _ sent => Released sent ↔ ¬ tool.Sticks (.click target (.key key) kind))
      (fun _ sent => Released sent ↔ ¬ tool.Sticks (.click target (.key key) kind)) := by
  apply releases_of_moved rfl
  intro sent hsent _
  apply Ensures.bind
  apply execute_ensures
  · intro _ pressed hpressed
    rw [hpressed]
    exact click_releases hsent (click_leaves kind) (click_ne_keyup kind key)
      fun _ _ => .shown (.any _) fun _ => shot_leaves
  · -- without the keydown there is neither a click nor a release
    intro hstatus pressed hpressed
    rw [hpressed]
    refine .ret (iff_of_true (released_of_status hsent ?_) ?_)
    · simp [hstatus]
    · simp [hstatus]
  · intro hstatus exc
    refine iff_of_true (released_of_status hsent ?_) ?_
    · simp [hstatus]
    · simp [hstatus]

/-- A scroll at a held key, which goes on whether or not the keydown has succeeded. Only
a click that raises leaves the key down. -/
theorem scroll_key_releases (target : Option (Point tool.width tool.height)) (key : String) (amount : Amount)
    (button : String) : Ensures (tool.perform (.scroll target (.key key) amount button)) []
      (fun _ sent => Released sent ↔ ¬ tool.Sticks (.scroll target (.key key) amount button))
      (fun _ sent => Released sent ↔ ¬ tool.Sticks (.scroll target (.key key) amount button)) := by
  apply releases_of_moved rfl
  intro sent hsent _
  have hf : ∀ result released : ToolResult, Sends Leaves (fun _ => True)
      (if truthy result.error then pure result else tool.screenshot) :=
    fun _ _ => .shown (.any _) fun _ => shot_leaves
  have hclick := @click_releases sent key tool _ _ hsent (scroll_leaves amount button)
    (scroll_ne_keyup amount button key) hf
  apply Ensures.bind
  apply execute_ensures (fun _ _ _ => hclick) fun _ _ _ => hclick
  intro hstatus exc
  refine iff_of_true (released_of_status hsent ?_) ?_
  · simp [hstatus]
  · simp [hstatus]

/-- `hold_key` has nothing to raise between its keydown and its keyup, as it only sleeps
there. So the keyup is always sent. -/
theorem hold_key_releases (key : String) : Ensures (tool.perform (.hold_key key)) []
    (fun _ sent => Released sent ↔ ¬ tool.Sticks (.hold_key key))
    (fun _ sent => Released sent ↔ ¬ tool.Sticks (.hold_key key)) := by
  have hreleased : ∀ sent, Released sent → (Released sent ↔ ¬ tool.Sticks (.hold_key key)) :=
    fun sent h => iff_of_true h (not_sticks rfl)
  apply Ensures.bind
  apply execute_ensures
  · intro _ pressed hpressed
    rw [hpressed]
    have hf : ∀ released : ToolResult, Sends Leaves (fun _ => True) tool.screenshot :=
      fun _ => .screenshot (.any _) fun _ => shot_leaves
    have hnone : ∀ s ∈ ([] : List Sent), Leaves s.command := by simp
    have hkeyup := @keyup_releases [] key tool [] _ hnone hnone hf
    exact hkeyup.mono (fun _ => hreleased) fun _ => hreleased
  · intro hstatus pressed hpressed
    rw [hpressed]
    exact .ret (hreleased _ (released_of_status (by simp) (by simp [hstatus])))
  · intro hstatus exc
    exact hreleased _ (released_of_status (by simp) (by simp [hstatus]))

private theorem gesture_leaves (asked : Gesture tool.width tool.height) : Leaves ("xdotool" :: asked.args) := by
  cases asked <;> simp [Leaves, Gesture.args, Point.mousemove, keydown]

/-- A request leaves a key pressed just when it sticks, for every sandbox and wherever
the request ends. -/
theorem perform_releases (request : Request tool.width tool.height) :
    Ensures (tool.perform request) [] (fun _ sent => Released sent ↔ ¬ tool.Sticks request)
      (fun _ sent => Released sent ↔ ¬ tool.Sticks request) := by
  cases request with
  | screenshot | zoom => exact leaves_releases rfl fun _ => shot_leaves
  | gesture asked =>
    refine leaves_releases rfl fun command h => h.elim ?_ shot_leaves
    rintro rfl
    exact gesture_leaves asked
  | type text =>
    refine leaves_releases rfl fun command h => h.elim ?_ shot_leaves
    rintro ⟨piece, -, rfl⟩
    simp [Leaves, type_piece, keydown]
  | cursor_position =>
    refine leaves_releases rfl fun command h => ?_
    obtain rfl : command = _ := h
    simp [Leaves, keydown]
  | click target modifier kind =>
    cases modifier with
    | key key => exact click_key_releases target key kind
    | absent | invalid =>
      refine leaves_releases rfl fun command h => ?_
      rcases h with h | rfl | h
      · exact around_leaves (by simp) h
      · exact click_leaves kind
      · exact shot_leaves h
  | scroll target modifier amount button =>
    cases modifier with
    | key key => exact scroll_key_releases target key amount button
    | absent | invalid =>
      refine leaves_releases rfl fun command h => ?_
      rcases h with h | ⟨rfl, -⟩ | h
      · exact around_leaves (by simp) h
      · exact scroll_leaves amount button
      · exact shot_leaves h
  | hold_key key => exact hold_key_releases key

namespace RemoteComputerTool

/-- Every key a call has pressed is released, unless the sandbox raises at the click
of a click or a scroll right after the keydown. -/
theorem keys_released (tool : RemoteComputerTool) (tool_input : ToolInput) :
    Released (tool.journal tool_input) ↔
      ∀ request, tool.read tool_input = .ok request → ¬ tool.Sticks request := by
  apply journal_of_ensures (P := fun sent =>
    Released sent ↔ ∀ request, tool.read tool_input = .ok request → ¬ tool.Sticks request)
  rw [call_eq]
  cases hread : tool.read tool_input with
  | error result => exact .ret (iff_of_true trivial (by simp))
  | ok request =>
    simp only [Except.ok.injEq, forall_eq']
    apply Ensures.handle
    apply (perform_releases request).mono fun _ _ h => h
    intro exc sent h
    cases exc <;> exact h

/-- The sandbox is lost while a click holds the key ctrl. -/
theorem keys_stuck :
    let tool : RemoteComputerTool :=
      { executor := ⟨fun _ command =>
          if command = ["xdotool", "click", "1"] then .error (.other "会话 sandbox 不存在。") else .ok {}⟩
        uuid_hex := fun _ => "0"
        repr := fun _ => "" }
    let tool_input : ToolInput := .ofPairs [("action", .string "left_click"), ("key", .string "ctrl")]
    (tool.journal tool_input).map Sent.command = [keydown "ctrl", ["xdotool", "click", "1"]] ∧
      ¬ Released (tool.journal tool_input) := by
  intro tool tool_input
  have hjournal : tool.journal tool_input = [⟨keydown "ctrl", .ok {}⟩,
      ⟨["xdotool", "click", "1"], .error (.other "会话 sandbox 不存在。")⟩] := by decide +kernel
  rw [hjournal]
  refine ⟨rfl, fun hreleased => ?_⟩
  obtain ⟨s, hs, hkeyup⟩ := hreleased.1 "ctrl" rfl rfl
  obtain rfl := List.mem_singleton.mp hs
  exact absurd hkeyup (by decide)

end RemoteComputerTool

end remote_tools

end session_manager

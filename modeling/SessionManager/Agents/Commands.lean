import SessionManager.Agents.Requests

open effect

namespace session_manager

namespace remote_tools

inductive Status
  | raised | failed | succeeded
deriving DecidableEq, Repr

def Sent.status (sent : Sent) : Status :=
  match sent.answer with
  | .error _ => .raised
  | .ok result => if result.exit_code = 0 then .succeeded else .failed

namespace SandboxExecutor

variable (executor : SandboxExecutor)

/-- The command as it is sent after these. -/
def next (sent : List Sent) (command : List String) : Sent := ⟨command, executor.answer sent command⟩

/-- These commands and one more. -/
def sends (sent : List Sent) (command : List String) : List Sent := sent ++ [executor.next sent command]

def status (sent : List Sent) (command : List String) : Status := (executor.next sent command).status

/-- The second of two commands is sent after the first, and its answer may depend on it:
the sandbox sees all that was sent before. -/
theorem sends_two (sent : List Sent) (c c' : List String) :
    executor.sends (executor.sends sent c) c' =
      sent ++ executor.next sent c :: [executor.next (executor.sends sent c) c'] := by
  simp [sends]

private theorem sends_three (sent : List Sent) (c c' c'' : List String) :
    executor.sends (executor.sends (executor.sends sent c) c') c'' =
      sent ++ executor.next sent c :: [executor.next (executor.sends sent c) c',
        executor.next (executor.sends (executor.sends sent c) c') c''] := by
  simp [sends]

/-- The command that is answered is the one that was sent. -/
@[simp] theorem next_command (sent : List Sent) (c : List String) : (executor.next sent c).command = c := rfl

/-- The exit status is the one the sandbox gives for this command after those already
sent. -/
@[simp] theorem next_status (sent : List Sent) (c : List String) :
    (executor.next sent c).status = executor.status sent c := rfl

/-- It answers every command without raising. -/
def Answers : Prop := ∀ sent command, executor.status sent command ≠ .raised

end SandboxExecutor

/-- A sandbox where every command succeeds. -/
def willing : SandboxExecutor := ⟨fun _ _ => .ok {}⟩

section Rules

variable {α β : Type} {tool : RemoteComputerTool} {command : List String} {sent : List Sent}

/-- The rule for one command of the executor: what holds after its answer, and what
holds when it raises. A command that raises counts as sent. -/
theorem SandboxExecutor.execute_ensures {executor : SandboxExecutor} {Q : CommandResult → List Sent → Prop}
    {E : ToolException → List Sent → Prop}
    (hok : ∀ result, executor.answer sent command = .ok result → Q result (executor.sends sent command))
    (herror : executor.status sent command = .raised → ∀ exc, E exc (executor.sends sent command)) :
    Ensures (executor.execute command) sent Q E := by
  unfold SandboxExecutor.status Sent.status SandboxExecutor.next at herror
  apply Ensures.get
  apply Ensures.bind
  apply Ensures.modify
  cases hanswer : executor.answer sent command with
  | ok result =>
    have hresult := hok result hanswer
    unfold SandboxExecutor.sends SandboxExecutor.next at hresult
    rw [hanswer] at hresult
    exact .ret hresult
  | error exc =>
    rw [hanswer] at herror
    have hexc := herror rfl exc
    unfold SandboxExecutor.sends SandboxExecutor.next at hexc
    rw [hanswer] at hexc
    exact .raise hexc

/-- An answer succeeds just when its exit code is 0, whatever it has printed. -/
theorem status_of_ok {executor : SandboxExecutor} {result : CommandResult}
    (h : executor.answer sent command = .ok result) :
    executor.status sent command = if result.exit_code = 0 then .succeeded else .failed := by
  simp only [SandboxExecutor.status, Sent.status, SandboxExecutor.next, h]

/-- The rule for `_execute`: a result has an error just when the command has failed, and
no result when it raises. -/
theorem execute_ensures {Q : ToolResult → List Sent → Prop} {E : ToolException → List Sent → Prop}
    (hsucceeded : tool.executor.status sent command = .succeeded → ∀ result, truthy result.error = false →
      Q result (tool.executor.sends sent command))
    (hfailed : tool.executor.status sent command = .failed → ∀ result, truthy result.error = true →
      Q result (tool.executor.sends sent command))
    (hraised : tool.executor.status sent command = .raised → ∀ exc, E exc (tool.executor.sends sent command)) :
    Ensures (tool._execute command false) sent Q E := by
  apply Ensures.bind
  apply SandboxExecutor.execute_ensures _ hraised
  intro result hanswer
  have hstatus := status_of_ok hanswer
  dsimp only
  split
  · rename_i hexit
    rw [if_neg hexit] at hstatus
    exact .ret (hfailed hstatus _ (truthy_or_default _ (append_ne_empty (by decide))))
  · rename_i hexit
    rw [if_pos (not_not.mp hexit)] at hstatus
    exact .ret (hsucceeded hstatus _ rfl)

/-- `sent'` has more commands than `sent`, all of them with `P`. -/
def Extends (P : List String → Prop) (sent sent' : List Sent) : Prop :=
  ∃ more, sent' = sent ++ more ∧ ∀ s ∈ more, P s.command

/-- A program sends commands with `P`, and what it raises has `E`. -/
def Sends (P : List String → Prop) (E : ToolException → Prop) (x : Tool α) : Prop :=
  ∀ sent, Ensures x sent (fun _ => Extends P sent) (fun exc sent' => E exc ∧ Extends P sent sent')

/-- `E` has whatever comes from the sandbox, and the ValueErrors of the tool. -/
structure Covers (executor : SandboxExecutor) (E : ToolException → Prop) : Prop where
  raised : ∀ sent command, executor.status sent command = .raised → ∀ exc, E exc
  ValueError : ∀ message, E (.ValueError message)

variable {P P' : List String → Prop} {E : ToolException → Prop} {x : Tool α} {f : α → Tool β}

private theorem Extends.refl : Extends P sent sent := ⟨[], by simp⟩

private theorem Extends.trans {sent' sent'' : List Sent} (h : Extends P sent sent') (h' : Extends P sent' sent'') :
    Extends P sent sent'' := by
  obtain ⟨more, rfl, hmore⟩ := h
  obtain ⟨more', rfl, hmore'⟩ := h'
  refine ⟨more ++ more', by simp, fun s hs => ?_⟩
  rcases List.mem_append.mp hs with hs | hs
  · exact hmore s hs
  · exact hmore' s hs

private theorem Extends.sends {executor : SandboxExecutor} (h : P command) :
    Extends P sent (executor.sends sent command) :=
  ⟨[executor.next sent command], rfl, by simpa using h⟩

/-- The condition without content covers every executor. With it the rules speak of the
commands alone. -/
theorem Covers.any (executor : SandboxExecutor) : Covers executor fun _ => True :=
  ⟨fun _ _ _ _ => trivial, fun _ => trivial⟩

/-- An executor that answers raises nothing but the ValueError of a command it cannot
take. -/
theorem Covers.answers {executor : SandboxExecutor} (h : executor.Answers) :
    Covers executor fun exc => ∃ message, exc = .ValueError message :=
  ⟨fun _ _ hraised => absurd hraised (h _ _), fun message => ⟨message, rfl⟩⟩

/-- To return sends nothing, so it meets every condition on the commands. -/
theorem Sends.ret (a : α) : Sends P E (pure a : Tool α) := fun _ => .ret .refl

private theorem Sends.raise {exc : ToolException} (h : E exc) : Sends P E (throw exc : Tool α) :=
  fun _ => .raise ⟨h, .refl⟩

/-- One part after the other sends what the two parts send. The second may depend on the
first's result, so its bound has to hold for every result. -/
theorem Sends.bind (hx : Sends P E x) (hf : ∀ a, Sends P E (f a)) : Sends P E (x >>= f) := by
  intro sent
  apply Ensures.bind
  apply (hx sent).mono _ fun _ _ h => h
  intro a sent' hextends
  exact (hf a sent').mono (fun _ _ h => hextends.trans h) fun _ _ h => ⟨h.1, hextends.trans h.2⟩

private theorem Sends.mono (hx : Sends P E x) (h : ∀ command, P command → P' command) : Sends P' E x := by
  intro sent
  have hextends : ∀ sent', Extends P sent sent' → Extends P' sent sent' := by
    rintro sent' ⟨more, rfl, hmore⟩
    exact ⟨more, rfl, fun s hs => h _ (hmore s hs)⟩
  exact (hx sent).mono (fun _ => hextends) fun _ _ h => ⟨h.1, hextends _ h.2⟩

private theorem Sends.execute {executor : SandboxExecutor} (hE : Covers executor E) (h : P command) :
    Sends P E (executor.execute command) :=
  fun _ => SandboxExecutor.execute_ensures (fun _ _ => .sends h)
    fun hraised exc => ⟨hE.raised _ _ hraised exc, .sends h⟩

/-- A command is all that `_execute` sends, when it takes no screenshot afterwards. -/
theorem Sends._execute (hE : Covers tool.executor E) (h : P command) :
    Sends P E (tool._execute command false) :=
  fun _ => execute_ensures (fun _ _ _ => .sends h) (fun _ _ _ => .sends h)
    fun hraised exc => ⟨hE.raised _ _ hraised exc, .sends h⟩

end Rules

section Captures

variable {tool : RemoteComputerTool} {sent : List Sent} {area : Option (PyInt × PyInt × PyInt × PyInt)}

def scrot (area : Option (PyInt × PyInt × PyInt × PyInt)) (path : String) : List String :=
  ["scrot", "-p"] ++ RemoteComputerTool.area_args area ++ [path]

def base64 (path : String) : List String := ["base64", "-w", "0", path]

def rm (path : String) : List String := ["rm", "-f", path]

/-- A command of `_capture`. -/
def Shot (area : Option (PyInt × PyInt × PyInt × PyInt)) (command : List String) : Prop :=
  ∃ path, command = scrot area path ∨ command = base64 path ∨ command = rm path

/-- A capture sends the commands of a shot of its area, and no others, however far it
gets. -/
theorem capture_sends {E : ToolException → Prop} (hE : Covers tool.executor E) :
    Sends (Shot area) E (tool._capture area) := by
  intro sent
  unfold RemoteComputerTool._capture
  apply Ensures.get
  generalize RemoteComputerTool.screenshot_path _ = path
  refine (Sends.bind (.execute hE ⟨path, .inl rfl⟩) fun created => ?_) sent
  split
  · exact .ret _
  · refine .bind (.execute hE ⟨path, .inr (.inl rfl)⟩) fun encoded => ?_
    refine .bind (.execute hE ⟨path, .inr (.inr rfl)⟩) fun _ => ?_
    split
    · exact .ret _
    · split
      · exact .ret _
      · exact .raise (hE.ValueError _)

/-- How a capture ends: with an error, with an image, or with the ValueError of an
image that cannot be decoded. -/
inductive Capture
  | failed | taken | garbled
deriving DecidableEq, Repr

def RemoteComputerTool.captures (tool : RemoteComputerTool)
    (area : Option (PyInt × PyInt × PyInt × PyInt)) (sent : List Sent) : Capture :=
  let path := screenshot_path (tool.uuid_hex sent)
  if tool.executor.status sent (scrot area path) ≠ .succeeded then .failed
  else
    match tool.executor.answer (tool.executor.sends sent (scrot area path)) (base64 path) with
    | .error _ => .failed
    | .ok encoded =>
      if encoded.exit_code ≠ 0 then .failed else if ascii.valid encoded.stdout then .taken else .garbled

/-- A command that failed, other than the one that removes the screenshot. -/
def Sent.Failed (s : Sent) : Prop := s.status = .failed ∧ s.command.head? ≠ some "rm"

variable {executor : SandboxExecutor} {path : String}

/-- A command that has succeeded has not failed: its status is one or the other. -/
theorem not_failed_of_succeeded {command : List String} (h : executor.status sent command = .succeeded) :
    ¬ (executor.next sent command).Failed := by
  rintro ⟨hfailed, -⟩
  exact absurd (h.symm.trans hfailed) (by decide)

private theorem rm_not_failed : ¬ (executor.next sent (rm path)).Failed := fun hfailed => hfailed.2 rfl

/-- The rule for a capture: it ends with an error and a command that has failed, with an
image and none that has, or raises where the image is no ASCII. -/
theorem capture_ensures (hanswers : tool.executor.Answers) {Q : ToolResult → List Sent → Prop}
    {E : ToolException → List Sent → Prop}
    (hfailed : tool.captures area sent = .failed → ∀ result more, truthy result.error = true →
      (∃ s ∈ more, s.Failed) → Q result (sent ++ more))
    (htaken : tool.captures area sent = .taken → ∀ result more, truthy result.error = false →
      (∀ s ∈ more, ¬ s.Failed) → Q result (sent ++ more))
    (hgarbled : tool.captures area sent = .garbled → ∀ message more,
      (∀ s ∈ more, ¬ s.Failed) → E (.ValueError message) (sent ++ more)) :
    Ensures (tool._capture area) sent Q E := by
  unfold RemoteComputerTool._capture
  unfold RemoteComputerTool.captures at hfailed htaken hgarbled
  apply Ensures.get
  generalize RemoteComputerTool.screenshot_path _ = path at hfailed htaken hgarbled ⊢
  dsimp only at hfailed htaken hgarbled ⊢
  apply Ensures.bind
  apply SandboxExecutor.execute_ensures _ fun hraised => absurd hraised (hanswers _ _)
  intro created hcreated
  have hscrot := status_of_ok hcreated
  change tool.executor.status sent (scrot area path) = _ at hscrot
  split
  · rename_i hexit
    rw [if_neg hexit] at hscrot
    refine .ret (hfailed (by simp [hscrot]) _ [_] (truthy_or_default _ (by decide)) ?_)
    exact ⟨_, List.mem_singleton_self _, hscrot, by simp⟩
  · rename_i hexit
    rw [if_pos (not_not.mp hexit)] at hscrot
    simp only [hscrot, ne_eq, not_true_eq_false, if_false] at hfailed htaken hgarbled
    apply Ensures.bind
    apply SandboxExecutor.execute_ensures _ fun hraised => absurd hraised (hanswers _ _)
    intro encoded hencoded
    have hbase64 := status_of_ok hencoded
    change tool.executor.answer (tool.executor.sends sent (scrot area path)) (base64 path) = _ at hencoded
    change tool.executor.status (tool.executor.sends sent (scrot area path)) (base64 path) = _ at hbase64
    simp only [hencoded] at hfailed htaken hgarbled
    apply Ensures.bind
    apply SandboxExecutor.execute_ensures _ fun hraised => absurd hraised (hanswers _ _)
    intro _ _
    rw [SandboxExecutor.sends_three]
    have hnone : encoded.exit_code = 0 → ∀ s ∈ [tool.executor.next sent (scrot area path),
        tool.executor.next (tool.executor.sends sent (scrot area path)) (base64 path),
        tool.executor.next (tool.executor.sends (tool.executor.sends sent (scrot area path)) (base64 path))
          (rm path)], ¬ s.Failed := by
      intro hzero s hs
      rw [if_pos hzero] at hbase64
      simp only [List.mem_cons, List.not_mem_nil, or_false] at hs
      rcases hs with rfl | rfl | rfl
      · exact not_failed_of_succeeded hscrot
      · exact not_failed_of_succeeded hbase64
      · exact rm_not_failed
    split
    · rename_i hexit'
      rw [if_neg hexit'] at hbase64
      refine .ret (hfailed (by simp [hexit']) _ _ (truthy_or_default _ (by decide)) ?_)
      exact ⟨_, List.mem_cons_of_mem _ List.mem_cons_self, hbase64, by simp⟩
    · rename_i hexit'
      have hzero := not_not.mp hexit'
      have hdecode := ascii.decode_isOk encoded.stdout
      split
      · rename_i image himage
        have hvalid : ascii.valid encoded.stdout = true := by rw [← hdecode, himage]; rfl
        exact .ret (htaken (by simp [hzero, hvalid]) _ _ rfl (hnone hzero))
      · rename_i message hmessage
        have hvalid : ascii.valid encoded.stdout = false := by rw [← hdecode, hmessage]; rfl
        exact .raise (hgarbled (by simp [hzero, hvalid]) _ _ (hnone hzero))

end Captures

section Requests

variable {width height : Int} {tool : RemoteComputerTool}

/-- The commands with which a click or a scroll moves the pointer and holds a key. -/
def Around (target : Option (Point width height)) (modifier : Modifier) (command : List String) : Prop :=
  (∃ point, target = some point ∧ command = "xdotool" :: point.mousemove) ∨
    ∃ key, modifier = .key key ∧ (command = keydown key ∨ command = keyup key)

/-- The commands a request may send. -/
def Request.May : Request width height → List String → Prop
  | screenshot, command => Shot none command
  | gesture asked, command => command = "xdotool" :: asked.args ∨ Shot none command
  | type text, command => (∃ piece ∈ pieces text, command = type_piece piece) ∨ Shot none command
  | cursor_position, command => command = ["xdotool", "getmouselocation", "--shell"]
  | click target modifier kind, command =>
    Around target modifier command ∨ command = "xdotool" :: kind.args ∨ Shot none command
  | scroll target modifier amount button, command =>
    Around target modifier command ∨
      command = scroll_click amount button ∧ (∀ message, modifier ≠ .invalid message) ∨ Shot none command
  | hold_key key, command => command = keydown key ∨ command = keyup key ∨ Shot none command
  | zoom area, command => Shot (some area.geometry) command

/-- The commands sent when the pointer is at the target, if it gets there. -/
def RemoteComputerTool.arrives (tool : RemoteComputerTool) :
    Option (Point tool.width tool.height) → Option (List Sent)
  | none => some []
  | some point =>
    let command := "xdotool" :: point.mousemove
    if tool.executor.status [] command = .succeeded then some (tool.executor.sends [] command) else none

variable {P : List String → Prop} {result : ToolResult} {rest : Tool ToolResult} {sent : List Sent}

/-- The pointer arrives by one `mousemove` that has succeeded, or is where it is to be
and nothing is sent. -/
theorem arrives_sent {target : Option (Point tool.width tool.height)} (h : tool.arrives target = some sent) :
    ∀ s ∈ sent, s.status = .succeeded ∧ ∃ point, target = some point ∧
      s.command = "xdotool" :: point.mousemove := by
  cases target with
  | none =>
    cases h
    simp
  | some point =>
    unfold RemoteComputerTool.arrives at h
    dsimp only at h
    split at h
    · rename_i hstatus
      cases h
      intro s hs
      obtain rfl := List.mem_singleton.mp hs
      exact ⟨hstatus, point, rfl, rfl⟩
    · cases h

/-- The pointer gets to the target, or that is the end of the call: nothing of `rest` is
sent then. -/
theorem moved_ensures {target : Option (Point tool.width tool.height)} {Q : ToolResult → List Sent → Prop}
    {E : ToolException → List Sent → Prop}
    (hthere : ∀ sent, tool.arrives target = some sent → Ensures rest sent Q E)
    (hfailed : tool.arrives target = none → ∀ result sent, truthy result.error = true →
      Extends (Around target .absent) [] sent → (∃ s ∈ sent, s.status = .failed) → Q result sent)
    (hraised : tool.arrives target = none → ∀ exc sent, Extends (Around target .absent) [] sent →
      (∃ command, tool.executor.status [] command = .raised) → E exc sent) :
    Ensures (tool.moved target rest) [] Q E := by
  cases target with
  | none => exact hthere [] rfl
  | some point =>
    have hmoved : Extends (Around (some point) .absent) []
        (tool.executor.sends [] ("xdotool" :: point.mousemove)) := .sends (.inl ⟨point, rfl, rfl⟩)
    apply Ensures.bind
    apply execute_ensures
    · intro hstatus result hresult
      rw [hresult]
      exact hthere _ (if_pos hstatus)
    · intro hstatus result hresult
      rw [hresult]
      refine .ret (hfailed (by simp [RemoteComputerTool.arrives, hstatus]) _ _ hresult hmoved ?_)
      exact ⟨_, List.mem_singleton_self _, hstatus⟩
    · intro hstatus exc
      exact hraised (by simp [RemoteComputerTool.arrives, hstatus]) _ _ hmoved ⟨_, hstatus⟩

section Sending

variable {E : ToolException → Prop} (hE : Covers tool.executor E)
include hE

private theorem Sends.moved {target : Option (Point tool.width tool.height)}
    (htarget : ∀ point, target = some point → P ("xdotool" :: point.mousemove)) (hrest : Sends P E rest) :
    Sends P E (tool.moved target rest) := by
  cases target with
  | none => exact hrest
  | some point =>
    refine .bind (._execute hE (htarget point rfl)) fun moved => ?_
    split
    · exact .ret _
    · exact hrest

/-- A screenshot sends the commands of a shot of the whole screen, whatever condition
these meet. -/
theorem Sends.screenshot (hshot : ∀ command, Shot none command → P command) : Sends P E tool.screenshot :=
  (capture_sends hE).mono hshot

/-- How an action ends that is to show what it has done: with a screenshot, unless the
action had an error. -/
theorem Sends.shown (hshot : ∀ command, Shot none command → P command) :
    Sends P E (if truthy result.error then pure result else tool.screenshot) := by
  split
  · exact .ret _
  · exact .screenshot hE hshot

private theorem type_sends (hshot : ∀ command, Shot none command → P command) {pieces : List String}
    (hpieces : ∀ piece ∈ pieces, P (type_piece piece)) : Sends P E (tool._type pieces) := by
  induction pieces with
  | nil => exact .screenshot hE hshot
  | cons piece pieces ih =>
    refine .bind (._execute hE (hpieces piece List.mem_cons_self)) fun result => ?_
    split
    · exact .ret _
    · exact ih fun piece hpiece => hpieces piece (List.mem_cons_of_mem _ hpiece)

private theorem xdotool_sends {args : List String} (hargs : P ("xdotool" :: args))
    (hshot : ∀ command, Shot none command → P command) : Sends P E (tool._xdotool args) := by
  refine .bind (.execute hE hargs) fun result => ?_
  dsimp only
  split
  · exact .ret _
  · exact .bind (.screenshot hE hshot) fun _ => .ret _

/-- What a request may send, whatever the sandbox answers and wherever the request
breaks off. -/
theorem perform_sends (request : Request tool.width tool.height) :
    Sends request.May E (tool.perform request) := by
  cases request with
  | screenshot => exact Sends.screenshot hE fun _ h => h
  | gesture gesture => exact xdotool_sends hE (Or.inl rfl) fun _ h => Or.inr h
  | type text =>
    exact type_sends hE (fun _ h => Or.inr h) fun piece hpiece => Or.inl ⟨piece, hpiece, rfl⟩
  | cursor_position => exact Sends._execute (P := Request.cursor_position.May) hE rfl
  | click target modifier click =>
    refine .moved hE (fun point hpoint => Or.inl (.inl ⟨point, hpoint, rfl⟩)) ?_
    cases modifier with
    | absent => exact .bind (._execute hE (Or.inr (.inl rfl))) fun _ => .shown hE fun _ h => Or.inr (.inr h)
    | invalid message => exact .raise (hE.ValueError message)
    | key key =>
      refine .bind (._execute hE (Or.inl (.inr ⟨key, rfl, .inl rfl⟩))) fun pressed => ?_
      split
      · exact .ret _
      · refine .bind (._execute hE (Or.inr (.inl rfl))) fun result => ?_
        refine .bind (._execute hE (Or.inl (.inr ⟨key, rfl, .inr rfl⟩))) fun released => ?_
        exact .shown hE fun _ h => Or.inr (.inr h)
  | scroll target modifier amount button =>
    refine .moved hE (fun point hpoint => Or.inl (.inl ⟨point, hpoint, rfl⟩)) ?_
    cases modifier with
    | absent =>
      exact .bind (._execute hE (Or.inr (.inl ⟨rfl, by simp⟩))) fun _ => .shown hE fun _ h => Or.inr (.inr h)
    | invalid message => exact .raise (hE.ValueError message)
    | key key =>
      refine .bind (._execute hE (Or.inl (.inr ⟨key, rfl, .inl rfl⟩))) fun _ => ?_
      refine .bind (._execute hE (Or.inr (.inl ⟨rfl, by simp⟩))) fun result => ?_
      refine .bind (._execute hE (Or.inl (.inr ⟨key, rfl, .inr rfl⟩))) fun _ => ?_
      exact .shown hE fun _ h => Or.inr (.inr h)
  | hold_key key =>
    refine .bind (._execute hE (Or.inl rfl)) fun pressed => ?_
    split
    · exact .ret _
    · exact .bind (._execute hE (Or.inr (.inl rfl))) fun _ => .screenshot hE fun _ h => Or.inr (.inr h)
  | zoom area => exact (capture_sends hE).mono fun _ h => h

end Sending

end Requests

namespace RemoteComputerTool

variable {tool : RemoteComputerTool}

/-- The commands a call has sent when it is over. -/
def journal (tool : RemoteComputerTool) (tool_input : ToolInput) : List Sent :=
  match (tool.call tool_input).run [] with
  | .ok _ sent | .error _ sent => sent

/-- What every end of a call ensures of the commands is true of the journal, since the
journal is what such an end has sent. -/
theorem journal_of_ensures {P : List Sent → Prop} {tool_input : ToolInput}
    (h : Ensures (tool.call tool_input) [] (fun _ => P) (fun _ => P)) : P (tool.journal tool_input) := by
  unfold Ensures at h
  unfold journal
  cases hrun : (tool.call tool_input).run [] <;> rwa [hrun] at h

end RemoteComputerTool

end remote_tools

end session_manager

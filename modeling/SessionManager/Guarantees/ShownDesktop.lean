import SessionManager.Guarantees.Selection

/-! Whose desktop the frame of the page shows. -/

open transition

namespace session_manager.dashboard

/-- The load of a selection or the request for the address of a desktop. -/
def Task.desktop : Task → Bool
  | .selectSession .. | .loadVnc .. => true
  | _ => false

/-- What the page shows of desktops and what it still awaits of them. -/
structure Screen where
  frame : Option SessionId
  current : Option SessionId
  version : Nat
  pending : List Task

def State.screen (s : State) : Screen :=
  ⟨s.vncFrame, s.currentId, s.selectionVersion, s.tasks.filter Task.desktop⟩

/-- Every way in which a step changes the screen. -/
inductive Screen.Turned (x : Screen) (l : Label) : Screen → Prop
  | idle : Turned x l x
  | cleared (current : Option SessionId) : Turned x l { x with frame := none, current := current }
  | selects (sessionId : SessionId) : Turned x l { x with
      frame := none
      version := x.version + 1
      pending := x.pending ++ [.selectSession sessionId (x.version + 1)] }
  | asks (sessionId : SessionId) (hl : l = .action .reloadVnc) (hcurrent : x.current = some sessionId) :
      Turned x l { x with pending := x.pending ++ [.loadVnc sessionId x.version] }
  | drops (sessionId : SessionId) (version : Nat) :
      Turned x l { x with pending := x.pending.erase (.selectSession sessionId version) }
  | loads (sessionId currentId : SessionId) (hmem : .selectSession sessionId x.version ∈ x.pending) :
      Turned x l { x with
        current := some currentId
        pending := x.pending.erase (.selectSession sessionId x.version) ++ [.loadVnc currentId x.version] }
  | inactive (sessionId currentId : SessionId) (version : Nat) : Turned x l { x with
      frame := none
      current := some currentId
      pending := x.pending.erase (.selectSession sessionId version) }
  | shows (sessionId : SessionId) (hmem : .loadVnc sessionId x.version ∈ x.pending)
      (hcurrent : x.current = some sessionId) :
      Turned x l { x with
        frame := some sessionId
        pending := x.pending.erase (.loadVnc sessionId x.version) }
  | misses (sessionId : SessionId) (version : Nat)
      (hlate : version ≠ x.version ∨ x.current ≠ some sessionId) :
      Turned x l { x with pending := x.pending.erase (.loadVnc sessionId version) }
  | fails (sessionId : SessionId) (version : Nat) :
      Turned x l { x with frame := none, pending := x.pending.erase (.loadVnc sessionId version) }

namespace State

variable {s t : State} {l : Label} {task : Task} {answer : Answer}

private theorem screen_await (s : State) (task : Task) : (s.await task).screen =
    { s.screen with pending := s.screen.pending ++ [task].filter Task.desktop } := by
  simp [screen, await, currentId, List.filter_append]

private theorem screen_await_other (htask : task.desktop = false) : (s.await task).screen = s.screen := by
  rw [screen_await, List.filter_singleton, htask]
  simp

private theorem screen_answered (s : State) (task : Task) : { s with tasks := s.tasks.erase task }.screen =
    { s.screen with pending := s.screen.pending.erase task } := by
  simp [screen, currentId, List.erase_filter]

private theorem screen_answered_other (htask : task.desktop = false) :
    { s with tasks := s.tasks.erase task }.screen = s.screen := by
  have hnone : task ∉ s.screen.pending := fun hmem => by
    rw [List.of_mem_filter hmem] at htask
    cases htask
  rw [screen_answered, List.erase_of_not_mem hnone]

private theorem pending_answered_other (htask : task.desktop = false) :
    (s.tasks.erase task).filter Task.desktop = s.screen.pending :=
  congrArg Screen.pending (screen_answered_other htask)

private theorem screen_connectEventStream (s : State) (sessionId : SessionId) (version : Nat) :
    (s.connectEventStream sessionId version).screen = s.screen := rfl

private theorem screen_clearDesktop (s : State) : s.clearDesktop.screen = { s.screen with frame := none } := rfl

private theorem screen_addEvent (s : State) (event : SessionEvent) : (s.addEvent event).screen = s.screen := by
  unfold addEvent
  split <;> rfl

private theorem screen_addEvents (items : List SessionEvent) (s : State) :
    (items.foldl addEvent s).screen = s.screen := by
  induction items generalizing s with
  | nil => rfl
  | cons event items ih => rw [List.foldl_cons, ih, screen_addEvent]

private theorem screen_refreshCurrentData (s : State) (repeated : Bool) :
    (s.refreshCurrentData repeated).screen = s.screen := by
  unfold refreshCurrentData
  split
  · rfl
  · exact screen_await_other rfl

private theorem screen_selectSession (s : State) (sessionId : SessionId) : (s.selectSession sessionId).screen =
    { s.screen with
      frame := none
      version := s.screen.version + 1
      pending := s.screen.pending ++ [.selectSession sessionId (s.screen.version + 1)] } := by
  rw [selectSession, screen_await]
  rfl

private theorem screen_returnTo (s : State) (caller : Caller) : (s.returnTo caller).screen = s.screen ∨
    ∃ sessionId, (s.returnTo caller).screen = (s.selectSession sessionId).screen := by
  cases caller with
  | start | deleteCurrentSession =>
    simp only [returnTo]
    split
    · exact .inl rfl
    · exact .inr ⟨_, rfl⟩
  | createSession sessionId => exact .inr ⟨sessionId, rfl⟩
  | stopCurrentSession => exact .inl rfl

/-- A stream changes nothing that the screen shows of desktops, whatever it delivers. -/
theorem screen_receive (s : State) (i : Nat) (source : EventSource) (frame : Frame) :
    (s.receive i source frame).screen = s.screen := by
  cases frame with
  | message data =>
    change (s.handleStreamMessage source.version data).screen = s.screen
    unfold handleStreamMessage
    split
    · rfl
    · cases data with
      | none => rfl
      | some event =>
        simp only
        split
        · rw [screen_refreshCurrentData, screen_addEvent]
        · exact screen_addEvent s event
  | reset =>
    change (s.streamReset i source.sessionId source.version).screen = s.screen
    unfold streamReset
    split
    · rfl
    · simp only
      split
      · rfl
      · exact screen_await_other rfl
  | closed => rfl

private theorem turned_loadVnc (s : State) :
    s.screen.Turned (.action .reloadVnc) (s.loadVnc s.selectionVersion).screen := by
  unfold loadVnc
  split
  · exact .idle
  · rename_i current hcurrent
    split
    · rw [screen_await]
      exact .asks current.id rfl (by rw [screen, currentId, hcurrent]; rfl)
    · exact .idle

/-- What the user does turns the screen: a selection clears the frame, and a reload asks
for the desktop of the current session again. -/
theorem turned_act (s : State) (action : Action) :
    s.screen.Turned (.action action) (s.act action).screen := by
  cases action with
  | select sessionId =>
    rw [act, screen_selectSession]
    exact .selects sessionId
  | refresh =>
    simp only [act]
    split
    · exact .idle
    · rw [screen_selectSession]
      exact .selects _
  | reloadVnc => exact turned_loadVnc s
  | create =>
    rw [act, screen_await_other rfl]
    exact .idle
  | submit | stop | delete =>
    simp only [act]
    split
    · exact .idle
    · rw [screen_await_other rfl]
      exact .idle
  | unload => exact .idle

private theorem turned_loadSessions (s : State) (items : List Session) (caller : Caller) : s.screen.Turned l
    ({ s with sessions := items, current := s.current.map (updated items) }.returnTo caller).screen := by
  have hsame : { s with sessions := items, current := s.current.map (updated items) }.screen = s.screen := by
    simp [screen, currentId, Function.comp_def, updated_id]
  rcases screen_returnTo { s with sessions := items, current := s.current.map (updated items) } caller with
    hscreen | ⟨sessionId, hscreen⟩
  · rw [hscreen, hsame]
    exact .idle
  · rw [hscreen, screen_selectSession, hsame]
    exact .selects sessionId

private theorem screen_selected (s : State) (sessionId : SessionId) (version : Nat) (session : Session)
    (messages : List ChatMessage) (history : List SessionEvent) :
    (({ s with tasks := s.tasks.erase (.selectSession sessionId version) }.selected session messages
      history).connectEventStream sessionId version).screen = { s.screen with
        current := some session.id
        pending := s.screen.pending.erase (.selectSession sessionId version) } := by
  simp [screen, State.selected, connectEventStream, closeEventStream, currentId, List.erase_filter]

/-- A selection that is still the last one, of a session that has a desktop, asks for
the address of that desktop. -/
private theorem turned_active {sessionId : SessionId} {version : Nat} {session : Session} (messages : List ChatMessage)
    (history : List SessionEvent) (hmem : .selectSession sessionId version ∈ s.tasks)
    (hversion : version = s.selectionVersion) (hactive : session.status ∈ ACTIVE_VNC_STATUSES) :
    s.screen.Turned l ((({ s with tasks := s.tasks.erase (.selectSession sessionId version) }.selected session
      messages history).connectEventStream sessionId version).loadVnc version).screen := by
  have hscreen := screen_selected s sessionId version session messages history
  generalize hloaded : State.connectEventStream _ sessionId version = loaded at hscreen ⊢
  have hasks : loaded.loadVnc version = loaded.await (.loadVnc session.id version) := by
    subst hloaded
    change (if session.status ∈ ACTIVE_VNC_STATUSES then _ else _) = _
    rw [if_pos hactive]
  subst hversion
  rw [hasks, screen_await, hscreen]
  exact .loads sessionId session.id (List.mem_filter.mpr ⟨hmem, rfl⟩)

private theorem turned_inactive (s : State) (sessionId : SessionId) (version : Nat) (session : Session)
    (messages : List ChatMessage) (history : List SessionEvent) :
    s.screen.Turned l (({ s with tasks := s.tasks.erase (.selectSession sessionId version) }.selected session
      messages history).connectEventStream sessionId version).clearDesktop.screen := by
  rw [screen_clearDesktop, screen_selected]
  exact .inactive sessionId session.id version

/-- The refreshed session is the current one again, so the screen stays. -/
private theorem turned_refreshed {currentId : SessionId} {repeated : Bool} {session : Session}
    {messages : List ChatMessage} (sessions : List Session)
    (hanswers : (Answer.refreshed session messages).answers (.refreshCurrentData currentId repeated))
    (hcurrent : s.currentId = some currentId) : s.screen.Turned l (State.screen { s with
      tasks := s.tasks.erase (.refreshCurrentData currentId repeated)
      current := some session
      messages := messages
      sessions := sessions }) := by
  have hsame : s.currentId = some session.id := by rw [hcurrent, ← hanswers.1]
  change s.screen.Turned l ⟨s.vncFrame, some session.id, s.selectionVersion, (s.tasks.erase _).filter Task.desktop⟩
  rw [pending_answered_other rfl, ← hsame]
  exact .idle

/-- The address of the current session's desktop has arrived in time. -/
private theorem turned_desktop {sessionId : SessionId} {version : Nat} (hmem : .loadVnc sessionId version ∈ s.tasks)
    (hversion : version = s.selectionVersion) (hcurrent : s.currentId = some sessionId) :
    s.screen.Turned l (State.screen { s with
      tasks := s.tasks.erase (.loadVnc sessionId version)
      vncFrame := some sessionId }) := by
  have hscreen : State.screen { s with
      tasks := s.tasks.erase (.loadVnc sessionId version)
      vncFrame := some sessionId } = { s.screen with
        frame := some sessionId
        pending := s.screen.pending.erase (.loadVnc sessionId version) } := by
    simp [screen, State.currentId, List.erase_filter]
  subst hversion
  rw [hscreen]
  exact .shows sessionId (List.mem_filter.mpr ⟨hmem, rfl⟩) hcurrent

private theorem turned_no_desktop (s : State) (sessionId : SessionId) (version : Nat) :
    s.screen.Turned l { s with tasks := s.tasks.erase (.loadVnc sessionId version) }.clearDesktop.screen := by
  rw [screen_clearDesktop, screen_answered]
  exact .fails sessionId version

private theorem turned_stopped (s : State) (sessionId : SessionId) (session : Session) : s.screen.Turned l
    (({ s with tasks := s.tasks.erase (.stopCurrentSession sessionId), current := some session
      }.closeEventStream.clearDesktop).await (.loadSessions .stopCurrentSession)).screen := by
  rw [screen_await_other rfl]
  change s.screen.Turned l ⟨none, some session.id, s.selectionVersion, (s.tasks.erase _).filter Task.desktop⟩
  rw [pending_answered_other rfl]
  exact .cleared _

private theorem turned_deleted (s : State) (sessionId : SessionId) : s.screen.Turned l
    ({ { s with tasks := s.tasks.erase (.deleteCurrentSession sessionId) }.closeEventStream with
      current := none, messages := [], events := [], lastEventId := 0 }.clearDesktop.await
        (.loadSessions .deleteCurrentSession)).screen := by
  rw [screen_await_other rfl]
  change s.screen.Turned l ⟨none, none, s.selectionVersion, (s.tasks.erase _).filter Task.desktop⟩
  rw [pending_answered_other rfl]
  exact .cleared none

/-- An answer turns the screen in one of the ways of `Screen.Turned`: only loads and
requests for a desktop are taken off what is awaited. -/
theorem turned_resume (hmem : task ∈ s.tasks) (hanswers : answer.answers task)
    (hresumes : { s with tasks := s.tasks.erase task }.Resumes task answer t) : s.screen.Turned l t.screen := by
  cases hresumes with
  | start | created =>
    rw [screen_await_other rfl, screen_answered_other rfl]
    exact .idle
  | @listed caller items =>
    have hturned := turned_loadSessions (l := l) { s with tasks := s.tasks.erase (.loadSessions caller) } items caller
    rwa [screen_answered_other rfl] at hturned
  | active hversion hactive => exact turned_active _ _ hmem hversion hactive
  | inactive => exact turned_inactive s _ _ _ _ _
  | reloaded =>
    rw [screen_connectEventStream, screen_addEvents, screen_answered_other rfl]
    exact .idle
  | refreshed hcurrent => exact turned_refreshed _ hanswers hcurrent
  | repeats | submitted =>
    rw [screen_refreshCurrentData, screen_answered_other rfl]
    exact .idle
  | late hlate =>
    rw [screen_answered]
    exact .misses _ _ hlate
  | desktop hversion hcurrent => exact turned_desktop hmem hversion hcurrent
  | no_desktop => exact turned_no_desktop s _ _
  | stopped => exact turned_stopped s _ _
  | deleted => exact turned_deleted s _
  | superseded | select_failed =>
    rw [screen_answered]
    exact .drops _ _
  | outdated | load_failed | reload_failed | refresh_failed | create_failed | stop_failed | delete_failed =>
    rw [screen_answered_other rfl]
    exact .idle

/-- Every step of the page turns the screen in one of the ways of `Screen.Turned`. Both
theorems about desktops split these cases. -/
theorem turned (hstep : s.step l = some t) : s.screen.Turned l t.screen := by
  cases stepped hstep with
  | act action => exact turned_act s action
  | answered hmem hanswers hresumes => exact turned_resume hmem hanswers hresumes
  | received =>
    rw [screen_receive]
    exact .idle

end State

namespace Screen

variable {x y : Screen} {l : Label}

/-- The frame shows the desktop of the current session, unless the address of that
desktop is still awaited. -/
def Due (x : Screen) : Prop :=
  ∀ sessionId, x.frame = some sessionId → x.current = some sessionId ∨
    ∃ currentId, x.current = some currentId ∧ .loadVnc currentId x.version ∈ x.pending

/-- A frame of another session goes with the address that is still awaited: whatever
makes a session current also asks for its desktop, or clears the frame. -/
theorem Due.turned (h : x.Due) (hturned : x.Turned l y) : y.Due := by
  have keeps {pending : List Task} (hpending : ∀ currentId, x.current = some currentId →
      .loadVnc currentId x.version ∈ x.pending → .loadVnc currentId x.version ∈ pending) :
      ({ x with pending := pending } : Screen).Due := fun sessionId hframe =>
    (h sessionId hframe).imp_right fun ⟨currentId, hcurrent, hmem⟩ =>
      ⟨currentId, hcurrent, hpending currentId hcurrent hmem⟩
  cases hturned with
  | idle => exact h
  | cleared | selects | inactive | fails => exact nofun
  | asks => exact keeps fun _ _ hmem => List.mem_append_left _ hmem
  | drops => exact keeps fun _ _ hmem => (List.mem_erase_of_ne fun h => by cases h).mpr hmem
  | loads sessionId currentId =>
    exact fun _ _ => .inr ⟨currentId, rfl, List.mem_append_right _ (List.mem_singleton.mpr rfl)⟩
  | shows sessionId _ hcurrent => exact fun _ hframe => .inl (hcurrent.trans hframe)
  | misses sessionId version hlate =>
    refine keeps fun currentId hcurrent hmem => (List.mem_erase_of_ne fun heq => ?_).mpr hmem
    cases heq
    exact hlate.elim (fun h => h rfl) fun h => h hcurrent

/-- The load of the last selection is pending. -/
def Selecting (x : Screen) : Prop :=
  ∃ sessionId, .selectSession sessionId x.version ∈ x.pending

/-- While the last selection loads, no desktop is shown and none is asked for. -/
structure Calm (x : Screen) : Prop where
  frame : ∀ sessionId, x.frame = some sessionId → x.current = some sessionId ∧ ¬ x.Selecting
  asked : ∀ sessionId, .loadVnc sessionId x.version ∈ x.pending → ¬ x.Selecting
  selection_le : ∀ sessionId version,
    .selectSession sessionId version ∈ x.pending → version ≤ x.version
  desktop_le : ∀ sessionId version, .loadVnc sessionId version ∈ x.pending → version ≤ x.version
  once : ∀ sessionId other, .selectSession sessionId x.version ∈ x.pending →
    .selectSession other x.version ∉ x.pending.erase (.selectSession sessionId x.version)

private theorem Selecting.of_erase {task : Task} {frame current : Option SessionId}
    (h : Selecting ⟨frame, current, x.version, x.pending.erase task⟩) : x.Selecting :=
  h.imp fun _ hmem => List.mem_of_mem_erase hmem

/-- An answer that neither shows a desktop of another session nor asks for one leaves
the screen calm. -/
theorem Calm.erase {frame current : Option SessionId} (h : x.Calm) (task : Task)
    (hframe : ∀ sessionId, frame = some sessionId → current = some sessionId ∧ ¬ x.Selecting) :
    Calm ⟨frame, current, x.version, x.pending.erase task⟩ where
  frame sessionId hsome :=
    (hframe sessionId hsome).imp_right fun hnot hselecting => hnot hselecting.of_erase
  asked sessionId hmem hselecting := h.asked sessionId (List.mem_of_mem_erase hmem) hselecting.of_erase
  selection_le sessionId version hmem := h.selection_le sessionId version (List.mem_of_mem_erase hmem)
  desktop_le sessionId version hmem := h.desktop_le sessionId version (List.mem_of_mem_erase hmem)
  once sessionId other hmem hother := by
    rw [List.erase_comm] at hother
    exact h.once sessionId other (List.mem_of_mem_erase hmem) (List.mem_of_mem_erase hother)

/-- To ask for the desktop of the current session is safe while no selection loads: its
answer finds the same session. -/
theorem Calm.ask {frame current : Option SessionId} {pending : List Task} (sessionId : SessionId)
    (h : Calm ⟨frame, current, x.version, pending⟩)
    (hnot : ¬ Selecting ⟨frame, current, x.version, pending⟩) :
    Calm ⟨frame, current, x.version, pending ++ [.loadVnc sessionId x.version]⟩ := by
  have hselection {id : SessionId} {version : Nat}
      (hmem : .selectSession id version ∈ pending ++ [.loadVnc sessionId x.version]) :
      .selectSession id version ∈ pending := by simpa using hmem
  constructor
  case frame =>
    intro id hsome
    exact (h.frame id hsome).imp_right fun _ ⟨other, hmem⟩ => hnot ⟨other, hselection hmem⟩
  case asked => exact fun _ _ ⟨other, hmem⟩ => hnot ⟨other, hselection hmem⟩
  case selection_le => exact fun id version hmem => h.selection_le id version (hselection hmem)
  case desktop_le =>
    intro id version hmem
    rcases List.mem_append.mp hmem with hmem | hmem
    · exact h.desktop_le id version hmem
    · cases List.mem_singleton.mp hmem
      exact le_rfl
  case once => exact fun id _ hmem => absurd ⟨id, hselection hmem⟩ hnot

/-- A selection clears the frame, so nothing is shown that could be another session's. -/
theorem Calm.select (h : x.Calm) (sessionId : SessionId) : Calm { x with
    frame := none
    version := x.version + 1
    pending := x.pending ++ [.selectSession sessionId (x.version + 1)] } := by
  have hnew (id : SessionId) : .selectSession id (x.version + 1) ∉ x.pending := fun hmem => by
    have := h.selection_le id _ hmem
    omega
  constructor
  case frame => exact nofun
  case asked =>
    intro id hmem
    have hmem : .loadVnc id (x.version + 1) ∈ x.pending := by simpa using hmem
    have := h.desktop_le id _ hmem
    omega
  case selection_le =>
    intro id version hmem
    rcases List.mem_append.mp hmem with hmem | hmem
    · exact (h.selection_le id version hmem).trans (Nat.le_succ _)
    · cases List.mem_singleton.mp hmem
      exact le_rfl
  case desktop_le =>
    intro id version hmem
    have hmem : .loadVnc id version ∈ x.pending := by simpa using hmem
    exact (h.desktop_le id version hmem).trans (Nat.le_succ _)
  case once =>
    -- the new load is the only one of its version, so none is left without it
    intro id other hmem hother
    rcases List.mem_append.mp hmem with hmem | hmem
    · exact hnew id hmem
    · cases List.mem_singleton.mp hmem
      rw [List.erase_append_right _ (hnew sessionId)] at hother
      simp [hnew other] at hother

/-- The screen stays calm as long as the desktop is not reloaded while the last
selection loads. -/
theorem Calm.turned (h : x.Calm) (hcalm : l = .action .reloadVnc → ¬ x.Selecting)
    (hturned : x.Turned l y) : y.Calm := by
  cases hturned with
  | idle => exact h
  | cleared current => exact { h with frame := nofun }
  | selects sessionId => exact h.select sessionId
  | asks sessionId hl => exact Calm.ask (x := x) sessionId h (hcalm hl)
  | drops => exact h.erase _ h.frame
  | loads sessionId currentId hmem =>
    have hselecting : x.Selecting := ⟨sessionId, hmem⟩
    -- nothing is shown meanwhile, so the new current session has no desktop to contradict it
    refine Calm.ask currentId (h.erase _ fun id hframe => absurd hselecting (h.frame id hframe).2) ?_
    exact fun ⟨other, hother⟩ => h.once sessionId other hmem hother
  | inactive | fails => exact h.erase _ nofun
  | shows sessionId hmem hcurrent =>
    refine h.erase _ fun id hframe => ?_
    cases hframe
    exact ⟨hcurrent, h.asked sessionId hmem⟩
  | misses => exact h.erase _ h.frame

end Screen

namespace State

variable {s : State} {id : SessionId}

/-- In every state of the page a desktop that is shown is the current session's, or the
address of the current session's is awaited. -/
theorem desktop_shown (hrun : Run step (fun _ _ => True) initial s) (hframe : s.vncFrame = some id) :
    s.currentId = some id ∨
      ∃ current, s.current = some current ∧ .loadVnc current.id s.selectionVersion ∈ s.tasks := by
  have hdue : s.screen.Due :=
    hrun.invariant (I := fun s => s.screen.Due) (fun _ _ _ h _ hstep => h.turned (turned hstep)) nofun
  rcases hdue id hframe with hcurrent | ⟨currentId, hcurrent, hmem⟩
  · exact .inl hcurrent
  · obtain ⟨current, hsome, rfl⟩ := Option.map_eq_some_iff.mp hcurrent
    exact .inr ⟨current, hsome, List.mem_of_mem_filter hmem⟩

/-- The desktop is reloaded while another session is selected: the old desktop is
shown under the new session until the address of the new one arrives. -/
theorem desktop_shown_other : ∃ s : State,
    (s.vncFrame = some 1 ∧ s.currentId = some 2) ∧
      ∃ current, s.current = some current ∧ .loadVnc current.id s.selectionVersion ∈ s.tasks := by
  obtain ⟨s, hrun, hframe, hcurrent⟩ : ∃ s, Run step (fun _ _ => True) initial s ∧
      s.vncFrame = some 1 ∧ s.currentId = some 2 :=
    Run.exists_of_exec (fun _ _ => trivial) (opened ++ [.response (.loadVnc 1 1) .done,
      .action (.select 2), .action .reloadVnc, .response (.loadVnc 1 2) .done,
      .response (.selectSession 2 2) (.selected ⟨2, .READY⟩ [] [])]) _ (by decide +kernel)
  refine ⟨s, ⟨hframe, hcurrent⟩, (desktop_shown hrun hframe).resolve_left fun hsame => ?_⟩
  rw [hcurrent] at hsame
  cases hsame

private theorem selecting_of_screen (h : s.screen.Selecting) : 0 < s.selecting s.selectionVersion := by
  obtain ⟨sessionId, hmem⟩ := h
  exact List.countP_pos_iff.mpr ⟨_, List.mem_of_mem_filter hmem, decide_eq_true rfl⟩

/-- As long as the desktop is never reloaded while the last selection loads, the
desktop that is shown is the current session's. -/
theorem desktop_of_current
    (hrun : Run step (fun s l => l = .action .reloadVnc → s.selecting s.selectionVersion = 0) initial s)
    (hframe : s.vncFrame = some id) : s.currentId = some id := by
  have hcalm : s.screen.Calm := by
    refine hrun.invariant (I := fun s => s.screen.Calm) (fun s l _ h hquiet hstep => ?_) ?initial
    · refine h.turned (fun hl hselecting => ?_) (turned hstep)
      have := selecting_of_screen hselecting
      have := hquiet hl
      omega
    · constructor <;> exact nofun
  exact (hcalm.frame id hframe).1

/-- The desktop of the second session is shown again after its selection. -/
theorem desktop_of_current_switched : ∃ s : State,
    (s.vncFrame = some 2 ∧ s.selectionVersion = 2) ∧ s.currentId = some 2 := by
  obtain ⟨s, hrun, hframe, hversion⟩ : ∃ s,
      Run step (fun s l => l = .action .reloadVnc → s.selecting s.selectionVersion = 0) initial s ∧
      s.vncFrame = some 2 ∧ s.selectionVersion = 2 :=
    Run.exists_of_execIf (opened ++ [.response (.loadVnc 1 1) .done, .action (.select 2),
      .response (.selectSession 2 2) (.selected ⟨2, .READY⟩ [] []), .response (.loadVnc 2 2) .failed,
      .action .reloadVnc, .response (.loadVnc 2 2) .done]) _ (by decide +kernel)
  exact ⟨s, ⟨hframe, hversion⟩, desktop_of_current hrun hframe⟩

end State

end session_manager.dashboard

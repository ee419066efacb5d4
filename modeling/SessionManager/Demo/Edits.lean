import SessionManager.Demo.Edit
import SessionManager.Library.Effect
import SessionManager.Library.Transition

open effect transition

namespace session_manager.edit

open remote_tools str

/-- What `read_text` makes of the content of a file. -/
def read_text (content : String) : String := String.ofList (newlines content.toList)

variable {host : Host} {s s' : State} {path : Path}

/-- The rule for `read_file`: it gives the text of a file, and raises a ToolError where
there is none. -/
theorem ensures_read_file : Ensures (read_file host path) s
    (fun text s' => s' = s ∧ ∃ content, lookup host s path = some (.file content) ∧ text = read_text content)
    (fun error s' => s' = s ∧ (∃ message, error = .ToolError message) ∧
      ∀ content, lookup host s path ≠ some (.file content)) := by
  unfold read_file
  apply Ensures.get
  split
  · rename_i content hlookup
    exact Ensures.ret ⟨rfl, content, hlookup, rfl⟩
  · rename_i hlookup
    exact Ensures.raise ⟨rfl, ⟨_, rfl⟩, by simp [hlookup]⟩
  · rename_i hlookup
    exact Ensures.raise ⟨rfl, ⟨_, rfl⟩, by simp [hlookup]⟩
  · rename_i hlookup
    exact Ensures.raise ⟨rfl, ⟨_, rfl⟩, by simp [hlookup]⟩

/-- The state in which a write fails. -/
def State.spoiled (s : State) (host : Host) (path : Path) : Option Node → State
  | some node => { s with disk := s.disk.assign (host.resolve path) node }
  | none => s

/-- The rule for `write_file`. A write that raises may have done anything to the file,
as `Host.write` says. -/
theorem ensures_write_file {file : String} : Ensures (write_file host path file) s
    (fun _ s' => host.write = none ∧ s' = { s with disk := s.disk.assign (host.resolve path) (.file file) })
    (fun error s' => (∃ message, error = .ToolError message) ∧
      ∃ reason left, host.write = some (reason, left) ∧ s' = s.spoiled host path left) := by
  unfold write_file
  dsimp only
  split
  · rename_i hwrite
    exact Ensures.modify ⟨hwrite, rfl⟩
  · rename_i reason left hwrite
    split
    · exact Ensures.bind (Ensures.modify (Ensures.raise ⟨⟨_, rfl⟩, reason, _, hwrite, rfl⟩))
    · exact Ensures.bind (Ensures.ret (Ensures.raise ⟨⟨_, rfl⟩, reason, _, hwrite, rfl⟩))

/-- The check of a command against what its path leads to. -/
structure Valid (host : Host) (s : State) (command : String) (path : Path) : Prop where
  absolute : path.is_absolute = true
  create_iff : lookup host s path = none ↔ command = "create"
  directory : lookup host s path = some .directory → command = "view"

/-- The rule for the check of a path, which changes nothing. A path that is not valid is
told by a ToolError. -/
theorem ensures_validate_path {command : String} : Ensures (validate_path host command path) s
    (fun _ s' => s' = s ∧ Valid host s command path)
    (fun error s' => s' = s ∧ (∃ message, error = .ToolError message) ∧ ¬ Valid host s command path) := by
  unfold validate_path
  dsimp only
  split
  · rename_i habsolute
    exact Ensures.bind (Ensures.raise ⟨rfl, ⟨_, rfl⟩, fun h => habsolute h.absolute⟩)
  · rename_i habsolute
    apply Ensures.get
    split
    · rename_i hcreate
      exact Ensures.bind (Ensures.raise ⟨rfl, ⟨_, rfl⟩, fun h => hcreate.2 (h.create_iff.mp hcreate.1)⟩)
    · rename_i hmissing
      split
      · rename_i hcreate
        exact Ensures.bind (Ensures.raise ⟨rfl, ⟨_, rfl⟩, fun h => hcreate.1 (h.create_iff.mpr hcreate.2)⟩)
      · rename_i hthere
        split
        · rename_i hdirectory
          exact Ensures.raise ⟨rfl, ⟨_, rfl⟩, fun h => hdirectory.2 (h.directory hdirectory.1)⟩
        · rename_i hdirectory
          refine Ensures.ret ⟨rfl, by simpa using habsolute, ⟨fun hnone => ?_, fun hcreate => ?_⟩, fun h => ?_⟩
          · exact by_contra fun hcreate => hmissing ⟨hnone, hcreate⟩
          · exact by_contra fun hnone => hthere ⟨hnone, hcreate⟩
          · exact by_contra fun hview => hdirectory ⟨h, hview⟩

/-- A text has been written, and another one remembered. -/
def State.written (s : State) (host : Host) (path : Path) (text kept : String) : State where
  disk := s.disk.assign (host.resolve path) (.file text)
  _file_history := s._file_history.assign path ((s._file_history.get? path).getD [] ++ [kept])

/-- The text of a file that an edit starts from. -/
def Editable (host : Host) (s : State) (path : Path) (text : String) : Prop :=
  ∃ content, lookup host s path = some (.file content) ∧ text = expandtabs (read_text content)

/-- A write that fails, whatever it has done to the file by then. -/
def Spoiled (host : Host) (s : State) (path : Path) (error : EditError) (s' : State) : Prop :=
  (∃ message, error = .ToolError message) ∧
    ∃ reason left, host.write = some (reason, left) ∧ s' = s.spoiled host path left

/-- A command that fails before it writes. -/
def Refused (s : State) (error : EditError) (s' : State) : Prop :=
  s' = s ∧ ∃ message, error = .ToolError message

/-- The rule for what both edits end with: the history gets its version only after the
write has returned. -/
theorem ensures_write_and_remember {text kept : String} {rest : Edit ToolResult} {Q : ToolResult → State → Prop}
    {E : EditError → State → Prop}
    (hrest : host.write = none → Ensures rest (s.written host path text kept) Q E)
    (hfail : ∀ error s', Spoiled host s path error s' → E error s') :
    Ensures (do write_file host path text; remember path kept; rest) s Q E := by
  apply Ensures.bind
  refine ensures_write_file.mono (fun _ s' h => ?_) hfail
  obtain ⟨hwrite, rfl⟩ := h
  exact Ensures.bind (Ensures.modify (hrest hwrite))

/-- The rule for `str_replace`, for texts of any kind: an empty one in an empty file is
written and then raises, as `split` refuses an empty separator. -/
theorem ensures_str_replace {old_str : String} {new_str : Option String} :
    Ensures (str_replace host path old_str new_str) s
      (fun result s' => expandtabs old_str ≠ "" ∧ ∃ text, Editable host s path text ∧
        count text (expandtabs old_str) = 1 ∧ host.write = none ∧
        s' = s.written host path (replace text (expandtabs old_str) (expandtabs (new_str.getD ""))) text ∧
        result = replace_result path text (replace text (expandtabs old_str) (expandtabs (new_str.getD "")))
          (expandtabs old_str) (expandtabs (new_str.getD "")))
      (fun error s' =>
        Refused s error s' ∧ (¬ ∃ text, Editable host s path text ∧ count text (expandtabs old_str) = 1) ∨
        Spoiled host s path error s' ∨
        expandtabs old_str = "" ∧ Editable host s path "" ∧
          s' = s.written host path (expandtabs (new_str.getD "")) "") := by
  unfold str_replace
  apply Ensures.bind
  refine ensures_read_file.mono (fun text s' h => ?_) fun error s' h => ?_
  · obtain ⟨rfl, content, hlookup, rfl⟩ := h
    have hunique : ∀ text, Editable host s' path text → text = expandtabs (read_text content) := by
      rintro text ⟨content', hlookup', rfl⟩
      cases hlookup.symm.trans hlookup'
      rfl
    have heditable : Editable host s' path (expandtabs (read_text content)) := ⟨content, hlookup, rfl⟩
    dsimp only
    generalize expandtabs (read_text content) = text at hunique heditable
    split
    · rename_i hcount
      refine Ensures.bind (Ensures.raise (.inl ⟨⟨rfl, _, rfl⟩, ?_⟩))
      rintro ⟨text', htext', hone⟩
      rw [hunique text' htext'] at hone
      omega
    · rename_i hsome
      split
      · rename_i hcount
        refine Ensures.bind (Ensures.raise (.inl ⟨⟨rfl, _, rfl⟩, ?_⟩))
        rintro ⟨text', htext', hone⟩
        rw [hunique text' htext'] at hone
        omega
      · rename_i hatmost
        have hone : count text (expandtabs old_str) = 1 := by omega
        apply ensures_write_and_remember
        · intro hwrite
          split
          · rename_i hempty
            rw [hempty] at hone
            obtain rfl := eq_empty_of_count_empty hone
            exact Ensures.bind (Ensures.raise (.inr (.inr ⟨hempty, heditable, by rw [hempty, replace_empty]⟩)))
          · rename_i hnonempty
            exact Ensures.ret ⟨hnonempty, text, heditable, hone, hwrite, rfl, rfl⟩
        · exact fun error s' h => .inr (.inl h)
  · refine .inl ⟨⟨h.1, h.2.1⟩, ?_⟩
    rintro ⟨text, ⟨content, hlookup, -⟩, -⟩
    exact h.2.2 content hlookup

/-- The rule for `insert`: the number of the line is checked against the lines of the
file with its tabs expanded. -/
theorem ensures_insert {insert_line : PyInt} {new_str : String} :
    Ensures (insert host path insert_line new_str) s
      (fun result s' => ∃ text, Editable host s path text ∧ 0 ≤ insert_line.val ∧
        insert_line.val ≤ (split text "\n").length ∧ host.write = none ∧
        s' = s.written host path ("\n".intercalate ((split text "\n").take insert_line.val.toNat ++
          split (expandtabs new_str) "\n" ++ (split text "\n").drop insert_line.val.toNat)) text ∧
        result = insert_result path (split text "\n") (split (expandtabs new_str) "\n") insert_line.val.toNat)
      (fun error s' =>
        Refused s error s' ∧ (¬ ∃ text, Editable host s path text ∧ 0 ≤ insert_line.val ∧
          insert_line.val ≤ (split text "\n").length) ∨
        Spoiled host s path error s') := by
  unfold insert
  apply Ensures.bind
  refine ensures_read_file.mono (fun text s' h => ?_) fun error s' h => ?_
  · obtain ⟨rfl, content, hlookup, rfl⟩ := h
    have hunique : ∀ text, Editable host s' path text → text = expandtabs (read_text content) := by
      rintro text ⟨content', hlookup', rfl⟩
      cases hlookup.symm.trans hlookup'
      rfl
    have heditable : Editable host s' path (expandtabs (read_text content)) := ⟨content, hlookup, rfl⟩
    dsimp only
    generalize expandtabs (read_text content) = text at hunique heditable
    split
    · rename_i hrange
      refine Ensures.bind (Ensures.raise (.inl ⟨⟨rfl, _, rfl⟩, ?_⟩))
      rintro ⟨text', htext', hlow, hhigh⟩
      rw [hunique text' htext'] at hhigh
      omega
    · rename_i hrange
      apply ensures_write_and_remember
      · exact fun hwrite => Ensures.ret ⟨text, heditable, by omega, by omega, hwrite, rfl, rfl⟩
      · exact fun error s' h => .inr h
  · refine .inl ⟨⟨h.1, h.2.1⟩, ?_⟩
    rintro ⟨text, ⟨content, hlookup, -⟩, -⟩
    exact h.2.2 content hlookup

/-- `view` changes nothing, whether it returns or raises, and whatever its range is. -/
theorem ensures_view {view_range : Option (List Json)} :
    Ensures (view host path view_range) s (fun _ s' => s' = s) (fun _ s' => s' = s) := by
  unfold view
  dsimp only
  apply Ensures.get
  split
  · split
    · exact Ensures.bind (Ensures.raise rfl)
    · split
      · exact Ensures.raise rfl
      · exact Ensures.ret rfl
  · apply Ensures.bind
    refine ensures_read_file.mono (fun text s' h => ?_) fun error s' h => h.1
    obtain ⟨rfl, -⟩ := h
    split
    · exact Ensures.ret rfl
    · split
      · exact Ensures.raise rfl
      · exact Ensures.ret rfl

/-- What one call of the tool may do to the files and to the history. -/
inductive Edited (host : Host) (s : State) (path : Path) : State → Prop
  | same : Edited host s path s
  | created (text : String) (hnone : lookup host s path = none) :
      Edited host s path (s.written host path text text)
  | edited (content text : String) (hfile : lookup host s path = some (.file content)) :
      Edited host s path (s.written host path text (expandtabs (read_text content)))
  | spoiled (reason : String) (left : Option Node) (hwrite : host.write = some (reason, left)) :
      Edited host s path (s.spoiled host path left)

private theorem Edited.of_editable {text kept : String} (h : Editable host s path kept) :
    Edited host s path (s.written host path text kept) := by
  obtain ⟨content, hfile, rfl⟩ := h
  exact .edited content text hfile

private theorem Edited.of_spoiled {error : EditError} (h : Spoiled host s path error s') : Edited host s path s' := by
  obtain ⟨-, reason, left, hwrite, rfl⟩ := h
  exact .spoiled reason left hwrite

private theorem ensures_call (args : Args) : Ensures (call host args) s (fun _ => Edited host s (Path.of args.path))
    (fun _ => Edited host s (Path.of args.path)) := by
  unfold call
  dsimp only
  apply Ensures.bind
  refine ensures_validate_path.mono (fun _ s' h => ?_) fun error s' h => ?_
  · obtain ⟨rfl, hvalid⟩ := h
    split
    · refine ensures_view.mono (fun _ s'' h => ?_) fun _ s'' h => ?_ <;> subst h <;> exact .same
    · rename_i hcommand
      split
      · exact Ensures.raise .same
      · apply ensures_write_and_remember
        · exact fun hwrite => Ensures.ret (.created _ (hvalid.create_iff.mpr hcommand))
        · exact fun error s'' h => .of_spoiled h
    · split
      · exact Ensures.raise .same
      · refine ensures_str_replace.mono (fun _ s'' h => ?_) fun _ s'' h => ?_
        · obtain ⟨-, text, htext, -, -, rfl, -⟩ := h
          exact .of_editable htext
        · rcases h with ⟨⟨rfl, -⟩, -⟩ | h | ⟨-, htext, rfl⟩
          · exact .same
          · exact .of_spoiled h
          · exact .of_editable htext
    · split
      · exact Ensures.raise .same
      · split
        · exact Ensures.raise .same
        · refine ensures_insert.mono (fun _ s'' h => ?_) fun _ s'' h => ?_
          · obtain ⟨text, htext, -, -, -, rfl, -⟩ := h
            exact .of_editable htext
          · rcases h with ⟨⟨rfl, -⟩, -⟩ | h
            · exact .same
            · exact .of_spoiled h
    · exact Ensures.raise .same
  · obtain ⟨rfl, -⟩ := h
    exact .same

/-- Every call leaves its file as it was, edited with the version before in the history,
or spoiled by a write that has raised. -/
theorem ensures_run (args : Args) : Ensures (run host args) s (fun _ => Edited host s (Path.of args.path))
    (fun _ => Edited host s (Path.of args.path)) := by
  apply Ensures.handle
  refine (ensures_call args).mono (fun _ _ h => h) fun error s' h => ?_
  cases error with
  | ToolError message => exact Ensures.ret h
  | ValueError => exact Ensures.raise h
  | TimeoutError => exact Ensures.raise h

private theorem Editable.valid {text command : String} (h : Editable host s path text)
    (habsolute : path.is_absolute = true) (hcommand : command ≠ "create") : Valid host s command path := by
  obtain ⟨content, hlookup, -⟩ := h
  exact ⟨habsolute, by simp [hlookup, hcommand], by simp [hlookup]⟩

/-- What `run` makes of a command that has been found valid, and of one that has not: a
ToolError becomes the error of the result. -/
theorem ensures_run_of_valid {args : Args} {body : Edit ToolResult} {Q : ToolResult → State → Prop}
    {E : EditError → State → Prop}
    (hcall : call host args = do validate_path host args.command (Path.of args.path); body)
    (hbody : Valid host s args.command (Path.of args.path) → Ensures body s Q fun error s' =>
      match error with
      | .ToolError message => Q { error := some message } s'
      | error => E error s')
    (hinvalid : ¬ Valid host s args.command (Path.of args.path) → ∀ message, Q { error := some message } s) :
    Ensures (run host args) s Q E := by
  apply Ensures.handle
  rw [hcall]
  apply Ensures.bind
  refine ensures_validate_path.mono (fun _ s' h => ?_) fun error s' h => ?_
  · obtain ⟨rfl, hvalid⟩ := h
    refine (hbody hvalid).mono (fun _ _ h => h) fun error s'' h => ?_
    cases error with
    | ToolError message => exact Ensures.ret h
    | ValueError => exact Ensures.raise h
    | TimeoutError => exact Ensures.raise h
  · obtain ⟨rfl, ⟨message, rfl⟩, hvalid⟩ := h
    exact Ensures.ret (hinvalid hvalid message)

inductive Label
  | run (host : Host) (args : Args)
  | outside (disk : Table String Node)

/-- A call that raises leaves its state too. -/
def step (s : State) : Label → Option State
  | .run host args =>
    match (run host args).run s with
    | .ok _ s' | .error _ s' => some s'
  | .outside disk => some { s with disk }

/-- Only the tool changes the file `name`, a write that fails leaves it as it
was, and paths keep leading to the same files. -/
def Untouched (resolve : Path → String) (name : String) (s : State) : Label → Prop
  | .run host _ => host.resolve = resolve ∧ ∀ reason left, host.write = some (reason, left) → left = none
  | .outside disk => disk.get? name = s.disk.get? name

/-- What the history holds of a file, under any of its paths. -/
def Remembered (resolve : Path → String) (s : State) (name text : String) : Prop :=
  ∃ path, resolve path = name ∧ text ∈ (s._file_history.get? path).getD []

private theorem Remembered.written {resolve : Path → String} {name text file kept : String}
    (h : Remembered resolve s name text) : Remembered resolve (s.written host path file kept) name text := by
  obtain ⟨path', hresolve, hmem⟩ := h
  refine ⟨path', hresolve, ?_⟩
  rw [State.written, Table.get?_assign]
  split
  · rename_i heq
    subst heq
    exact List.mem_append_left _ hmem
  · exact hmem

private theorem remembered_written {file kept : String} :
    Remembered host.resolve (s.written host path file kept) (host.resolve path) kept := by
  refine ⟨path, rfl, ?_⟩
  rw [State.written, Table.get?_assign, if_pos rfl]
  exact List.mem_append_right _ (List.mem_singleton.mpr rfl)

/-- A version of a file that is on disk is kept by a step, or remembered, unless a write
raises and spoils the file. -/
theorem keep_of_edited {name content : String} (hfile : s.disk.get? name = some (.file content))
    (hwrite : ∀ reason left, host.write = some (reason, left) → left = none) (h : Edited host s path s') :
    s'.disk.get? name = some (.file content) ∨
      Remembered host.resolve s' name (expandtabs (read_text content)) := by
  cases h with
  | same => exact .inl hfile
  | created text hnone =>
    refine .inl ?_
    rw [State.written, Table.get?_assign, if_neg, hfile]
    rintro rfl
    cases hfile.symm.trans hnone
  | edited content' text hcontent =>
    by_cases hname : name = host.resolve path
    · subst hname
      cases hfile.symm.trans hcontent
      exact .inr remembered_written
    · refine .inl ?_
      rw [State.written, Table.get?_assign, if_neg hname, hfile]
  | spoiled reason left hfails =>
    rw [hwrite reason left hfails]
    exact .inl hfile

/-- Whatever the tool is asked to do to a file, every version of it is on disk or in the
history, up to tabs and line breaks, as long as each write succeeds or leaves the file
as it was. -/
theorem version_kept {resolve : Path → String} {name content : String}
    (hfile : s.disk.get? name = some (.file content)) (hrun : Run step (Untouched resolve name) s s') :
    s'.disk.get? name = some (.file content) ∨
      Remembered resolve s' name (expandtabs (read_text content)) := by
  refine hrun.invariant (I := fun t => t.disk.get? name = some (.file content) ∨
    Remembered resolve t name (expandtabs (read_text content))) (fun t l u h hguard hstep => ?_) (.inl hfile)
  cases l with
  | outside disk =>
    cases hstep
    rcases h with h | h
    · exact .inl ((show disk.get? name = t.disk.get? name from hguard).trans h)
    · exact .inr h
  | run host args =>
    obtain ⟨rfl, hwrite⟩ := hguard
    have hedited : Edited host t (Path.of args.path) u := by
      have hensures : Ensures (run host args) t (fun _ => Edited host t _) (fun _ => Edited host t _) :=
        ensures_run args
      simp only [step] at hstep
      cases hcall : (run host args).run t with
      | ok result t' =>
        rw [hcall] at hstep
        cases hstep
        exact (Ensures.iff_of_ok hcall).mp hensures
      | error error t' =>
        rw [hcall] at hstep
        cases hstep
        exact (Ensures.iff_of_error hcall).mp hensures
    rcases h with h | h
    · exact keep_of_edited h hwrite hedited
    · refine .inr ?_
      cases hedited with
      | same => exact h
      | created text hnone => exact h.written
      | edited content' text hcontent => exact h.written
      | spoiled reason left hfails =>
        rw [hwrite reason left hfails]
        exact h

/-- A text with a tab is replaced. -/
theorem version_kept_replaced :
    ∃ s' : State, s'.disk.get? "/a" = some (.file "two") ∧ (s'.disk.get? "/a" = some (.file "\tone") ∨
      Remembered Path.str s' "/a" (expandtabs (read_text "\tone"))) := by
  let s : State := { disk := Table.empty.assign "/a" (.file "\tone") }
  let host : Host := { resolve := Path.str }
  let args : Args := { command := "str_replace", path := "/a", old_str := some "\tone", new_str := some "two" }
  have htest : (step s (.run host args)).any (fun s' => s'.disk.get? "/a" = some (.file "two")) = true := by
    decide +kernel
  obtain ⟨s', hstep, htwo⟩ := (Option.any_eq_true _ _).mp htest
  have hguard : Untouched Path.str "/a" s (.run host args) := ⟨rfl, fun _ _ h => by cases h⟩
  exact ⟨s', of_decide_eq_true htwo, version_kept (by decide +kernel) (.single hguard hstep)⟩

end session_manager.edit

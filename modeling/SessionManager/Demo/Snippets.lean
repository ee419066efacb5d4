import SessionManager.Demo.Edits

/-! An edit shows a part of the file that it leaves. -/

open effect

namespace session_manager.edit

open remote_tools str

variable {host : Host} {s s' : State} {path : Path}

/-- The lines from `first` to `last`, which count from 1. -/
def excerpt (text : String) (first last : Nat) : String :=
  "\n".intercalate (((split text "\n").take last).drop (first - 1))

/-- A range of lines of an edited text outside of which no line has changed. -/
structure Covers (text edited : String) (first last : Nat) : Prop where
  first_pos : 0 < first
  first_le : first ≤ last
  last_le : last ≤ (split edited "\n").length
  above : (split edited "\n").take (first - 1) = (split text "\n").take (first - 1)
  below : ∃ n, (split edited "\n").drop last = (split text "\n").drop n

private theorem ensures_view_file {name content file_content : String} {view_range : Option (List Json)} {init_line : Nat}
    (habsolute : (Path.of name).is_absolute = true)
    (hfile : lookup host s (Path.of name) = some (.file content))
    (hshown : view_range.getD [] = [] ∧ file_content = read_text content ∧ init_line = 1 ∨
      view_range.getD [] ≠ [] ∧ ranged (view_range.getD []) (read_text content) = .ok (file_content, init_line)) :
    Ensures (run host { command := "view", path := name, view_range }) s
      (fun result s' => s' = s ∧
        result = { output := some (_make_output file_content (Path.of name).str init_line) })
      (fun _ _ => False) := by
  have hvalid : Valid host s "view" (Path.of name) := ⟨habsolute, by simp [hfile], fun _ => rfl⟩
  have hcall : call host { command := "view", path := name, view_range } =
      (do validate_path host "view" (Path.of name); view host (Path.of name) view_range) := rfl
  refine ensures_run_of_valid hcall (fun _ => ?_) fun h => absurd hvalid h
  unfold view
  dsimp only
  apply Ensures.get
  rw [if_neg (by simp [hfile])]
  apply Ensures.bind
  refine ensures_read_file.mono (fun text s' h => ?_) fun error s' h => absurd hfile (h.2.2 content)
  obtain ⟨rfl, content', hfile', rfl⟩ := h
  cases hfile.symm.trans hfile'
  rcases hshown with ⟨hempty, rfl, rfl⟩ | ⟨hrange, hranged⟩
  · rw [if_pos hempty]
    exact Ensures.ret ⟨rfl, rfl⟩
  · rw [if_neg hrange, hranged]
    exact Ensures.ret ⟨rfl, rfl⟩

/-- What an edit shows of the file that it leaves. -/
structure Shown (host : Host) (name text edited : String) (result : ToolResult) (s' : State) (first last : Nat) :
    Prop where
  file : lookup host s' (Path.of name) = some (.file edited)
  covers : Covers text edited first last
  output : ∃ start descriptor rest,
    result.output = some (start ++ _make_output (excerpt edited first last) descriptor first ++ rest)
  view : Ensures (run host { command := "view", path := name, view_range := some [.int first, .int last] }) s'
    (fun viewed s'' => s'' = s' ∧
      viewed = { output := some (_make_output (excerpt edited first last) (Path.of name).str first) })
    (fun _ _ => False)

private theorem newline_not_mem_width6 (n : Nat) : '\n' ∉ (width6 n).toList := by
  rw [width6, String.toList_ofList, List.leftpad, List.mem_append, not_or]
  refine ⟨fun h => absurd (List.eq_of_mem_replicate h) (by decide), fun h => ?_⟩
  rw [Nat.toString_eq_ofList_toDigits, String.toList_ofList] at h
  exact absurd (Nat.isDigit_of_mem_toDigits (by decide) (by decide) h) (by decide)

private theorem split_numbered {lines : List String} {init_line : Nat} (hlines : lines ≠ [])
    (h : ∀ line ∈ lines, '\n' ∉ line.toList) : split (numbered init_line lines) "\n" =
      lines.mapIdx fun i line => width6 (i + init_line) ++ "\t" ++ line := by
  apply split_intercalate
  · exact fun h => hlines (List.mapIdx_eq_nil_iff.mp h)
  · intro row hrow
    obtain ⟨i, hi, rfl⟩ := List.mem_mapIdx.mp hrow
    rw [String.toList_append, String.toList_append, List.mem_append, List.mem_append, not_or, not_or]
    exact ⟨⟨newline_not_mem_width6 _, by decide⟩, h _ (List.getElem_mem hi)⟩

private theorem numbered_split_inj {text text' : String} (init_line : Nat) :
    numbered init_line (split text "\n") = numbered init_line (split text' "\n") ↔ text = text' := by
  refine ⟨fun h => ?_, fun h => h ▸ rfl⟩
  have hrows := congrArg (split · "\n") h
  simp only [split_numbered (split_lines_ne_nil _) fun line hline => newline_not_mem_split hline] at hrows
  have hlines : split text "\n" = split text' "\n" := by
    have hlength := congrArg List.length hrows
    rw [List.length_mapIdx, List.length_mapIdx] at hlength
    refine List.ext_getElem hlength fun i hi hi' => ?_
    have hrow := congrArg (fun rows : List String => rows[i]?) hrows
    simp only [List.getElem?_mapIdx, List.getElem?_eq_getElem hi, List.getElem?_eq_getElem hi', Option.map_some,
      Option.some.injEq, String.append_right_inj] at hrow
    exact hrow
  rw [← intercalate_split text, hlines, intercalate_split]

private theorem maybe_truncate_of_le {text : String} (h : text.length ≤ MAX_RESPONSE_LEN) :
    maybe_truncate text = text := by
  rw [maybe_truncate, if_pos h]

/-- Below the limit of a response, outputs are equal just when the texts are, up to
their tabs. -/
theorem _make_output_inj {text text' descriptor : String} {init_line : Nat} (h : text.length ≤ MAX_RESPONSE_LEN)
    (h' : text'.length ≤ MAX_RESPONSE_LEN) :
    _make_output text descriptor init_line = _make_output text' descriptor init_line ↔
      expandtabs text = expandtabs text' := by
  unfold _make_output
  rw [maybe_truncate_of_le h, maybe_truncate_of_le h']
  dsimp only
  rw [String.append_left_inj, String.append_right_inj, numbered_split_inj]

/-- The text of a file that is not truncated can be read off what `view` prints, up
to its tabs. -/
theorem view_determines {host' : Host} {t : State} {name content content' : String}
    (habsolute : (Path.of name).is_absolute = true)
    (hfile : lookup host s (Path.of name) = some (.file content))
    (hfile' : lookup host' t (Path.of name) = some (.file content'))
    (hlength : (read_text content).length ≤ MAX_RESPONSE_LEN)
    (hlength' : (read_text content').length ≤ MAX_RESPONSE_LEN) :
    Ensures (run host { command := "view", path := name }) s
      (fun result _ => Ensures (run host' { command := "view", path := name }) t
        (fun result' _ => result = result' ↔ expandtabs (read_text content) = expandtabs (read_text content'))
        (fun _ _ => False))
      (fun _ _ => False) := by
  refine (ensures_view_file habsolute hfile (.inl ⟨rfl, rfl, rfl⟩)).mono (fun result s' h => ?_) fun _ _ h => h
  refine (ensures_view_file habsolute hfile' (.inl ⟨rfl, rfl, rfl⟩)).mono (fun result' t' h' => ?_) fun _ _ h => h
  obtain ⟨-, rfl⟩ := h
  obtain ⟨-, rfl⟩ := h'
  rw [← _make_output_inj hlength hlength']
  exact ⟨fun h => Option.some.inj (congrArg ToolResult.output h), fun h => by rw [h]⟩

/-- A tab is shown as the blanks up to its column. -/
theorem view_determines_tab :
    let host : Host := { resolve := Path.str }
    let s : State := { disk := Table.empty.assign "/a" (.file "\ta") }
    let t : State := { disk := Table.empty.assign "/a" (.file "        a") }
    Ensures (run host { command := "view", path := "/a" }) s
      (fun result _ => Ensures (run host { command := "view", path := "/a" }) t (fun result' _ => result = result')
        (fun _ _ => False))
      (fun _ _ => False) := by
  intro host s t
  have hfile : lookup host s (Path.of "/a") = some (.file "\ta") := by decide +kernel
  have hfile' : lookup host t (Path.of "/a") = some (.file "        a") := by decide +kernel
  refine (view_determines (by decide +kernel) hfile hfile' (by decide) (by decide)).mono (fun result s' h => ?_)
    fun _ _ h => h
  exact h.mono (fun result' t' h => h.mpr (by decide +kernel)) fun _ _ h => h

end session_manager.edit

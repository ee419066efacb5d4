import SessionManager.Agents.TextCalls
import SessionManager.Guarantees.AgentLoop

namespace session_manager

namespace anthropic

open remote_tools

variable {decoder : Decoder} {dumps : Json → String} {call : Call} {input : ToolInput}

/-- The values come back from JSON, and no text of one has white space around it. -/
structure Readable (decoder : Decoder) (dumps : Json → String) (input : ToolInput) : Prop where
  trimmed : ∀ row ∈ input.rows, strip (written dumps row.2) = written dumps row.2
  loads : ∀ row ∈ input.rows, (∀ s, row.2 ≠ .string s) → decoder.loads (dumps row.2) = .ok row.2

/-- A name that survives the pattern and the trimming. -/
def Named (name : String) : Prop := name ≠ "" ∧ strip name = name

/-- `json.loads` takes the text for no JSON, with the one exception that the runner
catches, or for the JSON of the text itself. -/
def Decoder.Raw (decoder : Decoder) (s : String) : Prop :=
  decoder.loads s = .error .JSONDecodeError ∨ decoder.loads s = .ok (.string s)

/-- The names survive, and every string value is raw. -/
structure Unambiguous (decoder : Decoder) (call : Call) : Prop where
  name : Named call.name
  keys : ∀ row ∈ call.input.rows, Named row.1
  strings : ∀ row ∈ call.input.rows, ∀ s, row.2 = .string s → decoder.Raw s

/-- A text that is read as itself is one that `json.loads` rejects in the way the runner
catches, or the JSON of the text itself. -/
theorem load_iff_raw {s : String} : decoder.load s = .ok (.string s) ↔ decoder.Raw s := by
  unfold Decoder.load Decoder.Raw
  split
  · rename_i hloads
    exact iff_of_true rfl (.inl hloads)
  · rename_i hloads
    exact (or_iff_right hloads).symm

/-- A row whose name survives is read as itself exactly if its text is raw when it
is a string. -/
theorem read_row_iff (h : Readable decoder dumps input) {row : String × Json} (hrow : row ∈ input.rows)
    (hkey : Named row.1) :
    decoder.read_row dumps row = .ok row ↔ ∀ s, row.2 = .string s → decoder.Raw s := by
  have hread : decoder.read_row dumps row = .ok row ↔ decoder.load (written dumps row.2) = .ok row.2 := by
    rw [Decoder.read_row, h.trimmed row hrow, hkey.2]
    cases decoder.load (written dumps row.2) <;> simp [Except.map, Prod.ext_iff]
  rw [hread]
  by_cases hstring : ∃ s, row.2 = .string s
  · obtain ⟨s, hs⟩ := hstring
    have hwritten : written dumps row.2 = s := by rw [hs]; rfl
    rw [hwritten, hs]
    simp only [Json.string.injEq, forall_eq', load_iff_raw]
  · have hne : ∀ s, row.2 ≠ .string s := fun s hs => hstring ⟨s, hs⟩
    have hwritten : written dumps row.2 = dumps row.2 := by
      unfold written
      split
      · rename_i s hs
        exact absurd hs (hne s)
      · rfl
    simp [hwritten, Decoder.load, h.loads row hrow hne, hne]

/-- The names of the rows that are read are those written, trimmed. -/
theorem read_rows_keys {rows items : List (String × Json)} (h : rows.mapM (decoder.read_row dumps) = .ok items) :
    items.map Prod.fst = rows.map fun row => strip row.1 := by
  have hkeys : List.Forall₂ (fun row item => strip row.1 = item.1) rows items := by
    apply (traversal.mapM_eq_ok.mp h).imp
    intro row item hread
    unfold Decoder.read_row at hread
    cases hload : decoder.load (strip (written dumps row.2)) with
    | ok value =>
      rw [hload] at hread
      cases hread
      rfl
    | error exc =>
      rw [hload] at hread
      cases hread
  have hsame := List.forall₂_map_right_iff.mpr (List.forall₂_map_left_iff.mpr hkeys)
  exact (List.forall₂_eq_eq_eq ▸ hsame).symm

/-- The names survive when the keys of the input come back: a key that was trimmed or
dropped would be missing. -/
theorem named_of_read {items : List (String × Json)}
    (h : (input.rows.filter fun row => row.1 ≠ "").mapM (decoder.read_row dumps) = .ok items)
    (hinput : Table.ofPairs items = input) : ∀ row ∈ input.rows, Named row.1 := by
  have hfrom : ∀ row ∈ input.rows, ∃ row' ∈ input.rows, row'.1 ≠ "" ∧ strip row'.1 = row.1 := by
    intro row hrow
    have hkey : row.1 ∈ (Table.ofPairs items).keys := by
      rw [hinput]
      exact List.mem_map_of_mem hrow
    have hitem := Table.keys_ofPairs hkey
    rw [read_rows_keys h, List.mem_map] at hitem
    obtain ⟨row', hrow', hstrip⟩ := hitem
    rw [List.mem_filter] at hrow'
    exact ⟨row', hrow'.1, by simpa using hrow'.2, hstrip⟩
  have htrimmed : ∀ row ∈ input.rows, strip row.1 = row.1 := by
    intro row hrow
    obtain ⟨row', -, -, hstrip⟩ := hfrom row hrow
    rw [← hstrip, strip_strip]
  intro row hrow
  obtain ⟨row', hrow', hnonempty, hstrip⟩ := hfrom row hrow
  rw [htrimmed row' hrow'] at hstrip
  exact ⟨hstrip ▸ hnonempty, htrimmed row hrow⟩

/-- With a name on every row the parser drops none of them. -/
theorem filter_of_named (h : ∀ row ∈ input.rows, Named row.1) :
    (input.rows.filter fun row => row.1 ≠ "") = input.rows :=
  List.filter_eq_self.mpr fun row hrow => by simpa using (h row hrow).1

/-- Rows that are read as the input are read as themselves, each under its own key. -/
theorem read_rows_self {items : List (String × Json)} (hkeys : ∀ row ∈ input.rows, Named row.1)
    (h : input.rows.mapM (decoder.read_row dumps) = .ok items) (hinput : Table.ofPairs items = input) :
    ∀ row ∈ input.rows, decoder.read_row dumps row = .ok row := by
  have hfst : items.map Prod.fst = input.rows.map Prod.fst := by
    rw [read_rows_keys h]
    exact List.map_congr_left fun row hrow => (hkeys row hrow).2
  have hrows := Table.ofPairs_rows (hfst ▸ input.nodup)
  rw [hinput] at hrows
  rw [← hrows] at h
  exact List.forall₂_same.mp (traversal.mapM_eq_ok.mp h)

/-- A written call is parsed to itself exactly when it is unambiguous. This is the
theorem about the parser alone. -/
theorem parse_eq_iff (hunescape : ∀ s, decoder.unescape (escape s) = .ok s)
    (h : Readable decoder dumps call.input) :
    decoder._parse_text_tool_calls (call_text dumps call) = .ok [call] ↔ Unambiguous decoder call := by
  rw [parse_call_text hunescape]
  constructor
  · intro hparse
    split at hparse
    · cases hparse
    · rename_i hname
      cases hitems : (call.input.rows.filter fun row => row.1 ≠ "").mapM (decoder.read_row dumps) with
      | error exc =>
        rw [hitems] at hparse
        cases hparse
      | ok items =>
        rw [hitems] at hparse
        obtain ⟨name, input⟩ := call
        simp only [Except.map, Except.ok.injEq, List.cons.injEq, Call.mk.injEq, and_true] at hparse
        obtain ⟨hstrip, hinput⟩ := hparse
        have hkeys := named_of_read hitems hinput
        rw [filter_of_named hkeys] at hitems
        have hself := read_rows_self hkeys hitems hinput
        exact ⟨⟨hname, hstrip⟩, hkeys, fun row hrow => (read_row_iff h hrow (hkeys row hrow)).mp (hself row hrow)⟩
  · intro hunambiguous
    have hself : ∀ row ∈ call.input.rows, decoder.read_row dumps row = .ok (id row) := fun row hrow =>
      (read_row_iff h hrow (hunambiguous.keys row hrow)).mpr (hunambiguous.strings row hrow)
    rw [if_neg hunambiguous.name.1, filter_of_named hunambiguous.keys, traversal.mapM_of_forall hself,
      hunambiguous.name.2, List.map_id]
    simp only [Except.map, Table.ofPairs_self]

/-- `html.unescape` on what `html.escape` writes. -/
def unescape_entities : List Char → List Char
  | [] => []
  | '&' :: 'a' :: 'm' :: 'p' :: ';' :: s => '&' :: unescape_entities s
  | '&' :: 'l' :: 't' :: ';' :: s => '<' :: unescape_entities s
  | '&' :: 'g' :: 't' :: ';' :: s => '>' :: unescape_entities s
  | '&' :: 'q' :: 'u' :: 'o' :: 't' :: ';' :: s => '"' :: unescape_entities s
  | '&' :: '#' :: 'x' :: '2' :: '7' :: ';' :: s => '\x27' :: unescape_entities s
  | c :: s => c :: unescape_entities s

/-- Undoing the entities that `html.escape` writes gives the text back. -/
theorem unescape_entities_escape (s : String) :
    String.ofList (unescape_entities (escape s).toList) = s := by
  have hchar : ∀ c rest, unescape_entities ((escape_char c).toList ++ rest) =
      c :: unescape_entities rest := by
    intro c rest
    by_cases hspecial : c ∈ specials
    · simp only [specials, List.mem_cons, List.not_mem_nil, or_false] at hspecial
      rcases hspecial with rfl | rfl | rfl | rfl | rfl <;> rfl
    · rcases escape_char_cases c with ⟨hmem, -⟩ | ⟨-, heq⟩
      · exact absurd hmem hspecial
      · have hne : c ≠ '&' := by
          rintro rfl
          exact hspecial (by decide)
        simp [heq, unescape_entities, hne]
  have hlist : ∀ l : List Char, unescape_entities (l.flatMap fun c => (escape_char c).toList) = l := by
    intro l
    induction l with
    | nil => rfl
    | cons c l ih => rw [List.flatMap_cons, hchar, ih]
  rw [escape, String.toList_ofList, hlist, String.ofList_toList]

/-- A decoder that knows the JSON of one value. -/
def decoder_of (text : String) (value : Json) : Decoder where
  unescape s := .ok (String.ofList (unescape_entities s.toList))
  loads s := if s = text then .ok value else .error .JSONDecodeError

/-- The decoder of the witnesses unescapes what was escaped, whatever JSON it reads. -/
theorem decoder_unescape {text : String} {value : Json} (s : String) :
    (decoder_of text value).unescape (escape s) = .ok s :=
  congrArg Except.ok (unescape_entities_escape s)

/-- An environment with one response and the last word, in which nothing fails. -/
def Environment.once (block : Block) : Environment where
  respond n := some (if n = 0 then [block] else [.text "done"])
  execute _ := some { output := some "ok" }
  emits _ := true
  schedule _ := 0

namespace AnthropicAgentRunner

variable {runner : AnthropicAgentRunner} {env env' : Environment} {user_input : String}
  {runtime_id : Option RuntimeId}

/-- The calls of a run begin with those of its first response, whatever the later ones
ask for. -/
theorem calls_script {n : Nat} (hn : 0 < n) : ∃ more, calls (runner.decoder.script env.response n) =
    runner.decoder.asks (env.response 0) ++ more := by
  obtain ⟨n, rfl⟩ := Nat.exists_eq_succ_of_ne_zero (Nat.ne_of_gt hn)
  have hscript : runner.decoder.script env.response (n + 1) =
      runner.decoder.steps 0 (env.response 0) ++
        (List.range n).flatMap fun i => runner.decoder.steps (i + 1) (env.response (i + 1)) := by
    simp [Decoder.script, List.range_succ_eq_map, List.flatMap_map]
  exact ⟨_, by rw [hscript, calls_append, Decoder.calls_steps]⟩

/-- The first call of a run is the first one of its first response, when that one
has no call next to a text for which the parser raises. -/
theorem first_call (h : Undisturbed runner env user_input runtime_id) (hiterations : 0 < runner.max_iterations)
    (hparses : ∀ exc, runner.decoder.Raises (env.response 0) exc → runner.decoder.asks (env.response 0) = []) :
    (runner.ended env user_input runtime_id).executed.head? =
      (runner.decoder.asks (env.response 0)).head? := by
  have hcalled : ∀ n made, 0 < n → runner.decoder.calling (env.response 0) →
      (calls (runner.decoder.script env.response n) ++ made).head? =
        (runner.decoder.asks (env.response 0)).head? := by
    intro n made hn hcalling
    obtain ⟨more, hscript⟩ := @calls_script runner env n hn
    rw [hscript, List.append_assoc]
    exact List.head?_append_of_ne_nil _ ((runner.decoder.calling_iff _).mp hcalling)
  rcases h.ends with ⟨n, error, -, hfull, hstopped⟩ | ⟨n, hfinished, hends, -⟩
  · obtain ⟨made, hmade, hexecuted, htool⟩ := hstopped.executed
    rw [hexecuted]
    rcases Nat.eq_zero_or_pos n with rfl | hn
    · -- the work on the first response breaks off
      obtain ⟨more, hasks⟩ := hmade
      cases hstopped.cause with
      | full => exact absurd rfl hfull
      | parse hraises =>
        rw [hparses _ hraises] at hasks
        rw [hparses _ hraises, (List.append_eq_nil_iff.mp hasks).1]
        rfl
      | tool =>
        rw [← hasks, List.head?_append_of_ne_nil _ (htool rfl)]
        rfl
    · exact hcalled n made hn (hstopped.reaches.2 0 hn)
  · have hn : 0 < n := hends.reached ⟨hiterations, fun i hi => absurd hi (Nat.not_lt_zero i)⟩
    rw [hfinished.executed]
    by_cases hcalling : runner.decoder.calling (env.response 0)
    · simpa using hcalled n [] hn hcalling
    · obtain rfl : n = 1 := by
        by_contra hne
        exact hcalling (hends.calling 0 (by omega))
      simp [Decoder.script, Decoder.calls_steps]

/-- A written call is parsed to one call at most, so its first call is the whole parse. -/
theorem parse_call_head (hunescape : ∀ s, runner.decoder.unescape (escape s) = .ok s) :
    ((runner.decoder._parse_text_tool_calls (call_text dumps call)).toOption.getD []).head? = some call ↔
      runner.decoder._parse_text_tool_calls (call_text dumps call) = .ok [call] := by
  rw [parse_call_text hunescape]
  split
  · simp [Except.toOption]
  · cases (call.input.rows.filter fun row => row.1 ≠ "").mapM (runner.decoder.read_row dumps) <;>
      simp [Except.map, Except.toOption]

/-- The runner makes the same call of a textual one and of a native one exactly
when the textual one is unambiguous. -/
theorem textual_call_agrees (hunescape : ∀ s, runner.decoder.unescape (escape s) = .ok s)
    (h : Readable runner.decoder dumps call.input) :
    (runner.decoder._parse_text_tool_calls (call_text dumps call) = .ok [call] ↔
        Unambiguous runner.decoder call) ∧
      ∀ env env' user_input runtime_id id, 0 < runner.max_iterations →
        Undisturbed runner env user_input runtime_id → Undisturbed runner env' user_input runtime_id →
        env.response 0 = [.text (call_text dumps call)] →
        env'.response 0 = [.tool_use id call.name call.input] →
        ((runner.ended env user_input runtime_id).executed.head? =
            (runner.ended env' user_input runtime_id).executed.head? ↔
          Unambiguous runner.decoder call) := by
  have hparse := parse_eq_iff hunescape h
  refine ⟨hparse, fun env env' user_input runtime_id id hiterations hundisturbed hundisturbed' htextual
    hnative => ?_⟩
  have hasks : runner.decoder.asks (env.response 0) =
      (runner.decoder._parse_text_tool_calls (call_text dumps call)).toOption.getD [] := by
    rw [htextual]
    exact runner.decoder.asks_text _
  have hasks' : runner.decoder.asks (env'.response 0) = [call] := by
    rw [hnative]
    rfl
  rw [first_call hundisturbed hiterations, first_call hundisturbed' hiterations, hasks, hasks', ← hparse,
    ← parse_call_head hunescape]
  · rfl
  · rintro exc ⟨text, hmem, -⟩
    simp [hnative] at hmem
  · rintro exc ⟨text, hmem, hraises⟩
    obtain rfl : text = call_text dumps call := by simpa [htextual] using hmem
    rw [hasks, hraises]
    rfl

/-- A click, which comes out of its text as it was written. -/
theorem textual_call_agrees_click :
    let coordinate : Json := .array [.int 10, .int 20]
    let call : Call := ⟨"computer", .ofPairs [("action", .string "left_click"), ("coordinate", coordinate)]⟩
    let dumps : Json → String := fun _ => "[10, 20]"
    let runner : AnthropicAgentRunner := { decoder := decoder_of "[10, 20]" coordinate }
    runner.decoder._parse_text_tool_calls (call_text dumps call) = .ok [call] ∧
      (runner.ended (.once (.text (call_text dumps call))) "task" (some "c")).executed.head? =
        (runner.ended (.once (.tool_use "tool-1" call.name call.input)) "task" (some "c")).executed.head? := by
  intro coordinate call dumps runner
  have hrows : call.input.rows = [("action", .string "left_click"), ("coordinate", coordinate)] :=
    Table.ofPairs_rows (by decide)
  have hreadable : Readable runner.decoder dumps call.input := by
    constructor <;> rw [hrows]
    · simp only [List.forall_mem_cons, List.not_mem_nil, false_implies, implies_true, and_true]
      exact ⟨by decide, by decide⟩
    · simp only [List.forall_mem_cons, List.not_mem_nil, false_implies, implies_true, and_true]
      exact ⟨fun hne => absurd rfl (hne "left_click"), fun _ => by simp [runner, dumps, decoder_of]⟩
  have hunambiguous : Unambiguous runner.decoder call := by
    refine ⟨⟨by decide, by decide⟩, ?_, ?_⟩ <;> rw [hrows]
    · simp only [List.forall_mem_cons, List.not_mem_nil, false_implies, implies_true, and_true]
      exact ⟨⟨by decide, by decide⟩, by decide, by decide⟩
    · simp only [List.forall_mem_cons, List.not_mem_nil, false_implies, implies_true, and_true]
      refine ⟨?_, fun s hs => by simp [coordinate] at hs⟩
      rintro s ⟨⟩
      exact .inl rfl
  have hundisturbed : ∀ block,
      (runner.outcome (.once block) "task" (some "c")).toOption = some "done" →
        Undisturbed runner (.once block) "task" (some "c") := by
    intro block houtcome
    refine ⟨fun _ => rfl, fun _ => rfl, by decide, fun hfull => ?_⟩
    rw [hfull] at houtcome
    cases houtcome
  obtain ⟨hparse, hruns⟩ := @textual_call_agrees dumps call runner decoder_unescape hreadable
  refine ⟨hparse.mpr hunambiguous, (hruns _ _ "task" (some "c") "tool-1" (by decide)
    (hundisturbed _ ?_) (hundisturbed _ ?_) rfl rfl).mpr hunambiguous⟩
  · decide +kernel
  · decide +kernel

def int_value : Json → Option Int
  | .int i => some i
  | _ => none

/-- The command `123` comes out of its text as a number. -/
theorem textual_call_differs :
    let call : Call := ⟨"bash", .ofPairs [("command", .string "123")]⟩
    let dumps : Json → String := fun _ => ""
    let runner : AnthropicAgentRunner := { decoder := decoder_of "123" (.int 123) }
    (∀ s, runner.decoder.unescape (escape s) = .ok s) ∧ Readable runner.decoder dumps call.input ∧
      ∃ passed, (runner.ended (.once (.text (call_text dumps call))) "task" (some "c")).executed =
          [passed] ∧ passed.input.get? "command" = some (.int 123) ∧ passed ≠ call := by
  intro call dumps runner
  have hrows : call.input.rows = [("command", .string "123")] := Table.ofPairs_rows (by decide)
  refine ⟨decoder_unescape, ⟨?_, ?_⟩, ?_⟩
  · rw [hrows]
    simp only [List.forall_mem_cons, List.not_mem_nil, false_implies, implies_true, and_true]
    decide
  · rw [hrows]
    simp only [List.forall_mem_cons, List.not_mem_nil, false_implies, implies_true, and_true]
    exact fun hne => absurd rfl (hne "123")
  · have hnumbers : ((runner.ended (.once (.text (call_text dumps call))) "task" (some "c")).executed.map
        fun passed => (passed.input.get? "command").bind int_value) = [some 123] := by
      decide +kernel
    obtain ⟨passed, hexecuted, hnumber⟩ := List.map_eq_singleton_iff.mp hnumbers
    have hget : passed.input.get? "command" = some (.int 123) := by
      obtain ⟨value, hvalue, hnumber⟩ := Option.bind_eq_some_iff.mp hnumber
      cases value <;> cases hnumber
      exact hvalue
    refine ⟨passed, hexecuted, hget, ?_⟩
    rintro rfl
    have hstring : call.input.get? "command" = some (.string "123") := by
      rw [Table.get?_eq_some_iff_mem, hrows]
      exact List.mem_cons_self
    rw [hstring] at hget
    cases hget

end AnthropicAgentRunner

end anthropic

end session_manager

import SessionManager.Agents.Markup

namespace session_manager

namespace anthropic

open Regex remote_tools traversal

/-- A search for the parameters of an invoke element finds each of them, and nothing in
what stands between them. -/
theorem Invoke.findall (invoke : Invoke) : PARAMETER_PATTERN.findall invoke.body =
    invoke.parameters.values.map fun parameter => [parameter.opening.name, parameter.value] := by
  refine Separated.findall _ (fun parameter => ?_) (fun parameter _ => parameter.first) (fun space _ _ => ?_)
    fun space => ?_
  · exact List.append_ne_nil_of_left_ne_nil (parameter.opening.ne_nil ⟨by decide, by decide⟩) _
  · exact free_space starts_parameter space
  · exact free_space starts_parameter space

/-- The pattern of `invoke` finds the invokes of a block, each with its name and its
body, and nothing between them. -/
theorem FunctionCalls.findall (block : FunctionCalls) : INVOKE_PATTERN.findall block.body =
    block.invokes.values.map fun invoke => [invoke.opening.name, invoke.body] := by
  have hstarts : Starts '<' INVOKE_PATTERN := starts_named "invoke".toList _ (by decide)
  refine Separated.findall _ (fun invoke => ?_) (fun invoke _ => invoke.first) (fun space _ _ => ?_)
    fun space => ?_
  · exact List.append_ne_nil_of_left_ne_nil (invoke.opening.ne_nil ⟨by decide, by decide⟩) _
  · exact free_space hstarts space
  · exact free_space hstarts space

/-- No block starts in prose, whatever stands in it and comes after it, so the search
finds exactly the blocks of the message. -/
theorem TextMessage.findall (message : TextMessage) :
    FUNCTION_CALLS_PATTERN.findall (Separated.text FunctionCalls.chars Subtype.val message) =
      message.values.map fun block => [block.body] := by
  have hopening : IsTag "<function_calls>" := ⟨by decide, by decide⟩
  refine Separated.findall _ (fun block => ?_) (fun block _ => block.first) (fun prose block _ => ?_)
    fun prose => ?_
  · exact List.append_ne_nil_of_left_ne_nil (Spelling.ne_nil block.opening hopening) _
  · refine Free.seq (free_absent hopening prose.property ?_)
    rw [FunctionCalls.chars, List.append_assoc]
    exact Spelling.next block.opening hopening
  · refine Free.seq (free_absent hopening prose.property ?_)
    rintro d s ⟨⟩

namespace Decoder

variable (decoder : Decoder)

/-- The name of an element, trimmed and unescaped. -/
def name_of (raw : List Char) : Except DecodeException String := decoder.unescape (strip (String.ofList raw))

/-- The call has the name of the element and, under each key, what `_parse_parameter`
makes of the last parameter of that name. -/
structure Reads (invoke : Invoke) (call : Call) : Prop where
  name : decoder.name_of invoke.opening.name = .ok call.name
  input : ∀ key, (call.input.get? key).map .ok =
    ((invoke.parameters.values.filter fun parameter =>
      decoder.name_of parameter.opening.name = .ok key).getLast?).map
        fun parameter => decoder._parse_parameter (String.ofList parameter.value)

/-- `html.unescape` returns for this value, and `json.loads` raises nothing but a
JSONDecodeError. -/
def Decodable (value : String) : Prop :=
  ∃ decoded, decoder.unescape (strip value) = .ok decoded ∧
    ∀ exc, decoder.loads decoded = .error exc → exc = .JSONDecodeError

/-- Nothing raises for the names and the values of an element. -/
structure Decodes (invoke : Invoke) : Prop where
  name : ∃ name, decoder.name_of invoke.opening.name = .ok name
  keys : ∀ parameter ∈ invoke.parameters.values, ∃ key, decoder.name_of parameter.opening.name = .ok key
  values : ∀ parameter ∈ invoke.parameters.values, decoder.Decodable (String.ofList parameter.value)

variable {decoder}

private theorem load_eq_ok {decoded : String} :
    (∃ value, decoder.load decoded = .ok value) ↔
      ∀ exc, decoder.loads decoded = .error exc → exc = .JSONDecodeError := by
  unfold load
  cases hloads : decoder.loads decoded with
  | ok value => simp
  | error exc => cases exc <;> simp

private theorem parse_parameter_eq_ok {value : String} :
    (∃ parsed, decoder._parse_parameter value = .ok parsed) ↔ decoder.Decodable value := by
  change (∃ parsed, (decoder.unescape (strip value)).bind decoder.load = .ok parsed) ↔ _
  simp only [bind_eq_ok, Decodable, ← load_eq_ok]
  constructor
  · rintro ⟨parsed, decoded, hdecoded, hparsed⟩
    exact ⟨decoded, hdecoded, parsed, hparsed⟩
  · rintro ⟨decoded, hdecoded, parsed, hparsed⟩
    exact ⟨parsed, decoded, hdecoded, hparsed⟩

private theorem parse_item_eq_ok {raw_key raw_value : String} {item : String × Json} :
    decoder._parse_item raw_key raw_value = .ok item ↔
      decoder.unescape (strip raw_key) = .ok item.1 ∧ decoder._parse_parameter raw_value = .ok item.2 := by
  change (decoder.unescape (strip raw_key)).bind (fun key =>
    (decoder._parse_parameter raw_value).bind fun value => .ok (key, value)) = .ok item ↔ _
  simp only [bind_eq_ok]
  constructor
  · rintro ⟨key, hkey, value, hvalue, heq⟩
    cases heq
    exact ⟨hkey, hvalue⟩
  · rintro ⟨hkey, hvalue⟩
    exact ⟨item.1, hkey, item.2, hvalue, rfl⟩

/-- The items of an element are its parameters, in their order, read one after the other
once the name is. -/
theorem parse_invoke_parameters (invoke : Invoke) :
    decoder._parse_invoke (String.ofList invoke.opening.name) (String.ofList invoke.body) =
      (decoder.name_of invoke.opening.name).bind fun name =>
        (invoke.parameters.values.mapM fun parameter =>
          decoder._parse_item (String.ofList parameter.opening.name) (String.ofList parameter.value)).bind fun items =>
            .ok { name, input := .ofPairs items } := by
  have hpairs : pairs PARAMETER_PATTERN (String.ofList invoke.body) =
      invoke.parameters.values.map fun parameter =>
        (String.ofList parameter.opening.name, String.ofList parameter.value) := by
    rw [pairs, String.toList_ofList, invoke.findall, List.filterMap_map, ← List.filterMap_eq_map]
    rfl
  rw [_parse_invoke, hpairs, List.mapM_map]
  rfl

private theorem parse_one_parameter {invoke : Invoke} {parameter : Parameter} {name key : String}
    (hparameters : invoke.parameters.values = [parameter])
    (hname : decoder.name_of invoke.opening.name = .ok name)
    (hkey : decoder.name_of parameter.opening.name = .ok key) :
    decoder._parse_invoke (String.ofList invoke.opening.name) (String.ofList invoke.body) =
      (decoder._parse_parameter (String.ofList parameter.value)).map fun value =>
        ⟨name, .ofPairs [(key, value)]⟩ := by
  rw [name_of] at hkey
  rw [parse_invoke_parameters, hparameters, hname, List.mapM_cons, List.mapM_nil, _parse_item, hkey]
  cases decoder._parse_parameter (String.ofList parameter.value) <;> rfl

/-- An element gives a call when its name, its keys and its values are read. The call is
what they are read as. -/
theorem parse_invoke_items (invoke : Invoke) (call : Call) :
    decoder._parse_invoke (String.ofList invoke.opening.name) (String.ofList invoke.body) = .ok call ↔
      decoder.name_of invoke.opening.name = .ok call.name ∧ ∃ items, call.input = .ofPairs items ∧
        List.Forall₂ (fun (parameter : Parameter) item => decoder._parse_item (String.ofList parameter.opening.name)
          (String.ofList parameter.value) = .ok item) invoke.parameters.values items := by
  simp only [parse_invoke_parameters, bind_eq_ok, mapM_eq_ok]
  constructor
  · rintro ⟨name, hname, items, hread, heq⟩
    cases heq
    exact ⟨hname, items, rfl, hread⟩
  · obtain ⟨name, input⟩ := call
    rintro ⟨hname, items, hinput, hread⟩
    exact ⟨name, hname, items, hread, by rw [← hinput]⟩

/-- The last parameter of a name gives the value under it. -/
private theorem last_of_items {parameters : List Parameter} {items : List (String × Json)}
    (hread : List.Forall₂ (fun (parameter : Parameter) item => decoder._parse_item
      (String.ofList parameter.opening.name) (String.ofList parameter.value) = .ok item) parameters items)
    (key : String) :
    ((items.filter fun item => item.1 = key).map fun item => Except.ok (ε := DecodeException) item.2) =
      (parameters.filter fun parameter => decoder.name_of parameter.opening.name = .ok key).map
        fun parameter => decoder._parse_parameter (String.ofList parameter.value) := by
  induction hread with
  | nil => rfl
  | cons hitem _ ih =>
    obtain ⟨hkey, hvalue⟩ := parse_item_eq_ok.mp hitem
    change decoder.name_of _ = _ at hkey
    simp only [List.filter_cons, hkey, Except.ok.injEq]
    split
    · rw [List.map_cons, List.map_cons, ih, hvalue]
    · exact ih

/-- The call of an element has its name, and under each key the last of its values. -/
theorem reads_of_parse {invoke : Invoke} {call : Call}
    (hparse : decoder._parse_invoke (String.ofList invoke.opening.name) (String.ofList invoke.body) = .ok call) :
    decoder.Reads invoke call := by
  obtain ⟨hname, items, hinput, hread⟩ := (parse_invoke_items invoke call).mp hparse
  refine ⟨hname, fun key => ?_⟩
  rw [← List.getLast?_map, ← last_of_items hread, hinput, Table.get?_ofPairs, List.getLast?_map, Option.map_map]
  rfl

/-- An element is parsed when nothing raises for what stands in it, neither the
unescaping nor `json.loads`. -/
theorem exists_parse_iff (invoke : Invoke) :
    (∃ call, decoder._parse_invoke (String.ofList invoke.opening.name) (String.ofList invoke.body) = .ok call) ↔
      decoder.Decodes invoke := by
  simp only [parse_invoke_items]
  constructor
  · rintro ⟨call, hname, items, -, hread⟩
    have hitems : ∀ parameter ∈ invoke.parameters.values, ∃ item : String × Json, decoder._parse_item
        (String.ofList parameter.opening.name) (String.ofList parameter.value) = .ok item :=
      exists_mapM_eq_ok.mp ⟨items, mapM_eq_ok.mpr hread⟩
    refine ⟨⟨_, hname⟩, fun parameter hmem => ?_, fun parameter hmem => ?_⟩
    all_goals
      obtain ⟨item, hitem⟩ := hitems parameter hmem
      obtain ⟨hkey, hvalue⟩ := parse_item_eq_ok.mp hitem
    · exact ⟨_, hkey⟩
    · exact parse_parameter_eq_ok.mp ⟨_, hvalue⟩
  · rintro ⟨⟨name, hname⟩, hkeys, hvalues⟩
    have hitems : ∀ parameter ∈ invoke.parameters.values, ∃ item : String × Json, decoder._parse_item
        (String.ofList parameter.opening.name) (String.ofList parameter.value) = .ok item := by
      intro parameter hmem
      obtain ⟨key, hkey⟩ := hkeys parameter hmem
      obtain ⟨value, hvalue⟩ := parse_parameter_eq_ok.mpr (hvalues parameter hmem)
      exact ⟨(key, value), parse_item_eq_ok.mpr ⟨hkey, hvalue⟩⟩
    obtain ⟨items, hread⟩ := exists_mapM_eq_ok.mpr hitems
    exact ⟨⟨name, .ofPairs items⟩, hname, items, rfl, mapM_eq_ok.mp hread⟩

/-- The parse of a message goes through the invoke elements of its blocks, in their
order; prose adds none. -/
theorem parse_invokes (message : TextMessage) :
    decoder._parse_text_tool_calls message.text = message.invokes.mapM fun invoke =>
      decoder._parse_invoke (String.ofList invoke.opening.name) (String.ofList invoke.body) := by
  have htexts : texts FUNCTION_CALLS_PATTERN message.text =
      message.values.map fun block => String.ofList block.body := by
    rw [texts, TextMessage.text, String.toList_ofList, message.findall, List.flatMap_map]
    exact List.flatMap_pure_eq_map _ _
  have hpairs (block : FunctionCalls) : pairs INVOKE_PATTERN (String.ofList block.body) =
      block.invokes.values.map fun invoke => (String.ofList invoke.opening.name, String.ofList invoke.body) := by
    rw [pairs, String.toList_ofList, block.findall, List.filterMap_map, ← List.filterMap_eq_map]
    rfl
  have hall : ((texts FUNCTION_CALLS_PATTERN message.text).flatMap fun function_body =>
      pairs INVOKE_PATTERN function_body) = message.invokes.map fun invoke =>
        (String.ofList invoke.opening.name, String.ofList invoke.body) := by
    rw [htexts, List.flatMap_map, TextMessage.invokes, List.map_flatMap]
    exact List.flatMap_congr fun block _ => hpairs block
  rw [_parse_text_tool_calls, hall, List.mapM_map]
  rfl

/-- The calls parsed from a message are those of the invoke elements of its blocks,
in their order, exactly when nothing raises for a name, a key or a value of one of
them. What one element raises takes the calls of all others with it. -/
theorem parse_message (message : TextMessage) :
    (∃ calls, decoder._parse_text_tool_calls message.text = .ok calls ∧
        List.Forall₂ decoder.Reads message.invokes calls) ↔
      ∀ invoke ∈ message.invokes, decoder.Decodes invoke := by
  simp only [parse_invokes, ← exists_parse_iff]
  constructor
  · rintro ⟨calls, hcalls, -⟩
    exact exists_mapM_eq_ok.mp ⟨calls, hcalls⟩
  · intro hdecodes
    obtain ⟨calls, hcalls⟩ := exists_mapM_eq_ok.mpr hdecodes
    exact ⟨calls, hcalls, (mapM_eq_ok.mp hcalls).imp fun _ _ => reads_of_parse⟩

end Decoder

/-- A value without a bracket closes nothing. -/
private theorem unclosed_of_plain {value : List Char} (h : '<' ∉ value) :
    ∀ w ∈ ["</parameter>", "</invoke>", "</function_calls>"], ¬ Contains ignorecase w.toList value := by
  have hnone : ∀ w, IsTag w → ¬ Contains ignorecase w.toList value := by
    rintro w hw ⟨u, hinside, hspells⟩
    obtain ⟨v, rfl, -⟩ := hw.spelled hspells
    exact h (hinside.subset List.mem_cons_self)
  simp only [List.forall_mem_cons, List.not_mem_nil, false_implies, implies_true, and_true]
  exact ⟨hnone _ isTag_parameter_close, hnone _ isTag_invoke_close, hnone _ isTag_block_close⟩

def bash_parameter (command : List Char) (h : '<' ∉ command) : Parameter where
  opening := ⟨⟨"<parameter".toList, by decide⟩, ⟨" ".toList, by decide⟩, by decide,
    ⟨"name=".toList, by decide⟩, (⟨'"', rfl⟩, ⟨'"', rfl⟩), "command".toList, by decide,
    List.all_iff_forall_prop.mp (by decide)⟩
  value := command
  closing := ⟨"</parameter>".toList, by decide⟩
  unclosed := unclosed_of_plain h

/-- A call of bash with this command, as a model writes it. -/
def bash_invoke (command : List Char) (h : '<' ∉ command) : Invoke where
  opening := ⟨⟨"<invoke".toList, by decide⟩, ⟨" ".toList, by decide⟩, by decide,
    ⟨"name=".toList, by decide⟩, (⟨'"', rfl⟩, ⟨'"', rfl⟩), "bash".toList, by decide,
    List.all_iff_forall_prop.mp (by decide)⟩
  parameters := ⟨⟨[], by simp⟩, [(bash_parameter command h, ⟨[], by simp⟩)]⟩
  closing := ⟨"</invoke>".toList, by decide⟩

/-- A block of calls of bash. -/
def bash_message (commands : List { command : List Char // '<' ∉ command }) : TextMessage :=
  ⟨⟨[], by decide +kernel⟩, [(
    { opening := ⟨"<function_calls>".toList, by decide⟩
      invokes := ⟨⟨[], by simp⟩, commands.map fun command => (bash_invoke command.val command.property, ⟨[], by simp⟩)⟩
      closing := ⟨"</function_calls>".toList, by decide⟩ }, ⟨[], by decide +kernel⟩)]⟩

/-- A decoder of texts without entities. `int` converts at most 4300 digits. -/
def digit_decoder : Decoder where
  unescape := .ok
  loads s :=
    if s.toList ≠ [] ∧ s.toList.all (fun c => '0' ≤ c && c ≤ '9') then
      if s.toList.length ≤ 4300 then
        .ok (.int (s.toList.foldl (fun n c => 10 * n + (c.toNat - '0'.toNat)) 0))
      else .error .ValueError
    else .error .JSONDecodeError

/-- A text of too many digits raises. -/
private theorem parse_digits {n : Nat} (h : 4300 < n) :
    digit_decoder._parse_parameter (String.ofList (List.replicate n '1')) = .error .ValueError := by
  have hspace : isspace '1' = false := by decide
  have hstrip : strip (String.ofList (List.replicate n '1')) = String.ofList (List.replicate n '1') := by
    rw [strip, String.toList_ofList, List.dropWhile_replicate, hspace, if_neg (by simp), List.rdropWhile,
      List.reverse_replicate, List.dropWhile_replicate, hspace, if_neg (by simp), List.reverse_replicate]
  have hloads : digit_decoder.loads (String.ofList (List.replicate n '1')) = .error .ValueError := by
    have hdigits : List.replicate n '1' ≠ [] ∧
        (List.replicate n '1').all (fun c => '0' ≤ c && c ≤ '9') = true := by
      refine ⟨fun hnil => ?_, List.all_eq_true.mpr fun c hc => ?_⟩
      · rw [List.replicate_eq_nil_iff] at hnil
        omega
      · rw [List.eq_of_mem_replicate hc]
        decide
    simp only [digit_decoder, String.toList_ofList, List.length_replicate]
    rw [if_pos hdigits, if_neg (by omega)]
  rw [Decoder._parse_parameter, hstrip]
  change digit_decoder.load (String.ofList (List.replicate n '1')) = _
  rw [Decoder.load, hloads]

private theorem parse_bash_invoke (command : List Char) (h : '<' ∉ command) :
    digit_decoder._parse_invoke (String.ofList (bash_invoke command h).opening.name)
        (String.ofList (bash_invoke command h).body) =
      (digit_decoder._parse_parameter (String.ofList command)).map fun value =>
        ⟨"bash", .ofPairs [("command", value)]⟩ := by
  have hname : digit_decoder.name_of (bash_invoke command h).opening.name = .ok "bash" := by
    change digit_decoder.name_of "bash".toList = _
    rw [Decoder.name_of, show strip (String.ofList "bash".toList) = "bash" by decide +kernel]
    rfl
  have hkey : digit_decoder.name_of (bash_parameter command h).opening.name = .ok "command" := by
    change digit_decoder.name_of "command".toList = _
    rw [Decoder.name_of, show strip (String.ofList "command".toList) = "command" by decide +kernel]
    rfl
  have hparameters : (bash_invoke command h).parameters.values = [bash_parameter command h] := rfl
  exact (Decoder.parse_one_parameter hparameters hname hkey :)

/-- A call of `ls` and a call with a command of that many digits. -/
def two_calls (n : Nat) : TextMessage :=
  bash_message [⟨"ls".toList, by decide⟩,
    ⟨List.replicate n '1', fun hmem => absurd (List.eq_of_mem_replicate hmem) (by decide)⟩]

example : (two_calls 3).text =
    "<function_calls><invoke name=\"bash\"><parameter name=\"command\">ls</parameter></invoke>" ++
      "<invoke name=\"bash\"><parameter name=\"command\">111</parameter></invoke></function_calls>" := by
  decide +kernel

/-- A command of 4301 digits is a text that `json.loads` refuses with a ValueError:
the parser raises it, and the call of `ls` before it is lost. -/
theorem parse_message_raises :
    (two_calls 4301).invokes.length = 2 ∧
      digit_decoder._parse_text_tool_calls (two_calls 4301).text = .error .ValueError ∧
      ¬ ∃ calls, digit_decoder._parse_text_tool_calls (two_calls 4301).text = .ok calls ∧
        List.Forall₂ digit_decoder.Reads (two_calls 4301).invokes calls := by
  have hls : digit_decoder._parse_parameter (String.ofList "ls".toList) = .ok (.string "ls") := by
    have hstrip : strip (String.ofList "ls".toList) = "ls" := by decide +kernel
    rw [Decoder._parse_parameter, hstrip]
    rfl
  have hinvokes : (two_calls 4301).invokes = [bash_invoke "ls".toList (by decide),
      bash_invoke (List.replicate 4301 '1') fun hmem => absurd (List.eq_of_mem_replicate hmem) (by decide)] := rfl
  have hraises : digit_decoder._parse_text_tool_calls (two_calls 4301).text = .error .ValueError := by
    rw [Decoder.parse_invokes, hinvokes, List.mapM_cons, List.mapM_cons, parse_bash_invoke, parse_bash_invoke, hls,
      parse_digits (by decide)]
    rfl
  refine ⟨rfl, hraises, ?_⟩
  rintro ⟨calls, hcalls, -⟩
  cases hraises.symm.trans hcalls

/-- A call in capitals and single quotes, and prose that looks like a result. -/
example : ∃ message : TextMessage, message.invokes.length = 1 ∧
    message.text = "<FUNCTION_CALLS>\n<Invoke name='bash'><parameter  name=\"command\">ls <x></parameter> </invoke>" ++
      "</function_calls><parameter name=\"output\">fabricated</parameter>" := by
  let parameter : Parameter :=
    { opening := ⟨⟨"<parameter".toList, by decide⟩, ⟨"  ".toList, by decide⟩, by decide,
        ⟨"name=".toList, by decide⟩, (⟨'"', rfl⟩, ⟨'"', rfl⟩), "command".toList, by decide,
        List.all_iff_forall_prop.mp (by decide)⟩
      value := "ls <x>".toList
      closing := ⟨"</parameter>".toList, by decide⟩
      unclosed := by decide +kernel }
  let invoke : Invoke :=
    { opening := ⟨⟨"<Invoke".toList, by decide⟩, ⟨" ".toList, by decide⟩, by decide,
        ⟨"name=".toList, by decide⟩, (⟨'\x27', rfl⟩, ⟨'\x27', rfl⟩), "bash".toList, by decide,
        List.all_iff_forall_prop.mp (by decide)⟩
      parameters := ⟨⟨[], by simp⟩, [(parameter, ⟨" ".toList, by decide⟩)]⟩
      closing := ⟨"</invoke>".toList, by decide⟩ }
  let block : FunctionCalls :=
    { opening := ⟨"<FUNCTION_CALLS>".toList, by decide⟩
      invokes := ⟨⟨"\n".toList, by decide⟩, [(invoke, ⟨[], by simp⟩)]⟩
      closing := ⟨"</function_calls>".toList, by decide⟩ }
  exact ⟨⟨⟨[], by decide +kernel⟩,
    [(block, ⟨"<parameter name=\"output\">fabricated</parameter>".toList, by decide +kernel⟩)]⟩,
    rfl, by decide +kernel⟩

end anthropic

end session_manager

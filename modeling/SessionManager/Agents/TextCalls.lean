import SessionManager.Agents.Text
import SessionManager.Library.Traversal

namespace session_manager

namespace anthropic

open Regex remote_tools

/-- How a value stands in a parameter: a string as it is, another value as JSON. -/
def written (dumps : Json → String) : Json → String
  | .string s => s
  | value => dumps value

def parameter_text (key value : String) : String :=
  "<parameter name=\"" ++ escape key ++ "\">" ++ escape value ++ "</parameter>"

/-- The text of a call, with its names and values escaped. -/
def call_text (dumps : Json → String) (call : Call) : String :=
  "<function_calls><invoke name=\"" ++ escape call.name ++ "\">" ++
    String.join (call.input.rows.map fun (key, value) => parameter_text key (written dumps value)) ++
    "</invoke></function_calls>"

section Patterns

variable {r : Regex} {w k v n rest u : List Char}

/-- Ignoring case, every letter still matches itself. -/
@[simp] theorem ignorecase_self (c : Char) : ignorecase c c = true := by simp [ignorecase]

private theorem ignorecase_of_isspace {c : Char} (h : isspace c = true) : ignorecase 'n' c = false := by
  have hne : c ≠ 'n' ∧ c ≠ 'N' := by
    constructor <;> rintro rfl <;> revert h <;> decide
  have hupper : 'n'.toUpper = 'N' := by decide
  simp [ignorecase, hne, hupper]

/-- Only a bracket is taken for a bracket: case plays no part in it, nor does any letter
outside ASCII. -/
theorem ignorecase_bracket {c : Char} : ignorecase '<' c = true ↔ c = '<' := by
  have hupper : '<'.toUpper = '<' := by decide
  simp [ignorecase, hupper]

/-- An opening tag as the patterns take it: letters of either case, white space, and any
two quotes around a name. An empty name does not match. -/
theorem attempts_opening {w : String} {start space key : List Char} {q q' : Char}
    (hstart : Spells ignorecase w.toList start) (hnonempty : space ≠ [])
    (hspace : ∀ c ∈ space, isspace c = true) (hkey : Spells ignorecase "name=".toList key)
    (hq : quote q = true) (hq' : quote q' = true) (hk : ∀ c ∈ k, quote c = false) :
    (named w).attempts (start ++ (space ++ (key ++ (q :: (k ++ (q' :: '>' :: rest)))))) =
      if k = [] then [] else [([k], rest)] := by
  have hname : "name=".toList = 'n' :: "ame=".toList := by decide
  have hspaces (c : Char) (s : List Char) (hc : isspace c = true) :
      (seq (tag "name=") (seq (char quote) (seq (group (plus fun c => !quote c))
        (seq (char quote) (tag ">"))))).attempts (c :: s) = [] := by
    apply attempts_seq_of_nil
    rw [tag, hname, attempts_literal_cons, ignorecase_of_isspace hc]
    rfl
  rw [named, tag, attempts_seq_of_single (attempts_spelled hstart)]
  rw [attempts_plus_seq hnonempty hspace ?_ hspaces]
  · have hquote : (char quote).attempts (q :: (k ++ (q' :: '>' :: rest))) = [([], k ++ (q' :: '>' :: rest))] := by
      rw [attempts, if_pos hq]
    rw [tag, attempts_seq_of_single (attempts_spelled hkey), attempts_seq_of_single hquote]
    have hstop (c : Char) (s : List Char) (h : q' :: '>' :: rest = c :: s) : (!quote c) = false := by
      cases h
      simp [hq']
    split
    · rename_i hempty
      subst hempty
      rw [attempts_seq_of_nil]
      · rfl
      · rw [attempts, List.nil_append, attempts_plus_of_not hstop]
        rfl
    · rename_i hne
      rw [attempts_group_plus_seq hne (by simpa using hk) hstop]
      · have hquote' : (char quote).attempts (q' :: '>' :: rest) = [([], '>' :: rest)] := by
          rw [attempts, if_pos hq']
        have hclose : (tag ">").attempts ('>' :: rest) = [([], rest)] :=
          attempts_literal (w := ['>']) fun c _ => ignorecase_self c
        rw [attempts_seq_of_single hquote', hclose]
        rfl
      · intro c s hc
        apply attempts_seq_of_nil
        rw [attempts, if_neg (by simpa using hc)]
  · rintro c s hs
    rw [hname] at hkey
    obtain ⟨d, key, hsame, -, rfl⟩ := List.forall₂_cons_left_iff.mp hkey
    obtain rfl : d = c := by
      rw [List.cons_append] at hs
      exact (List.cons.inj hs).1
    by_contra hc
    rw [Bool.not_eq_false] at hc
    rw [ignorecase_of_isspace hc] at hsame
    cases hsame

/-- A tag whose name is free of quotes gives the name, and none if it is empty. -/
private theorem attempts_named {w : String} (hk : ∀ c ∈ k, quote c = false) :
    (named w).attempts (w.toList ++ " name=\"".toList ++ k ++ "\">".toList ++ rest) =
      if k = [] then [] else [([k], rest)] := by
  have hlayout : w.toList ++ " name=\"".toList ++ k ++ "\">".toList ++ rest =
      w.toList ++ ([' '] ++ ("name=".toList ++ ('"' :: (k ++ ('"' :: '>' :: rest))))) := by
    simp
  have hself (w : List Char) : Spells ignorecase w w := List.forall₂_same.mpr fun c _ => ignorecase_self c
  rw [hlayout]
  exact attempts_opening (hself _) (by simp) (by decide) (hself _) (by decide) (by decide) hk

private theorem first_named {w : String} {t : Regex} (hk : ∀ c ∈ k, quote c = false) :
    (seq (named w) t).first (w.toList ++ " name=\"".toList ++ k ++ "\">".toList ++ rest) =
      if k = [] then none else (t.first rest).map fun a => (k :: a.1, a.2) := by
  split
  · rename_i hempty
    exact first_seq_of_nil (by rw [attempts_named hk, if_pos hempty])
  · rename_i hnonempty
    have hattempts : (named w).attempts (w.toList ++ " name=\"".toList ++ k ++ "\">".toList ++ rest) =
        [([k], rest)] := by
      rw [attempts_named hk, if_neg hnonempty]
    exact first_seq_of_single hattempts

/-- A word that has no match where it is tried has no first one there. -/
theorem first_literal {w : List Char} (h : (literal ignorecase w).attempts u = []) :
    (literal ignorecase w).first u = none := by
  rw [first, h, List.head?_nil]

/-- A closing tag starts with a bracket and matches nowhere else, in whichever case its
letters are. -/
theorem starts_close (w : List Char) : Starts '<' (literal ignorecase ('<' :: w)) := by
  intro d s hd
  rw [first, attempts_literal_cons, if_neg (by rwa [ignorecase_bracket]), List.head?_nil]

/-- A word does not match where one of its characters meets another. -/
private theorem attempts_mismatch (before : List Char) {c d : Char} (h : ignorecase c d = false) :
    (literal ignorecase (before ++ c :: w)).attempts (before ++ d :: u) = [] := by
  induction before with
  | nil => rw [List.nil_append, List.nil_append, attempts_literal_cons, h]; rfl
  | cons e before ih =>
    rw [List.cons_append, List.cons_append, attempts_literal_cons, if_pos (ignorecase_self e)]
    exact ih

/-- No match starts in a tag if none starts where it does: a tag has one bracket. -/
theorem free_tag (hstarts : Starts '<' r) (hu : ∀ d ∈ u, d ≠ '<')
    (hfirst : r.first ('<' :: (u ++ rest)) = none) : Free r ('<' :: u) rest :=
  .cons hfirst (hstarts.free hu)

/-- A lazy group of anything up to a closing tag. -/
private theorem first_anything {close : List Char}
    (hfree : Free (literal ignorecase close) u (close ++ rest)) :
    (seq anything (literal ignorecase close)).first (u ++ (close ++ rest)) = some ([u], rest) := by
  apply first_lazy_seq hfree
  rw [first, attempts_literal fun c _ => ignorecase_self c, List.head?_cons]

/-- A parameter element, with its name and value escaped already. -/
def parameter (k v : List Char) : List Char :=
  "<parameter".toList ++ " name=\"".toList ++ k ++ "\">".toList ++ v ++ "</parameter>".toList

/-- Texts without brackets and quotes. -/
def Plain (u : List Char) : Prop := ∀ c ∈ u, c ∉ ['<', '>', '"', '\x27']

/-- Escaped text has no quotes, so a name ends at the quote that was written after it,
and not before. -/
theorem Plain.quote (h : Plain u) : ∀ c ∈ u, quote c = false := by
  intro c hc
  have hnot := h c hc
  simp only [List.mem_cons, not_or] at hnot
  simp [anthropic.quote, hnot]

/-- Escaped text has no brackets, so no tag starts in it, and a lazy group goes on to
the tag behind it. -/
theorem Plain.bracket (h : Plain u) : ∀ c ∈ u, c ≠ '<' := by
  rintro c hc rfl
  exact h '<' hc (by simp)

private theorem first_parameter (hk : Plain k) (hv : Plain v) :
    PARAMETER_PATTERN.first (parameter k v ++ rest) =
      if k = [] then none else some ([k, v], rest) := by
  have hlayout : parameter k v ++ rest = "<parameter".toList ++ " name=\"".toList ++ k ++ "\">".toList ++
      (v ++ ("</parameter>".toList ++ rest)) := by
    unfold parameter
    rw [List.append_assoc, List.append_assoc]
  have hclose : Free (literal ignorecase "</parameter>".toList) v ("</parameter>".toList ++ rest) :=
    (starts_close _).free hv.bracket
  rw [hlayout, PARAMETER_PATTERN, first_named hk.quote, tag, first_anything hclose]
  rfl

/-- A pattern that begins with a tag starts with a bracket, whatever follows the tag. -/
theorem starts_named (w : List Char) (t : Regex) {w' : String} (hw : w'.toList = '<' :: w) :
    Starts '<' (seq (named w') t) := by
  intro d s hd
  apply first_seq_of_nil
  rw [named, attempts_seq_of_nil]
  rw [tag, hw, attempts_literal_cons, if_neg (by rwa [ignorecase_bracket])]

/-- The pattern of a parameter starts with a bracket. -/
theorem starts_parameter : Starts '<' PARAMETER_PATTERN :=
  starts_named "parameter".toList _ (by decide)

private theorem first_named_mismatch {w : String} {t : Regex} (h : (tag w).attempts u = []) :
    (seq (named w) t).first u = none :=
  first_seq_of_nil (attempts_seq_of_nil h)

private theorem first_parameter_close : PARAMETER_PATTERN.first ("</parameter>".toList ++ rest) = none := by
  apply first_named_mismatch
  exact attempts_mismatch ['<'] (by decide)

/-- An expression that starts neither with the opening nor with the closing tag
matches nowhere in a parameter. -/
private theorem free_parameter (hstarts : Starts '<' r) (hk : Plain k) (hv : Plain v)
    (hopen : r.first (parameter k v ++ rest) = none)
    (hclose : r.first ("</parameter>".toList ++ rest) = none) : Free r (parameter k v) rest := by
  have hlayout : parameter k v =
      ('<' :: ("parameter".toList ++ " name=\"".toList ++ k ++ "\">".toList ++ v)) ++
        '<' :: "/parameter>".toList := by
    have htag : "<parameter".toList = '<' :: "parameter".toList := by decide
    have htag' : "</parameter>".toList = '<' :: "/parameter>".toList := by decide
    unfold parameter
    rw [htag, htag']
    rfl
  rw [hlayout, List.append_assoc] at hopen
  rw [hlayout]
  refine .append (free_tag hstarts ?_ hopen) (free_tag hstarts (List.all_iff_forall_prop.mp (by decide)) hclose)
  intro d hd
  simp only [List.mem_append] at hd
  rcases hd with (((hd | hd) | hd) | hd) | hd
  · revert d
    exact List.all_iff_forall_prop.mp (by decide)
  · revert d
    exact List.all_iff_forall_prop.mp (by decide)
  · exact hk.bracket d hd
  · revert d
    exact List.all_iff_forall_prop.mp (by decide)
  · exact hv.bracket d hd

/-- The parameters found are those with a name, in order and with their text as it was
written. -/
theorem findall_parameters {rows : List (List Char × List Char)}
    (hplain : ∀ row ∈ rows, Plain row.1 ∧ Plain row.2) :
    PARAMETER_PATTERN.findall (rows.flatMap fun row => parameter row.1 row.2) =
      (rows.filter fun row => row.1 ≠ []).map fun row => [row.1, row.2] := by
  induction rows with
  | nil => rfl
  | cons row rows ih =>
    obtain ⟨⟨hk, hv⟩, hrows⟩ := List.forall_mem_cons.mp hplain
    have hfirst := @first_parameter row.1 row.2 (rows.flatMap fun row => parameter row.1 row.2) hk hv
    rw [List.flatMap_cons]
    by_cases hname : row.1 = []
    · rw [if_pos hname] at hfirst
      rw [findall_free, ih hrows]
      · simp [hname]
      · exact free_parameter starts_parameter hk hv hfirst first_parameter_close
    · rw [if_neg hname] at hfirst
      have hnonempty : parameter row.1 row.2 ≠ [] :=
        List.append_ne_nil_of_right_ne_nil _ (by decide)
      rw [findall_match hnonempty hfirst, ih hrows]
      simp [hname]

variable {rows : List (List Char × List Char)}

def parameters (rows : List (List Char × List Char)) : List Char :=
  rows.flatMap fun row => parameter row.1 row.2

private theorem free_parameters (hstarts : Starts '<' r) (hopen : ∀ u, r.first ('<' :: 'p' :: u) = none)
    (hclose : ∀ u, r.first ('<' :: '/' :: 'p' :: u) = none)
    (hplain : ∀ row ∈ rows, Plain row.1 ∧ Plain row.2) : Free r (parameters rows) rest := by
  have htag : "<parameter".toList = '<' :: 'p' :: "arameter".toList := by decide
  have htag' : "</parameter>".toList = '<' :: '/' :: 'p' :: "arameter>".toList := by decide
  induction rows with
  | nil =>
    intro v hv hnonempty
    exact absurd (List.suffix_nil.mp hv) hnonempty
  | cons row rows ih =>
    obtain ⟨⟨hk, hv⟩, hrows⟩ := List.forall_mem_cons.mp hplain
    refine .append (free_parameter hstarts hk hv ?_ ?_) (ih hrows)
    · unfold parameter
      rw [htag]
      exact hopen _
    · rw [htag']
      exact hclose _

/-- An invoke element, with its name escaped already. -/
def invoke (n : List Char) (rows : List (List Char × List Char)) : List Char :=
  "<invoke".toList ++ " name=\"".toList ++ n ++ "\">".toList ++ parameters rows ++ "</invoke>".toList

private theorem first_invoke (hn : Plain n) (hplain : ∀ row ∈ rows, Plain row.1 ∧ Plain row.2) :
    INVOKE_PATTERN.first (invoke n rows ++ rest) =
      if n = [] then none else some ([n, parameters rows], rest) := by
  have hlayout : invoke n rows ++ rest = "<invoke".toList ++ " name=\"".toList ++ n ++ "\">".toList ++
      (parameters rows ++ ("</invoke>".toList ++ rest)) := by
    unfold invoke
    rw [List.append_assoc, List.append_assoc]
  have hclose : Free (literal ignorecase "</invoke>".toList) (parameters rows)
      ("</invoke>".toList ++ rest) := by
    refine free_parameters (starts_close _) (fun u => first_literal ?_) (fun u => first_literal ?_) hplain
    · exact attempts_mismatch ['<'] (by decide)
    · exact attempts_mismatch ['<', '/'] (by decide)
  rw [hlayout, INVOKE_PATTERN, first_named hn.quote, tag, first_anything hclose]
  rfl

private theorem free_invoke (hstarts : Starts '<' r) (hopen : ∀ u, r.first ('<' :: 'p' :: u) = none)
    (hclose : ∀ u, r.first ('<' :: '/' :: 'p' :: u) = none)
    (hinvoke : ∀ u, r.first ('<' :: '/' :: 'i' :: u) = none)
    (hn : Plain n) (hplain : ∀ row ∈ rows, Plain row.1 ∧ Plain row.2)
    (hfirst : r.first (invoke n rows ++ rest) = none) : Free r (invoke n rows) rest := by
  have hlayout : invoke n rows =
      ('<' :: ("invoke".toList ++ " name=\"".toList ++ n ++ "\">".toList)) ++
        (parameters rows ++ '<' :: "/invoke>".toList) := by
    have htag : "<invoke".toList = '<' :: "invoke".toList := by decide
    have htag' : "</invoke>".toList = '<' :: "/invoke>".toList := by decide
    unfold invoke
    rw [htag, htag', List.append_assoc _ (parameters rows)]
    rfl
  rw [hlayout, List.append_assoc] at hfirst
  rw [hlayout]
  refine .append (free_tag hstarts ?_ hfirst)
    (.append (free_parameters hstarts hopen hclose hplain)
      (free_tag hstarts (List.all_iff_forall_prop.mp (by decide)) ?_))
  · intro d hd
    simp only [List.mem_append] at hd
    rcases hd with ((hd | hd) | hd) | hd
    · revert d
      exact List.all_iff_forall_prop.mp (by decide)
    · revert d
      exact List.all_iff_forall_prop.mp (by decide)
    · exact hn.bracket d hd
    · revert d
      exact List.all_iff_forall_prop.mp (by decide)
  · have htag : "/invoke>".toList = '/' :: 'i' :: "nvoke>".toList := by decide
    rw [htag]
    exact hinvoke _

/-- The call found is the one written, unless it has no name: then the pattern of an
`invoke` matches nowhere. -/
theorem findall_invoke (hn : Plain n) (hplain : ∀ row ∈ rows, Plain row.1 ∧ Plain row.2) :
    INVOKE_PATTERN.findall (invoke n rows) = if n = [] then [] else [[n, parameters rows]] := by
  have hfirst := @first_invoke n [] rows hn hplain
  rw [← List.append_nil (invoke n rows)]
  split
  · rename_i hname
    rw [if_pos hname] at hfirst
    apply findall_free
    refine free_invoke (starts_named "invoke".toList _ (by decide)) (fun u => ?_) (fun u => ?_)
      (fun u => ?_) hn hplain hfirst
    · exact first_named_mismatch (attempts_mismatch ['<'] (by decide))
    · exact first_named_mismatch (attempts_mismatch ['<'] (by decide))
    · exact first_named_mismatch (attempts_mismatch ['<'] (by decide))
  · rename_i hname
    rw [if_neg hname] at hfirst
    have hnonempty : invoke n rows ≠ [] := List.append_ne_nil_of_right_ne_nil _ (by decide)
    exact findall_match hnonempty hfirst

/-- A block of function calls is found whole, from the opening to the closing tag, and
is the only one in its text. -/
theorem findall_function_calls (hn : Plain n) (hplain : ∀ row ∈ rows, Plain row.1 ∧ Plain row.2) :
    FUNCTION_CALLS_PATTERN.findall
      ("<function_calls>".toList ++ (invoke n rows ++ "</function_calls>".toList)) =
      [[invoke n rows]] := by
  have hclose : Free (literal ignorecase "</function_calls>".toList) (invoke n rows)
      ("</function_calls>".toList ++ []) := by
    refine free_invoke (starts_close _) (fun u => first_literal ?_) (fun u => first_literal ?_)
      (fun u => first_literal ?_) hn hplain (first_literal ?_)
    · exact attempts_mismatch ['<'] (by decide)
    · exact attempts_mismatch ['<', '/'] (by decide)
    · exact attempts_mismatch ['<', '/'] (by decide)
    · have htag : "<invoke".toList = '<' :: 'i' :: "nvoke".toList := by decide
      unfold invoke
      rw [htag]
      exact attempts_mismatch ['<'] (by decide)
  have hfirst : FUNCTION_CALLS_PATTERN.first
      (("<function_calls>".toList ++ (invoke n rows ++ "</function_calls>".toList)) ++ []) =
        some ([invoke n rows], []) := by
    rw [FUNCTION_CALLS_PATTERN, List.append_assoc, List.append_assoc, tag,
      first_seq_of_single (attempts_literal fun c _ => ignorecase_self c), tag, first_anything hclose]
    rfl
  have hnonempty : "<function_calls>".toList ++ (invoke n rows ++ "</function_calls>".toList) ≠ [] :=
    List.append_ne_nil_of_left_ne_nil (by decide) _
  rw [← List.append_nil ("<function_calls>".toList ++ _)]
  exact findall_match hnonempty hfirst

end Patterns

section Parse

variable {decoder : Decoder} {dumps : Json → String} {call : Call}

/-- The rows of the input as they stand in the text. -/
def escaped_rows (dumps : Json → String) (input : ToolInput) : List (List Char × List Char) :=
  input.rows.map fun (key, value) => ((escape key).toList, (escape (written dumps value)).toList)

private theorem plain_escape (s : String) : Plain (escape s).toList := fun _ hc => not_special_of_escape hc

private theorem escape_eq_empty {s : String} : escape s = "" ↔ s = "" := by
  have hnonempty : ∀ c, (escape_char c).toList ≠ [] := by
    intro c
    rcases escape_char_cases c with ⟨-, hentity⟩ | ⟨-, heq⟩
    · have hall : ∀ e ∈ entities, e.toList ≠ [] := by decide
      exact hall _ hentity
    · simp [heq]
  rw [← String.toList_eq_nil_iff, escape, String.toList_ofList, ← String.toList_eq_nil_iff]
  cases s.toList with
  | nil => simp
  | cons c l => simp [hnonempty c]

private theorem parameter_text_toList (key value : String) :
    (parameter_text key value).toList = parameter (escape key).toList (escape value).toList := by
  have hopen : "<parameter name=\"".toList = "<parameter".toList ++ " name=\"".toList := by decide
  unfold parameter_text parameter
  rw [String.toList_append, String.toList_append, String.toList_append, String.toList_append, hopen]

private theorem call_text_toList : (call_text dumps call).toList = "<function_calls>".toList ++
    (invoke (escape call.name).toList (escaped_rows dumps call.input) ++
      "</function_calls>".toList) := by
  have hopen : "<function_calls><invoke name=\"".toList =
      "<function_calls>".toList ++ ("<invoke".toList ++ " name=\"".toList) := by decide
  have hclose : "</invoke></function_calls>".toList =
      "</invoke>".toList ++ "</function_calls>".toList := by decide
  have hparameters : (String.join (call.input.rows.map fun (key, value) =>
      parameter_text key (written dumps value))).toList = parameters (escaped_rows dumps call.input) := by
    rw [String.toList_join, List.flatMap_map, parameters, escaped_rows, List.flatMap_map]
    apply List.flatMap_congr
    rintro ⟨key, value⟩ -
    simp only [parameter_text_toList]
  unfold call_text invoke
  rw [String.toList_append, String.toList_append, String.toList_append, String.toList_append, hopen,
    hclose, hparameters]
  generalize "<function_calls>".toList = a, "<invoke".toList = b, " name=\"".toList = c,
    "\">".toList = d, "</invoke>".toList = e, "</function_calls>".toList = f
  simp only [List.append_assoc]

private theorem parse_parameter_escape (hunescape : ∀ s, decoder.unescape (escape s) = .ok s) (value : String) :
    decoder._parse_parameter (escape value) = decoder.load (strip value) := by
  rw [Decoder._parse_parameter, strip_escape, hunescape]
  rfl

private theorem parse_item_escape (hunescape : ∀ s, decoder.unescape (escape s) = .ok s) (key value : String) :
    decoder._parse_item (escape key) (escape value) =
      (decoder.load (strip value)).map fun value => (strip key, value) := by
  rw [Decoder._parse_item, strip_escape, hunescape, parse_parameter_escape hunescape]
  cases decoder.load (strip value) <;> rfl

/-- What the decoder makes of one row of the input of a written call. -/
def Decoder.read_row (decoder : Decoder) (dumps : Json → String) (row : String × Json) :
    Except DecodeException (String × Json) :=
  (decoder.load (strip (written dumps row.2))).map fun value => (strip row.1, value)

private theorem parse_invoke_eq {raw_name body name : String} {items : Except DecodeException (List (String × Json))}
    (hname : decoder.unescape (strip raw_name) = .ok name)
    (hitems : ((Decoder.pairs PARAMETER_PATTERN body).mapM fun (raw_key, raw_value) =>
      decoder._parse_item raw_key raw_value) = items) :
    decoder._parse_invoke raw_name body = items.map fun items => { name, input := .ofPairs items } := by
  rw [Decoder._parse_invoke, hitems, hname]
  cases items <;> rfl

/-- What a written call is parsed to: nothing if it has no name, and else a call of the
rows that have one. It raises where the text of a value does. -/
theorem parse_call_text (hunescape : ∀ s, decoder.unescape (escape s) = .ok s) :
    decoder._parse_text_tool_calls (call_text dumps call) =
      if call.name = "" then .ok [] else
        ((call.input.rows.filter fun row => row.1 ≠ "").mapM (decoder.read_row dumps)).map fun items =>
          [{ name := strip call.name, input := .ofPairs items }] := by
  have hplain : ∀ row ∈ escaped_rows dumps call.input, Plain row.1 ∧ Plain row.2 := by
    intro row hrow
    obtain ⟨⟨key, value⟩, -, rfl⟩ := List.mem_map.mp hrow
    dsimp only
    exact ⟨plain_escape key, plain_escape (written dumps value)⟩
  have hcalls : Decoder.texts FUNCTION_CALLS_PATTERN (call_text dumps call) =
      [String.ofList (invoke (escape call.name).toList (escaped_rows dumps call.input))] := by
    rw [Decoder.texts, call_text_toList, findall_function_calls (plain_escape _) hplain]
    rfl
  have hinvoke := findall_invoke (plain_escape call.name) hplain
  rw [Decoder._parse_text_tool_calls, hcalls, List.flatMap_singleton, Decoder.pairs, String.toList_ofList,
    hinvoke]
  simp only [String.toList_eq_nil_iff, escape_eq_empty]
  split
  · rfl
  · have hparameters : Decoder.pairs PARAMETER_PATTERN
        (String.ofList (parameters (escaped_rows dumps call.input))) =
          (call.input.rows.filter fun row => row.1 ≠ "").map fun row =>
            (escape row.1, escape (written dumps row.2)) := by
      rw [Decoder.pairs, String.toList_ofList, parameters, findall_parameters hplain, escaped_rows,
        List.filter_map, List.map_map, List.filterMap_map]
      simp [escape_eq_empty, Function.comp_def]
    have hname : decoder.unescape (strip (escape call.name)) = .ok (strip call.name) := by
      rw [strip_escape, hunescape]
    have hitems : ((Decoder.pairs PARAMETER_PATTERN (String.ofList (parameters (escaped_rows dumps call.input)))).mapM
        fun (raw_key, raw_value) => decoder._parse_item raw_key raw_value) =
          (call.input.rows.filter fun row => row.1 ≠ "").mapM (decoder.read_row dumps) := by
      have hrow : (fun row : String × Json => decoder._parse_item (escape row.1) (escape (written dumps row.2))) =
          decoder.read_row dumps := funext fun row => parse_item_escape hunescape row.1 (written dumps row.2)
      rw [hparameters, List.mapM_map, ← hrow]
      rfl
    have hparse := parse_invoke_eq hname hitems
    simp only [List.filterMap_cons, List.filterMap_nil, String.ofList_toList, List.mapM_cons, List.mapM_nil, hparse]
    cases List.mapM (decoder.read_row dumps) _ <;> rfl

end Parse

end anthropic

end session_manager

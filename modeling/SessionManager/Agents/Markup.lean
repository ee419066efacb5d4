import SessionManager.Agents.TextCalls

namespace session_manager

namespace anthropic

open Regex remote_tools

/-- A text that is the word up to the case of its letters. -/
abbrev Spelling (w : String) := { u : List Char // Spells ignorecase w.toList u }

abbrev Space := { u : List Char // ∀ c ∈ u, isspace c = true }

abbrev Quote := { c : Char // quote c = true }

/-- What stands outside the blocks of function calls. -/
abbrev Prose := { u : List Char // ¬ Contains ignorecase "<function_calls>".toList u }

/-- The opening tag of an element with its name. -/
structure Opening (w : String) where
  start : Spelling w
  space : Space
  spaced : space.val ≠ []
  key : Spelling "name="
  quotes : Quote × Quote
  name : List Char
  named : name ≠ []
  plain : Plain name

/-- A parameter element. Its value may be anything but a closing tag. -/
structure Parameter where
  opening : Opening "<parameter"
  value : List Char
  closing : Spelling "</parameter>"
  unclosed : ∀ w ∈ ["</parameter>", "</invoke>", "</function_calls>"], ¬ Contains ignorecase w.toList value

structure Invoke where
  opening : Opening "<invoke"
  parameters : Separated Parameter Space
  closing : Spelling "</invoke>"

structure FunctionCalls where
  opening : Spelling "<function_calls>"
  invokes : Separated Invoke Space
  closing : Spelling "</function_calls>"

/-- What a model writes: prose, and function calls in it. -/
abbrev TextMessage := Separated FunctionCalls Prose

def Opening.chars {w : String} (tag : Opening w) : List Char :=
  tag.start.val ++ (tag.space.val ++ (tag.key.val ++
    (tag.quotes.1.val :: (tag.name ++ (tag.quotes.2.val :: '>' :: [])))))

def Parameter.chars (parameter : Parameter) : List Char :=
  parameter.opening.chars ++ (parameter.value ++ parameter.closing.val)

def Invoke.body (invoke : Invoke) : List Char := invoke.parameters.text Parameter.chars Subtype.val

def Invoke.chars (invoke : Invoke) : List Char :=
  invoke.opening.chars ++ (invoke.body ++ invoke.closing.val)

def FunctionCalls.body (block : FunctionCalls) : List Char := block.invokes.text Invoke.chars Subtype.val

def FunctionCalls.chars (block : FunctionCalls) : List Char :=
  block.opening.val ++ (block.body ++ block.closing.val)

def TextMessage.text (message : TextMessage) : String :=
  String.ofList (Separated.text FunctionCalls.chars Subtype.val message)

/-- The invoke elements of the blocks in the order of the text. -/
def TextMessage.invokes (message : TextMessage) : List Invoke :=
  message.values.flatMap fun block => block.invokes.values

variable {r t : Regex} {w : String} {u v rest : List Char} {c d : Char}

section Letters

/-- The characters that stand for a letter of a pattern. -/
def variants (letter : Char) : List Char :=
  [letter, letter.toUpper, 'İ', 'ı', 'ſ', '\u212a'].filter (ignorecase letter)

private theorem mem_variants (h : ignorecase c d = true) : d ∈ variants c := by
  refine List.mem_filter.mpr ⟨?_, h⟩
  simp only [ignorecase, Bool.or_eq_true, Bool.and_eq_true, decide_eq_true_eq] at h
  simp only [List.mem_cons]
  tauto

/-- In some place no character stands for the letters of both words. -/
def Apart (w w' : String) : Prop :=
  ∃ p ∈ w.toList.zip w'.toList, ∀ e ∈ variants p.2, ignorecase p.1 e = false

instance (w w' : String) : Decidable (Apart w w') := inferInstanceAs (Decidable (∃ _ ∈ _, _))

private theorem Apart.attempts {w' : String} (hapart : Apart w w') (spelling : Spelling w') :
    (tag w).attempts (spelling.val ++ rest) = [] := by
  obtain ⟨p, hp, hvariants⟩ := hapart
  exact attempts_apart spelling.property ⟨p, hp, fun e he => hvariants e (mem_variants he)⟩

private theorem Apart.first {w' : String} (hapart : Apart w w') (spelling : Spelling w') :
    (tag w).first (spelling.val ++ rest) = none :=
  first_literal (hapart.attempts spelling)

private theorem ne_bracket_of_spells {w : List Char} (h : Spells ignorecase w u)
    (hw : ∀ c ∈ w, ignorecase c '<' = false) : ∀ d ∈ u, d ≠ '<' := by
  rintro d hd rfl
  obtain ⟨c, hc, hsame⟩ := h.mem hd
  rw [hw c hc] at hsame
  cases hsame

/-- A word with a bracket at its start and nowhere else. -/
structure IsTag (w : String) : Prop where
  head : w.toList.head? = some '<'
  tail : ∀ c ∈ w.toList.tail, ignorecase c '<' = false

/-- A spelling of a tag has its bracket in the first place and no other one, whichever
letters are written in upper case. -/
theorem IsTag.spelled (hw : IsTag w) (h : Spells ignorecase w.toList u) :
    ∃ v, u = '<' :: v ∧ ∀ d ∈ v, d ≠ '<' := by
  obtain ⟨w', hw'⟩ := List.head?_eq_some_iff.mp hw.head
  have htail := hw.tail
  rw [hw'] at h htail
  obtain ⟨c, v, hsame, hspells, rfl⟩ := List.forall₂_cons_left_iff.mp h
  obtain rfl := ignorecase_bracket.mp hsame
  exact ⟨v, rfl, ne_bracket_of_spells hspells htail⟩

private theorem IsTag.starts (hw : IsTag w) : Starts '<' (tag w) := by
  obtain ⟨w', hw'⟩ := List.head?_eq_some_iff.mp hw.head
  rw [tag, hw']
  exact starts_close w'

private theorem ne_bracket_of_isspace (h : isspace c = true) : c ≠ '<' := by
  rintro rfl
  revert h
  decide

private theorem ne_bracket_of_quote (h : quote c = true) : c ≠ '<' := by
  rintro rfl
  revert h
  decide

/-- White space is passed over by what starts with a bracket: no match starts in it. -/
theorem free_space (hstarts : Starts '<' r) (space : Space) : Free r space.val rest :=
  hstarts.free fun c hc => ne_bracket_of_isspace (space.property c hc)

end Letters

section Tags

/-- Nothing of what starts with a bracket matches within a tag, if it does not
match the tag. -/
private theorem free_spelling (hw : IsTag w) (hstarts : Starts '<' r) (spelling : Spelling w)
    (hfirst : r.first (spelling.val ++ rest) = none) : Free r spelling.val rest := by
  obtain ⟨u, hspells⟩ := spelling
  obtain ⟨v, rfl, hv⟩ := hw.spelled hspells
  exact free_tag hstarts hv hfirst

private theorem Apart.first_opening {w' : String} (hapart : Apart w w') (opening : Opening w') :
    (tag w).first (opening.chars ++ rest) = none := by
  rw [Opening.chars, List.append_assoc]
  exact hapart.first opening.start

private theorem Opening.free (opening : Opening w) (hw : IsTag w) (hstarts : Starts '<' r)
    (hfirst : r.first (opening.chars ++ rest) = none) : Free r opening.chars rest := by
  obtain ⟨v, hstart, hv⟩ := hw.spelled opening.start.property
  have hkey := ne_bracket_of_spells opening.key.property (by decide)
  unfold Opening.chars at hfirst ⊢
  rw [hstart, List.cons_append] at hfirst ⊢
  refine free_tag hstarts ?_ hfirst
  intro d hd
  simp only [List.mem_append, List.mem_cons, List.not_mem_nil, or_false] at hd
  rcases hd with hd | hd | hd | rfl | hd | rfl | rfl
  · exact hv d hd
  · exact ne_bracket_of_isspace (opening.space.property d hd)
  · exact hkey d hd
  · exact ne_bracket_of_quote opening.quotes.1.property
  · exact opening.plain.bracket d hd
  · exact ne_bracket_of_quote opening.quotes.2.property
  · decide

/-- The opening tag gives the name between its quotes, in either of the two kinds, and
the match goes on behind it. -/
theorem Opening.first (opening : Opening w) :
    (seq (anthropic.named w) t).first (opening.chars ++ rest) =
      (t.first rest).map fun a => (opening.name :: a.1, a.2) := by
  have hattempts : (anthropic.named w).attempts (opening.chars ++ rest) = [([opening.name], rest)] := by
    have hlayout : opening.chars ++ rest = opening.start.val ++ (opening.space.val ++ (opening.key.val ++
        (opening.quotes.1.val :: (opening.name ++ (opening.quotes.2.val :: '>' :: rest))))) := by
      simp only [Opening.chars, List.append_assoc, List.cons_append, List.nil_append]
    rw [hlayout, attempts_opening opening.start.property opening.spaced opening.space.property
      opening.key.property opening.quotes.1.property opening.quotes.2.property opening.plain.quote,
      if_neg opening.named]
  exact first_seq_of_single hattempts

/-- The lazy group ends at the first closing tag. -/
private theorem first_enclosed (closing : Spelling w) (hfree : Free (tag w) u (closing.val ++ rest)) :
    (seq anything (tag w)).first (u ++ (closing.val ++ rest)) = some ([u], rest) := by
  refine first_lazy_seq hfree ?_
  rw [tag, Regex.first, attempts_spelled closing.property, List.head?_cons]

/-- A text without the tag is passed over when nothing or a bracket follows, as no part
of the tag can then be completed after it. -/
theorem free_absent (hw : IsTag w) (hu : ¬ Contains ignorecase w.toList u)
    (hrest : ∀ d s, rest = d :: s → d = '<') : Free (tag w) u rest := by
  refine free_literal hu fun d s h c hc => ?_
  rw [hrest d s h]
  exact hw.tail c hc

/-- The spelling of a tag is not empty, so a search that matches one moves on. -/
theorem Spelling.ne_nil (spelling : Spelling w) (hw : IsTag w) : spelling.val ≠ [] := by
  obtain ⟨v, hv, -⟩ := hw.spelled spelling.property
  simp [hv]

/-- An opening tag is not empty either. -/
theorem Opening.ne_nil (opening : Opening w) (hw : IsTag w) : opening.chars ≠ [] :=
  List.append_ne_nil_of_left_ne_nil (Spelling.ne_nil opening.start hw) _

/-- A tag starts with a bracket, in whichever case its letters are spelled. So a run of
other characters ends in front of it. -/
theorem Spelling.next (spelling : Spelling w) (hw : IsTag w) :
    ∀ d s, spelling.val ++ rest = d :: s → d = '<' := by
  obtain ⟨v, hv, -⟩ := hw.spelled spelling.property
  rw [hv]
  rintro d s ⟨rfl, -⟩
  rfl

end Tags

section Elements

/-- The closing tag of a parameter is a tag: no other character of it is taken for a
bracket. -/
theorem isTag_parameter_close : IsTag "</parameter>" := ⟨by decide, by decide⟩

/-- The closing tag of an `invoke` has the shape of a tag. -/
theorem isTag_invoke_close : IsTag "</invoke>" := ⟨by decide, by decide⟩

/-- The closing tag of the whole block has the shape of a tag. -/
theorem isTag_block_close : IsTag "</function_calls>" := ⟨by decide, by decide⟩

/-- A parameter is matched from its opening to its own closing tag, and gives its name
and its value. -/
theorem Parameter.first (parameter : Parameter) :
    PARAMETER_PATTERN.first (parameter.chars ++ rest) =
      some ([parameter.opening.name, parameter.value], rest) := by
  have hfree : Free (tag "</parameter>") parameter.value (parameter.closing.val ++ rest) :=
    free_absent isTag_parameter_close (parameter.unclosed _ (by simp))
      (Spelling.next parameter.closing isTag_parameter_close)
  rw [Parameter.chars, PARAMETER_PATTERN, List.append_assoc, List.append_assoc, Opening.first,
    first_enclosed parameter.closing hfree]
  rfl

/-- A closing tag of something else does not match in a parameter. -/
private theorem Parameter.free (parameter : Parameter) {w : String} (hw : IsTag w)
    (hvalue : ¬ Contains ignorecase w.toList parameter.value) (hopening : Apart w "<parameter")
    (hclosing : Apart w "</parameter>") : Free (tag w) parameter.chars rest := by
  have hopen : IsTag "<parameter" := ⟨by decide, by decide⟩
  refine .append (parameter.opening.free hopen hw.starts (hopening.first_opening _)) (.append ?_ ?_)
  · exact free_absent hw hvalue (Spelling.next parameter.closing isTag_parameter_close)
  · exact free_spelling isTag_parameter_close hw.starts _ (hclosing.first _)

/-- An `invoke` is matched whole, and gives its name and the text of its parameters. -/
theorem Invoke.first (invoke : Invoke) :
    INVOKE_PATTERN.first (invoke.chars ++ rest) = some ([invoke.opening.name, invoke.body], rest) := by
  have hfree : Free (tag "</invoke>") invoke.body (invoke.closing.val ++ rest) := by
    refine Separated.free _ (fun parameter _ => ?_) (fun space _ => free_space isTag_invoke_close.starts space)
    exact parameter.free isTag_invoke_close (parameter.unclosed _ (by simp)) (by decide) (by decide)
  rw [Invoke.chars, INVOKE_PATTERN, List.append_assoc, List.append_assoc, Opening.first,
    first_enclosed invoke.closing hfree]
  rfl

private theorem Invoke.free (invoke : Invoke) : Free (tag "</function_calls>") invoke.chars rest := by
  refine .append (invoke.opening.free ⟨by decide, by decide⟩ isTag_block_close.starts
    (Apart.first_opening (by decide) _)) (.append ?_ ?_)
  · refine Separated.free _ (fun parameter _ => ?_) (fun space _ => free_space isTag_block_close.starts space)
    exact parameter.free isTag_block_close (parameter.unclosed _ (by simp)) (by decide) (by decide)
  · exact free_spelling isTag_invoke_close isTag_block_close.starts _ (Apart.first (by decide) _)

/-- A block of function calls is matched whole and gives what it holds, up to the first
closing tag. -/
theorem FunctionCalls.first (block : FunctionCalls) :
    FUNCTION_CALLS_PATTERN.first (block.chars ++ rest) = some ([block.body], rest) := by
  have hfree : Free (tag "</function_calls>") block.body (block.closing.val ++ rest) :=
    Separated.free _ (fun invoke _ => invoke.free) (fun space _ => free_space isTag_block_close.starts space)
  rw [FunctionCalls.chars, FUNCTION_CALLS_PATTERN, List.append_assoc, List.append_assoc, tag,
    first_seq_of_single (attempts_spelled block.opening.property), first_enclosed block.closing hfree]
  rfl

end Elements

end anthropic

end session_manager

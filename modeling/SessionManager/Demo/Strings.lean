import SessionManager.Library.Pieces

/-! The methods of `str` that the tools use. -/

namespace session_manager.str

def split (s sep : String) : List String := (pieces.split sep.toList s.toList).map String.ofList

/-- There is an empty occurrence at every position. -/
def count (s sub : String) : Nat := if sub = "" then s.length + 1 else pieces.count sub.toList s.toList

def replace (s old new : String) : String :=
  if old = "" then new ++ String.ofList (s.toList.flatMap fun c => c :: new.toList)
  else String.ofList (pieces.replace old.toList new.toList s.toList)

/-- `sub in s` -/
def contains (s sub : String) : Bool := s.toList.tails.any fun rest => sub.toList.isPrefixOf rest

/-- Each tab takes the column to the next multiple of 8; a line break takes it to 0. -/
def expand : Nat → List Char → List Char
  | _, [] => []
  | column, c :: cs =>
    if c = '\t' then List.replicate (8 - column % 8) ' ' ++ expand (column + (8 - column % 8)) cs
    else if c = '\n' ∨ c = '\r' then c :: expand 0 cs
    else c :: expand (column + 1) cs

def expandtabs (s : String) : String := String.ofList (expand 0 s.toList)

/-- What the text mode of `open` makes of the line breaks it reads. -/
def newlines : List Char → List Char
  | [] => []
  | '\r' :: '\n' :: cs => '\n' :: newlines cs
  | c :: cs => (if c = '\r' then '\n' else c) :: newlines cs

/-- `f"{n:6}"` -/
def width6 (n : Nat) : String := String.ofList ((toString n).toList.leftpad 6 ' ')

/-- `str` of a list of integers, given theirs. -/
def listed (items : List String) : String := "[" ++ ", ".intercalate items ++ "]"

/-- The empty text occurs once in the empty text only: in any other it occurs in front
of every character as well. -/
theorem eq_empty_of_count_empty {s : String} (h : count s "" = 1) : s = "" := by
  rw [count, if_pos rfl] at h
  have hlength : s.toList.length = 0 := by rw [String.length_toList]; omega
  exact String.toList_eq_nil_iff.mp (List.length_eq_zero_iff.mp hlength)

/-- In the empty text the empty text is replaced by the whole of the new one. -/
theorem replace_empty (new : String) : replace "" "" new = new := by
  rw [replace, if_pos rfl]
  simp

/-- Every text has a line, also the empty one, whose only line is empty. -/
theorem split_lines_ne_nil (s : String) : split s "\n" ≠ [] :=
  fun h => pieces.split_ne_nil _ s.toList (List.map_eq_nil_iff.mp h)

/-- Lines that are joined again give the text back. -/
theorem intercalate_split (s : String) : "\n".intercalate (split s "\n") = s := by
  rw [← String.toList_inj, String.toList_intercalate, split, List.map_map]
  simp only [Function.comp_def, String.toList_ofList, List.map_id']
  exact pieces.intercalate_split (List.cons_ne_nil _ _) s.toList

/-- No line holds a line break. -/
theorem newline_not_mem_split {s line : String} (h : line ∈ split s "\n") : '\n' ∉ line.toList := by
  obtain ⟨piece, hpiece, rfl⟩ := List.mem_map.mp h
  rw [String.toList_ofList]
  exact pieces.not_mem_of_mem_split hpiece

/-- Lines without line breaks are read off the text that joins them. There has to be
one, as no text has no line. -/
theorem split_intercalate {lines : List String} (hlines : lines ≠ []) (h : ∀ line ∈ lines, '\n' ∉ line.toList) :
    split ("\n".intercalate lines) "\n" = lines := by
  have hrows : ∀ row ∈ lines.map String.toList, '\n' ∉ row := by
    intro row hrow
    obtain ⟨line, hline, rfl⟩ := List.mem_map.mp hrow
    exact h line hline
  have hsplit : pieces.split ['\n'] (['\n'].intercalate (lines.map String.toList)) = lines.map String.toList :=
    pieces.split_intercalate (fun h => hlines (List.map_eq_nil_iff.mp h)) hrows
  rw [split, String.toList_intercalate]
  refine (congrArg (List.map String.ofList) hsplit).trans ?_
  simp [Function.comp_def]

/-- The first piece is what comes before the first occurrence, and the others are the
pieces of what comes after it. -/
theorem split_first {before sub : String} (hsub : sub ≠ "") (hfirst : pieces.First sub.toList before.toList)
    (after : String) : split (before ++ sub ++ after) sub = before :: split after sub := by
  have hpattern : sub.toList ≠ [] := fun hnil => hsub (String.toList_eq_nil_iff.mp hnil)
  simp only [split, String.toList_append]
  rw [pieces.split_first hpattern hfirst, List.map_cons, String.ofList_toList]

end session_manager.str

import Mathlib.Data.List.Infix
import SessionManager.Agents.Commands

open effect

namespace session_manager

namespace remote_tools

/-- The area argument of scrot. -/
def geometry_text (x y w h : String) : String := ",".intercalate [x, y, w, h]

/-- Wherever a command moves the pointer, has a scroll repeat its click or captures an
area, it says so with the decimal texts of integers in range. -/
structure InRange (width height : Int) (command : List String) : Prop where
  mousemove : ∀ x y, ["mousemove", "--sync", x, y] <:+: command → ∃ i j : Int,
    x = toString i ∧ y = toString j ∧ 0 ≤ i ∧ i < width ∧ 0 ≤ j ∧ j < height
  click : ∀ amount button, command = ["xdotool", "click", "--repeat", amount, button] →
    ∃ n : Int, amount = toString n ∧ 0 ≤ n ∧ n ≤ 1000
  scrot : ∀ area path, command = ["scrot", "-p", "-a", area, path] → ∃ x y w h : Int,
    area = geometry_text (toString x) (toString y) (toString w) (toString h) ∧
      0 ≤ x ∧ 0 ≤ y ∧ 0 < w ∧ 0 < h ∧ x + w ≤ width ∧ y + h ≤ height

variable {width height : Int}

def Point.numbers (point : Point width height) : List PyInt := [point.x, point.y]

/-- The values that become numbers in the commands of a request. -/
def Request.numbers : Request width height → List PyInt
  | gesture (.mouse_move target) => target.numbers
  | gesture (.left_click_drag start stop) => start.numbers ++ stop.numbers
  | click target _ _ => target.toList.flatMap Point.numbers
  | scroll target (.invalid _) _ _ => target.toList.flatMap Point.numbers
  | scroll target _ amount _ => target.toList.flatMap Point.numbers ++ [amount.val]
  | zoom area => area.start.numbers
  | _ => []

/-- No decimal text has this letter. -/
private theorem not_e_mem_toString (i : Int) : 'e' ∉ (toString i).toList := by
  have hnat : ∀ n : Nat, 'e' ∉ n.repr.toList := by
    intro n h
    rw [Nat.toList_repr] at h
    exact absurd (Nat.isDigit_of_mem_toDigits (by decide) (by decide) h) (by decide)
  cases i with
  | ofNat n => exact hnat n
  | negSucc n =>
    have hrepr : toString (Int.negSucc n) = "-" ++ (n + 1).repr := rfl
    rw [hrepr, String.toList_append]
    simpa using hnat (n + 1)

private theorem str_of_not_bool {n : PyInt} (h : n.is_bool = false) : n.str = toString n.val := by
  cases n with
  | int i => rfl
  | bool b => cases h

private theorem e_mem_str {n : PyInt} (h : n.is_bool = true) : 'e' ∈ n.str.toList := by
  cases n with
  | int i => cases h
  | bool b => cases b <;> decide

section InRange

variable {command : List String}

/-- A command without any of the three. -/
private theorem inRange_of_plain (hmove : ∀ x y, ¬ ["mousemove", "--sync", x, y] <:+: command)
    (hclick : ∀ amount button, command ≠ ["xdotool", "click", "--repeat", amount, button])
    (hscrot : ∀ area path, command ≠ ["scrot", "-p", "-a", area, path]) : InRange width height command :=
  ⟨fun x y h => absurd h (hmove x y), fun amount button h => absurd h (hclick amount button),
    fun area path h => absurd h (hscrot area path)⟩

/-- Four arguments cannot start later than this in a list that is known. -/
private theorem infix_iff {x y c : String} {l : List String} :
    ["mousemove", "--sync", x, y] <:+: c :: l ↔
      (c = "mousemove" ∧ ∃ rest, l = "--sync" :: x :: y :: rest) ∨ ["mousemove", "--sync", x, y] <:+: l := by
  rw [List.infix_cons_iff, List.cons_prefix_cons]
  constructor
  · rintro (⟨rfl, rest, hrest⟩ | h)
    · exact .inl ⟨rfl, rest, hrest.symm⟩
    · exact .inr h
  · rintro (⟨rfl, rest, rfl⟩ | h)
    · exact .inl ⟨rfl, rest, rfl⟩
    · exact .inr h

private theorem mousemove_inRange {point : Point width height} (hpoint : ∀ n ∈ point.numbers, n.is_bool = false)
    (x y : String) (hx : point.x.str = x) (hy : point.y.str = y) : ∃ i j : Int,
      x = toString i ∧ y = toString j ∧ 0 ≤ i ∧ i < width ∧ 0 ≤ j ∧ j < height := by
  refine ⟨point.x.val, point.y.val, ?_, ?_, point.inside⟩
  · rw [← hx, str_of_not_bool (hpoint _ (by simp [Point.numbers]))]
  · rw [← hy, str_of_not_bool (hpoint _ (by simp [Point.numbers]))]

private theorem target_inRange {point : Point width height} (hpoint : ∀ n ∈ point.numbers, n.is_bool = false) :
    InRange width height ("xdotool" :: point.mousemove) := by
  refine ⟨fun x y h => ?_, by simp [Point.mousemove], by simp [Point.mousemove]⟩
  simp [Point.mousemove, infix_iff] at h
  exact mousemove_inRange hpoint x y h.1 h.2

private theorem shot_inRange (h : Shot none command) : InRange width height command := by
  obtain ⟨path, rfl | rfl | rfl⟩ := h
  · apply inRange_of_plain <;> simp [scrot, RemoteComputerTool.area_args, infix_iff]
  · apply inRange_of_plain <;> simp [base64, infix_iff]
  · apply inRange_of_plain <;> simp [rm, infix_iff]

private theorem area_inRange {area : Area width height} (harea : ∀ n ∈ area.start.numbers, n.is_bool = false)
    (h : Shot (some area.geometry) command) : InRange width height command := by
  obtain ⟨path, rfl | rfl | rfl⟩ := h
  · refine ⟨?_, ?_, fun text path' h => ?_⟩
    · simp [scrot, RemoteComputerTool.area_args, Area.geometry, infix_iff]
    · simp [scrot, RemoteComputerTool.area_args, Area.geometry]
    · simp only [scrot, RemoteComputerTool.area_args, Area.geometry, List.cons_append, List.nil_append,
        List.cons.injEq, true_and, and_true] at h
      have hstart := area.start.inside
      have hstop := area.stop.inside
      have hleft := area.left
      have habove := area.above
      refine ⟨area.start.x.val, area.start.y.val, area.stop.x.val - area.start.x.val,
        area.stop.y.val - area.start.y.val, ?_, by omega, by omega, by omega, by omega, by omega, by omega⟩
      rw [← h.1, str_of_not_bool (harea area.start.x (by simp [Point.numbers])),
        str_of_not_bool (harea area.start.y (by simp [Point.numbers]))]
      rfl
  · apply inRange_of_plain <;> simp [base64, infix_iff]
  · apply inRange_of_plain <;> simp [rm, infix_iff]

private theorem gesture_inRange {gesture : Gesture width height}
    (hnumbers : ∀ n ∈ (Request.gesture gesture).numbers, n.is_bool = false) :
    InRange width height ("xdotool" :: gesture.args) := by
  cases gesture with
  | mouse_move target => exact target_inRange hnumbers
  | left_click_drag start stop =>
    simp only [Request.numbers, List.forall_mem_append] at hnumbers
    refine ⟨fun x y h => ?_, by simp [Gesture.args, Point.mousemove], by simp [Gesture.args, Point.mousemove]⟩
    have hstart : start.x.str ≠ "mousemove" := fun h => by
      have hmem : 'e' ∈ start.x.str.toList := h ▸ by decide
      rw [str_of_not_bool (hnumbers.1 start.x (by simp [Point.numbers]))] at hmem
      exact not_e_mem_toString _ hmem
    have hstop : stop.x.str ≠ "mousemove" := fun h => by
      have hmem : 'e' ∈ stop.x.str.toList := h ▸ by decide
      rw [str_of_not_bool (hnumbers.2 stop.x (by simp [Point.numbers]))] at hmem
      exact not_e_mem_toString _ hmem
    simp only [Gesture.args, Point.mousemove, List.cons_append, List.nil_append, infix_iff] at h
    simp [hstart, hstop] at h
    rcases h with ⟨hx, hy⟩ | ⟨hx, hy⟩
    · exact mousemove_inRange hnumbers.1 x y hx hy
    · exact mousemove_inRange hnumbers.2 x y hx hy
  | left_mouse_down => apply inRange_of_plain <;> simp [Gesture.args, infix_iff]
  | left_mouse_up => apply inRange_of_plain <;> simp [Gesture.args, infix_iff]
  | key text => apply inRange_of_plain <;> simp [Gesture.args, infix_iff]

private theorem around_inRange {target : Option (Point width height)} {modifier : Modifier}
    (hnumbers : ∀ n ∈ target.toList.flatMap Point.numbers, n.is_bool = false)
    (h : Around target modifier command) : InRange width height command := by
  rcases h with ⟨point, rfl, rfl⟩ | ⟨key, -, rfl | rfl⟩
  · exact target_inRange (by simpa using hnumbers)
  · apply inRange_of_plain <;> simp [keydown, infix_iff]
  · apply inRange_of_plain <;> simp [keyup, infix_iff]

private theorem scroll_inRange {amount : Amount} {button : String} (hamount : amount.val.is_bool = false) :
    InRange width height (scroll_click amount button) := by
  refine ⟨by simp [scroll_click, infix_iff], fun text button' h => ?_, by simp [scroll_click]⟩
  simp only [scroll_click, List.cons.injEq, true_and, and_true] at h
  exact ⟨amount.val.val, by rw [← h.1, str_of_not_bool hamount], amount.property⟩

/-- Without booleans the commands of a request are in range: its points have been
checked against the screen, and their numbers are printed in decimals. -/
theorem may_inRange {request : Request width height} (hnumbers : ∀ n ∈ request.numbers, n.is_bool = false)
    (h : request.May command) : InRange width height command := by
  cases request with
  | screenshot => exact shot_inRange h
  | gesture gesture =>
    rcases h with rfl | h
    · exact gesture_inRange hnumbers
    · exact shot_inRange h
  | type text =>
    rcases h with ⟨piece, -, rfl⟩ | h
    · apply inRange_of_plain <;> simp [type_piece, infix_iff]
    · exact shot_inRange h
  | cursor_position =>
    obtain rfl : command = _ := h
    apply inRange_of_plain <;> simp [infix_iff]
  | click target modifier kind =>
    rcases h with h | rfl | h
    · exact around_inRange hnumbers h
    · cases kind <;> apply inRange_of_plain <;> simp [Click.args, infix_iff]
    · exact shot_inRange h
  | scroll target modifier amount button =>
    have htarget : ∀ n ∈ target.toList.flatMap Point.numbers, n.is_bool = false := by
      intro n hn
      apply hnumbers
      cases modifier with
      | invalid => exact hn
      | absent | key => exact List.mem_append_left _ hn
    rcases h with h | ⟨rfl, hvalid⟩ | h
    · exact around_inRange htarget h
    · refine scroll_inRange (hnumbers _ ?_)
      cases modifier with
      | invalid message => exact absurd rfl (hvalid message)
      | absent | key => exact List.mem_append_right _ (List.mem_singleton_self _)
    · exact shot_inRange h
  | hold_key key =>
    rcases h with rfl | rfl | h
    · apply inRange_of_plain <;> simp [keydown, infix_iff]
    · apply inRange_of_plain <;> simp [keyup, infix_iff]
    · exact shot_inRange h
  | zoom area => exact area_inRange hnumbers h

end InRange

section Willing

variable {tool : RemoteComputerTool} {point : Point width height}

private theorem not_mousemove_inRange {n : PyInt} {command : List String} (hpoint : n ∈ point.numbers)
    (hbool : n.is_bool = true) (h : point.mousemove <:+: command) : ¬ InRange width height command := by
  intro hrange
  obtain ⟨i, j, hx, hy, -⟩ := hrange.mousemove point.x.str point.y.str h
  simp only [Point.numbers, List.mem_cons, List.not_mem_nil, or_false] at hpoint
  rcases hpoint with rfl | rfl
  · exact not_e_mem_toString i (hx ▸ e_mem_str hbool)
  · exact not_e_mem_toString j (hy ▸ e_mem_str hbool)

private theorem not_scroll_inRange {amount : Amount} {button : String} (hbool : amount.val.is_bool = true) :
    ¬ InRange width height (scroll_click amount button) := by
  intro hrange
  obtain ⟨i, hi, -⟩ := hrange.click amount.val.str button rfl
  exact not_e_mem_toString i (hi ▸ e_mem_str hbool)

/-- The text of an area has the characters of its numbers, and commas. -/
private theorem mem_geometry_text {c : Char} {x y w h : String} :
    c ∈ (geometry_text x y w h).toList ↔ c ∈ x.toList ∨ c ∈ y.toList ∨ c ∈ w.toList ∨ c ∈ h.toList ∨ c = ',' := by
  have htext : geometry_text x y w h = x ++ "," ++ y ++ "," ++ w ++ "," ++ h := rfl
  rw [htext]
  simp only [String.toList_append, List.mem_append]
  have hcomma : c ∈ ",".toList ↔ c = ',' := by simp
  rw [hcomma]
  tauto

private theorem not_area_inRange {area : Area width height} {n : PyInt} {path : String}
    (hn : n ∈ area.start.numbers) (hbool : n.is_bool = true) :
    ¬ InRange width height (scrot (some area.geometry) path) := by
  intro hrange
  obtain ⟨x, y, w, h, htext, -⟩ := hrange.scrot _ path rfl
  have hmem : 'e' ∈ (geometry_text area.geometry.1.str area.geometry.2.1.str area.geometry.2.2.1.str
      area.geometry.2.2.2.str).toList := by
    rw [mem_geometry_text]
    simp only [Point.numbers, List.mem_cons, List.not_mem_nil, or_false] at hn
    rcases hn with rfl | rfl
    · exact .inl (e_mem_str hbool)
    · exact .inr (.inl (e_mem_str hbool))
  have hsame : geometry_text area.geometry.1.str area.geometry.2.1.str area.geometry.2.2.1.str
      area.geometry.2.2.2.str = geometry_text (toString x) (toString y) (toString w) (toString h) := htext
  rw [hsame, mem_geometry_text] at hmem
  simp only [not_e_mem_toString, false_or] at hmem
  cases hmem

/-- What is in the journal of a request when every command succeeds. -/
def served (tool : RemoteComputerTool) (request : Request tool.width tool.height) : List Sent :=
  match (tryCatch (({ tool with executor := willing } : RemoteComputerTool).perform request)
    RemoteComputerTool.handler).run [] with
  | .ok _ sent | .error _ sent => sent

/-- A boolean among its numbers gets into a command that a willing sandbox is sent, so
it is there for some sandbox. -/
theorem served_sends (request : Request tool.width tool.height) {n : PyInt} (hn : n ∈ request.numbers)
    (hbool : n.is_bool = true) : ∃ s ∈ served tool request, ¬ InRange tool.width tool.height s.command := by
  cases request with
  | gesture gesture =>
    cases gesture with
    | mouse_move target =>
      refine ⟨⟨"xdotool" :: target.mousemove, .ok {}⟩, List.mem_cons_self, ?_⟩
      exact not_mousemove_inRange hn hbool (List.infix_cons (List.infix_refl _))
    | left_click_drag start stop =>
      refine ⟨⟨"xdotool" :: (Gesture.left_click_drag start stop).args, .ok {}⟩, List.mem_cons_self, ?_⟩
      rcases List.mem_append.mp hn with hn | hn
      · exact not_mousemove_inRange hn hbool ⟨["xdotool"], _, rfl⟩
      · exact not_mousemove_inRange hn hbool
          ⟨"xdotool" :: start.mousemove ++ ["mousedown", "1"], ["mouseup", "1"], rfl⟩
    | left_mouse_down | left_mouse_up | key => cases hn
  | click target modifier kind =>
    cases target with
    | none => cases hn
    | some point =>
      have hpoint : n ∈ point.numbers := by simpa [Request.numbers] using hn
      refine ⟨⟨"xdotool" :: point.mousemove, .ok {}⟩, ?_, ?_⟩
      · cases modifier <;> exact List.mem_cons_self
      · exact not_mousemove_inRange hpoint hbool (List.infix_cons (List.infix_refl _))
  | scroll target modifier amount button =>
    have hnumbers : (∃ point, target = some point ∧ n ∈ point.numbers) ∨
        n = amount.val ∧ ∀ message, modifier ≠ .invalid message := by
      cases modifier <;> simpa [Request.numbers] using hn
    rcases hnumbers with ⟨point, rfl, hpoint⟩ | ⟨rfl, hvalid⟩
    · refine ⟨⟨"xdotool" :: point.mousemove, .ok {}⟩, ?_, ?_⟩
      · cases modifier <;> exact List.mem_cons_self
      · exact not_mousemove_inRange hpoint hbool (List.infix_cons (List.infix_refl _))
    · refine ⟨⟨scroll_click amount button, .ok {}⟩, ?_, not_scroll_inRange hbool⟩
      cases modifier with
      | invalid message => exact absurd rfl (hvalid message)
      | absent =>
        cases target with
        | none => exact List.mem_cons_self
        | some point => exact List.mem_cons_of_mem _ List.mem_cons_self
      | key key =>
        cases target with
        | none => exact List.mem_cons_of_mem _ List.mem_cons_self
        | some point => exact List.mem_cons_of_mem _ (List.mem_cons_of_mem _ List.mem_cons_self)
  | zoom area =>
    refine ⟨⟨scrot (some area.geometry) _, .ok {}⟩, List.mem_cons_self, ?_⟩
    exact not_area_inRange hn hbool
  | screenshot | type | cursor_position | hold_key => cases hn

end Willing

namespace RemoteComputerTool

/-- The numbers in the commands of a call are in range and in decimal notation, for
every sandbox, unless one of them is a JSON boolean. -/
theorem numbers_in_range (tool : RemoteComputerTool) (tool_input : ToolInput) :
    (∀ executor, ∀ s ∈ ({ tool with executor } : RemoteComputerTool).journal tool_input,
        InRange tool.width tool.height s.command) ↔
      ∀ request, tool.read tool_input = .ok request → ∀ n ∈ request.numbers, n.is_bool = false := by
  constructor
  · intro hrange request hread n hn
    by_contra hbool
    obtain ⟨s, hs, hout⟩ := served_sends request hn (by simpa using hbool)
    apply hout
    apply hrange willing
    have hserved : ({ tool with executor := willing } : RemoteComputerTool).journal tool_input =
        served tool request := by
      unfold journal served
      rw [call_eq]
      have hread' : ({ tool with executor := willing } : RemoteComputerTool).read tool_input = .ok request :=
        hread
      rw [hread']
      rfl
    rw [hserved]
    exact hs
  · intro hnumbers executor
    apply journal_of_ensures (P := fun sent => ∀ s ∈ sent, InRange tool.width tool.height s.command)
    rw [call_eq]
    cases hread : ({ tool with executor } : RemoteComputerTool).read tool_input with
    | error result => exact .ret (by simp)
    | ok request =>
      have hmay : ∀ sent, Extends request.May [] sent →
          ∀ s ∈ sent, InRange tool.width tool.height s.command := by
        rintro sent ⟨more, rfl, hmore⟩ s hs
        exact may_inRange (hnumbers request hread) (hmore s (by simpa using hs))
      apply Ensures.handle
      apply (perform_sends (.any _) request []).mono (fun _ => hmay)
      rintro exc sent ⟨-, hextends⟩
      cases exc <;> exact hmay sent hextends

/-- A click at `[true, 5]`. -/
theorem numbers_boolean :
    let tool : RemoteComputerTool := { executor := willing, uuid_hex := fun _ => "0", repr := fun _ => "" }
    let tool_input : ToolInput :=
      .ofPairs [("action", .string "left_click"), ("coordinate", .array [.bool true, .int 5])]
    ⟨["xdotool", "mousemove", "--sync", "True", "5"], .ok {}⟩ ∈ tool.journal tool_input ∧
      ¬ InRange tool.width tool.height ["xdotool", "mousemove", "--sync", "True", "5"] := by
  refine ⟨by decide +kernel, fun hrange => ?_⟩
  obtain ⟨i, j, hi, -⟩ := hrange.mousemove "True" "5" ⟨["xdotool"], [], rfl⟩
  exact not_e_mem_toString i (hi ▸ by decide)

end RemoteComputerTool

end remote_tools

end session_manager

import SessionManager.Stream.Steps

open transition

namespace session_manager.event_stream.State

variable {config : Config} {s s' : State} {l : Label}

/-- The pump runs in the live loop alone, and a marker of overflow is all that is
left in a queue once it is there. -/
structure Pumping (s : State) : Prop where
  running (hpump : s.pump = .running) : s.phase = .live
  waiting (hended : s.phase.ended = false) (hlive : s.phase ≠ .live) :
    s.live_queue = [] ∧ s.pump = .idle
  overflow {marker : StreamOverflow} (hmarker : .overflow marker ∈ s.live_queue) :
    s.live_queue = [.overflow marker] ∧ s.pump ≠ .running

/-- The pump has not started. -/
theorem Pumping.initial (origin : Int) : Pumping (initial origin) where
  running hpump := by cases hpump
  waiting hended := by cases hended
  overflow hmarker := by cases hmarker

private theorem Pumping.same (h : s.Pumping)
    (hsame : (s'.phase, s'.live_queue, s'.pump) = (s.phase, s.live_queue, s.pump)) : s'.Pumping := by
  obtain ⟨hphase, hqueue, hpump⟩ : s'.phase = s.phase ∧ s'.live_queue = s.live_queue ∧
      s'.pump = s.pump := by simpa using hsame
  constructor
  case running => rw [hpump, hphase]; exact h.running
  case waiting => rw [hphase, hqueue, hpump]; exact h.waiting
  case overflow => rw [hqueue, hpump]; exact fun hmarker => h.overflow hmarker

/-- Between the subscription and the live loop there is neither a queue nor a pump. -/
private theorem Pumping.early (hpump : s.pump = .idle) (hqueue : s.live_queue = []) : s.Pumping where
  running hrunning := by rw [hpump] at hrunning; cases hrunning
  waiting _ _ := ⟨hqueue, hpump⟩
  overflow hmarker := by rw [hqueue] at hmarker; cases hmarker

private theorem Pumping.finish (h : s.Pumping) {phase : Phase} (hphase : phase.ended = true) :
    (s.finish phase).Pumping where
  running hpump := by
    simp only [State.finish] at hpump
    split_ifs at hpump with hrunning
    exact absurd hpump hrunning
  waiting hended := by
    rw [show (s.finish phase).phase = phase from rfl, hphase] at hended
    cases hended
  overflow hmarker := by
    obtain ⟨hqueue, hpump⟩ := h.overflow hmarker
    exact ⟨hqueue, by simp [State.finish, hpump]⟩

private theorem Pumping.turn (h : s.Pumping) (hended : s.phase.ended = false) (hlive : s.phase ≠ .live)
    {rest : List SessionEvent} {full : Bool} (hpaged : Paged s rest full s') : s'.Pumping := by
  obtain ⟨hqueue, hpump⟩ := h.waiting hended hlive
  cases hpaged with
  | event | full => exact .early hpump hqueue
  | last =>
    constructor
    case running => exact fun _ => rfl
    case waiting => exact fun _ hlive => absurd rfl hlive
    case overflow => exact fun hmarker => by cases hqueue ▸ hmarker

/-- Every step keeps the pump inside the live loop: the last page starts it, and an
overflow, an error or the end of the loop ends it. -/
theorem Pumping.step (h : s.Pumping) (hstep : s.step config l = some s') : s'.Pumping := by
  cases stepped hstep with
  | flush | commit | rollback | publish | heartbeat => exact h.same rfl
  | connect => exact .early rfl rfl
  | subscribed hphase | retried hphase =>
    obtain ⟨hqueue, hpump⟩ := h.waiting (by simp [hphase, Phase.ended]) (by simp [hphase])
    exact .early hpump hqueue
  | returned hphase =>
    constructor
    case running => exact fun hpump => by cases hphase.symm.trans (h.running hpump)
    case waiting => exact fun hended => by cases hended
    case overflow => exact fun hmarker => h.overflow hmarker
  | unsubscribed | unread | left => exact h.finish rfl
  | next hphase hpaged => exact h.turn (by simp [hphase, Phase.ended]) (by simp [hphase]) hpaged
  | page hphase _ _ hpaged =>
    have hsame : Pumping { s with replayed := s.events } := h.same rfl
    exact hsame.turn (by simp [hphase, Phase.ended]) (by simp [hphase]) hpaged
  | pumped hpump _ hpumped =>
    have hlive := h.running hpump
    have hclear : ∀ marker, .overflow marker ∉ s.live_queue := fun marker hmarker =>
      (h.overflow hmarker).2 hpump
    cases hpumped with
    | nothing => exact h.same rfl
    | raised =>
      constructor
      case running => exact fun hpump => by cases hpump
      case waiting => exact fun _ hnot => absurd hlive hnot
      case overflow => exact fun hmarker => absurd hmarker (hclear _)
    | overflow =>
      constructor
      case running => exact fun hpump => by cases hpump
      case waiting => exact fun _ hnot => absurd hlive hnot
      case overflow =>
        intro marker hmarker
        obtain rfl : marker = {} := by simpa using hmarker
        exact ⟨rfl, by simp⟩
    | put =>
      constructor
      case running => exact fun _ => hlive
      case waiting => exact fun _ hnot => absurd hlive hnot
      case overflow => exact fun hmarker => absurd (by simpa using hmarker) (hclear _)
  | @taken item queue _ hphase hqueue hdelivered =>
    have hclear : ∀ marker, .overflow marker ∉ queue := fun marker hmarker => by
      have hmem := hqueue ▸ List.mem_cons_of_mem item hmarker
      cases hqueue.symm.trans (h.overflow hmem).1
      cases hmarker
    have hnext : Pumping { s with live_queue := queue } := {
      running := h.running
      waiting := fun _ hnot => absurd hphase hnot
      overflow := fun hmarker => absurd hmarker (hclear _) }
    cases hdelivered with
    | old | sent => exact hnext.same rfl
    | unreadable => exact hnext.finish rfl
    | reset | unencodable => exact (hnext.finish (by rfl)).same rfl

end session_manager.event_stream.State

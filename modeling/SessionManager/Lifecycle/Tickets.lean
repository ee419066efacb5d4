import SessionManager.Lifecycle.Log
import Mathlib.Data.List.Nodup

namespace session_manager.lifecycle

variable {ρ π : Type}

/-- Every id is given out once and used for one entry at most. -/
structure Tickets (g : Log ρ π) : Prop where
  below : ∀ e ∈ g.entries, e.id < g.next
  held_below : ∀ p r id mark, g.pens p = .holding r id mark → id < g.next
  distinct : (g.entries.map Entry.id).Nodup
  unused : ∀ p r id mark, g.pens p = .holding r id mark → ∀ e ∈ g.entries, e.id ≠ id
  apart : ∀ p q r r' id mark mark', g.pens p = .holding r id mark →
    g.pens q = .holding r' id mark' → p = q

namespace Tickets

/-- Before the first step nobody holds an id and no event is written. -/
theorem initial : Tickets (.initial : Log ρ π) where
  below _ he := by cases he
  held_below _ _ _ _ hpen := by cases hpen
  distinct := .nil
  unused _ _ _ _ hpen := by cases hpen
  apart _ _ _ _ _ _ _ hpen := by cases hpen

variable [DecidableEq π] {p : π} {s s' : State ρ π} {g g' : Log ρ π}

variable (h : Tickets g) (hwrite : Write p s s' g g')
include h hwrite

private theorem write_below {e : Entry ρ} (he : e ∈ g'.entries) : e.id < g'.next := by
  refine Nat.lt_of_lt_of_le ?_ hwrite.next_le
  rcases hwrite.entry_cases he with hold | hwrote
  · exact h.below e hold
  · exact h.held_below _ _ _ _ hwrote.held

private theorem write_held_below {q : π} {r : ρ} {id : Nat} {mark : Mark}
    (hpen : g'.pens q = .holding r id mark) : id < g'.next := by
  rcases hwrite.holding_cases hpen with hold | ⟨-, rfl, hnext, -⟩
  · exact Nat.lt_of_lt_of_le (h.held_below _ _ _ _ hold) hwrite.next_le
  · rw [hnext]
    exact Nat.lt_succ_self _

private theorem write_distinct : (g'.entries.map Entry.id).Nodup := by
  cases hwrite with
  | rest | take => exact h.distinct
  | write hpen =>
    rw [List.map_append, List.nodup_append]
    refine ⟨h.distinct, by simp, ?_⟩
    rintro id hid _ hnew rfl
    obtain ⟨e, he, rfl⟩ := List.mem_map.mp hid
    exact h.unused _ _ _ _ hpen e he (by simpa using hnew)

private theorem write_unused {q : π} {r : ρ} {id : Nat} {mark : Mark}
    (hpen : g'.pens q = .holding r id mark) {e : Entry ρ} (he : e ∈ g'.entries) : e.id ≠ id := by
  rcases hwrite.holding_cases hpen with hold | ⟨-, rfl, -, hentries, -⟩
  · rcases hwrite.entry_cases he with hbefore | hwrote
    · exact h.unused _ _ _ _ hold e hbefore
    · rintro rfl
      obtain rfl := h.apart _ _ _ _ _ _ _ hold hwrote.held
      exact hwrote.dropped _ _ _ hpen
  · exact Nat.ne_of_lt (h.below e (hentries ▸ he))

private theorem write_apart {q q' : π} {r r' : ρ} {id : Nat} {mark mark' : Mark}
    (hpen : g'.pens q = .holding r id mark) (hpen' : g'.pens q' = .holding r' id mark') :
    q = q' := by
  rcases hwrite.holding_cases hpen with hold | ⟨hq, hid, -⟩ <;>
    rcases hwrite.holding_cases hpen' with hold' | ⟨hq', hid', -⟩
  · exact h.apart _ _ _ _ _ _ _ hold hold'
  · exact absurd hid' (Nat.ne_of_lt (h.held_below _ _ _ _ hold))
  · exact absurd hid (Nat.ne_of_lt (h.held_below _ _ _ _ hold'))
  · exact hq.trans hq'.symm

/-- A step that writes as `Write` allows hands out every id once: the ids that are held
or written stay below the counter, and no two tasks hold the same one. -/
theorem write : Tickets g' where
  below _ := h.write_below hwrite
  held_below _ _ _ _ := h.write_held_below hwrite
  distinct := h.write_distinct hwrite
  unused _ _ _ _ hpen _ := h.write_unused hwrite hpen
  apart _ _ _ _ _ _ _ := h.write_apart hwrite

end Tickets

end session_manager.lifecycle

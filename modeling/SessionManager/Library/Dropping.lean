import Mathlib.Data.List.Basic

/-- Things of type `α` that hold parts to be counted, the first of which can be
dropped. -/
structure Pile (α : Type*) where
  count : α → Nat
  drop : Nat → α → α
  count_drop : ∀ n a, count (drop n a) = count a - n
  drop_drop : ∀ n m a, drop m (drop n a) = drop (n + m) a
  drop_zero : ∀ a, drop 0 a = a

namespace Pile

section Filtered

variable {α : Type*} (p : α → Bool)

/-- Drops the first `n` items that `p` picks. -/
def dropPicked : Nat → List α → List α
  | _, [] => []
  | 0, items => items
  | n + 1, item :: items => if p item then dropPicked n items else item :: dropPicked (n + 1) items

/-- With nothing to drop every item stays. -/
@[simp] theorem dropPicked_zero (items : List α) : dropPicked p 0 items = items := by
  cases items <;> rfl

@[simp] theorem dropPicked_nil (n : Nat) : dropPicked p n [] = [] := by
  cases n <;> rfl

variable {p} {item : α}

/-- An item that is picked is dropped while there is something to drop. -/
theorem dropPicked_of_pos (hitem : p item = true) (n : Nat) (items : List α) :
    dropPicked p (n + 1) (item :: items) = dropPicked p n items := if_pos hitem

/-- An item that is not picked stays. -/
theorem dropPicked_of_neg (hitem : ¬ p item = true) (n : Nat) (items : List α) :
    dropPicked p n (item :: items) = item :: dropPicked p n items := by
  cases n with
  | zero => simp
  | succ n => exact if_neg hitem

variable (p)

/-- What has been dropped is gone from the count, down to none: the subtraction stops at
zero, as the dropping does. -/
theorem countP_dropPicked (n : Nat) (items : List α) :
    (dropPicked p n items).countP p = items.countP p - n := by
  induction items generalizing n with
  | nil => simp
  | cons item items ih =>
    by_cases hitem : p item = true
    · cases n with
      | zero => simp
      | succ n =>
        rw [dropPicked_of_pos hitem, ih, List.countP_cons_of_pos hitem]
        omega
    · rw [dropPicked_of_neg hitem, List.countP_cons_of_neg hitem, List.countP_cons_of_neg hitem, ih]

/-- Dropping some and then some more is dropping all of them at once, as both start from
the front. -/
theorem dropPicked_dropPicked (n m : Nat) (items : List α) :
    dropPicked p m (dropPicked p n items) = dropPicked p (n + m) items := by
  induction items generalizing n m with
  | nil => simp
  | cons item items ih =>
    by_cases hitem : p item = true
    · cases n with
      | zero => simp
      | succ n => rw [dropPicked_of_pos hitem, ih, Nat.add_right_comm, dropPicked_of_pos hitem]
    · simp only [dropPicked_of_neg hitem, ih]

/-- The items that `p` picks are the parts of a list. -/
def picked : Pile (List α) where
  count := List.countP p
  drop := dropPicked p
  count_drop := countP_dropPicked p
  drop_drop := dropPicked_dropPicked p
  drop_zero := dropPicked_zero p

end Filtered

section Rows

variable {α : Type*} (pile : Pile α)

/-- The parts of a list are the parts of its items, in order. -/
def total (items : List α) : Nat := items.foldr (fun item n => pile.count item + n) 0

def dropAll : Nat → List α → List α
  | _, [] => []
  | n, item :: items => pile.drop n item :: dropAll (n - pile.count item) items

@[simp] theorem total_nil : pile.total [] = 0 := rfl

@[simp] theorem total_cons (item : α) (items : List α) :
    pile.total (item :: items) = pile.count item + pile.total items := rfl

/-- The items of two lists in a row are counted one list after the other. -/
theorem total_append (items items' : List α) :
    pile.total (items ++ items') = pile.total items + pile.total items' := by
  induction items with
  | nil => simp
  | cons item items ih => simp only [List.cons_append, total_cons, ih, Nat.add_assoc]

/-- What has been dropped from a list is gone from its total. -/
theorem total_dropAll (n : Nat) (items : List α) :
    pile.total (pile.dropAll n items) = pile.total items - n := by
  induction items generalizing n with
  | nil => simp [dropAll]
  | cons item items ih =>
    simp only [dropAll, total_cons, pile.count_drop, ih]
    omega

/-- Dropping from a list of piles some and then some more is dropping all of them at
once. -/
theorem dropAll_dropAll (n m : Nat) (items : List α) :
    pile.dropAll m (pile.dropAll n items) = pile.dropAll (n + m) items := by
  induction items generalizing n m with
  | nil => rfl
  | cons item items ih =>
    have hleft : n - pile.count item + (m - (pile.count item - n)) = n + m - pile.count item := by omega
    simp only [dropAll, pile.count_drop, pile.drop_drop, ih, hleft]

/-- To drop none leaves the list as it is. -/
theorem dropAll_zero (items : List α) : pile.dropAll 0 items = items := by
  induction items with
  | nil => rfl
  | cons item items ih => simp only [dropAll, pile.drop_zero, Nat.zero_sub, ih]

/-- What comes after the parts that are dropped is kept; only what the first list could
not give is taken from the second. -/
theorem dropAll_append (n : Nat) (items items' : List α) :
    pile.dropAll n (items ++ items') = pile.dropAll n items ++ pile.dropAll (n - pile.total items) items' := by
  induction items generalizing n with
  | nil => simp [dropAll]
  | cons item items ih => simp [dropAll, ih, Nat.sub_sub]

/-- What dropping keeps of an item is kept of the whole list, item by item. -/
theorem map_dropAll {β : Type*} {g : α → β} (hkeep : ∀ n item, g (pile.drop n item) = g item) (n : Nat)
    (items : List α) : (pile.dropAll n items).map g = items.map g := by
  induction items generalizing n with
  | nil => rfl
  | cons item items ih => simp only [dropAll, List.map_cons, hkeep, ih]

def rows : Pile (List α) where
  count := pile.total
  drop := pile.dropAll
  count_drop := pile.total_dropAll
  drop_drop := pile.dropAll_dropAll
  drop_zero := pile.dropAll_zero

/-- A list is dropped from with one counter that goes down from item to item. -/
def thread (f : Int → α → Int × α) : Int → List α → Int × List α
  | n, [] => (n, [])
  | n, item :: items =>
    let (n, item) := f n item
    let (n, items) := thread f n items
    (n, item :: items)

/-- A loop over the items that mutates the counter of what is left to drop drops from
the list, if its body drops from the item. The counter may start below 0. -/
theorem thread_eq {f : Int → α → Int × α} (hf : ∀ n item, f n item =
      (n - min n.toNat (pile.count item), pile.drop n.toNat item)) (n : Int) (items : List α) :
    thread f n items = (n - min n.toNat (pile.total items), pile.dropAll n.toNat items) := by
  induction items generalizing n with
  | nil => simp [thread, dropAll]
  | cons item items ih =>
    have hleft : (n - min n.toNat (pile.count item)).toNat = n.toNat - pile.count item := by omega
    simp only [thread, hf, ih, hleft, dropAll, total_cons, Prod.mk.injEq, and_true]
    omega

/-- What the body of the loop keeps of an item is kept of the whole list, whatever the
counter is. -/
theorem map_thread {β : Type*} {f : Int → α → Int × α} {g : α → β} (hkeep : ∀ n item, g (f n item).2 = g item)
    (n : Int) (items : List α) : (thread f n items).2.map g = items.map g := by
  induction items generalizing n with
  | nil => rfl
  | cons item items ih => simp only [thread, List.map_cons, hkeep, ih]

end Rows

end Pile

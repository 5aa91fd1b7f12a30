import Mathlib.Data.List.DropRight

/-!
# Bounded queues

`Deque α maxlen` holds at most `maxlen` elements, the oldest first; what is appended to a full one
pushes the oldest out.  `recent n history` is what such a queue remembers of all that was appended
to it.
-/

namespace Library

variable {α : Type} {maxlen : ℕ}

/-- The last `n` elements of a history. -/
def recent (n : ℕ) (history : List α) : List α := history.rtake n

@[simp] lemma recent_nil (n : ℕ) : recent n ([] : List α) = [] := by
  simp [recent]

@[simp] lemma length_recent (n : ℕ) (history : List α) :
    (recent n history).length = min n history.length := by
  simp only [recent, List.rtake, List.length_drop]
  omega

lemma recent_of_length_le {n : ℕ} {history : List α} (h : history.length ≤ n) :
    recent n history = history := by
  rw [recent, List.rtake, Nat.sub_eq_zero_of_le h, List.drop_zero]

/-- The window has moved on behind the older part. -/
lemma recent_append {n : ℕ} {older newer : List α} (h : newer.length = n) :
    recent n (older ++ newer) = newer := by
  rw [recent, List.rtake, List.length_append, h, Nat.add_sub_cancel, List.drop_left]

/-- The last of a longer history. -/
lemma recent_concat (n : ℕ) (history : List α) (x : α) :
    recent (n + 1) (history ++ [x]) = recent n history ++ [x] :=
  List.rtake_concat_succ history n x

/-- What is remembered suffices to remember one more. -/
lemma recent_recent_concat (n : ℕ) (history : List α) (x : α) :
    recent n (recent n history ++ [x]) = recent n (history ++ [x]) := by
  cases n with
  | zero => simp [recent]
  | succ n =>
      rw [recent_concat, recent_concat]
      congr 1
      simp only [recent, List.rtake_eq_reverse_take_reverse, List.reverse_reverse, List.take_take]
      congr 2
      omega

structure Deque (α : Type) (maxlen : ℕ) where
  items : List α
  length_le : items.length ≤ maxlen

namespace Deque

def empty : Deque α maxlen := ⟨[], Nat.zero_le _⟩

/-- `append(x)` -/
def append (d : Deque α maxlen) (x : α) : Deque α maxlen where
  items := recent maxlen (d.items ++ [x])
  length_le := by
    rw [length_recent]
    exact Nat.min_le_left _ _

lemma items_append (d : Deque α maxlen) (x : α) :
    (d.append x).items = recent maxlen (d.items ++ [x]) := rfl

/-- `popleft()` on a queue that is not empty. -/
def popleft (d : Deque α maxlen) (h : d.items ≠ []) : α × Deque α maxlen :=
  (d.items.head h, ⟨d.items.tail, by
    rw [List.length_tail]
    exact (Nat.sub_le _ _).trans d.length_le⟩)

/-- Giving up the oldest element of a full queue by hand comes to the same as leaving it to
`append`. -/
lemma append_popleft (d : Deque α maxlen) (h : d.items ≠ []) (hfull : d.items.length = maxlen)
    (x : α) :
    ((d.popleft h).2.append x).items = (d.append x).items := by
  obtain ⟨items, hle⟩ := d
  cases items with
  | nil => exact absurd rfl h
  | cons oldest rest =>
      obtain rfl : maxlen = rest.length + 1 := hfull.symm
      simp [append, popleft, recent, List.rtake]

end Deque

end Library

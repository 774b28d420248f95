/-! # Lists that are changed in place

A list that is changed in place stays the same list: whoever holds its address finds it changed. A
heap says what is at each address, and from which address on nothing has been put there yet. -/

namespace ScriptLexer

/-- Where a list is kept. -/
abbrev Address := Nat

/-- The lists at all addresses. From `next` on there are none so far. -/
structure Heap (α : Type) where
  read : Address → List α := fun _ => []
  next : Address := 0

namespace Heap

variable {α : Type} {h : Heap α} {a b : Address} {l : List α}

/-- Changes the list at an address. -/
def write (h : Heap α) (a : Address) (l : List α) : Heap α :=
  { h with read := fun b => if b = a then l else h.read b }

/-- Puts a new list where there is none. -/
def allocate (h : Heap α) (l : List α) : Address × Heap α :=
  (h.next, { h.write h.next l with next := h.next + 1 })

theorem read_write_self : (h.write a l).read a = l :=
  if_pos rfl

theorem read_write_of_ne (hb : b ≠ a) : (h.write a l).read b = h.read b :=
  if_neg hb

/-- To put a list where it is already changes nothing. -/
theorem write_read : h.write a (h.read a) = h := by
  have hr : (fun b => if b = a then h.read a else h.read b) = h.read := by
    funext b
    split
    · next hb => rw [hb]
    · rfl
  rw [write, hr]

/-- What is changed twice is as it was changed last. -/
theorem write_write (l' : List α) : (h.write a l).write a l' = h.write a l' := by
  have hr : (fun b => if b = a then l' else if b = a then l else h.read b) =
      fun b => if b = a then l' else h.read b := by
    funext b
    split <;> rfl
  rw [write, write, hr, write]

theorem read_allocate_self : (h.allocate l).2.read (h.allocate l).1 = l :=
  read_write_self

theorem read_allocate_of_lt (ha : a < h.next) : (h.allocate l).2.read a = h.read a :=
  read_write_of_ne (Nat.ne_of_lt ha)

/-- A list that is copied is as it was, wherever the copy is put. -/
theorem read_allocate_read : (h.allocate (h.read a)).2.read a = h.read a := by
  by_cases ha : a = h.next
  · rw [ha]
    exact read_write_self
  · exact read_write_of_ne ha

end Heap

end ScriptLexer

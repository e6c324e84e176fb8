/-!
# Stores

Things that are known by their identity, a number given when they are added.
Nothing is ever removed, so an identity stays valid.
-/

namespace LoggingFacade

structure Store (α : Type) where
  items : List α
  deriving Repr

namespace Store

variable {α : Type}

def empty : Store α := ⟨[]⟩

instance : Inhabited (Store α) := ⟨empty⟩

def get? (s : Store α) (id : Nat) : Option α := s.items[id]?

/-- The identity that the next added thing gets. -/
def next (s : Store α) : Nat := s.items.length

def add (s : Store α) (a : α) : Store α := ⟨s.items ++ [a]⟩

def set (s : Store α) (id : Nat) (a : α) : Store α := ⟨s.items.set id a⟩

def update (s : Store α) (id : Nat) (f : α → α) : Store α := ⟨s.items.modify id f⟩

@[simp] theorem get?_next (s : Store α) : s.get? s.next = none :=
  List.getElem?_eq_none (Nat.le_refl _)

@[simp] theorem get?_add_next (s : Store α) (a : α) : (s.add a).get? s.next = some a := by
  simp [get?, add, next]

theorem get?_add_of_ne (s : Store α) (a : α) {id : Nat} (h : id ≠ s.next) :
    (s.add a).get? id = s.get? id := by
  simp only [get?, add, next] at *
  rw [List.getElem?_append]
  split
  · rfl
  · rename_i hlt
    rw [List.getElem?_eq_none (by simpa using by omega), List.getElem?_eq_none (by omega)]

theorem get?_set_self {s : Store α} {id : Nat} {b : α} (h : s.get? id = some b) (a : α) :
    (s.set id a).get? id = some a := by
  obtain ⟨hlt, -⟩ := List.getElem?_eq_some_iff.1 h
  simp [get?, set, hlt]

theorem get?_set_of_ne (s : Store α) {id other : Nat} (a : α) (h : other ≠ id) :
    (s.set id a).get? other = s.get? other := by
  simp [get?, set, Ne.symm h]

@[simp] theorem get?_update_self (s : Store α) (id : Nat) (f : α → α) :
    (s.update id f).get? id = (s.get? id).map f := by
  simp [get?, update]

theorem get?_update_of_ne (s : Store α) {id other : Nat} (f : α → α) (h : other ≠ id) :
    (s.update id f).get? other = s.get? other := by
  simp [get?, update, Ne.symm h]

@[simp] theorem next_add (s : Store α) (a : α) : (s.add a).next = s.next + 1 := by
  simp [next, add]

@[simp] theorem next_update (s : Store α) (id : Nat) (f : α → α) :
    (s.update id f).next = s.next := by
  simp [next, update]

end Store
end LoggingFacade

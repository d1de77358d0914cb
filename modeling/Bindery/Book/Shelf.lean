import Bindery.Book.Fragment

namespace Bindery

/-! Fragments kept in memory under their section and exact file name. -/

structure Shelf where
  fragments : List ((Section × String) × String) := []

def Shelf.insert (shelf : Shelf) (place : Section) (file text : String) : Shelf :=
  ⟨((place, file), text) :: shelf.fragments⟩

def Shelf.get? (shelf : Shelf) (place : Section) (file : String) : Option String :=
  shelf.fragments.lookup (place, file)

def Shelf.source (shelf : Shelf) : FragmentSource where
  fetch place file := .ok (shelf.get? place file)

theorem Shelf.get?_insert_of_ne (shelf : Shelf) {place other : Section} {file name : String}
    (text : String) (hother : (other, name) ≠ (place, file)) :
    (shelf.insert place file text).get? other name = shelf.get? other name := by
  simp [Shelf.insert, Shelf.get?, List.lookup_cons, beq_false_of_ne hother]

end Bindery

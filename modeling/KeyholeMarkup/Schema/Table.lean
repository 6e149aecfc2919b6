import KeyholeMarkup.Xml.Name

/-! Tables of named things. A name has one entry, and an insertion replaces it. -/
namespace KeyholeMarkup.Schema
open KeyholeMarkup.Xml

abbrev Table (α : Type) := List (Name × α)

namespace Table
variable {α : Type}

def find? (table : Table α) (name : Name) : Option α :=
  match table with
  | [] => none
  | (other, value) :: rest => if other = name then some value else find? rest name

def insert (table : Table α) (name : Name) (value : α) : Table α :=
  match table with
  | [] => [(name, value)]
  | (other, old) :: rest =>
    if other = name then (name, value) :: rest else (other, old) :: insert rest name value

def sorted (table : Table α) : Table α :=
  table.mergeSort fun first second => first.1.compare second.1 != .gt

@[simp] theorem find?_nil (name : Name) : find? ([] : Table α) name = none := rfl

theorem find?_insert_self (table : Table α) (name : Name) (value : α) :
    find? (insert table name value) name = some value := by
  induction table with
  | nil => simp [insert, find?]
  | cons entry rest ih =>
    obtain ⟨other, old⟩ := entry
    by_cases same : other = name <;> simp [insert, find?, same, ih]

theorem find?_insert_of_ne (table : Table α) {name other : Name} (value : α) (h : other ≠ name) :
    find? (insert table name value) other = find? table other := by
  induction table with
  | nil => simp [insert, find?, Ne.symm h]
  | cons entry rest ih =>
    obtain ⟨key, old⟩ := entry
    by_cases same : key = name
    · subst same
      simp [insert, find?, Ne.symm h]
    · simp [insert, find?, same, ih]

theorem mem_of_find? {table : Table α} {name : Name} {value : α} (h : find? table name = some value) :
    (name, value) ∈ table := by
  induction table with
  | nil => simp at h
  | cons entry rest ih =>
    obtain ⟨key, old⟩ := entry
    simp only [find?] at h
    split at h
    · rename_i same
      cases h
      simp [same]
    · exact List.mem_cons_of_mem _ (ih h)

end Table
end KeyholeMarkup.Schema

/-!
# Indexes by name

An index gives names a value. `insertNew` keeps the first value of a name, `insert` the last, `push`
collects all values of a name in order, and `pushNew` those that differ.
-/

namespace Deadwood.Code

/-- Names with their values, each name once. -/
abbrev Index (α : Type) := List (String × α)

namespace Index

variable {α : Type}

/-- The value of a name. -/
def get? : Index α → String → Option α
  | [], _ => none
  | (key, value) :: rest, name => if name = key then some value else get? rest name

/-- Gives a name a value unless it has one. -/
def insertNew : Index α → String → α → Index α
  | [], name, value => [(name, value)]
  | (key, old) :: rest, name, value =>
    if name = key then (key, old) :: rest else (key, old) :: insertNew rest name value

/-- Gives a name a value, in place of one that it may have. -/
def insert : Index α → String → α → Index α
  | [], name, value => [(name, value)]
  | (key, old) :: rest, name, value =>
    if name = key then (key, value) :: rest else (key, old) :: insert rest name value

/-- Adds a value behind those that a name has. -/
def push : Index (List α) → String → α → Index (List α)
  | [], name, value => [(name, [value])]
  | (key, values) :: rest, name, value =>
    if name = key then (key, values ++ [value]) :: rest else (key, values) :: push rest name value

/-- All values of a name. -/
def getAll (index : Index (List α)) (name : String) : List α :=
  (index.get? name).getD []

/-- Adds a value behind those that a name has, unless it is one of them. -/
def pushNew [DecidableEq α] (index : Index (List α)) (name : String) (value : α) :
    Index (List α) :=
  if value ∈ index.getAll name then index else index.push name value

/-- The first value of a name stays. -/
theorem get?_insertNew (index : Index α) (name other : String) (value : α) :
    (index.insertNew name value).get? other =
      (index.get? other).or (if other = name then some value else none) := by
  induction index with
  | nil => simp [insertNew, get?]
  | cons entry rest ih =>
    obtain ⟨key, old⟩ := entry
    simp only [insertNew]
    split <;> simp only [get?] <;> split <;> simp_all

/-- The last value of a name stays. -/
theorem get?_insert (index : Index α) (name other : String) (value : α) :
    (index.insert name value).get? other =
      if other = name then some value else index.get? other := by
  induction index with
  | nil => simp [insert, get?]
  | cons entry rest ih =>
    obtain ⟨key, old⟩ := entry
    simp only [insert]
    split <;> simp only [get?] <;> split <;> simp_all [eq_comm]

theorem getAll_push (index : Index (List α)) (name other : String) (value : α) :
    (index.push name value).getAll other =
      index.getAll other ++ (if other = name then [value] else []) := by
  unfold getAll
  induction index with
  | nil => by_cases e : other = name <;> simp [push, get?, e]
  | cons entry rest ih =>
    obtain ⟨key, values⟩ := entry
    simp only [push]
    split <;> simp only [get?] <;> split <;> simp_all [eq_comm]

/-- A value is only listed once under a name, where it came first. -/
theorem getAll_pushNew [DecidableEq α] (index : Index (List α)) (name other : String) (value : α) :
    (index.pushNew name value).getAll other =
      index.getAll other ++
        (if other = name ∧ value ∉ index.getAll other then [value] else []) := by
  unfold pushNew
  by_cases hname : other = name
  · subst hname
    split <;> simp_all [getAll_push]
  · split <;> simp [getAll_push, hname]

end Index

end Deadwood.Code

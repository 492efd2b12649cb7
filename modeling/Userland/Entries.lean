/-
  Tables of named values that remember the order in which the names first arrived.

  Writing to a name that is present replaces its value in place, a new name goes to the end, and
  removing a name moves none of the others.  Directories, variables, aliases and the command table
  are all of this kind.
-/

namespace Userland

/-- Named values in order of arrival. -/
abbrev Entries (α : Type) := List (String × α)

namespace Entries

variable {α : Type}

/-- The names, in order. -/
def names (es : Entries α) : List String := es.map (·.1)

/-- The value under a name. -/
def get? (es : Entries α) (name : String) : Option α :=
  match es with
  | [] => none
  | (n, v) :: rest => if n = name then some v else get? rest name

/-- Writes a value under a name: in place if the name is there, at the end if not. -/
def put (es : Entries α) (name : String) (value : α) : Entries α :=
  match es with
  | [] => [(name, value)]
  | (n, v) :: rest => if n = name then (n, value) :: rest else (n, v) :: put rest name value

/-- Changes the value under a name, if there is one. -/
def adjust (es : Entries α) (name : String) (f : α → α) : Entries α :=
  match es with
  | [] => []
  | (n, v) :: rest => if n = name then (n, f v) :: rest else (n, v) :: adjust rest name f

/-- Takes a name and its value out. -/
def remove (es : Entries α) (name : String) : Entries α :=
  match es with
  | [] => []
  | (n, v) :: rest => if n = name then rest else (n, v) :: remove rest name

/-- Writes several values, one after the other. -/
def putAll (es : Entries α) (more : List (String × α)) : Entries α :=
  more.foldl (fun es e => put es e.1 e.2) es

/-! ## What each operation does to a look-up -/

@[simp] theorem get?_put_self (es : Entries α) (name : String) (value : α) :
    get? (put es name value) name = some value := by
  induction es with
  | nil => simp [put, get?]
  | cons e rest ih => by_cases h : e.1 = name <;> simp [put, get?, h, ih]

theorem get?_put_of_ne {es : Entries α} {name other : String} {value : α} (h : other ≠ name) :
    get? (put es name value) other = get? es other := by
  induction es with
  | nil => simp [put, get?, Ne.symm h]
  | cons e rest ih =>
    by_cases hn : e.1 = name
    · subst hn
      simp [put, get?, Ne.symm h]
    · simp [put, get?, hn, ih]

/-- A name is present exactly when it has a value. -/
theorem mem_names_iff {es : Entries α} {name : String} :
    name ∈ names es ↔ (get? es name).isSome := by
  induction es with
  | nil => simp [names, get?]
  | cons e rest ih =>
    by_cases h : e.1 = name
    · simp [names, get?, h]
    · have h' : name ≠ e.1 := fun he => h he.symm
      simp only [names, List.map_cons, List.mem_cons, h', false_or, get?, h, if_false]
      exact ih

/-- Writing keeps the names, and a new one goes to the end. -/
theorem names_put (es : Entries α) (name : String) (value : α) :
    names (put es name value) = if name ∈ names es then names es else names es ++ [name] := by
  induction es with
  | nil => simp [put, names]
  | cons e rest ih =>
    by_cases h : e.1 = name
    · simp [put, names, h]
    · have h' : name ≠ e.1 := fun he => h he.symm
      have hmem : name ∈ names (e :: rest) ↔ name ∈ names rest := by
        simp [names, h']
      simp only [put, h, if_false, hmem]
      change e.1 :: names (put rest name value) = _
      rw [ih, apply_ite (e.1 :: ·)]
      rfl

end Entries

end Userland

/-
  What changing, writing and removing do to the names and values of a table.

  1. *Program.*  A table is a list of names with values, and every operation goes down the list to
     the first entry of its name: `put` and `adjust` give it another value, `remove` takes it out,
     and `put` goes on to the end if there is none.

  2. *Specification.*  For each operation three things are said: which names there are afterwards,
     what is found under its own name, and that under every other name the same is found as before.
     Directories, variables, aliases and the command table are read through these laws alone.

  3. *The crux.*  Writing and changing never disturb the names that are there, and removing takes
     only the name itself out (`names_put`, `names_adjust`, `names_remove`), so that names that are
     pairwise different stay so.  A removed name has no value any more only under that condition
     (`get?_remove_self`): with a name twice, the second would come to light.
-/
import Userland.Entries

namespace Userland.Entries

variable {α : Type} {es : Entries α} {name other : String}

/-! ## Values and members -/

/-- Nothing is found under a name if and only if the name is not there. -/
theorem get?_eq_none_iff : get? es name = none ↔ name ∉ names es := by
  rw [mem_names_iff, Option.not_isSome_iff_eq_none]

/-- What is found under a name is a member under this name. -/
theorem mem_of_get? {value : α} (h : get? es name = some value) : (name, value) ∈ es := by
  induction es with
  | nil => cases h
  | cons e rest ih =>
    rw [get?] at h
    split at h
    · next heq =>
      cases h
      rw [← heq]
      exact List.mem_cons_self
    · exact List.mem_cons_of_mem e (ih h)

/-- The name of a member is one of the names. -/
theorem mem_names_of_mem {e : String × α} (h : e ∈ es) : e.1 ∈ names es :=
  List.mem_map_of_mem h

/-- Where the names differ, every member is the value of its name. -/
theorem get?_of_mem (hes : (names es).Nodup) {value : α} (h : (name, value) ∈ es) :
    get? es name = some value := by
  induction es with
  | nil => cases h
  | cons e rest ih =>
    obtain ⟨hfresh, hrest⟩ := List.nodup_cons.mp hes
    rcases List.mem_cons.mp h with rfl | h
    · rw [get?, if_pos rfl]
    · -- the first entry does not stand in the way, since it has another name
      have hmem : name ∈ names rest := mem_names_of_mem h
      have hne : e.1 ≠ name := by
        rintro rfl
        exact hfresh hmem
      rw [get?, if_neg hne]
      exact ih hrest h

/-! ## Writing -/

/-- After writing, the name is there besides the names from before. -/
theorem mem_names_put {value : α} :
    other ∈ names (put es name value) ↔ other = name ∨ other ∈ names es := by
  rw [names_put]
  split
  · next hthere =>
    refine ⟨.inr, ?_⟩
    rintro (rfl | hold)
    · exact hthere
    · exact hold
  · rw [List.mem_append, List.mem_singleton, or_comm]

/-- Names that differ still do so when one is written. -/
theorem nodup_names_put (h : (names es).Nodup) (name : String) (value : α) :
    (names (put es name value)).Nodup := by
  rw [names_put]
  split
  · exact h
  · next hfresh =>
    refine List.nodup_append.mpr ⟨h, List.pairwise_singleton _ _, fun a ha b hb he => ?_⟩
    rw [List.mem_singleton.mp hb] at he
    exact hfresh (he ▸ ha)

/-- Writing brings in no member but the one that is written. -/
theorem mem_put {e : String × α} {value : α} (h : e ∈ put es name value) :
    e = (name, value) ∨ e ∈ es := by
  induction es with
  | nil => exact .inl (List.mem_singleton.mp h)
  | cons first rest ih =>
    rw [put] at h
    split at h
    · next heq =>
      rcases List.mem_cons.mp h with rfl | h
      · exact .inl (by rw [heq])
      · exact .inr (List.mem_cons_of_mem first h)
    · rcases List.mem_cons.mp h with rfl | h
      · exact .inr List.mem_cons_self
      · exact (ih h).imp_right (List.mem_cons_of_mem first)

/-- A new name goes to the end. -/
theorem put_of_not_mem {value : α} (h : name ∉ names es) :
    put es name value = es ++ [(name, value)] := by
  induction es with
  | nil => rfl
  | cons e rest ih =>
    have hne : e.1 ≠ name := fun he => h (he ▸ List.mem_cons_self)
    rw [put, if_neg hne, ih fun hmem => h (List.mem_cons_of_mem _ hmem), List.cons_append]

/-- Writing what is there changes nothing. -/
theorem put_eq_self {value : α} (h : get? es name = some value) : put es name value = es := by
  induction es with
  | nil => cases h
  | cons e rest ih =>
    rw [get?] at h
    split at h
    · next hname =>
      obtain rfl := Option.some.inj h
      rw [put, if_pos hname]
    · next hname => rw [put, if_neg hname, ih h]

/-- Writing moves none of the other names, and their values stay as they are. -/
theorem getElem?_put_of_ne {value x : α} (h : other ≠ name) (i : Nat) :
    (put es name value)[i]? = some (other, x) ↔ es[i]? = some (other, x) := by
  have hother : ∀ y, (name, y) ≠ (other, x) := fun y he => h (congrArg Prod.fst he).symm
  induction es generalizing i with
  | nil => cases i <;> simp [put, hother]
  | cons e rest ih =>
    by_cases he : e.1 = name
    · have hfirst : e ≠ (other, x) := fun heq => hother e.2 (he ▸ heq)
      rw [put, if_pos he]
      cases i with
      | zero => simp [he, hother, hfirst]
      | succ i => rfl
    · rw [put, if_neg he]
      cases i with
      | zero => rfl
      | succ i => exact ih i

/-- Under names that are new and different, what is written goes to the end, in its order. -/
theorem putAll_eq_append {more : Entries α} (h : (names (es ++ more)).Nodup) :
    putAll es more = es ++ more := by
  -- on what is written, for every table: each value is written after those before it
  induction more generalizing es with
  | nil => rw [List.append_nil, putAll, List.foldl_nil]
  | cons e rest ih =>
    have hcons : es ++ e :: rest = es ++ [e] ++ rest := by
      rw [List.append_assoc, List.singleton_append]
    have hfresh : e.1 ∉ names es := by
      intro hmem
      rw [names, List.map_append, List.map_cons] at h
      exact (List.nodup_append.mp h).2.2 e.1 hmem e.1 List.mem_cons_self rfl
    rw [hcons] at h ⊢
    rw [← ih h, putAll, List.foldl_cons, put_of_not_mem hfresh, putAll]

/-! ## Changing -/

/-- Changing a value changes no name. -/
theorem names_adjust (es : Entries α) (name : String) (f : α → α) :
    names (adjust es name f) = names es := by
  induction es with
  | nil => rfl
  | cons e rest ih =>
    rw [adjust]
    split
    · rfl
    · exact congrArg (e.1 :: ·) ih

/-- Under the name itself the changed value is found, if one was there. -/
theorem get?_adjust_self (es : Entries α) (name : String) (f : α → α) :
    get? (adjust es name f) name = (get? es name).map f := by
  induction es with
  | nil => rfl
  | cons e rest ih =>
    by_cases h : e.1 = name
    · rw [adjust, if_pos h, get?, if_pos h, get?, if_pos h, Option.map_some]
    · rw [adjust, if_neg h, get?, if_neg h, get?, if_neg h, ih]

/-- Under every other name the same is found as before. -/
theorem get?_adjust_of_ne (es : Entries α) (f : α → α) (h : other ≠ name) :
    get? (adjust es name f) other = get? es other := by
  induction es with
  | nil => rfl
  | cons e rest ih =>
    by_cases he : e.1 = name
    · have hne : e.1 ≠ other := fun ho => h (ho ▸ he)
      rw [adjust, if_pos he, get?, if_neg hne, get?, if_neg hne]
    · rw [adjust, if_neg he, get?, get?, ih]

/-- A member after the change is an old one, perhaps with its value changed. -/
theorem mem_adjust {e : String × α} {f : α → α} (h : e ∈ adjust es name f) :
    e ∈ es ∨ ∃ value, (name, value) ∈ es ∧ e = (name, f value) := by
  induction es with
  | nil => cases h
  | cons first rest ih =>
    rw [adjust] at h
    split at h
    · next heq =>
      rcases List.mem_cons.mp h with rfl | h
      · exact .inr ⟨first.2, by rw [← heq]; exact List.mem_cons_self, by rw [heq]⟩
      · exact .inl (List.mem_cons_of_mem first h)
    · rcases List.mem_cons.mp h with rfl | h
      · exact .inl List.mem_cons_self
      · rcases ih h with h | ⟨value, hv, rfl⟩
        · exact .inl (List.mem_cons_of_mem first h)
        · exact .inr ⟨value, List.mem_cons_of_mem first hv, rfl⟩

/-- What does not depend on the change is the same for all members. -/
theorem map_adjust {β : Type} {f : α → α} {g : String × α → β}
    (h : ∀ name value, g (name, f value) = g (name, value)) (es : Entries α) (name : String) :
    (adjust es name f).map g = es.map g := by
  induction es with
  | nil => rfl
  | cons e rest ih =>
    rw [adjust]
    split
    · rw [List.map_cons, List.map_cons, h]
    · rw [List.map_cons, List.map_cons, ih]

/-- Changing what has just been written is writing it changed. -/
theorem adjust_put (es : Entries α) (name : String) (value : α) (f : α → α) :
    adjust (put es name value) name f = put es name (f value) := by
  induction es with
  | nil => rw [put, adjust, if_pos rfl, put]
  | cons e rest ih =>
    by_cases h : e.1 = name
    · rw [put, if_pos h, adjust, if_pos h, put, if_pos h]
    · rw [put, if_neg h, adjust, if_neg h, put, if_neg h, ih]

/-- A change that leaves the value as it is changes nothing. -/
theorem adjust_eq_self {value : α} {f : α → α} (h : get? es name = some value)
    (hf : f value = value) : adjust es name f = es := by
  induction es with
  | nil => cases h
  | cons e rest ih =>
    rw [get?] at h
    split at h
    · next hname =>
      obtain rfl := Option.some.inj h
      rw [adjust, if_pos hname, hf]
    · next hname => rw [adjust, if_neg hname, ih h]

/-- Two changes under one name are one change. -/
theorem adjust_adjust (es : Entries α) (name : String) (f g : α → α) :
    adjust (adjust es name f) name g = adjust es name (g ∘ f) := by
  induction es with
  | nil => rfl
  | cons e rest ih =>
    by_cases h : e.1 = name
    · rw [adjust, if_pos h, adjust, if_pos h, adjust, if_pos h, Function.comp_apply]
    · rw [adjust, if_neg h, adjust, if_neg h, adjust, if_neg h, ih]

/-! ## Removing -/

/-- Removing takes the name out at its first place, and no other. -/
theorem names_remove (es : Entries α) (name : String) :
    names (remove es name) = (names es).erase name := by
  induction es with
  | nil => rfl
  | cons e rest ih =>
    by_cases h : e.1 = name
    · rw [remove, if_pos h]
      simp [names, h]
    · rw [remove, if_neg h]
      change e.1 :: names (remove rest name) = (e.1 :: names rest).erase name
      rw [ih, List.erase_cons_tail (by simp [h])]

/-- Removing brings in no member. -/
theorem mem_remove {e : String × α} (h : e ∈ remove es name) : e ∈ es := by
  induction es with
  | nil => cases h
  | cons first rest ih =>
    rw [remove] at h
    split at h
    · exact List.mem_cons_of_mem first h
    · rcases List.mem_cons.mp h with rfl | h
      · exact List.mem_cons_self
      · exact List.mem_cons_of_mem first (ih h)

/-- Removing brings in no name. -/
theorem mem_names_of_mem_names_remove (h : other ∈ names (remove es name)) : other ∈ names es := by
  rw [names_remove] at h
  exact List.mem_of_mem_erase h

/-- Names that differ still do so when one is removed. -/
theorem nodup_names_remove (h : (names es).Nodup) (name : String) :
    (names (remove es name)).Nodup := by
  rw [names_remove]
  exact h.erase name

/-- Where the names differ, nothing is left under the one that is removed. -/
theorem get?_remove_self (h : (names es).Nodup) (name : String) :
    get? (remove es name) name = none := by
  rw [get?_eq_none_iff, names_remove]
  exact h.not_mem_erase

/-- Under every other name the same is found as before. -/
theorem get?_remove_of_ne (es : Entries α) (h : other ≠ name) :
    get? (remove es name) other = get? es other := by
  induction es with
  | nil => rfl
  | cons e rest ih =>
    by_cases he : e.1 = name
    · have hne : e.1 ≠ other := fun ho => h (ho ▸ he)
      rw [remove, if_pos he, get?, if_neg hne]
    · rw [remove, if_neg he, get?, get?, ih]

end Userland.Entries

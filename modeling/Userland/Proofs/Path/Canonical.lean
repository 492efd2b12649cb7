/-
  The texts that `normalize` gives.

  1. *Program.*  A path text is put after its directory, cut at the slashes and read with a stack.
     What is on the stack in the end is written with a slash before each name.

  2. *Specification.*  The answers are exactly the texts that begin with a slash and have no empty
     part, no dot and no two dots after it (`IsSpelling`), which are the texts that `normalize`
     gives back unchanged, whatever the directory; and two inputs have one answer exactly when they
     leave the same stack (`normalize_spellings`).

  3. *The crux.*  The reading is said part by part, as a relation (`Reads`), and `steps` is the one
     stack that it leads to.  A text of the right shape is put together again from the parts that it
     is cut into, so that it renders its own steps (`exists_render_of_isSpelling`).
-/
import Userland.Proofs.Path

namespace Userland

namespace Path

open Text

/-! ## What is read -/

/-- The text that is cut at its slashes: an absolute path alone, any other after the directory. -/
def joined (cwd input : String) : String :=
  if startsWith '/' input then input
  else if cwd = "" ∨ cwd = "/" then "/" ++ input
  else cwd ++ "/" ++ input

/-- Reading parts turns one stack of names into another. -/
inductive Reads : List String → List String → List String → Prop
  | done {stack : List String} : Reads stack [] stack
  /-- An empty part and a dot are dropped. -/
  | drop {part : String} {rest stack after : List String} (hpart : part = "" ∨ part = ".")
      (h : Reads stack rest after) : Reads stack (part :: rest) after
  /-- Two dots take the last name off. -/
  | pop {name : String} {rest stack after : List String} (h : Reads stack rest after) :
      Reads (stack ++ [name]) (".." :: rest) after
  /-- At the root, two dots do nothing. -/
  | root {rest after : List String} (h : Reads [] rest after) : Reads [] (".." :: rest) after
  /-- Any other part is put on. -/
  | push {part : String} {rest stack after : List String}
      (hpart : part ≠ "" ∧ part ≠ "." ∧ part ≠ "..") (h : Reads (stack ++ [part]) rest after) :
      Reads stack (part :: rest) after

/-- The stack that is left of an input in a directory. -/
def Leaves (cwd input : String) (stack : List String) : Prop :=
  Reads [] (parts '/' (joined cwd input)) stack

/-- **The step.**  One part does to the stack what `walk` does. -/
theorem reads_cons_iff {part : String} {rest stack after : List String} :
    Reads stack (part :: rest) after ↔ Reads (walk stack part) rest after := by
  -- the four rules are the cases of one step of the walk
  constructor
  · intro h
    cases h with
    | drop hpart h => rwa [walk, if_pos hpart]
    | pop h => rwa [walk, if_neg (by decide), if_pos rfl, List.dropLast_concat]
    | root h => rwa [walk, if_neg (by decide), if_pos rfl, List.dropLast_nil]
    | push hpart h =>
      rwa [walk, if_neg (not_or.mpr ⟨hpart.1, hpart.2.1⟩), if_neg hpart.2.2]
  · intro h
    rw [walk] at h
    split at h
    · next hplain => exact .drop hplain h
    · next hplain =>
      split at h
      · next hdots =>
        rw [hdots]
        rcases List.eq_nil_or_concat' stack with rfl | ⟨below, name, rfl⟩
        · exact .root h
        · rw [List.dropLast_concat] at h
          exact .pop h
      · next hdots =>
        rw [not_or] at hplain
        exact .push ⟨hplain.1, hplain.2, hdots⟩ h

/-- **The run.**  There is one stack that some parts lead to. -/
theorem reads_iff {read stack after : List String} :
    Reads stack read after ↔ after = read.foldl walk stack := by
  induction read generalizing stack with
  | nil =>
    constructor
    · rintro ⟨⟩
      rfl
    · rintro rfl
      exact .done
  | cons part rest ih => rw [reads_cons_iff, ih, List.foldl_cons]

theorem parts_slash_append (s : String) : parts '/' ("/" ++ s) = "" :: parts '/' s := by
  have happend := parts_append toList_slash "" s
  rwa [String.empty_append, parts_eq_singleton (c := '/') (s := "") (by decide)] at happend

/-- The steps are what reading the joined text comes to. -/
theorem steps_eq_foldl_joined (cwd input : String) :
    steps cwd input = (parts '/' (joined cwd input)).foldl walk [] := by
  rw [joined, steps]
  by_cases habsolute : startsWith '/' input = true
  · rw [if_pos habsolute, if_pos habsolute, List.nil_append]
  · rw [if_neg habsolute, if_neg habsolute]
    split
    · next hcwd =>
      -- the parts of an empty directory and of the root are empty, and dropped
      rw [parts_slash_append]
      rcases hcwd with rfl | rfl
      · rw [parts_eq_singleton (by decide)]
        rfl
      · rw [parts_root]
        rfl
    · rw [parts_append toList_slash]

/-- The relation and the program read the same stack. -/
theorem leaves_iff {cwd input : String} {stack : List String} :
    Leaves cwd input stack ↔ stack = steps cwd input := by
  rw [Leaves, reads_iff, steps_eq_foldl_joined]

/-! ## The shape of the answers -/

/-- The text has the shape of an answer. -/
structure IsSpelling (path : String) : Prop where
  absolute : startsWith '/' path = true
  /-- Apart from the root, what stands after each slash is a name. -/
  components : path ≠ "/" →
    ∀ part ∈ (parts '/' path).tail, part ≠ "" ∧ part ≠ "." ∧ part ≠ ".."
  noTrailingSlash : endsWith '/' path = true → path = "/"

/-- Text that is cut at its slashes and put together again. -/
theorem intercalate_parts (s : String) : "/".intercalate (parts '/' s) = s := by
  rw [← String.toList_inj, String.toList_intercalate, toList_slash, parts, List.map_map,
    String.toList_comp_ofList, List.map_id, List.intercalate_splitOn]

/-- What the program renders has the shape. -/
theorem isSpelling_render {names : List String} (h : Canonical names) :
    IsSpelling (render names) := by
  refine ⟨startsWith_render names, fun hroot part hpart => ?_, fun hslash => ?_⟩
  · have hne : names ≠ [] := fun he => hroot (by rw [he, render_nil])
    rw [parts_render h hne, List.tail_cons] at hpart
    have hname := h part hpart
    exact ⟨hname.1, hname.2.1, hname.2.2.1⟩
  · rw [render_eq_root_iff h]
    by_contra hne
    obtain ⟨rest, hrest⟩ := endsWith_slash_iff.mp hslash
    have hparts := parts_render h hne
    rw [hrest, parts_append_slash] at hparts
    -- the last part would be the empty one after the slash, and it would be a name
    have hlast := congrArg List.getLast? hparts
    obtain ⟨dir, name, rfl⟩ := (List.eq_nil_or_concat' names).resolve_left hne
    rw [List.getLast?_concat, ← List.cons_append, List.getLast?_concat] at hlast
    exact (h name (by simp)).1 (Option.some.inj hlast).symm

/-- A text of that shape renders names. -/
theorem exists_render_of_isSpelling {path : String} (h : IsSpelling path) :
    ∃ names, Canonical names ∧ path = render names := by
  by_cases hroot : path = "/"
  · exact ⟨[], canonical_nil, hroot⟩
  · obtain ⟨rest, hrest⟩ := startsWith_slash_iff.mp h.absolute
    have hcomponents := h.components hroot
    rw [hrest, parts_slash_append, List.tail_cons] at hcomponents
    refine ⟨parts '/' rest, fun name hname => ?_, ?_⟩
    · obtain ⟨hempty, hdot, hdots⟩ := hcomponents name hname
      exact ⟨hempty, hdot, hdots, not_mem_of_mem_parts hname⟩
    · rw [render, intercalate_parts, hrest]

/-- A text that is its own answer from somewhere has that shape. -/
theorem isSpelling_of_normalize_eq {cwd path : String} (h : normalize cwd path = path) :
    IsSpelling path := by
  rw [← h]
  exact isSpelling_render (canonical_steps cwd path)

/-- Having the shape is being kept by every normalization. -/
theorem isSpelling_iff_normalize_eq {path : String} :
    IsSpelling path ↔ ∀ cwd, normalize cwd path = path := by
  constructor
  · intro h cwd
    obtain ⟨names, hnames, rfl⟩ := exists_render_of_isSpelling h
    rw [normalize, steps_render cwd hnames]
  · intro h
    exact isSpelling_of_normalize_eq (h "/")

/-- Every answer has the shape of one; the texts of that shape are those that are their own answers
from everywhere; and two inputs have one answer exactly when one stack is left of both. -/
theorem normalize_spellings :
    (∀ cwd input, IsSpelling (normalize cwd input)) ∧
      (∀ path, IsSpelling path ↔ ∀ cwd, normalize cwd path = path) ∧
      ∀ cwd cwd' input input', normalize cwd input = normalize cwd' input' ↔
        ∃ stack, Leaves cwd input stack ∧ Leaves cwd' input' stack := by
  refine ⟨fun cwd input => isSpelling_render (canonical_steps cwd input),
    fun path => isSpelling_iff_normalize_eq, fun cwd cwd' input input' => ?_⟩
  rw [normalize, normalize, render_inj (canonical_steps cwd input) (canonical_steps cwd' input')]
  simp only [leaves_iff, exists_eq_left]

example : normalize "a/../b" ".././/c/" = "/c" ∧ normalize "" "../.." = "/" := by decide

end Path

end Userland

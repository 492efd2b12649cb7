/-
  One path after another.

  1. *Program.*  A path that does not begin with a slash is put after its directory, cut at the
     slashes and read with a stack, and what is left is written down.  A path that is resolved in
     the place that another path stands for goes through this twice.

  2. *Specification.*  Going through it twice is going through it once, with the two paths joined by
     a slash (`normalize_join`); so a walk of any number of paths is one path (`foldl_normalize`).
     On a text in the one spelling, two dots lead to the text before its last slash, and the text
     after it leads back (`normalize_composes`).

  3. *The crux.*  What the first reading leaves is written so that reading it again gives the same
     stack (`steps_render`), and the second path goes on from there.  Two dots at its beginning take
     off what the first path has put on: the stack does not know which of the two a name came from.
-/
import Userland.Proofs.Path.Canonical

namespace Userland

namespace Path

open Text

/-! ## Two paths -/

/-- **The step.**  A path read where another one leads is the other one, a slash and the path. -/
theorem normalize_join (cwd : String) {a b : String} (ha : a ≠ "")
    (hb : startsWith '/' b = false) :
    normalize (normalize cwd a) b = normalize cwd (a ++ "/" ++ b) := by
  have hsteps : steps (normalize cwd a) b = steps cwd (a ++ "/" ++ b) := calc
    steps (normalize cwd a) b
      = (parts '/' b).foldl walk (steps cwd a) :=
        steps_render_of_relative (canonical_steps cwd a) hb
    _ = (parts '/' b).foldl walk (steps cwd (a ++ "/")) := by rw [steps_append_slash cwd ha]
    _ = steps cwd (a ++ "/" ++ b) := (steps_slash_append cwd a b).symm
  rw [normalize, hsteps, normalize]

/-! ## Any number of paths -/

/-- Two paths that are joined by a slash count as one. -/
theorem intercalate_join (a b : String) (more : List String) :
    "/".intercalate (a :: b :: more) = "/".intercalate ((a ++ "/" ++ b) :: more) := by
  cases more with
  | nil => rw [String.intercalate_cons_cons, String.intercalate_singleton,
      String.intercalate_singleton]
  | cons c more => simp only [String.intercalate_cons_cons, String.append_assoc]

/-- **The run.**  A walk along paths, each read where the one before has led, is one path. -/
theorem foldl_normalize (cwd : String) {a : String} (ha : a ≠ "") {more : List String}
    (hmore : ∀ b ∈ more, startsWith '/' b = false) :
    more.foldl normalize (normalize cwd a) = normalize cwd ("/".intercalate (a :: more)) := by
  induction more generalizing a with
  | nil => rw [List.foldl_nil, String.intercalate_singleton]
  | cons b more ih =>
    obtain ⟨hb, hmore⟩ := List.forall_mem_cons.mp hmore
    have hjoin : a ++ "/" ++ b ≠ "" := by simp
    rw [List.foldl_cons, normalize_join cwd ha hb, ih hjoin hmore, intercalate_join]

/-! ## Up, and back -/

/-- Two dots lead to the directory that a text in the one spelling is in. -/
theorem normalize_dots {path : String} (h : IsSpelling path) :
    normalize path ".." = parent path := by
  obtain ⟨names, hnames, rfl⟩ := exists_render_of_isSpelling h
  have hdots : steps (render names) ".." = names.dropLast := by
    rw [steps_part _ (by decide), steps_render "/" hnames]
    rfl
  rw [parent_render hnames, normalize, hdots]

/-- A text in the one spelling is its last part, read in the directory that it is in. -/
theorem normalize_parent_fileName {path : String} (h : IsSpelling path) :
    normalize (parent path) (fileName path) = path := by
  obtain ⟨names, hnames, rfl⟩ := exists_render_of_isSpelling h
  rw [parent_render hnames, fileName_render hnames]
  rcases List.eq_nil_or_concat' names with rfl | ⟨dir, name, rfl⟩
  · -- the root has no last part, and is its own directory
    exact normalize_empty canonical_nil
  · rw [List.dropLast_concat, List.getLast?_concat, Option.getD_some]
    obtain ⟨hdir, hname⟩ := canonical_append.mp hnames
    exact normalize_name hdir (hname name List.mem_cons_self)

/-- Paths that are read one after the other are read as one path, two of them or more, whatever dots
stand at the seams; and the two ways of cutting off the last name agree: two dots lead to the text
before it, and from there the name leads back. -/
theorem normalize_composes :
    (∀ cwd a b, a ≠ "" → startsWith '/' b = false →
        normalize (normalize cwd a) b = normalize cwd (a ++ "/" ++ b)) ∧
      (∀ cwd a more, a ≠ "" → (∀ b ∈ more, startsWith '/' b = false) →
        more.foldl normalize (normalize cwd a) = normalize cwd ("/".intercalate (a :: more))) ∧
      (∀ path, IsSpelling path → normalize path ".." = parent path) ∧
      ∀ path, IsSpelling path → normalize (parent path) (fileName path) = path :=
  ⟨fun cwd _ _ ha hb => normalize_join cwd ha hb,
    fun cwd _ _ ha hmore => foldl_normalize cwd ha hmore,
    fun _ h => normalize_dots h, fun _ h => normalize_parent_fileName h⟩

/-- Paths that lead up, and a name and its directory. -/
theorem sample_normalize_composes :
    ("../bob" ≠ "" ∧ startsWith '/' "../..//etc" = false ∧
        normalize (normalize "/home/ann" "../bob") "../..//etc" =
          normalize "/home/ann" ("../bob" ++ "/" ++ "../..//etc")) ∧
      ((∀ b ∈ ["..", "etc"], startsWith '/' b = false) ∧
        ["..", "etc"].foldl normalize (normalize "/home/ann" "../bob") =
          normalize "/home/ann" ("/".intercalate ["../bob", "..", "etc"])) ∧
      IsSpelling "/home/ann" ∧ normalize "/home/ann" ".." = parent "/home/ann" ∧
        normalize (parent "/home/ann") (fileName "/home/ann") = "/home/ann" := by
  obtain ⟨hjoin, hrun, hup, hback⟩ := normalize_composes
  have ha : "../bob" ≠ "" := by decide
  have hb : startsWith '/' "../..//etc" = false := by decide
  have hmore : ∀ b ∈ ["..", "etc"], startsWith '/' b = false := by decide
  have hspelled : normalize "/" "/home/ann" = "/home/ann" := by decide
  have hpath : IsSpelling "/home/ann" := isSpelling_of_normalize_eq hspelled
  exact ⟨⟨ha, hb, hjoin "/home/ann" _ _ ha hb⟩, ⟨hmore, hrun "/home/ann" _ _ ha hmore⟩, hpath,
    hup _ hpath, hback _ hpath⟩

example : normalize (normalize "/home/ann" "../bob") "../..//etc" = "/etc" := by decide

/-- With nothing before it, the slash of the seam would make the path an absolute one. -/
example : normalize (normalize "/home/ann" "") "x" = "/home/ann/x" ∧
    normalize "/home/ann" ("" ++ "/" ++ "x") = "/x" := by decide

end Path

end Userland

/-
  A directory is not put inside itself.

  1. *Program.*  `isWithin` looks at two texts: the one is the root, or the two are equal, or the
     one is a beginning of the other and a slash follows.  Copying and moving ask it whether the
     landing path is within the source.

  2. *Specification.*  On texts in the one spelling, to be within is to begin with the same
     components, and so it is an order (`isWithin_iff_components` and what follows from it).  A
     directory that is sent somewhere is copied there exactly when the landing path is not within
     it, and a move asks for nothing more than that and a place that yields (`Guarded`).

  3. *The crux.*  The slash that has to follow is what makes a beginning of the text a beginning of
     the components: without it `/ab` would be within `/a`.  Both refusals come before the first
     change, so that the tree after them is the tree from before.
-/
import Userland.Proofs.Path.Canonical
import Userland.Proofs.Tree.Destination

namespace Userland

/-! ## The order of the paths -/

namespace Path

variable {path middle ancestor : String}

/-- To be within is to begin with the same components. -/
theorem isWithin_iff_components (hp : IsSpelling path) (ha : IsSpelling ancestor) :
    isWithin path ancestor = true ↔ components ancestor <+: components path := by
  obtain ⟨names, hnames, rfl⟩ := exists_render_of_isSpelling hp
  obtain ⟨above, habove, rfl⟩ := exists_render_of_isSpelling ha
  rw [isWithin_render hnames habove, components_render hnames, components_render habove]

/-- A text in the one spelling is told by its components. -/
theorem components_inj (hp : IsSpelling path) (ha : IsSpelling ancestor) :
    components path = components ancestor ↔ path = ancestor := by
  obtain ⟨names, hnames, rfl⟩ := exists_render_of_isSpelling hp
  obtain ⟨above, habove, rfl⟩ := exists_render_of_isSpelling ha
  rw [components_render hnames, components_render habove, render_inj hnames habove]

theorem isWithin_refl (hp : IsSpelling path) : isWithin path path = true :=
  (isWithin_iff_components hp hp).mpr List.prefix_rfl

/-- What is within a path is within all that this is within. -/
theorem isWithin_trans (hp : IsSpelling path) (hm : IsSpelling middle) (ha : IsSpelling ancestor)
    (h : isWithin path middle = true) (h' : isWithin middle ancestor = true) :
    isWithin path ancestor = true := by
  rw [isWithin_iff_components hp hm] at h
  rw [isWithin_iff_components hm ha] at h'
  exact (isWithin_iff_components hp ha).mpr (h'.trans h)

/-- Paths within each other are one. -/
theorem isWithin_antisymm (hp : IsSpelling path) (ha : IsSpelling ancestor)
    (h : isWithin path ancestor = true) (h' : isWithin ancestor path = true) :
    path = ancestor := by
  rw [isWithin_iff_components hp ha] at h
  rw [isWithin_iff_components ha hp] at h'
  exact (components_inj hp ha).mp (h'.eq_of_length_le h.length_le)

end Path

namespace Tree

variable {t t' : Tree} {source destination target : String} {node : Node} {now : Timestamp}
  {recursive : Bool}

/-! ## What is asked -/

/-- An operation that is done at once succeeds when the whole does, and leaves its tree. -/
theorem atOnce_eq_ok_iff {α : Type} {r : Except Fault (α × Tree)} {answer : α} :
    t.atOnce r = (.ok answer, t') ↔ r = .ok (answer, t') := by
  match r with
  | .ok (a, after) => simp [atOnce]
  | .error fault => simp [atOnce]

theorem place_normalize (path : String) : place (Path.normalize "/" path) = place path :=
  Path.steps_normalize "/" "/" path

/-- It makes no difference to the landing path in which spelling the source is sent. -/
theorem landing_normalize (t : Tree) (source destination : String) :
    t.landing (Path.normalize "/" source) destination = t.landing source destination := by
  rw [landing, landing, place_normalize]

theorem get?_normalize (t : Tree) (path : String) :
    t.get? (Path.normalize "/" path) = t.get? path := by
  rw [get?_eq, get?_eq, place_normalize]

/-- A landing path is in the one spelling. -/
theorem isSpelling_of_landing (ht : t.WellFormed) (h : t.landing source destination = .ok target) :
    Path.IsSpelling target := by
  rw [landing] at h
  cases hland : t.landingSteps (place source) (place destination) with
  | error fault =>
    rw [hland] at h
    cases h
  | ok landed =>
    rw [hland] at h
    rw [← Except.ok.inj h]
    exact Path.isSpelling_render (landingSteps_spec ht hland).1

/-- What is asked of the landing path is whether it is within the source. -/
theorem within_landing_iff (ht : t.WellFormed) (h : t.landing source destination = .ok target) :
    Within target source ↔ Path.isWithin target (Path.normalize "/" source) = true := by
  rw [Within, Path.isSpelling_iff_normalize_eq.mp (isSpelling_of_landing ht h) "/"]

/-! ## Refusals -/

/-- The complaint about a copy that would land within its source. -/
def copyRefusal (source target : String) : Fault :=
  if target = source then sameFile (place source) (place target)
  else .invalidArgument
    ("cannot copy a directory, " ++ quoted (place source) ++ ", into itself, " ++
      quoted (place target))

/-- The complaint about a move that would land within its source. -/
def moveRefusal (source target : String) : Fault :=
  if source = "/" then .invalidArgument "cannot move '/'"
  else if target = source then sameFile (place source) (place target)
  else .invalidArgument
    ("cannot move " ++ quoted (place source) ++ " to a subdirectory of itself, " ++
      quoted (place target))

/-- Inside of itself a node cannot be copied, and the tree stays. -/
theorem copyInPlace_of_within (hfound : t.get? source = some node)
    (hrec : node.isDirectory = true → recursive = true)
    (hland : t.landing source destination = .ok target)
    (hin : Path.isWithin target (Path.normalize "/" source) = true) :
    t.copyInPlace source destination recursive now =
      (.error (copyRefusal (Path.normalize "/" source) target), t) := by
  have hplain : ¬ (node.isDirectory && !recursive) = true := by
    rw [needsRecursive_iff]
    exact not_not_intro hrec
  unfold copyInPlace
  simp only [get?_normalize, hfound, landingText_eq, landing_normalize, hland, if_neg hplain,
    if_pos hin, copyRefusal]
  split
  · rfl
  · rfl

/-- Inside of itself a node cannot be moved, and the tree stays. -/
theorem moveInPlace_of_within (hfound : t.get? source = some node)
    (hland : t.landing source destination = .ok target)
    (hin : Path.isWithin target (Path.normalize "/" source) = true) :
    t.moveInPlace source destination =
      (.error (moveRefusal (Path.normalize "/" source) target), t) := by
  unfold moveInPlace
  simp only [get?_normalize, hfound, landingText_eq, landing_normalize, hland, if_pos hin,
    moveRefusal]
  split
  · rfl
  · split
    · rfl
    · rfl

/-! ## The guard -/

/-- A directory that is sent somewhere is kept from landing within itself. -/
structure Guarded (t : Tree) (source destination : String) (now : Timestamp) : Prop where
  /-- A copy lands where it should, exactly if that is not within the source. -/
  copies : ∀ target, (∃ t', t.copyInPlace source destination true now = (.ok target, t')) ↔
    t.landing source destination = .ok target ∧
      Path.isWithin target (Path.normalize "/" source) = false
  /-- So does a move, if what has the place yields. -/
  moves : ∀ target, (∃ t', t.moveInPlace source destination = (.ok target, t')) ↔
    t.landing source destination = .ok target ∧
      Path.isWithin target (Path.normalize "/" source) = false ∧
      ∀ taken, t.get? target = some taken → Yields taken true
  /-- Within the source a copy is refused, and nothing has been done. -/
  copyRefused : ∀ target, t.landing source destination = .ok target →
    Path.isWithin target (Path.normalize "/" source) = true →
      t.copyInPlace source destination true now =
        (.error (copyRefusal (Path.normalize "/" source) target), t)
  /-- So is a move. -/
  moveRefused : ∀ target, t.landing source destination = .ok target →
    Path.isWithin target (Path.normalize "/" source) = true →
      t.moveInPlace source destination =
        (.error (moveRefusal (Path.normalize "/" source) target), t)

/-- A directory lands at its landing path, unless that is within it. -/
theorem lands_directory_iff (ht : t.WellFormed) (hdir : t.isDirectory source = true) :
    (∃ node, t.Lands source destination node target ∧ node.isDirectory = true) ↔
      t.landing source destination = .ok target ∧
        Path.isWithin target (Path.normalize "/" source) = false := by
  constructor
  · rintro ⟨node, ⟨-, hland, houtside⟩, -⟩
    rw [within_landing_iff ht hland, Bool.not_eq_true] at houtside
    exact ⟨hland, houtside⟩
  · rintro ⟨hland, houtside⟩
    obtain ⟨a, es, hfound⟩ := isDirectoryAt_iff.mp hdir
    rw [← Bool.not_eq_true, ← within_landing_iff ht hland] at houtside
    exact ⟨.directory a es, ⟨hfound, hland, houtside⟩, rfl⟩

/-- Every directory is guarded, wherever it is sent. -/
theorem guarded_of_isDirectory (ht : t.WellFormed) (hdir : t.isDirectory source = true)
    (destination : String) (now : Timestamp) : t.Guarded source destination now := by
  obtain ⟨a, es, hfound⟩ := isDirectoryAt_iff.mp hdir
  -- the node that lands is the directory
  have hnode : ∀ {node target}, t.Lands source destination node target →
      node.isDirectory = true := fun hlands => hlands.isDirectory_source ▸ hdir
  refine ⟨fun target => ?_, fun target => ?_, fun target hland hin => ?_,
    fun target hland hin => ?_⟩
  · simp only [copyInPlace_eq ht, atOnce_eq_ok_iff]
    rw [copies_iff ht, ← lands_directory_iff ht hdir]
    refine exists_congr fun node => and_congr_right fun hlands => ?_
    exact iff_of_true (fun _ => hnode hlands) (hnode hlands)
  · simp only [moveInPlace_eq ht, atOnce_eq_ok_iff]
    rw [moves_iff ht, ← and_assoc, ← lands_directory_iff ht hdir]
    constructor
    · rintro ⟨node, hlands, hyields⟩
      rw [hnode hlands] at hyields
      exact ⟨⟨node, hlands, hnode hlands⟩, hyields⟩
    · rintro ⟨⟨node, hlands, hkind⟩, hyields⟩
      rw [← hkind] at hyields
      exact ⟨node, hlands, hyields⟩
  · exact copyInPlace_of_within hfound (fun _ => rfl) hland hin
  · exact moveInPlace_of_within hfound hland hin

/-- On paths in the one spelling, to be within is to begin with the same components, which is an
order; and it is what stands between a directory and a place inside of it. -/
theorem isWithin_orders_and_guards :
    (∀ path ancestor, Path.IsSpelling path → Path.IsSpelling ancestor →
        (Path.isWithin path ancestor = true ↔
          Path.components ancestor <+: Path.components path)) ∧
      (∀ path, Path.IsSpelling path → Path.isWithin path path = true) ∧
      (∀ path middle ancestor, Path.IsSpelling path → Path.IsSpelling middle →
        Path.IsSpelling ancestor → Path.isWithin path middle = true →
          Path.isWithin middle ancestor = true → Path.isWithin path ancestor = true) ∧
      (∀ path ancestor, Path.IsSpelling path → Path.IsSpelling ancestor →
        Path.isWithin path ancestor = true → Path.isWithin ancestor path = true →
          path = ancestor) ∧
      ∀ t source destination now, Reachable t → t.isDirectory source = true →
        t.Guarded source destination now :=
  ⟨fun _ _ hp ha => Path.isWithin_iff_components hp ha, fun _ hp => Path.isWithin_refl hp,
    fun _ _ _ hp hm ha h h' => Path.isWithin_trans hp hm ha h h',
    fun _ _ hp ha h h' => Path.isWithin_antisymm hp ha h h',
    fun _ _ destination now h hdir => guarded_of_isDirectory h.wellFormed hdir destination now⟩

/-- Three paths below each other, and a directory that is sent into its own. -/
theorem sample_isWithin_orders_and_guards :
    (Path.IsSpelling "/src/d/e" ∧ Path.IsSpelling "/src/d" ∧ Path.IsSpelling "/src") ∧
      (Path.isWithin "/src/d/e" "/src" = true ↔
        Path.components "/src" <+: Path.components "/src/d/e") ∧
      Path.isWithin "/src" "/src" = true ∧
      (Path.isWithin "/src/d/e" "/src/d" = true ∧ Path.isWithin "/src/d" "/src" = true ∧
        Path.isWithin "/src/d/e" "/src" = true) ∧
      (Path.isWithin (Path.normalize "/d" "../src/.") "/src" = true ∧
        Path.isWithin "/src" (Path.normalize "/d" "../src/.") = true ∧
          Path.normalize "/d" "../src/." = "/src") ∧
      Reachable sample ∧ sample.isDirectory "/src" = true ∧
        sample.Guarded "/src" "/src/d" noon := by
  obtain ⟨hcomponents, hrefl, htrans, hantisymm, hguard⟩ := isWithin_orders_and_guards
  have hspelled : Path.normalize "/" "/src/d/e" = "/src/d/e" ∧
      Path.normalize "/" "/src/d" = "/src/d" ∧ Path.normalize "/" "/src" = "/src" := by decide
  have hlow : Path.IsSpelling "/src/d/e" := Path.isSpelling_of_normalize_eq hspelled.1
  have hmiddle : Path.IsSpelling "/src/d" := Path.isSpelling_of_normalize_eq hspelled.2.1
  have hhigh : Path.IsSpelling "/src" := Path.isSpelling_of_normalize_eq hspelled.2.2
  have hother : Path.IsSpelling (Path.normalize "/d" "../src/.") :=
    Path.isSpelling_render (Path.canonical_steps "/d" "../src/.")
  have hin : Path.isWithin "/src/d/e" "/src/d" = true ∧ Path.isWithin "/src/d" "/src" = true := by
    decide
  have hboth : Path.isWithin (Path.normalize "/d" "../src/.") "/src" = true ∧
      Path.isWithin "/src" (Path.normalize "/d" "../src/.") = true := by decide
  have hdir : sample.isDirectory "/src" = true := by decide +kernel
  exact ⟨⟨hlow, hmiddle, hhigh⟩, hcomponents _ _ hlow hhigh, hrefl _ hhigh,
    ⟨hin.1, hin.2, htrans _ _ _ hlow hmiddle hhigh hin.1 hin.2⟩,
    ⟨hboth.1, hboth.2, hantisymm _ _ hother hhigh hboth.1 hboth.2⟩,
    reachable_sample, hdir, hguard sample "/src" "/src/d" noon reachable_sample hdir⟩

example : Path.isWithin "/ab" "/a" = false ∧ Path.isWithin "/a/b" "/a" = true ∧
    Path.isWithin "/a" "/" = true := by decide

end Tree

end Userland

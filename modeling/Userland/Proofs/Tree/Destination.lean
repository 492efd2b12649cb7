/-
  Where a node may be sent.

  Copying and moving find the landing path of a node in the same way, and both refuse a path within
  the node itself (`Lands`).  What they ask of a node that has the place already is written twice,
  and not alike (`copies_iff`, `moves_iff`).  The two agree on a free place, on a file that meets a
  file, on a file that meets a directory and on a directory that meets an empty one, so that a copy
  succeeds wherever a move does.  A directory is copied to more places than it is moved to:
  `OnlyCopyTakes` says to which.  One is a directory with something in it, into which the copy is
  merged.  The other is a file, which a move refuses to replace by a directory and a copy does not.
-/
import Userland.Proofs.Tree.Reachable

namespace Userland.Tree

variable {t : Tree} {source destination target : String} {now : Timestamp}
  {s landed : List String} {node taken : Node} {movesDirectory : Bool}

/-! ## What both ask -/

/-- The node at the source would land at the target, which is not within the source. -/
structure Lands (t : Tree) (source destination : String) (node : Node) (target : String) :
    Prop where
  found : t.get? source = some node
  landing : t.landing source destination = .ok target
  outside : ¬ Within target source

/-- The landing path is the one spelling of the landing place. -/
theorem place_landed (ht : t.WellFormed)
    (hland : t.landingSteps (place source) (place destination) = .ok landed) :
    place (Path.render landed) = landed :=
  place_render (landingSteps_spec ht hland).1

/-- Told in steps. -/
theorem lands_iff (ht : t.WellFormed) :
    t.Lands source destination node target ↔
      ∃ landed, t.find? (place source) = some node ∧
        t.landingSteps (place source) (place destination) = .ok landed ∧
        ¬ place source <+: landed ∧ target = Path.render landed := by
  constructor
  · rintro ⟨hfound, hlanding, houtside⟩
    rw [Tree.landing] at hlanding
    cases hland : t.landingSteps (place source) (place destination) with
    | error fault =>
      rw [hland] at hlanding
      cases hlanding
    | ok landed =>
      rw [hland] at hlanding
      have htarget : Path.render landed = target := Except.ok.inj hlanding
      rw [within_iff, ← htarget, place_landed ht hland] at houtside
      exact ⟨landed, hfound, rfl, houtside, htarget.symm⟩
  · rintro ⟨landed, hfound, hland, houtside, rfl⟩
    refine ⟨hfound, ?_, ?_⟩
    · rw [Tree.landing, hland]
      rfl
    · rwa [within_iff, place_landed ht hland]

/-! ## What each of them asks of the place -/

/-- A copy goes to every place but a directory that would meet a file. -/
theorem copies_iff (ht : t.WellFormed) :
    (∃ t', t.copy source destination true now = .ok (target, t')) ↔
      ∃ node, t.Lands source destination node target ∧
        (t.isDirectory target = true → node.isDirectory = true) := by
  constructor
  · rintro ⟨t', h⟩
    obtain ⟨node, landed, hfind, -, hland, hinside, rfl, hdone⟩ := copy_eq_ok_iff.mp h
    refine ⟨node, (lands_iff ht).mpr ⟨landed, hfind, hland, hinside, rfl⟩, ?_⟩
    rw [isDirectory, place_landed ht hland]
    intro hat
    rcases hdone with ⟨-, hdir, -⟩ | ⟨hfree, -⟩
    · exact hdir
    · rw [hfree] at hat
      cases hat
  · rintro ⟨node, hlands, hmeets⟩
    obtain ⟨landed, hfind, hland, hinside, rfl⟩ := (lands_iff ht).mp hlands
    rw [isDirectory, place_landed ht hland] at hmeets
    -- onto a directory the node is merged, anywhere else it takes the place
    cases hat : t.isDirectoryAt landed with
    | true =>
      exact ⟨t.alter landed (·.merge (node.modifiedAt now)), copy_eq_ok_iff.mpr
        ⟨node, landed, hfind, fun _ => rfl, hland, hinside, rfl, .inl ⟨hat, hmeets hat, rfl⟩⟩⟩
    | false =>
      exact ⟨t.put landed (node.modifiedAt now), copy_eq_ok_iff.mpr
        ⟨node, landed, hfind, fun _ => rfl, hland, hinside, rfl, .inr ⟨hat, rfl⟩⟩⟩

/-- A node that a moved one replaces: a file for a file, an empty directory for a directory. -/
def Yields (taken : Node) (movesDirectory : Bool) : Prop :=
  movesDirectory = false ∧ taken.isFile = true ∨
    movesDirectory = true ∧ ∃ a, taken = .directory a []

/-- The program finds no conflict exactly where the place yields. -/
theorem moveConflict?_eq_none_iff :
    moveConflict? s landed movesDirectory taken = none ↔ Yields taken movesDirectory := by
  cases taken with
  | file a content =>
    cases movesDirectory <;> simp [moveConflict?, Yields, Node.isFile, Node.isDirectory]
  | directory a es =>
    cases movesDirectory <;> cases es <;>
      simp [moveConflict?, Yields, Node.isFile, Node.isDirectory]

/-- A move goes to every place that is free or yields. -/
theorem moves_iff (ht : t.WellFormed) :
    (∃ t', t.move source destination = .ok (target, t')) ↔
      ∃ node, t.Lands source destination node target ∧
        ∀ taken, t.get? target = some taken → Yields taken node.isDirectory := by
  constructor
  · rintro ⟨t', h⟩
    obtain ⟨-, node, landed, hfind, hland, hinside, hclear, rfl, -⟩ := move_eq_ok_iff.mp h
    refine ⟨node, (lands_iff ht).mpr ⟨landed, hfind, hland, hinside, rfl⟩, ?_⟩
    intro taken htaken
    rw [get?_eq, place_landed ht hland] at htaken
    rw [htaken, Option.bind_some] at hclear
    exact moveConflict?_eq_none_iff.mp hclear
  · rintro ⟨node, hlands, hyields⟩
    obtain ⟨landed, hfind, hland, hinside, rfl⟩ := (lands_iff ht).mp hlands
    rw [get?_eq, place_landed ht hland] at hyields
    have hclear : (t.find? landed).bind
        (moveConflict? (place source) landed node.isDirectory) = none := by
      cases htaken : t.find? landed with
      | none => rfl
      | some taken => exact moveConflict?_eq_none_iff.mpr (hyields taken htaken)
    -- the root is within every place, so that it does not come this far
    have hne : place source ≠ [] := ne_nil_of_not_above hinside
    exact ⟨(t.drop (place source)).put landed node, move_eq_ok_iff.mpr
      ⟨hne, node, landed, hfind, hland, hinside, hclear, rfl, rfl⟩⟩

/-! ## Where the two differ -/

/-- A node that a copied directory takes the place of, or is merged into, and that does not yield to
a moved one: a directory with something in it, or a file. -/
def HoldsOut (taken : Node) : Prop :=
  (∃ a e es, taken = .directory a (e :: es)) ∨ ∃ a content, taken = .file a content

/-- A directory is sent to a place outside of it that a copy takes and a move does not. -/
def OnlyCopyTakes (t : Tree) (source target : String) : Prop :=
  t.isDirectory source = true ∧ ¬ Within target source ∧
    ∃ taken, t.get? target = some taken ∧ HoldsOut taken

/-- For a copy, a place that has been taken yields, or holds out against a moved directory. -/
theorem yields_or_holdsOut :
    (taken.isDirectory = true → movesDirectory = true) ↔
      Yields taken movesDirectory ∨ movesDirectory = true ∧ HoldsOut taken := by
  cases taken with
  | file a content =>
    cases movesDirectory <;> simp [Yields, HoldsOut, Node.isFile, Node.isDirectory]
  | directory a es =>
    cases movesDirectory <;> cases es <;>
      simp [Yields, HoldsOut, Node.isFile, Node.isDirectory]

/-- What holds out does not yield to a directory. -/
theorem not_yields_of_holdsOut (h : HoldsOut taken) : ¬ Yields taken true := by
  rcases h with ⟨a, e, es, rfl⟩ | ⟨a, content, rfl⟩
  · simp [Yields]
  · simp [Yields]

theorem Lands.isDirectory_source (h : t.Lands source destination node target) :
    t.isDirectory source = node.isDirectory := by
  have hfind : t.find? (place source) = some node := h.found
  rw [isDirectory, isDirectoryAt, hfind, Option.any_some]

/-- A copy succeeds where a move does, and on the places that only a copy takes. -/
theorem copies_iff_moves_or_onlyCopyTakes (ht : t.WellFormed) :
    (∃ t', t.copy source destination true now = .ok (target, t')) ↔
      (∃ t', t.move source destination = .ok (target, t')) ∨
        t.landing source destination = .ok target ∧ t.OnlyCopyTakes source target := by
  rw [copies_iff ht, moves_iff ht]
  constructor
  · rintro ⟨node, hlands, hmeets⟩
    -- a free place is all the same to both
    cases htaken : t.get? target with
    | none => exact .inl ⟨node, hlands, fun taken h => by cases h⟩
    | some taken =>
      have hat : t.isDirectory target = taken.isDirectory := by
        rw [get?_eq] at htaken
        rw [isDirectory, isDirectoryAt, htaken, Option.any_some]
      rw [hat] at hmeets
      rcases yields_or_holdsOut.mp hmeets with hyields | ⟨hdir, hholds⟩
      · exact .inl ⟨node, hlands, fun taken' h => Option.some.inj h ▸ hyields⟩
      · rw [← hlands.isDirectory_source] at hdir
        exact .inr ⟨hlands.landing, hdir, hlands.outside, taken, htaken, hholds⟩
  · rintro (⟨node, hlands, hyields⟩ | ⟨hlanding, hdir, houtside, taken, htaken, hholds⟩)
    · refine ⟨node, hlands, fun hat => ?_⟩
      obtain ⟨a, es, htaken⟩ := isDirectoryAt_iff.mp hat
      exact yields_or_holdsOut.mpr (.inl (hyields _ htaken)) rfl
    · obtain ⟨a, es, hfind⟩ := isDirectoryAt_iff.mp hdir
      exact ⟨.directory a es, ⟨hfind, hlanding, houtside⟩, fun _ => rfl⟩

/-- There a move fails. -/
theorem not_moves_of_onlyCopyTakes (ht : t.WellFormed) (h : t.OnlyCopyTakes source target) :
    ¬ ∃ t', t.move source destination = .ok (target, t') := by
  rw [moves_iff ht]
  rintro ⟨node, hlands, hyields⟩
  obtain ⟨hdir, -, taken, htaken, hholds⟩ := h
  have hyes := hyields taken htaken
  rw [← hlands.isDirectory_source, hdir] at hyes
  exact not_yields_of_holdsOut hholds hyes

/-! ## The rules -/

/-- How the rules of copying and of moving to a destination compare. -/
structure DestinationRules (t : Tree) (source destination : String) (now : Timestamp) : Prop where
  /-- A copy succeeds where a move does, and where only a copy takes the place. -/
  copies : ∀ target, (∃ t', t.copy source destination true now = .ok (target, t')) ↔
    (∃ t', t.move source destination = .ok (target, t')) ∨
      t.landing source destination = .ok target ∧ t.OnlyCopyTakes source target
  /-- There a move fails. -/
  refused : ∀ target, t.OnlyCopyTakes source target →
    ¬ ∃ t', t.move source destination = .ok (target, t')
  /-- Both answer the landing path, and so the same one. -/
  landed : ∀ target, (∃ t', t.copy source destination true now = .ok (target, t')) ∨
    (∃ t', t.move source destination = .ok (target, t')) →
      t.landing source destination = .ok target
  /-- Neither lets a file take the place of a directory. -/
  keeps : ∀ target, (∃ t', t.copy source destination true now = .ok (target, t')) ∨
    (∃ t', t.move source destination = .ok (target, t')) →
      t.isDirectory target = true → t.isDirectory source = true

/-- A copy and a move go by the same rules, but for a directory that is sent to a directory with
something in it or to a file. -/
theorem destinationRules (h : Reachable t) (source destination : String) (now : Timestamp) :
    DestinationRules t source destination now := by
  have ht := h.wellFormed
  -- wherever a move succeeds a copy does, so that what holds of copies holds of both
  have hcopies : ∀ target, (∃ t', t.copy source destination true now = .ok (target, t')) ∨
      (∃ t', t.move source destination = .ok (target, t')) →
        ∃ node, t.Lands source destination node target ∧
          (t.isDirectory target = true → node.isDirectory = true) := by
    intro target hsome
    have hcopy : ∃ t', t.copy source destination true now = .ok (target, t') := by
      rcases hsome with hcopy | hmove
      · exact hcopy
      · exact (copies_iff_moves_or_onlyCopyTakes ht).mpr (.inl hmove)
    exact (copies_iff ht).mp hcopy
  refine ⟨fun target => copies_iff_moves_or_onlyCopyTakes ht,
    fun target => not_moves_of_onlyCopyTakes ht, fun target hsome => ?_, fun target hsome hat => ?_⟩
  · obtain ⟨node, hlands, -⟩ := hcopies target hsome
    exact hlands.landing
  · obtain ⟨node, hlands, hmeets⟩ := hcopies target hsome
    rw [hlands.isDirectory_source]
    exact hmeets hat

theorem sample_destinationRules :
    Reachable sample ∧ DestinationRules sample "/src/d" "/src/big" noon :=
  ⟨reachable_sample, destinationRules reachable_sample "/src/d" "/src/big" noon⟩

/-- The directory `/src/d` is copied to the file `/src/big` and takes its place, and it is not moved
there. -/
theorem copy_replaces_file_by_directory :
    Reachable sample ∧ sample.isDirectory "/src/d" = true ∧
      (sample.get? "/src/big").any Node.isFile = true ∧
      (sample.copy "/src/d" "/src/big" true noon).toOption.map
          (fun (target, t') => (target, t'.isDirectory "/src/big")) = some ("/src/big", true) ∧
      (sample.move "/src/d" "/src/big").toOption.isSome = false :=
  ⟨reachable_sample, by decide +kernel, by decide +kernel, by decide +kernel, by decide +kernel⟩

end Userland.Tree

/-
  Moving is exact, and it happens as a whole or not at all.

  A move takes the node out and puts it back at its landing place.  That the one does not disturb
  the other is a matter of prefixes: the landing place is not below the source, which is checked,
  and not above it, because a directory there has the source in it and is not empty, which stands
  against the move (`not_above_of_no_conflict`).  Two places of which neither is above the other
  are apart, so that the node put back is seen whole, nothing is seen at the source, and the rest
  of the tree agrees (`moved_of_move`).

  Putting the node back needs the directory of the landing place, which is still there because it
  is not within what was taken out.  So a move that fails has not begun.
-/
import Userland.Proofs.Tree.Reachable

namespace Userland.Tree

variable {t t' : Tree} {source destination target : String} {s landed r : List String}
  {node : Node}

/-! ## The landing place and the source are apart -/

/-- A directory above a node has an entry. -/
theorem entries_ne_nil_above {a : Attributes} {es : Entries Node}
    (hdir : t.find? s = some (.directory a es)) (h : t.find? (s ++ r) = some node)
    (hr : r ≠ []) : es ≠ [] := by
  rintro rfl
  obtain ⟨name, rest, rfl⟩ := List.exists_cons_of_ne_nil hr
  rw [find?_below hdir] at h
  cases h

/-- A node is not moved to a place above its own. -/
theorem not_above_of_no_conflict (hfind : t.find? s = some node) (hinside : ¬ s <+: landed)
    (hclear : (t.find? landed).bind (moveConflict? s landed node.isDirectory) = none) :
    ¬ landed <+: s := by
  rintro ⟨r, rfl⟩
  have hr : r ≠ [] := by
    rintro rfl
    exact hinside (by rw [List.append_nil])
  obtain ⟨a, es, hdir⟩ := isDirectoryAt_iff.mp (isDirectoryAt_of_find?_append hfind hr)
  have hes := entries_ne_nil_above hdir hfind hr
  rw [hdir, Option.bind_some] at hclear
  cases hkind : node.isDirectory with
  | false =>
    rw [hkind] at hclear
    cases hclear
  | true =>
    rw [hkind, moveConflict?, if_neg (by rwa [List.isEmpty_iff])] at hclear
    cases hclear

/-- What is below one of two places that are apart is apart from the other. -/
theorem not_prefix_append_of_apart (hinside : ¬ s <+: landed) (habove : ¬ landed <+: s)
    (r : List String) : ¬ landed <+: s ++ r ∧ ¬ s ++ r <+: landed := by
  constructor
  · intro h
    rcases List.prefix_or_prefix_of_prefix h (List.prefix_append s r) with h | h
    · exact habove h
    · exact hinside h
  · intro h
    exact hinside ((List.prefix_append s r).trans h)

/-! ## What a move has done -/

/-- The node at `source` is at `target` now, and nothing else is different. -/
structure Moved (t : Tree) (source target : String) (t' : Tree) : Prop where
  /-- The target has the very node, with all that is below it. -/
  arrived : ∃ node, t.get? source = some node ∧ t'.get? target = some node
  /-- Nothing is left at the source or below it. -/
  gone : ∀ path, Within path source → t'.get? path = none
  /-- Everywhere else there is what was there. -/
  others : ∀ path, ¬ Within path source → ¬ Within path target →
    (t'.get? path).map Node.face = (t.get? path).map Node.face
  /-- The other entries of every directory are the same, in their order. -/
  order : ∀ path, ¬ Within path source → ¬ Within path target →
    (t'.get? path).map (namesBut [place source, place target] (place path)) =
      (t.get? path).map (namesBut [place source, place target] (place path))
  /-- Taking the node out and putting it back both succeed, one after the other. -/
  reinserted : ∃ node without, t.remove source true = .ok (node, without) ∧
    without.insert (Path.parent target) (Path.fileName target) node = .ok t'

/-- A move that succeeds has done all of it. -/
theorem moved_of_move (ht : t.WellFormed) (h : t.move source destination = .ok (target, t')) :
    Moved t source target t' := by
  obtain ⟨hne, node, landed, hfind, hland, hinside, hclear, rfl, rfl⟩ := move_eq_ok_iff.mp h
  obtain ⟨hcanon, hspec⟩ := landingSteps_spec ht hland
  obtain ⟨hlanded, hdir⟩ := hspec hne
  -- the place of the source and the landing place are apart, both ways
  have habove := not_above_of_no_conflict hfind hinside hclear
  have hstays := isDirectoryAt_drop hinside hdir
  have hplace : place (Path.render landed) = landed := place_render hcanon
  have hframe : SameBut [place source, landed] t ((t.drop (place source)).put landed node) :=
    ((sameBut_drop t _).mono (by simp)).trans ((sameBut_put _ landed node).mono (by simp))
  have hapart : ∀ path, ¬ Within path source → ¬ Within path (Path.render landed) →
      ∀ s ∈ [place source, landed], ¬ s <+: place path := by
    intro path hsource htarget s hs
    rw [within_iff] at hsource htarget
    rw [hplace] at htarget
    rcases List.mem_pair.mp hs with rfl | rfl
    · exact hsource
    · exact htarget
  refine ⟨⟨node, hfind, ?_⟩, fun path hpath => ?_, fun path hsource htarget => ?_,
    fun path hsource htarget => ?_, ⟨node, t.drop (place source), ?_, ?_⟩⟩
  · rw [get?_eq, hplace]
    exact find?_put_self hlanded hstays node
  · obtain ⟨r, hr⟩ := within_iff.mp hpath
    obtain ⟨hout, hin⟩ := not_prefix_append_of_apart hinside habove r
    rw [get?_eq, ← hr, find?_put_apart _ node hout hin]
    exact find?_drop_append ht hne r
  · exact hframe.face (hapart path hsource htarget)
  · rw [hplace]
    exact hframe.order (hapart path hsource htarget)
  · exact remove_eq_ok_iff.mpr ⟨hne, hfind, fun _ => rfl, rfl⟩
  · exact insert_render hcanon hlanded hstays node

/-! ## Moving in place -/

theorem landing_of_move (h : t.move source destination = .ok (target, t')) :
    t.landing source destination = .ok target := by
  obtain ⟨-, node, landed, -, hland, -, -, rfl, -⟩ := move_eq_ok_iff.mp h
  rw [landing, hland]
  rfl

/-- A move that succeeds has moved the node to its landing path and done nothing else; one that
fails has done nothing, and so has not lost the node between the two places. -/
theorem moveInPlace_moved_or_same (h : Reachable t) (source destination : String) :
    t.moveInPlace source destination = t.atOnce (t.move source destination) ∧
      match t.moveInPlace source destination with
      | (.ok target, t') =>
        t.landing source destination = .ok target ∧ Moved t source target t'
      | (.error _, t') => t' = t := by
  have ht := h.wellFormed
  refine ⟨moveInPlace_eq ht source destination, ?_⟩
  rw [moveInPlace_eq ht]
  cases hmove : t.move source destination with
  | error fault => rfl
  | ok result => exact ⟨landing_of_move hmove, moved_of_move ht hmove⟩

theorem sample_moveInPlace :
    (sample.moveInPlace "/src/d/x" "/dst").1.toOption = some "/dst/x" ∧ Reachable sample ∧
      sample.moveInPlace "/src/d/x" "/dst" =
          sample.atOnce (sample.move "/src/d/x" "/dst") ∧
        match sample.moveInPlace "/src/d/x" "/dst" with
        | (.ok target, t') =>
          sample.landing "/src/d/x" "/dst" = .ok target ∧ Moved sample "/src/d/x" target t'
        | (.error _, t') => t' = sample :=
  ⟨by decide +kernel, reachable_sample, moveInPlace_moved_or_same reachable_sample "/src/d/x" "/dst"⟩

end Userland.Tree

/-
  Copying the same thing twice.

  1. *Program.*  A copy into a directory puts the stamped node under its name there, or merges it
     into the directory that has the name.  Done again, it meets what it left the first time: its
     own node, or what came of merging it.

  2. *Specification.*  The second copy succeeds, lands where the first one did, and leaves the very
     same tree, with every directory in the order in which it was.

  3. *The crux.*  A node that is laid over what came of laying it somewhere finds each of its
     entries there already (`Node.overlay_overlay`), and to write what is there into its own place
     changes nothing (`put_eq_self`, `Node.alter_eq_self`).  What the second copy looks at before
     that is as it was: the source lies outside of the target, and so does the directory that
     everything is put into.
-/
import Userland.Proofs.Tree.Copy

namespace Userland.Tree

variable {t t' : Tree} {source destination target : String} {recursive : Bool} {now : Timestamp}
  {s d landed : List String} {name : String} {node there : Node}

/-- What is laid over a place again changes nothing, whichever way it is done. -/
theorem settled_of_overlay (hthere : t.find? landed = some there)
    (hsame : Node.overlay (some there) node = there) :
    t.isDirectoryAt landed = true ∧ node.isDirectory = true ∧
        t = t.alter landed (·.merge node) ∨
      t.isDirectoryAt landed = false ∧ t = t.put landed node := by
  have hkind : there.isDirectory = node.isDirectory := by
    rw [← hsame, Node.isDirectory_overlay]
  have hat : t.isDirectoryAt landed = node.isDirectory := by
    rw [isDirectoryAt, hthere, Option.any_some, hkind]
  rw [Node.overlay, hkind, Bool.and_self] at hsame
  cases hnode : node.isDirectory with
  | true =>
    rw [hnode, if_pos rfl] at hsame
    refine .inl ⟨hat.trans hnode, rfl, ?_⟩
    exact congrArg Tree.mk (Node.alter_eq_self hthere hsame).symm
  | false =>
    rw [hnode, if_neg Bool.false_ne_true] at hsame
    rw [← hsame] at hthere
    exact .inr ⟨hat.trans hnode, (put_eq_self hthere).symm⟩

/-- In a directory a node other than the root lands under its own name. -/
theorem landingSteps_of_isDirectoryAt (hs : s ≠ []) (hd : t.isDirectoryAt d = true) :
    t.landingSteps s d = .ok (d ++ [s.getLast hs]) := by
  rw [landingSteps, if_pos hd, List.getLast?_eq_some_getLast hs, Option.toList_some]

/-- A copy into a directory, of something that is not within its target, can be done again: it
succeeds with the same answer, and the tree stays what it is. -/
theorem copy_again (h : Reachable t) (hdir : t.isDirectory destination = true)
    (hcopy : t.copy source destination recursive now = .ok (target, t'))
    (hout : ¬ Within source target) :
    t'.copy source destination recursive now = .ok (target, t') ∧
      t'.copyInPlace source destination recursive now = (.ok target, t') := by
  have ht := h.wellFormed
  obtain ⟨node, landed, hfind, hrec, hland, hinside, htarget, -⟩ := copy_eq_ok_iff.mp hcopy
  obtain ⟨_, hsame, -, hover⟩ := overlaid_of_copy ht hcopy
  obtain rfl := Option.some.inj (hfind.symm.trans hsame)
  have hplace : place target = landed := by
    rw [htarget, place_render (landingSteps_spec ht hland).1]
  rw [within_iff, hplace] at hout
  rw [hplace] at hover
  -- the source and the directory are as they were, so that the copy lands where it did
  have hsource : t'.find? (place source) = some node :=
    (hover.apart (place source) hout hinside).trans hfind
  have hne := ne_nil_of_not_above hinside
  rw [landingSteps_of_isDirectoryAt hne hdir] at hland
  obtain rfl := Except.ok.inj hland
  have hdir' : t'.isDirectoryAt (place destination) = true :=
    (hover.elsewhere.isDirectoryAt fun l hl =>
      List.mem_singleton.mp hl ▸ not_below_of_concat _ _).trans hdir
  -- and there it meets what came of it
  have hthere := hover.below []
  rw [List.append_nil, Node.find?_nil] at hthere
  have hstamped : (node.modifiedAt now).Proper := (ht.proper.find? hfind).mapAttributes _
  have hsettled := settled_of_overlay hthere (Node.overlay_overlay hstamped _)
  rw [isDirectory_modifiedAt] at hsettled
  have hagain : t'.copy source destination recursive now = .ok (target, t') :=
    copy_eq_ok_iff.mpr ⟨node, _, hsource, hrec, landingSteps_of_isDirectoryAt hne hdir', hinside,
      htarget, hsettled⟩
  refine ⟨hagain, ?_⟩
  rw [copyInPlace_eq (ht.copy hcopy), hagain]
  rfl

/-- The copy of `/src/d` that is merged into `/dst/d`, and once more. -/
theorem sample_copy_again :
    ∃ t', sample.copy "/src/d" "/dst" true noon = .ok ("/dst/d", t') ∧
      t'.copy "/src/d" "/dst" true noon = .ok ("/dst/d", t') ∧
      t'.copyInPlace "/src/d" "/dst" true noon = (.ok "/dst/d", t') := by
  have hdir : sample.isDirectory "/dst" = true := by decide +kernel
  have hout : ¬ Within "/src/d" "/dst/d" := by
    rw [Within]
    decide
  have hlands : (sample.copy "/src/d" "/dst" true noon).toOption.map Prod.fst = some "/dst/d" := by
    decide +kernel
  match hcopy : sample.copy "/src/d" "/dst" true noon with
  | .ok (target, t') =>
    rw [hcopy] at hlands
    obtain rfl : target = "/dst/d" := Option.some.inj hlands
    exact ⟨t', rfl, copy_again reachable_sample hdir hcopy hout⟩
  | .error fault =>
    rw [hcopy] at hlands
    cases hlands

end Userland.Tree

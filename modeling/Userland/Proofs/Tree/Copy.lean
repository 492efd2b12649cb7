/-
  Copying is complete and confined, but not always harmless.

  Whether a copy is merged into the directory at its landing place or put there, the stamped node
  is laid over what the place held, and the rest of the tree is as it was (`overlaid_of_copy`).
  What follows for each place below is the law of overlays: all that the source has is below the
  target afterwards, and a directory is lost exactly where a file of the source has arrived at it
  or above it.

  The landing place itself cannot be lost in this way, because a file is refused there when a
  directory has it.  For the entries further down nothing asks, so that a copy may lose a directory
  with all that is in it.
-/
import Userland.Proofs.Tree.Reachable

namespace Userland.Tree

variable {t t' : Tree} {source destination target : String} {recursive : Bool} {now : Timestamp}
  {s landed r : List String} {node m : Node}

/-! ## One node laid over a place of the tree -/

/-- The node has been laid over what was at the place. -/
structure Overlaid (t : Tree) (node : Node) (landed : List String) (t' : Tree) : Prop where
  below : ∀ r, t'.find? (landed ++ r) = (Node.overlay (t.find? landed) node).find? r
  elsewhere : SameBut [landed] t t'
  apart : ∀ p, ¬ landed <+: p → ¬ p <+: landed → t'.find? p = t.find? p

/-- A directory that is merged with the one at the place is laid over it. -/
theorem overlaid_merge (hat : t.isDirectoryAt landed = true) (hnode : node.isDirectory = true) :
    Overlaid t node landed (t.alter landed (·.merge node)) := by
  refine ⟨fun r => ?_, sameBut_alter t landed _, fun p hl hp => ?_⟩
  · obtain ⟨a, es, hdir⟩ := isDirectoryAt_iff.mp hat
    rw [find?_alter_append, hdir, Option.bind_some, Node.overlay, hnode]
    rfl
  · exact Node.find?_alter_apart t.root _ hl hp

/-- What takes the place of a file, or of nothing, is laid over it, too. -/
theorem overlaid_put (hne : landed ≠ []) (hd : t.isDirectoryAt landed.dropLast = true)
    (hat : t.isDirectoryAt landed = false) (node : Node) :
    Overlaid t node landed (t.put landed node) := by
  refine ⟨fun r => ?_, sameBut_put t landed node, fun p hl hp => find?_put_apart t node hl hp⟩
  rw [find?_put_append hne hd, Node.overlay_of_not_directory hat]

/-- All that the node has is there, each part of it laid over what was in its place. -/
theorem Overlaid.arrived (h : Overlaid t node landed t') (hnode : node.Proper)
    (hm : node.find? r = some m) :
    t'.find? (landed ++ r) = some (Node.overlay (t.find? (landed ++ r)) m) := by
  rw [h.below, Node.find?_overlay hnode hm, find?_append]

/-- A directory stays one exactly when no file of the node has arrived at it or above it. -/
theorem Overlaid.keeps_directory_iff (h : Overlaid t node landed t') (hnode : node.Proper)
    (hwas : t.isDirectoryAt s = true) :
    t'.isDirectoryAt s = true ↔
      ∀ r, landed ++ r <+: s → (node.find? r).any Node.isFile = false := by
  by_cases hs : landed <+: s
  · obtain ⟨below, rfl⟩ := hs
    obtain ⟨a, es, hdir⟩ := isDirectoryAt_iff.mp hwas
    rw [find?_append] at hdir
    rw [isDirectoryAt, h.below, Node.isDirectory_overlay_iff hnode hdir rfl]
    simp only [Node.ClearTo, List.prefix_append_right_inj]
  · -- the place is outside of the one that has changed
    have hsame := h.elsewhere.isDirectoryAt (p := s) fun l hl => by
      rwa [List.mem_singleton.mp hl]
    rw [hsame, hwas]
    exact iff_of_true rfl fun r hr => absurd ((List.prefix_append landed r).trans hr) hs

/-! ## What a copy has done -/

/-- A copy lays the stamped node over its landing place, which is not within the source. -/
theorem overlaid_of_copy (ht : t.WellFormed)
    (h : t.copy source destination recursive now = .ok (target, t')) :
    ∃ node, t.find? (place source) = some node ∧ ¬ place source <+: place target ∧
      Overlaid t (node.modifiedAt now) (place target) t' := by
  obtain ⟨node, landed, hfind, -, hland, hinside, rfl, hdone⟩ := copy_eq_ok_iff.mp h
  obtain ⟨hcanon, hspec⟩ := landingSteps_spec ht hland
  rw [place_render hcanon]
  refine ⟨node, hfind, hinside, ?_⟩
  rcases hdone with ⟨hat, hdir, rfl⟩ | ⟨hat, rfl⟩
  · exact overlaid_merge hat ((isDirectory_modifiedAt node now).trans hdir)
  · obtain ⟨hne, hd⟩ := hspec (ne_nil_of_not_above hinside)
    exact overlaid_put hne hd hat _

/-- The stamp shows at the top of a node only. -/
theorem find?_modifiedAt (n : Node) (now : Timestamp) (r : List String) :
    (n.modifiedAt now).find? r =
      (n.find? r).map fun m => if r = [] then m.modifiedAt now else m := by
  cases r with
  | nil => rw [Node.find?_nil, Node.find?_nil, Option.map_some, if_pos rfl]
  | cons name rest =>
    refine (Node.find?_mapAttributes_cons _ n name rest).trans ?_
    simp

/-- A new time of modification makes no file anywhere, and unmakes none. -/
theorem isFile_find?_modifiedAt (n : Node) (now : Timestamp) (r : List String) :
    ((n.modifiedAt now).find? r).any Node.isFile = (n.find? r).any Node.isFile := by
  rw [find?_modifiedAt, Option.any_map]
  refine congrArg (Option.any · (n.find? r)) (funext fun m => ?_)
  show (if r = [] then m.modifiedAt now else m).isFile = m.isFile
  split
  · rw [Node.isFile, isDirectory_modifiedAt, Node.isFile]
  · rfl

/-- All of the source is at the target, and nothing outside of the target is different. -/
structure Copied (t : Tree) (source target : String) (now : Timestamp) (t' : Tree) : Prop where
  /-- A file is there with its content and its attributes; the stamp is on the source itself. -/
  files : ∀ r a content, t.find? (place source ++ r) = some (.file a content) →
    t'.find? (place target ++ r) =
      some (.file (if r = [] then { a with modified := now } else a) content)
  /-- For a directory there is a directory. -/
  directories : ∀ r, t.isDirectoryAt (place source ++ r) = true →
    t'.isDirectoryAt (place target ++ r) = true
  /-- Outside of the target there is what was there. -/
  others : ∀ path, ¬ Within path target →
    (t'.get? path).map Node.face = (t.get? path).map Node.face
  /-- The source, with all that is below it, is as it was. -/
  kept : ¬ Within source target → t'.get? source = t.get? source

/-- A copy that succeeds has done all of it. -/
theorem copied_of_copy (ht : t.WellFormed)
    (h : t.copy source destination recursive now = .ok (target, t')) :
    Copied t source target now t' := by
  obtain ⟨node, hfind, hinside, hover⟩ := overlaid_of_copy ht h
  have hproper : (node.modifiedAt now).Proper := (ht.proper.find? hfind).mapAttributes _
  -- each part of the source is found in the stamped node, with the stamp if it is the top
  have hpart : ∀ r m, t.find? (place source ++ r) = some m →
      t'.find? (place target ++ r) = some (Node.overlay (t.find? (place target ++ r))
        (if r = [] then m.modifiedAt now else m)) := by
    intro r m hm
    rw [find?_below hfind] at hm
    refine hover.arrived hproper ?_
    rw [find?_modifiedAt, hm, Option.map_some]
  refine ⟨fun r a content hfile => ?_, fun r hdir => ?_, fun path hpath => ?_, fun hout => ?_⟩
  · rw [hpart r _ hfile]
    split
    · exact congrArg some (Node.overlay_file _ _ content)
    · exact congrArg some (Node.overlay_file _ a content)
  · obtain ⟨a, es, hdir⟩ := isDirectoryAt_iff.mp hdir
    rw [isDirectoryAt, hpart r _ hdir, Option.any_some, Node.isDirectory_overlay]
    split
    · rfl
    · rfl
  · refine hover.elsewhere.face fun l hl => ?_
    rw [List.mem_singleton.mp hl]
    exact fun hwithin => hpath (within_iff.mpr hwithin)
  · rw [within_iff] at hout
    exact hover.apart (place source) hout hinside

/-! ## Copying in place -/

theorem landing_of_copy (h : t.copy source destination recursive now = .ok (target, t')) :
    t.landing source destination = .ok target := by
  obtain ⟨node, landed, -, -, hland, -, rfl, -⟩ := copy_eq_ok_iff.mp h
  rw [landing, hland]
  rfl

/-- A copy that succeeds has all of the source at its landing path and has changed nothing outside
of it; one that fails has done nothing. -/
theorem copyInPlace_copied_or_same (h : Reachable t) (source destination : String)
    (recursive : Bool) (now : Timestamp) :
    t.copyInPlace source destination recursive now =
        t.atOnce (t.copy source destination recursive now) ∧
      match t.copyInPlace source destination recursive now with
      | (.ok target, t') =>
        t.landing source destination = .ok target ∧ Copied t source target now t'
      | (.error _, t') => t' = t := by
  have ht := h.wellFormed
  refine ⟨copyInPlace_eq ht source destination recursive now, ?_⟩
  rw [copyInPlace_eq ht]
  cases hcopy : t.copy source destination recursive now with
  | error fault => rfl
  | ok result => exact ⟨landing_of_copy hcopy, copied_of_copy ht hcopy⟩

theorem sample_copyInPlace :
    (sample.copyInPlace "/src/d" "/dst" true noon).1.toOption = some "/dst/d" ∧
      Reachable sample ∧
      sample.copyInPlace "/src/d" "/dst" true noon =
          sample.atOnce (sample.copy "/src/d" "/dst" true noon) ∧
        match sample.copyInPlace "/src/d" "/dst" true noon with
        | (.ok target, t') =>
          sample.landing "/src/d" "/dst" = .ok target ∧ Copied sample "/src/d" target noon t'
        | (.error _, t') => t' = sample :=
  ⟨by decide +kernel, reachable_sample,
    copyInPlace_copied_or_same reachable_sample "/src/d" "/dst" true noon⟩

/-! ## Directories that a copy loses -/

/-- A directory outlives a copy exactly when no file of the source has the place that arrives at it
or above it. -/
theorem isDirectory_of_copy_iff (ht : t.WellFormed)
    (h : t.copy source destination recursive now = .ok (target, t'))
    (hwas : t.isDirectoryAt s = true) :
    t'.isDirectoryAt s = true ↔
      ∀ r, place target ++ r <+: s → (t.find? (place source ++ r)).any Node.isFile = false := by
  obtain ⟨node, hfind, -, hover⟩ := overlaid_of_copy ht h
  have hstamped : (node.modifiedAt now).Proper := (ht.proper.find? hfind).mapAttributes _
  rw [hover.keeps_directory_iff hstamped hwas]
  simp only [isFile_find?_modifiedAt, find?_below hfind]

/-- A copy keeps every directory exactly when no file of the source arrives at a place that has a
directory. -/
theorem copy_keeps_directories_iff (h : Reachable t)
    (hcopy : t.copy source destination recursive now = .ok (target, t')) :
    (∀ path, t.isDirectory path = true → t'.isDirectory path = true) ↔
      ∀ r, t.isDirectoryAt (place target ++ r) = true →
        (t.find? (place source ++ r)).any Node.isFile = false := by
  have ht := h.wellFormed
  constructor
  · intro hkeeps r hwas
    obtain ⟨a, es, hfind⟩ := isDirectoryAt_iff.mp hwas
    have hplace := place_render (ht.canonical_of_find? hfind)
    have hstays := hkeeps (Path.render (place target ++ r))
    rw [isDirectory, isDirectory, hplace] at hstays
    exact (isDirectory_of_copy_iff ht hcopy hwas).mp (hstays hwas) r List.prefix_rfl
  · intro hclear path hwas
    refine (isDirectory_of_copy_iff ht hcopy hwas).mpr fun r hr => hclear r ?_
    -- a directory is at every place above a directory
    obtain ⟨rest, hrest⟩ := hr
    cases rest with
    | nil =>
      rw [List.append_nil] at hrest
      rwa [hrest]
    | cons name rest =>
      obtain ⟨a, es, hfind⟩ := isDirectoryAt_iff.mp hwas
      rw [← hrest] at hfind
      exact isDirectoryAt_of_find?_append hfind (List.cons_ne_nil name rest)

/-- A file of the source over a directory of the target. -/
theorem sample_copy_keeps_directories_iff :
    ∃ target t', sample.copy "/src/d" "/dst" true noon = .ok (target, t') ∧
      ((∀ path, sample.isDirectory path = true → t'.isDirectory path = true) ↔
        ∀ r, sample.isDirectoryAt (place target ++ r) = true →
          (sample.find? (place "/src/d" ++ r)).any Node.isFile = false) := by
  have hok : (sample.copy "/src/d" "/dst" true noon).toOption.isSome = true := by decide +kernel
  match hcopy : sample.copy "/src/d" "/dst" true noon with
  | .ok (target, t') =>
    exact ⟨target, t', rfl, copy_keeps_directories_iff reachable_sample hcopy⟩
  | .error fault =>
    rw [hcopy] at hok
    cases hok

/-- The copy of `/src/d` is merged into `/dst/d`, and the file `x` takes the place of the directory
`/dst/d/x`. -/
theorem copy_loses_directory :
    Reachable sample ∧ sample.isDirectory "/dst/d/x" = true ∧
      (sample.copy "/src/d" "/dst" true noon).toOption.map
          (fun (target, t') => (target, t'.isDirectory "/dst/d/x")) = some ("/dst/d", false) :=
  ⟨reachable_sample, by decide +kernel, by decide +kernel⟩

end Userland.Tree

/-
  One mode after another on the permissions of a node.

  The permissions are kept as a text, and every mode reads the text, changes the bits and writes
  them again.  Over a run of modes, some of which may be refused, nothing is lost on the way: what
  one call has written the next one reads (`Mode.ofText_text`), and a call that is refused leaves
  the text as it is, however it is spelled.  So the text at the end shows the bits to which the
  accepted modes lead from the first reading.

  What a call does to the tree is told once, by `Permitted`, which adds up along a run.
-/
import Userland.Proofs.Mode.Text

namespace Userland

namespace Mode

/-- The modes among them that are accepted, which does not depend on any bits. -/
def accepted (modes : List String) : List String :=
  modes.filter fun mode => (change mode 0).toOption.isSome

/-- The bits after one mode and then the next, if all are accepted. -/
def changeAll (modes : List String) (bits : Nat) : Except Fault Nat :=
  modes.foldlM (fun bits mode => change mode bits) bits

variable {mode : String} {modes : List String} {bits new : Nat}

/-- Whether a mode is accepted does not depend on the bits. -/
theorem isSome_change_zero_iff (mode : String) (bits : Nat) :
    (change mode 0).toOption.isSome = true ↔ ∃ new, change mode bits = .ok new := by
  rw [change_accepts_iff mode bits, ← change_accepts_iff mode 0]
  cases change mode 0 with
  | error fault => simp [Except.toOption]
  | ok new => simp [Except.toOption]

theorem accepted_cons_of_ok (h : change mode bits = .ok new) :
    accepted (mode :: modes) = mode :: accepted modes :=
  List.filter_cons_of_pos ((isSome_change_zero_iff mode bits).mpr ⟨new, h⟩)

/-- A mode that is refused does not count. -/
theorem accepted_cons_of_error {fault : Fault} (h : change mode bits = .error fault) :
    accepted (mode :: modes) = accepted modes := by
  refine List.filter_cons_of_neg fun hsome => ?_
  obtain ⟨new, hnew⟩ := (isSome_change_zero_iff mode bits).mp hsome
  rw [h] at hnew
  cases hnew

/-- An accepted mode changes the bits for those after it. -/
theorem changeAll_cons_of_ok (h : change mode bits = .ok new) :
    changeAll (mode :: modes) bits = changeAll modes new := by
  rw [changeAll, List.foldlM_cons, h]
  rfl

/-- No mode brings in bits beyond the twelve. -/
theorem le_allBits_of_change (h : change mode bits = .ok new) : new ≤ allBits := by
  obtain ⟨m, hm, rfl⟩ := change_eq_ok_iff.mp h
  exact apply_le hm bits

end Mode

namespace Node

/-- The node with another text for its permissions. -/
def withPermissions (permissions : String) (n : Node) : Node :=
  n.mapAttributes ({ · with permissions })

variable {n : Node} {permissions : String}

theorem permissions_withPermissions :
    (n.withPermissions permissions).attributes.permissions = permissions := by
  cases n <;> rfl

theorem isDirectory_withPermissions :
    (n.withPermissions permissions).isDirectory = n.isDirectory :=
  isDirectory_mapAttributes _ n

theorem withPermissions_self : n.withPermissions n.attributes.permissions = n := by
  cases n <;> rfl

/-- The last permissions count. -/
theorem withPermissions_withPermissions (more : String) :
    (n.withPermissions permissions).withPermissions more = n.withPermissions more := by
  cases n <;> rfl

/-- The first character of its permissions, once they have been written. -/
def kindLetter (n : Node) : Char := if n.isDirectory then 'd' else '-'

theorem kindLetter_withPermissions : (n.withPermissions permissions).kindLetter = n.kindLetter := by
  rw [kindLetter, isDirectory_withPermissions, kindLetter]

theorem kindLetter_eq_iff : n.kindLetter = 'd' ↔ n.isDirectory = true := by
  rw [kindLetter]
  cases n.isDirectory <;> decide

/-- A file that shows some bits is executable if the owner's execute bit is one of them. -/
theorem isExecutable_withPermissions_text (hfile : n.isFile = true) (kind : Char) (bits : Nat) :
    (n.withPermissions (Mode.text kind bits)).isExecutable = true ↔ bits &&& 0o100 ≠ 0 := by
  have hstill : (n.withPermissions (Mode.text kind bits)).isFile = true := by
    rw [isFile, isDirectory_withPermissions]
    exact hfile
  have hbit : Mode.has bits 0o100 = true ↔ bits &&& 0o100 ≠ 0 := bne_iff_ne
  rw [isExecutable, hstill, permissions_withPermissions, Mode.getElem?_text_execute, ← hbit]
  cases Mode.has bits Mode.setUser <;> cases Mode.has bits 0o100 <;> decide

end Node

namespace Tree

variable {t t' t'' : Tree} {path mode permissions more : String} {node : Node}

/-! ## One call -/

/-- The node at the path has these permissions and is otherwise the same, with all that is below it,
and no other node of the tree is different. -/
structure Permitted (t : Tree) (path : String) (node : Node) (permissions : String) (t' : Tree) :
    Prop where
  there : t'.get? path = some (node.withPermissions permissions)
  others : ∀ other, place other ≠ place path →
    (t'.get? other).map Node.listed = (t.get? other).map Node.listed

theorem Permitted.refl (h : t.get? path = some node) :
    Permitted t path node node.attributes.permissions t :=
  ⟨by rw [h, Node.withPermissions_self], fun _ _ => rfl⟩

/-- Two calls are one with the permissions of the second. -/
theorem Permitted.trans (h : Permitted t path node permissions t')
    (h' : Permitted t' path (node.withPermissions permissions) more t'') :
    Permitted t path node more t'' :=
  ⟨by rw [h'.there, Node.withPermissions_withPermissions],
    fun other hother => (h'.others other hother).trans (h.others other hother)⟩

/-- A mode that is accepted is written into the permissions. -/
theorem after_setPermissions_of_ok (h : t.get? path = some node) {bits : Nat}
    (hchange : Mode.change mode (Mode.ofText node.attributes.permissions) = .ok bits) :
    Permitted t path node (Mode.text node.kindLetter bits)
      ((Change.setPermissions path mode).after t) := by
  have hok := setPermissions_eq_ok_iff.mpr ⟨node, bits, h, hchange, rfl⟩
  rw [Change.after, hok]
  refine ⟨?_, fun other hother =>
    Node.map_listed_find?_alter (Node.find?_mapAttributes_cons _) t.root hother⟩
  exact (Node.find?_alter_self t.root _ (place path)).trans (congrArg (Option.map _) h)

/-- A mode that is refused changes nothing. -/
theorem after_setPermissions_of_error (h : t.get? path = some node) {fault : Fault}
    (hchange : Mode.change mode (Mode.ofText node.attributes.permissions) = .error fault) :
    (Change.setPermissions path mode).after t = t := by
  rw [Change.after]
  cases hset : t.setPermissions path mode with
  | error fault => rfl
  | ok t' =>
    obtain ⟨n, bits, hn, hbits, -⟩ := setPermissions_eq_ok_iff.mp hset
    obtain rfl : node = n := Option.some.inj (h.symm.trans hn)
    rw [hchange] at hbits
    cases hbits

/-! ## A run of calls -/

/-- The tree after some modes for a path, whether they are accepted or refused. -/
def afterModes (t : Tree) (path : String) (modes : List String) : Tree :=
  (modes.map (Change.setPermissions path)).foldl Change.after t

/-- The text after a run is read as the bits to which the accepted modes lead. -/
theorem permitted_afterModes (h : t.get? path = some node) (modes : List String) :
    ∃ permissions bits, Permitted t path node permissions (t.afterModes path modes) ∧
      Mode.changeAll (Mode.accepted modes) (Mode.ofText node.attributes.permissions) = .ok bits ∧
      Mode.ofText permissions = bits ∧
      permissions = if Mode.accepted modes = [] then node.attributes.permissions
        else Mode.text node.kindLetter bits := by
  induction modes generalizing t node with
  | nil => exact ⟨_, _, Permitted.refl h, rfl, rfl, rfl⟩
  | cons mode modes ih =>
    cases hchange : Mode.change mode (Mode.ofText node.attributes.permissions) with
    | error fault =>
      rw [Mode.accepted_cons_of_error hchange, afterModes, List.map_cons, List.foldl_cons,
        after_setPermissions_of_error h hchange]
      exact ih h
    | ok first =>
      have hfirst := after_setPermissions_of_ok h hchange
      have hread : Mode.ofText (Mode.text node.kindLetter first) = first :=
        Mode.ofText_text _ (Mode.le_allBits_of_change hchange)
      obtain ⟨permissions, bits, hrun, hall, hbits, htext⟩ := ih hfirst.there
      rw [Node.permissions_withPermissions] at hall
      rw [Node.permissions_withPermissions, Node.kindLetter_withPermissions] at htext
      rw [hread] at hall
      rw [Mode.accepted_cons_of_ok hchange, Mode.changeAll_cons_of_ok hchange]
      refine ⟨permissions, bits, hfirst.trans hrun, hall, hbits, ?_⟩
      rw [if_neg (List.cons_ne_nil _ _)]
      split at htext
      · next hnone =>
        -- the first mode is the last one that is accepted
        rw [hnone] at hall
        cases hall
        exact htext
      · exact htext

/-- After any run of modes, accepted and refused, the permissions of a node are the text from before
if none was accepted.  Else they show the bits to which the accepted modes lead, one after the
other, from what the first text showed, and show them in full: the first character tells the kind of
the node, and a file is executable if the owner's execute bit is set.  Nothing else is different, of
the node or of any other. -/
theorem permissions_afterModes (h : t.get? path = some node) (modes : List String) :
    ∃ permissions, Permitted t path node permissions (t.afterModes path modes) ∧
      (Mode.accepted modes = [] → permissions = node.attributes.permissions) ∧
      (Mode.accepted modes ≠ [] → ∃ bits,
        Mode.changeAll (Mode.accepted modes) (Mode.ofText node.attributes.permissions) = .ok bits ∧
          permissions = Mode.text (if node.isDirectory then 'd' else '-') bits ∧
          Mode.ofText permissions = bits ∧
          (permissions.toList.head? = some 'd' ↔ node.isDirectory = true) ∧
          (node.isFile = true →
            ((node.withPermissions permissions).isExecutable = true ↔ bits &&& 0o100 ≠ 0))) := by
  obtain ⟨permissions, bits, hrun, hall, hread, htext⟩ := permitted_afterModes h modes
  refine ⟨permissions, hrun, fun hnone => ?_, fun hsome => ?_⟩
  · rwa [if_pos hnone] at htext
  · rw [if_neg hsome] at htext
    subst htext
    refine ⟨bits, hall, rfl, hread, ?_, fun hfile => ?_⟩
    · rw [Mode.head?_text, Option.some_inj]
      exact Node.kindLetter_eq_iff
    · exact Node.isExecutable_withPermissions_text hfile _ bits

/-- A file with permissions of no known form. -/
def oddFile : Node := .file ⟨"?-w-.-Trw", "ann", "staff", 4, noon⟩ "text"

/-- A tree with permissions that no call writes. -/
def oddTree : Tree := ⟨.directory ⟨"d", "root", "root", 4096, noon⟩ [("f", oddFile)]⟩

/-- Two of four modes are accepted; of two that are refused nothing is seen. -/
theorem oddTree_permissions_afterModes :
    oddTree.get? "/./f" = some oddFile ∧
      (Mode.accepted ["u+q", "u=xs", "", "g+r,o-w"] = ["u=xs", "g+r,o-w"] ∧
        Permitted oddTree "/./f" oddFile "---sr-Sr--"
          (oddTree.afterModes "/./f" ["u+q", "u=xs", "", "g+r,o-w"]) ∧
        Mode.ofText "---sr-Sr--" = 0o6144 ∧ oddFile.isFile = true ∧
        ((oddFile.withPermissions "---sr-Sr--").isExecutable = true ↔ 0o6144 &&& 0o100 ≠ 0)) ∧
      (Mode.accepted ["u+q", ""] = [] ∧
        Permitted oddTree "/./f" oddFile "?-w-.-Trw" (oddTree.afterModes "/./f" ["u+q", ""])) := by
  have hfile : oddTree.get? "/./f" = some oddFile := by rfl
  have haccepted : Mode.accepted ["u+q", "u=xs", "", "g+r,o-w"] = ["u=xs", "g+r,o-w"] := by
    decide +kernel
  have hrefused : Mode.accepted ["u+q", ""] = [] := by decide +kernel
  obtain ⟨permissions, hrun, -, hsome⟩ :=
    permissions_afterModes hfile ["u+q", "u=xs", "", "g+r,o-w"]
  obtain ⟨bits, hall, rfl, hread, -, hexecutable⟩ := hsome (by rw [haccepted]; decide)
  have hbits : Mode.changeAll ["u=xs", "g+r,o-w"] (Mode.ofText oddFile.attributes.permissions) =
      .ok 0o6144 := by decide +kernel
  rw [haccepted, hbits] at hall
  cases hall
  have htext : Mode.text (if oddFile.isDirectory then 'd' else '-') 0o6144 = "---sr-Sr--" := by
    decide +kernel
  rw [htext] at hrun hread hexecutable
  obtain ⟨same, hsame, hnone, -⟩ := permissions_afterModes hfile ["u+q", ""]
  rw [hnone hrefused] at hsame
  exact ⟨hfile, ⟨haccepted, hrun, hread, rfl, hexecutable rfl⟩, hrefused, hsame⟩

end Tree

end Userland

/-
  One node laid over another.

  `overlay` is what stands at a place after a node has arrived there: two directories are merged,
  and in every other case the arriving node has the place.  Merging two directories does exactly
  this to each name (`get?_mergeEntries`), so that an overlay is an overlay at every place below it
  that the arriving node has (`find?_overlay`).  From this one equation follow both halves of what a
  merge promises and the one thing it does not: all of the arriving node is there afterwards, and a
  directory stays one unless the arriving node has a file in its place or above it
  (`isDirectory_overlay_iff`).
-/
import Userland.Proofs.Node.Proper

namespace Userland.Node

/-- The node at a place where `old` was, after `incoming` has arrived. -/
def overlay (old : Option Node) (incoming : Node) : Node :=
  match old with
  | some old => if old.isDirectory && incoming.isDirectory then merge old incoming else incoming
  | none => incoming

variable {old : Option Node} {incoming m : Node} {name : String} {rest r : List String}

theorem overlay_none (incoming : Node) : overlay none incoming = incoming := rfl

/-- A file takes the place of whatever was there. -/
theorem overlay_file (old : Option Node) (a : Attributes) (content : String) :
    overlay old (file a content) = file a content := by
  cases old with
  | none => rfl
  | some old => rw [overlay, isDirectory, Bool.and_false, if_neg (by simp)]

theorem overlay_over_file (a : Attributes) (content : String) (incoming : Node) :
    overlay (some (file a content)) incoming = incoming := rfl

/-- Only directories are merged with. -/
theorem overlay_of_not_directory (h : old.any isDirectory = false) (incoming : Node) :
    overlay old incoming = incoming := by
  cases old with
  | none => rfl
  | some old =>
    rw [Option.any_some] at h
    rw [overlay, h, Bool.false_and, if_neg (by simp)]

/-- A directory over a directory: the old attributes, but the new time, and the entries merged. -/
theorem overlay_directories (a : Attributes) (es : Entries Node) (b : Attributes)
    (more : Entries Node) :
    overlay (some (directory a es)) (directory b more) =
      directory { a with modified := b.modified } (mergeEntries es more) := rfl

theorem isDirectory_merge (old incoming : Node) :
    (merge old incoming).isDirectory = old.isDirectory := by
  cases old <;> cases incoming <;> rfl

/-- What has arrived is of the kind that arrived. -/
theorem isDirectory_overlay (old : Option Node) (incoming : Node) :
    (overlay old incoming).isDirectory = incoming.isDirectory := by
  cases incoming with
  | file a content => rw [overlay_file]
  | directory b more =>
    cases old with
    | none => rfl
    | some old => cases old <;> rfl

/-! ## Name by name -/

/-- Entries are laid over one by one. -/
theorem mergeEntries_cons (es : Entries Node) (name : String) (incoming : Node)
    (more : Entries Node) :
    mergeEntries es ((name, incoming) :: more) =
      mergeEntries (Entries.put es name (overlay (Entries.get? es name) incoming)) more := by
  rw [mergeEntries]
  cases Entries.get? es name <;> rfl

/-- A merge lays each arriving entry over the one of its name and leaves the others. -/
theorem get?_mergeEntries (es : Entries Node) {more : Entries Node}
    (hmore : (Entries.names more).Nodup) (name : String) :
    Entries.get? (mergeEntries es more) name =
      match Entries.get? more name with
      | some incoming => some (overlay (Entries.get? es name) incoming)
      | none => Entries.get? es name := by
  induction more generalizing es with
  | nil => rfl
  | cons e more ih =>
    obtain ⟨first, incoming⟩ := e
    obtain ⟨hfresh, hrest⟩ := List.nodup_cons.mp hmore
    rw [mergeEntries_cons, ih _ hrest]
    by_cases h : first = name
    · have hnone : Entries.get? more name = none := by
        rw [Entries.get?_eq_none_iff, ← h]
        exact hfresh
      rw [Entries.get?, if_pos h, hnone, h, Entries.get?_put_self]
    · rw [Entries.get?, if_neg h, Entries.get?_put_of_ne (Ne.symm h)]

/-- A merge, gone down. -/
theorem find?_mergeEntries (a : Attributes) (es : Entries Node) {more : Entries Node}
    (hmore : (Entries.names more).Nodup) (name : String) (rest : List String) :
    (directory a (mergeEntries es more)).find? (name :: rest) =
      match Entries.get? more name with
      | some incoming => (overlay (Entries.get? es name) incoming).find? rest
      | none => (Entries.get? es name).bind (·.find? rest) := by
  rw [find?_directory_cons, get?_mergeEntries es hmore]
  cases Entries.get? more name <;> rfl

/-! ## Place by place -/

/-- At every place that the arriving node has, its part is laid over what was there. -/
theorem find?_overlay (hp : incoming.Proper) (h : incoming.find? r = some m) :
    (overlay old incoming).find? r = some (overlay (old.bind (·.find? r)) m) := by
  -- on the steps: the merge goes down as long as there is a directory on both sides
  induction r generalizing old incoming with
  | nil =>
    rw [find?_nil, Option.some.injEq] at h
    rw [find?_nil, h]
    cases old with
    | none => rfl
    | some old => rw [Option.bind_some, find?_nil]
  | cons name rest ih =>
    cases incoming with
    | file b content => cases h
    | directory b more =>
      match old with
      | none => rw [overlay_none, h, Option.bind_none, overlay_none]
      | some (file a content) =>
        rw [overlay_over_file, h, Option.bind_some, find?_file_cons, overlay_none]
      | some (directory a es) =>
        rw [find?_directory_cons] at h
        obtain ⟨child, hchild, hrest⟩ := Option.bind_eq_some_iff.mp h
        have hproper := hp.entries _ (Entries.mem_of_get? hchild)
        rw [overlay_directories, find?_mergeEntries _ es hp.distinct, hchild, Option.bind_some,
          find?_directory_cons]
        exact ih hproper hrest

/-- No file stands in the node at the end of the names or on the way there. -/
def ClearTo (n : Node) (r : List String) : Prop :=
  ∀ q, q <+: r → (n.find? q).any isFile = false

theorem clearTo_nil {n : Node} : n.ClearTo [] ↔ n.isDirectory = true := by
  constructor
  · intro h
    have hroot := h [] List.nil_prefix
    rwa [find?_nil, Option.any_some, isFile, Bool.not_eq_false'] at hroot
  · intro h q hq
    rw [List.prefix_nil.mp hq, find?_nil, Option.any_some, isFile, h, Bool.not_true]

theorem not_clearTo_file (a : Attributes) (content : String) (r : List String) :
    ¬ (file a content).ClearTo r := by
  intro h
  have hroot := h [] List.nil_prefix
  rw [find?_nil] at hroot
  cases hroot

/-- In a directory only the entry of the first step can be in the way. -/
theorem clearTo_directory_cons {a : Attributes} {es : Entries Node} :
    (directory a es).ClearTo (name :: rest) ↔
      ∀ child, Entries.get? es name = some child → child.ClearTo rest := by
  constructor
  · intro h child hchild q hq
    have hlonger := h (name :: q) ((List.prefix_cons_inj name).mpr hq)
    rwa [find?_directory_cons, hchild, Option.bind_some] at hlonger
  · intro h q hq
    cases q with
    | nil =>
      rw [find?_nil]
      rfl
    | cons first q =>
      obtain ⟨rfl, hq'⟩ := List.cons_prefix_cons.mp hq
      rw [find?_directory_cons]
      cases hchild : Entries.get? es first with
      | none => rfl
      | some child => exact h child hchild q hq'

/-- What was a directory is one afterwards exactly when no file has arrived there or above it. -/
theorem isDirectory_overlay_iff {was : Node} (hp : incoming.Proper)
    (hwas : old.bind (·.find? r) = some was) (hdir : was.isDirectory = true) :
    ((overlay old incoming).find? r).any isDirectory = true ↔ incoming.ClearTo r := by
  -- down both nodes at once, as long as both hold directories
  induction r generalizing old incoming with
  | nil => rw [find?_nil, Option.any_some, isDirectory_overlay, clearTo_nil]
  | cons name rest ih =>
    obtain ⟨above, rfl, hbelow⟩ := Option.bind_eq_some_iff.mp hwas
    cases above with
    | file a content => cases hbelow
    | directory a es =>
      rw [find?_directory_cons] at hbelow
      cases incoming with
      | file b content =>
        rw [overlay_file, find?_file_cons]
        exact iff_of_false (by simp) (not_clearTo_file b content _)
      | directory b more =>
        rw [overlay_directories, find?_mergeEntries _ es hp.distinct, clearTo_directory_cons]
        cases hget : Entries.get? more name with
        | none =>
          rw [hbelow]
          exact iff_of_true hdir (fun child h => by cases h)
        | some child =>
          have hchild := ih (hp.entries _ (Entries.mem_of_get? hget)) hbelow
          rw [hchild]
          exact ⟨fun h c hc => Option.some.inj hc ▸ h, fun h => h child rfl⟩

/-! ## Arriving again -/

/-- What is merged already changes nothing. -/
theorem mergeEntries_eq_self {es more : Entries Node}
    (h : ∀ e ∈ more, ∃ there, Entries.get? es e.1 = some there ∧ overlay (some there) e.2 = there) :
    mergeEntries es more = es := by
  induction more with
  | nil => rfl
  | cons e more ih =>
    obtain ⟨name, incoming⟩ := e
    obtain ⟨there, hget, hsame⟩ := h _ List.mem_cons_self
    rw [mergeEntries_cons, hget, hsame, Entries.put_eq_self hget]
    exact ih fun e he => h e (List.mem_cons_of_mem _ he)

/-- A node that arrives a second time finds itself there, with whatever it was laid over, and
changes nothing, not even an order. -/
theorem overlay_overlay (hp : incoming.Proper) (old : Option Node) :
    overlay (some (overlay old incoming)) incoming = overlay old incoming := by
  induction hp generalizing old with
  | ofFile a content => rw [overlay_file, overlay_file]
  | @ofDirectory b more distinct valid entries ih =>
    -- each entry meets what came of it the first time
    have hthere : ∀ es, mergeEntries (mergeEntries es more) more = mergeEntries es more := by
      intro es
      refine mergeEntries_eq_self fun e he => ⟨overlay (Entries.get? es e.1) e.2, ?_, ih e he _⟩
      rw [get?_mergeEntries es distinct, Entries.get?_of_mem distinct he]
    have hself : mergeEntries more more = more := by
      refine mergeEntries_eq_self fun e he => ⟨e.2, Entries.get?_of_mem distinct he, ?_⟩
      exact ih e he none
    match old with
    | none | some (file a content) =>
      exact congrArg (directory b) hself
    | some (directory a es) =>
      rw [overlay_directories, overlay_directories, hthere]

/-! ## Merges of proper nodes -/

/-- Proper entries make proper entries, if each of the merges does. -/
theorem Proper.mergeEntries {a : Attributes} {es more : Entries Node}
    (hes : Proper (directory a es)) (hvalid : ∀ e ∈ more, Path.IsName e.1)
    (hmore : ∀ e ∈ more, e.2.Proper)
    (hmerge : ∀ e ∈ more, ∀ old : Node, old.Proper → (merge old e.2).Proper) :
    Proper (directory a (Node.mergeEntries es more)) := by
  -- on what arrives: each entry meets what those before it have made
  induction more generalizing es with
  | nil => exact hes
  | cons e more ih =>
    obtain ⟨name, incoming⟩ := e
    have hoverlay : (overlay (Entries.get? es name) incoming).Proper := by
      have hincoming := hmore _ List.mem_cons_self
      cases hget : Entries.get? es name with
      | none => exact hincoming
      | some old =>
        rw [overlay]
        split
        · exact hmerge _ List.mem_cons_self old (hes.entries _ (Entries.mem_of_get? hget))
        · exact hincoming
    rw [mergeEntries_cons]
    refine ih (hes.put (hvalid _ List.mem_cons_self) hoverlay) (fun e he => ?_) (fun e he => ?_)
      (fun e he => ?_)
    · exact hvalid e (List.mem_cons_of_mem _ he)
    · exact hmore e (List.mem_cons_of_mem _ he)
    · exact hmerge e (List.mem_cons_of_mem _ he)

/-- Two proper nodes merge to a proper one. -/
theorem Proper.merge {old incoming : Node} (ho : old.Proper) (hi : incoming.Proper) :
    (Node.merge old incoming).Proper := by
  induction hi generalizing old with
  | ofFile b content =>
    cases old with
    | file a text => exact .ofFile _ text
    | directory a es => exact ho.withAttributes _
  | ofDirectory distinct valid entries ih =>
    cases old with
    | file a text => exact .ofFile _ text
    | directory a es =>
      exact (ho.withAttributes _).mergeEntries valid entries fun e he old hold => ih e he hold

end Userland.Node

/-
  Packages over a run of calls.

  1. *Program.*  The package manager looks packages up, marks them as installed or not, and
     remembers when the lists were refreshed.  Installing and removing are done in place here, with
     the packages as they stand at every exit, and come to what they come to as a whole
     (`installInPlace_eq`, `removeInPlace_eq`).

  2. *Specification* (`Kept`).  Whatever calls have been made, the catalog is the same but for the
     marks.  A package is marked as the last call says that installed or removed it, and as it was
     before if there was none; the time of the last refresh is that of the last call that refreshed.
     A call fails exactly when it names a package that the catalog does not have, and changes
     nothing then.

  3. *The crux* (`Effect`).  What one call does, told for the mark of each name and for the time as
     what the call decides, if anything.  A run of calls does the same with what its calls decide
     last, by induction from the last call.
-/
import Mathlib.Data.List.Induction
import Mathlib.Data.Set.Card
import Userland.Package.Catalog
import Userland.Proofs.Fault

namespace Userland.Packages

/-! ## Marks -/

/-- The names of the catalog. -/
def names (ps : Packages) : List String := ps.catalog.map (·.name)

/-- The catalog without its marks. -/
def labels (ps : Packages) : List (String × String × String) :=
  ps.catalog.map fun p => (p.name, p.version, p.description)

variable {ps : Packages} {name other : String}

theorem names_eq_labels (ps : Packages) : ps.names = ps.labels.map (·.1) := by
  rw [names, labels, List.map_map]
  rfl

/-- What is found is in the catalog and has the name. -/
theorem find?_eq_some {p : Package} (h : ps.find? name = some p) :
    p ∈ ps.catalog ∧ p.name = name := by
  rw [find?] at h
  exact ⟨List.mem_of_find?_eq_some h, by simpa using List.find?_some h⟩

/-- Something is found exactly under the names that are known. -/
theorem isSome_find?_iff : (ps.find? name).isSome = true ↔ name ∈ ps.names := by
  simp [find?, names]

theorem find?_eq_none (h : name ∉ ps.names) : ps.find? name = none := by
  rw [← Option.not_isSome_iff_eq_none, isSome_find?_iff]
  exact h

theorem labels_mark (ps : Packages) (name : String) (installed : Bool) :
    (ps.mark name installed).labels = ps.labels := by
  obtain ⟨catalog, lastUpdate⟩ := ps
  simp only [mark, labels]
  induction catalog with
  | nil => rfl
  | cons p rest ih =>
    rw [changeFirst]
    split
    · rfl
    · exact congrArg (_ :: ·) ih

theorem names_mark (ps : Packages) (name : String) (installed : Bool) :
    (ps.mark name installed).names = ps.names := by
  rw [names_eq_labels, names_eq_labels, labels_mark]

/-- Under its own name the marked package is found. -/
theorem find?_mark_self (ps : Packages) (name : String) (installed : Bool) :
    (ps.mark name installed).find? name = (ps.find? name).map ({ · with installed }) := by
  obtain ⟨catalog, lastUpdate⟩ := ps
  simp only [mark, find?]
  induction catalog with
  | nil => rfl
  | cons p rest ih =>
    rw [changeFirst]
    by_cases h : p.name = name
    · simp [h]
    · simp [h, ih]

/-- Under every other name the same is found as before. -/
theorem find?_mark_of_ne (ps : Packages) (installed : Bool) (h : other ≠ name) :
    (ps.mark name installed).find? other = ps.find? other := by
  obtain ⟨catalog, lastUpdate⟩ := ps
  simp only [mark, find?]
  induction catalog with
  | nil => rfl
  | cons p rest ih =>
    rw [changeFirst]
    by_cases hp : p.name = name
    · simp [hp, Ne.symm h]
    · rw [if_neg hp, List.find?_cons, List.find?_cons, ih]

/-- The mark decides for its own name, if this is known, and for no other. -/
theorem isInstalled_mark (installed : Bool) (h : name ∈ ps.names) (other : String) :
    (ps.mark name installed).isInstalled other =
      if other = name then installed else ps.isInstalled other := by
  obtain ⟨p, hp⟩ := Option.isSome_iff_exists.mp (isSome_find?_iff.mpr h)
  by_cases hother : other = name
  · obtain rfl := hother
    rw [isInstalled, find?_mark_self, hp, if_pos rfl]
    rfl
  · rw [isInstalled, find?_mark_of_ne ps installed hother, if_neg hother, isInstalled]

/-- A change that leaves the first package of the name as it is changes nothing. -/
theorem changeFirst_eq_self {catalog : List Package} {f : Package → Package} {p : Package}
    (hp : catalog.find? (·.name = name) = some p) (hf : f p = p) :
    changeFirst name f catalog = catalog := by
  induction catalog with
  | nil => cases hp
  | cons q rest ih =>
    by_cases h : q.name = name
    · rw [List.find?_cons_of_pos (by simp [h])] at hp
      obtain rfl := Option.some.inj hp
      rw [changeFirst, if_pos h, hf]
    · rw [List.find?_cons_of_neg (by simp [h])] at hp
      rw [changeFirst, if_neg h, ih hp]

/-- A mark that is there already may as well be set. -/
theorem mark_eq_self {p : Package} {installed : Bool} (hp : ps.find? name = some p)
    (hsame : p.installed = installed) : ps.mark name installed = ps :=
  congrArg (Packages.mk · ps.lastUpdate) (changeFirst_eq_self hp (by rw [← hsame]))

/-! ## Marking in place -/

/-- Looks a package up and writes this mark into it, with the packages as they stand at every exit.
Where the mark is there already, nothing is written. -/
def markInPlace (ps : Packages) (name : String) (installed : Bool)
    (noted written : Package → String) : Except Fault String × Packages :=
  match ps.find? name with
  | none => (.error (.unknownPackage name), ps)
  | some p =>
    if p.installed = installed then (.ok (noted p), ps)
    else (.ok (written p), ps.mark name installed)

/-- Marks a package as installed while the text is put together. -/
def installInPlace (ps : Packages) (name : String) : Except Fault String × Packages :=
  ps.markInPlace name true
    (fun p => name ++ " is already the newest version (" ++ p.version ++ ").")
    (fun p => installTranscript name p.version)

def removeInPlace (ps : Packages) (name : String) : Except Fault String × Packages :=
  ps.markInPlace name false
    (fun _ => "Package '" ++ name ++ "' is not installed, so not removed")
    (fun p => removeTranscript name p.version)

/-- The answer of a change that is made as a whole or not at all, and the packages after it. -/
def settle (ps : Packages) : Except Fault (String × Packages) → Except Fault String × Packages
  | .ok (said, after) => (.ok said, after)
  | .error fault => (.error fault, ps)

/-- Nothing fails after the mark, so that installing in place is the plain call. -/
theorem installInPlace_eq (ps : Packages) (name : String) :
    ps.installInPlace name = ps.settle (ps.install name) := by
  rw [installInPlace, markInPlace, install, find]
  cases ps.find? name with
  | none => rfl
  | some p =>
    simp only [bind, Except.bind]
    split <;> rfl

theorem removeInPlace_eq (ps : Packages) (name : String) :
    ps.removeInPlace name = ps.settle (ps.remove name) := by
  rw [removeInPlace, markInPlace, remove, find]
  cases ps.find? name with
  | none => rfl
  | some p =>
    -- removing asks whether the mark is there, and not whether it is gone
    cases h : p.installed <;> simp [bind, Except.bind, settle, h, pure, Except.pure]

/-! ## Calls -/

/-- A call of an operation. -/
inductive Call where
  | install (name : String)
  | remove (name : String)
  | update (now : Timestamp)
  | upgrade
  | search (term : String)
  | list (installedOnly : Bool)
  | record (name : String)
  deriving DecidableEq, Repr

namespace Call

/-- What a call answers, and the packages after it. -/
def run (ps : Packages) : Call → Except Fault String × Packages
  | install name => ps.installInPlace name
  | remove name => ps.removeInPlace name
  | update now => (.ok (ps.update now).1, (ps.update now).2)
  | upgrade => (.ok upgradeTranscript, ps)
  | search term => (.ok (ps.search term), ps)
  | list installedOnly => (.ok (ps.list installedOnly), ps)
  | record name => (ps.recordOf name, ps)

/-- The package that a call names. -/
def subject? : Call → Option String
  | install name | remove name | record name => some name
  | update _ | upgrade | search _ | list _ => none

/-- The mark that a call decides on for a package. -/
def mark? (name : String) : Call → Option Bool
  | install other => if other = name then some true else none
  | remove other => if other = name then some false else none
  | update _ | upgrade | search _ | list _ | record _ => none

/-- The time of a refresh. -/
def time? : Call → Option Timestamp
  | update now => some now
  | install _ | remove _ | upgrade | search _ | list _ | record _ => none

end Call

/-- The packages after some calls. -/
def run (ps : Packages) (calls : List Call) : Packages :=
  calls.foldl (fun ps call => (call.run ps).2) ps

/-! ## What calls do -/

/-- What becomes of the packages when these marks and this time are decided on, if any. -/
structure Effect (ps after : Packages) (mark? : String → Option Bool) (time? : Option Timestamp) :
    Prop where
  labels : after.labels = ps.labels
  installed : ∀ name ∈ ps.names, after.isInstalled name = (mark? name).getD (ps.isInstalled name)
  lastUpdate : after.lastUpdate = time?.getD ps.lastUpdate

/-- Calls do not change which packages there are. -/
theorem Effect.names {after : Packages} {mark? : String → Option Bool} {time? : Option Timestamp}
    (h : Effect ps after mark? time?) : after.names = ps.names := by
  rw [names_eq_labels, names_eq_labels, h.labels]

/-- Nothing is decided. -/
theorem Effect.refl (ps : Packages) : Effect ps ps (fun _ => none) none :=
  ⟨rfl, fun _ _ => rfl, rfl⟩

/-- What is decided later counts. -/
theorem Effect.trans {after later : Packages} {mark? mark?' : String → Option Bool}
    {time? time?' : Option Timestamp} (h : Effect ps after mark? time?)
    (h' : Effect after later mark?' time?') :
    Effect ps later (fun name => (mark?' name).or (mark? name)) (time?'.or time?) := by
  refine ⟨h'.labels.trans h.labels, fun name hname => ?_, ?_⟩
  · rw [h'.installed name (h.names ▸ hname), h.installed name hname, Option.getD_or]
  · rw [h'.lastUpdate, h.lastUpdate, Option.getD_or]

/-- A mark that is set or taken away. -/
theorem effect_mark (hname : name ∈ ps.names) (installed : Bool) :
    Effect ps (ps.mark name installed)
      (fun other => if name = other then some installed else none) none := by
  refine ⟨labels_mark ps name installed, fun other _ => ?_, rfl⟩
  rw [isInstalled_mark installed hname]
  by_cases h : name = other
  · rw [if_pos h, if_pos h.symm, Option.getD_some]
  · rw [if_neg h, if_neg (Ne.symm h), Option.getD_none]

/-! ## Marks that calls decide on -/

variable (installed : Bool) (noted written : Package → String)

/-- An unknown name is refused before anything is marked. -/
theorem markInPlace_of_unknown (h : name ∉ ps.names) :
    ps.markInPlace name installed noted written = (.error (.unknownPackage name), ps) := by
  rw [markInPlace, find?_eq_none h]

/-- A mark that is there already is not written, and is what it would be. -/
theorem markInPlace_of_known (h : name ∈ ps.names) :
    ∃ said, ps.markInPlace name installed noted written = (.ok said, ps.mark name installed) := by
  obtain ⟨p, hp⟩ := Option.isSome_iff_exists.mp (isSome_find?_iff.mpr h)
  rw [markInPlace, hp]
  by_cases hthere : p.installed = installed
  · rw [mark_eq_self hp hthere]
    exact ⟨noted p, if_pos hthere⟩
  · exact ⟨written p, if_neg hthere⟩

/-- In place a call decides for the package that it names, and for no other. -/
theorem effect_markInPlace (ps : Packages) (name : String) :
    Effect ps (ps.markInPlace name installed noted written).2
      (fun other => if name = other then some installed else none) none := by
  by_cases hname : name ∈ ps.names
  · obtain ⟨said, hdone⟩ := markInPlace_of_known installed noted written hname
    rw [hdone]
    exact effect_mark hname installed
  · rw [markInPlace_of_unknown installed noted written hname]
    refine ⟨rfl, fun other hother => ?_, rfl⟩
    have hne : name ≠ other := by
      rintro rfl
      exact hname hother
    rw [if_neg hne, Option.getD_none]

/-- Such an operation sets the mark of every package that is known, or takes it away. -/
def Marks (operation : Packages → String → Except Fault (String × Packages)) (installed : Bool) :
    Prop :=
  ∀ ps name, name ∈ ps.names → ∃ said, operation ps name = .ok (said, ps.mark name installed)

/-- What succeeds with its packages settled has succeeded. -/
theorem eq_ok_of_settle {whole : Except Fault (String × Packages)} {said : String}
    {after : Packages} (h : ps.settle whole = (.ok said, after)) : whole = .ok (said, after) := by
  cases whole with
  | error fault => cases h
  | ok done =>
    cases h
    rfl

/-- To install is to mark as installed. -/
theorem marks_install : Marks install true := by
  intro ps name hname
  have hdone : ∃ said, ps.installInPlace name = (.ok said, ps.mark name true) :=
    markInPlace_of_known true _ _ hname
  obtain ⟨said, hsaid⟩ := hdone
  exact ⟨said, eq_ok_of_settle ((installInPlace_eq ps name).symm.trans hsaid)⟩

theorem marks_remove : Marks remove false := by
  intro ps name hname
  have hdone : ∃ said, ps.removeInPlace name = (.ok said, ps.mark name false) :=
    markInPlace_of_known false _ _ hname
  obtain ⟨said, hsaid⟩ := hdone
  exact ⟨said, eq_ok_of_settle ((removeInPlace_eq ps name).symm.trans hsaid)⟩

/-! ## Runs of calls -/

/-- **The step.** -/
theorem effect_call (ps : Packages) (call : Call) :
    Effect ps (call.run ps).2 (fun name => call.mark? name) call.time? := by
  cases call with
  | install name => exact effect_markInPlace _ _ _ ps name
  | remove name => exact effect_markInPlace _ _ _ ps name
  | update now => exact ⟨rfl, fun _ _ => rfl, rfl⟩
  | upgrade | search _ | list _ | record _ => exact .refl ps

/-- **The run.** -/
theorem effect_run (ps : Packages) (calls : List Call) :
    Effect ps (ps.run calls) (fun name => (calls.filterMap (·.mark? name)).getLast?)
      (calls.filterMap (·.time?)).getLast? := by
  -- from the last call, which decides before the others
  induction calls using List.reverseRecOn with
  | nil => exact .refl ps
  | append_singleton calls call ih =>
    have hlast : ∀ {α : Type} (f : Call → Option α),
        ((calls ++ [call]).filterMap f).getLast? = (f call).or (calls.filterMap f).getLast? := by
      intro α f
      rw [List.filterMap_append, List.getLast?_append, List.filterMap_cons]
      cases f call <;> rfl
    have hrun : ps.run (calls ++ [call]) = (call.run (ps.run calls)).2 := by
      rw [run, List.foldl_append]
      rfl
    rw [hrun, hlast]
    simp only [hlast]
    exact ih.trans (effect_call (ps.run calls) call)

/-! ## Calls that fail -/

/-- A call that names a package fails if the catalog does not have it, and changes nothing then. -/
theorem run_of_unknown {call : Call} (hsubject : call.subject? = some name)
    (hname : name ∉ ps.names) : call.run ps = (.error (.unknownPackage name), ps) := by
  cases call with
  | install other =>
    obtain rfl := Option.some.inj hsubject
    exact markInPlace_of_unknown _ _ _ hname
  | remove other =>
    obtain rfl := Option.some.inj hsubject
    exact markInPlace_of_unknown _ _ _ hname
  | record other =>
    obtain rfl := Option.some.inj hsubject
    rw [Call.run, recordOf, find, find?_eq_none hname]
    rfl
  | update _ | upgrade | search _ | list _ => cases hsubject

/-- No other call fails. -/
theorem run_of_known {call : Call} (hknown : ∀ name, call.subject? = some name → name ∈ ps.names) :
    ∃ said, (call.run ps).1 = .ok said := by
  cases call with
  | install name =>
    obtain ⟨said, hdone⟩ := markInPlace_of_known _ _ _ (hknown name rfl)
    exact ⟨said, congrArg Prod.fst hdone⟩
  | remove name =>
    obtain ⟨said, hdone⟩ := markInPlace_of_known _ _ _ (hknown name rfl)
    exact ⟨said, congrArg Prod.fst hdone⟩
  | record name =>
    obtain ⟨p, hp⟩ := Option.isSome_iff_exists.mp (isSome_find?_iff.mpr (hknown name rfl))
    exact ⟨record p, by rw [Call.run, recordOf, find, hp]; rfl⟩
  | update _ | upgrade | search _ | list _ => exact ⟨_, rfl⟩

/-! ## The number of packages that are installed -/

/-- Where the names differ, each package is the one of its name. -/
theorem find?_of_mem (hnames : ps.names.Nodup) {p : Package} (hp : p ∈ ps.catalog) :
    ps.find? p.name = some p := by
  obtain ⟨q, hq⟩ := Option.isSome_iff_exists.mp
    (isSome_find?_iff.mpr (List.mem_map_of_mem (f := Package.name) hp))
  obtain ⟨hmem, hname⟩ := find?_eq_some hq
  rw [hq, List.inj_on_of_nodup_map hnames hmem hp hname]

theorem isInstalled_iff_mem (hnames : ps.names.Nodup) :
    ps.isInstalled name = true ↔ name ∈ (ps.catalog.filter (·.installed)).map (·.name) := by
  rw [isInstalled, Option.any_eq_true, List.mem_map]
  constructor
  · rintro ⟨p, hp, hinstalled⟩
    obtain ⟨hmem, hname⟩ := find?_eq_some hp
    exact ⟨p, List.mem_filter.mpr ⟨hmem, hinstalled⟩, hname⟩
  · rintro ⟨p, hp, rfl⟩
    obtain ⟨hmem, hinstalled⟩ := List.mem_filter.mp hp
    exact ⟨p, find?_of_mem hnames hmem, hinstalled⟩

/-- Where names differ, the installed packages are as many as the installed names. -/
theorem installedCount_eq_ncard (hnames : ps.names.Nodup) :
    ps.installedCount = { name | ps.isInstalled name = true }.ncard := by
  have hset : { name | ps.isInstalled name = true } =
      ((ps.catalog.filter (·.installed)).map (·.name)).toFinset := by
    ext name
    rw [Set.mem_ofPred_eq, isInstalled_iff_mem hnames, List.coe_toFinset, Set.mem_ofPred_eq]
  have hdistinct : ((ps.catalog.filter (·.installed)).map (·.name)).Nodup :=
    hnames.sublist (List.filter_sublist.map _)
  rw [hset, Set.ncard_coe_finset, List.toFinset_card_of_nodup hdistinct, List.length_map,
    installedCount, List.countP_eq_length_filter]

/-! ## Runs -/

/-- What is true of the packages after some calls. -/
structure Kept (ps : Packages) (calls : List Call) (after : Packages) : Prop where
  /-- The order, the names, the versions and the descriptions are those of the catalog. -/
  labels : after.labels = ps.labels
  /-- The last call that installed or removed a package decides, or else its first mark. -/
  installed : ∀ name ∈ ps.names, after.isInstalled name =
    ((calls.filterMap (·.mark? name)).getLast?).getD (ps.isInstalled name)
  /-- A call that names an unknown package fails and changes nothing. -/
  unknown : ∀ call name, Call.subject? call = some name → name ∉ ps.names →
    call.run after = (.error (.unknownPackage name), after)
  /-- All other calls succeed. -/
  known : ∀ call, (∀ name, Call.subject? call = some name → name ∈ ps.names) →
    ∃ said, (call.run after).1 = .ok said
  lastUpdate : after.lastUpdate = ((calls.filterMap (·.time?)).getLast?).getD ps.lastUpdate
  installedCount : after.installedCount = { name | after.isInstalled name = true }.ncard

/-- On a catalog with different names, this is so after all calls. -/
theorem run_kept (hnames : ps.names.Nodup) (calls : List Call) : Kept ps calls (ps.run calls) := by
  have heffect := effect_run ps calls
  have hsame : (ps.run calls).names = ps.names := heffect.names
  exact {
    labels := heffect.labels
    installed := heffect.installed
    unknown := fun call name hsubject hname => run_of_unknown hsubject (hsame ▸ hname)
    known := fun call hknown => run_of_known (hsame ▸ hknown)
    lastUpdate := heffect.lastUpdate
    installedCount := installedCount_eq_ncard (hsame ▸ hnames) }

/-- Packages are installed and removed several times, some of them unknown. -/
def sampleCalls : List Call :=
  [.install "zip", .remove "git", .install "nosuch", .update (.ofDate 2024 6 1), .install "git",
    .search "EDITOR", .remove "zip", .remove "zip", .list true, .record "git", .remove "nano",
    .upgrade]

/-- The stock packages, after calls of every kind. -/
theorem sample_run_kept : stock.names.Nodup ∧ Kept stock sampleCalls (stock.run sampleCalls) :=
  have hnames : stock.names.Nodup := by decide
  ⟨hnames, run_kept hnames sampleCalls⟩

end Userland.Packages

/-
  The one spelling of a place.

  `Path.steps` reads any text as steps from the root, and every step is a name that a directory can
  hold (`canonical_steps`).  `Path.render` writes such steps as a text that is read back as the same
  steps (`steps_render`), so that `normalize` is idempotent and two texts have one spelling exactly
  when they stand for the same steps.

  The crux is what cutting at slashes does to a rendered text (`parts_render`): an empty part, and
  then the steps.  On rendered texts the functions that only look at the slashes are functions of
  the steps: `parent` drops the last one, `fileName` is the last one, `components` are all of them
  and `isWithin` says that one list of steps begins with the other.
-/
import Userland.Path
import Userland.Proofs.Text

namespace Userland

namespace Path

open Text

/-! ## Steps are names -/

/-- Each step is the name of an entry. -/
def Canonical (steps : List String) : Prop := ∀ name ∈ steps, IsName name

theorem canonical_nil : Canonical [] := fun _ h => absurd h List.not_mem_nil

/-- A place can be spelled when the way to it and the rest of the way can. -/
theorem canonical_append {a b : List String} :
    Canonical (a ++ b) ↔ Canonical a ∧ Canonical b := by
  simp only [Canonical, List.mem_append, or_imp, forall_and]

theorem Canonical.dropLast {steps : List String} (h : Canonical steps) :
    Canonical steps.dropLast :=
  fun name hname => h name (List.dropLast_subset steps hname)

/-- An entry of a place that can be spelled can be spelled. -/
theorem Canonical.concat {steps : List String} {name : String} (h : Canonical steps)
    (hname : IsName name) : Canonical (steps ++ [name]) :=
  canonical_append.mpr ⟨h, fun n hn => by rw [List.mem_singleton.mp hn]; exact hname⟩

/-- A name leads one step on. -/
theorem walk_of_isName {done : List String} {name : String} (h : IsName name) :
    walk done name = done ++ [name] := by
  obtain ⟨hempty, hdot, hdots, -⟩ := h
  rw [walk, if_neg (by simp [hempty, hdot]), if_neg hdots]

/-- A part without a slash keeps the steps canonical, whatever it is. -/
theorem canonical_walk {done : List String} {part : String} (hd : Canonical done)
    (hpart : '/' ∉ part.toList) : Canonical (walk done part) := by
  unfold walk
  split
  · exact hd
  · next hplain =>
    split
    · exact hd.dropLast
    · next hdots =>
      rw [not_or] at hplain
      exact hd.concat ⟨hplain.1, hplain.2, hdots, hpart⟩

/-- Parts without slashes lead from a place that can be spelled to another. -/
theorem canonical_foldl_walk {parts : List String} (hparts : ∀ part ∈ parts, '/' ∉ part.toList)
    {done : List String} (hd : Canonical done) : Canonical (parts.foldl walk done) := by
  induction parts generalizing done with
  | nil => exact hd
  | cons part parts ih =>
    have hpart := hparts part List.mem_cons_self
    exact ih (fun p hp => hparts p (List.mem_cons_of_mem part hp)) (canonical_walk hd hpart)

/-- Every path text is read as names. -/
theorem canonical_steps (cwd input : String) : Canonical (steps cwd input) := by
  refine canonical_foldl_walk (fun part hpart => ?_) canonical_nil
  rcases List.mem_append.mp hpart with h | h
  · split at h
    · exact absurd h List.not_mem_nil
    · exact not_mem_of_mem_parts h
  · exact not_mem_of_mem_parts h

/-- Parts that are names are all taken as steps. -/
theorem foldl_walk_canonical {names : List String} (h : Canonical names) (done : List String) :
    names.foldl walk done = done ++ names := by
  induction names generalizing done with
  | nil => rw [List.foldl_nil, List.append_nil]
  | cons name names ih =>
    have hname := h name List.mem_cons_self
    have hnames : Canonical names := fun n hn => h n (List.mem_cons_of_mem name hn)
    rw [List.foldl_cons, walk_of_isName hname, ih hnames, List.append_assoc,
      List.singleton_append]

/-! ## Rendered steps -/

theorem toList_slash : "/".toList = ['/'] := rfl

theorem render_nil : render [] = "/" := rfl

/-- Anything else is spelled part by part. -/
theorem render_append {a b : List String} (ha : a ≠ []) (hb : b ≠ []) :
    render (a ++ b) = render a ++ render b := by
  rw [render, render, render, String.intercalate_append_of_ne_nil ha hb]
  simp only [String.append_assoc]

theorem render_singleton (name : String) : render [name] = "/" ++ name := by
  rw [render, String.intercalate_singleton]

/-- Every spelling is told from the root on. -/
theorem startsWith_render (names : List String) : startsWith '/' (render names) = true := by
  rw [startsWith, render, String.toList_append, toList_slash]
  rfl

/-- Names with slashes between them are cut into the names. -/
theorem parts_intercalate {names : List String} (h : Canonical names) (hne : names ≠ []) :
    parts '/' ("/".intercalate names) = names := by
  have hslash : ∀ l ∈ names.map String.toList, '/' ∉ l := by
    intro l hl
    obtain ⟨name, hname, rfl⟩ := List.mem_map.mp hl
    exact (h name hname).2.2.2
  rw [parts, String.toList_intercalate, toList_slash,
    List.splitOn_intercalate '/' hslash (by simpa using hne), List.map_map,
    String.ofList_comp_toList, List.map_id]

/-- The parts between the slashes of a rendered text: nothing before the first slash, and then the
steps. -/
theorem parts_render {names : List String} (h : Canonical names) (hne : names ≠ []) :
    parts '/' (render names) = "" :: names := by
  have happend := parts_append toList_slash "" ("/".intercalate names)
  rw [String.empty_append, parts_intercalate h hne] at happend
  exact happend

theorem parts_root : parts '/' "/" = ["", ""] := by decide

/-- An absolute path does not depend on the directory it is read in. -/
theorem steps_of_startsWith {cwd input : String} (h : startsWith '/' input = true) :
    steps cwd input = (parts '/' input).foldl walk [] := by
  rw [steps, if_pos h, List.nil_append]

/-- Rendered steps are read as themselves. -/
theorem steps_render (cwd : String) {names : List String} (h : Canonical names) :
    steps cwd (render names) = names := by
  rw [steps_of_startsWith (startsWith_render names)]
  by_cases hne : names = []
  · rw [hne]
    decide
  · rw [parts_render h hne, List.foldl_cons]
    exact foldl_walk_canonical h []

/-- A normalized path leads to the same place from everywhere. -/
theorem steps_normalize (cwd cwd' input : String) :
    steps cwd (normalize cwd' input) = steps cwd' input :=
  steps_render cwd (canonical_steps cwd' input)

/-- A text in the one spelling is spelled so from everywhere. -/
theorem normalize_normalize (cwd cwd' input : String) :
    normalize cwd (normalize cwd' input) = normalize cwd' input := by
  rw [normalize, steps_normalize]
  rfl

/-- Different steps have different texts. -/
theorem render_inj {a b : List String} (ha : Canonical a) (hb : Canonical b) :
    render a = render b ↔ a = b := by
  refine ⟨fun h => ?_, fun h => by rw [h]⟩
  rw [← steps_render "/" ha, h, steps_render "/" hb]

/-- No other place is spelled as the root is. -/
theorem render_eq_root_iff {names : List String} (h : Canonical names) :
    render names = "/" ↔ names = [] := by
  rw [← render_nil, render_inj h canonical_nil]

/-! ## One step more -/

/-- A relative path is walked from where the directory leads. -/
theorem steps_of_relative (cwd : String) {input : String} (h : startsWith '/' input = false) :
    steps cwd input = (parts '/' input).foldl walk (steps "/" cwd) := by
  have hcwd : steps "/" cwd = (parts '/' cwd).foldl walk [] := by
    rw [steps]
    split
    · rw [List.nil_append]
    · rw [parts_root, List.foldl_append]
      rfl
  rw [hcwd, steps, if_neg (by simp [h]), List.foldl_append]

/-- A relative path is walked from the steps of a rendered directory. -/
theorem steps_render_of_relative {dir : List String} (hd : Canonical dir) {input : String}
    (h : startsWith '/' input = false) :
    steps (render dir) input = (parts '/' input).foldl walk dir := by
  rw [steps_of_relative (render dir) h, steps_render "/" hd]

theorem startsWith_of_not_mem {c : Char} {s : String} (h : c ∉ s.toList) :
    startsWith c s = false :=
  decide_eq_false fun hhead => h (List.mem_of_mem_head? hhead)

/-- A name is relative to where one is. -/
theorem startsWith_of_isName {name : String} (h : IsName name) :
    startsWith '/' name = false := startsWith_of_not_mem h.2.2.2

/-- A text without slashes is one part, and is walked as one. -/
theorem steps_part (cwd : String) {part : String} (h : '/' ∉ part.toList) :
    steps cwd part = walk (steps "/" cwd) part := by
  rw [steps_of_relative cwd (startsWith_of_not_mem h), parts_eq_singleton h, List.foldl_cons,
    List.foldl_nil]

/-- The name of an entry, read in a directory, is one step more. -/
theorem steps_name {dir : List String} (hd : Canonical dir) {name : String} (h : IsName name) :
    steps (render dir) name = dir ++ [name] := by
  rw [steps_render_of_relative hd (startsWith_of_isName h), parts_eq_singleton h.2.2.2,
    List.foldl_cons, List.foldl_nil, walk_of_isName h]

/-- From a directory a name leads to the entry of that name. -/
theorem normalize_name {dir : List String} (hd : Canonical dir) {name : String}
    (h : IsName name) : normalize (render dir) name = render (dir ++ [name]) := by
  rw [normalize, steps_name hd h]

/-- The empty text is the directory it is read in. -/
theorem normalize_empty {dir : List String} (hd : Canonical dir) :
    normalize (render dir) "" = render dir := by
  rw [normalize, steps_render_of_relative hd (by decide), parts_eq_singleton (by decide)]
  rfl

/-! ## One path after another -/

/-- The beginning of a text that is not empty is the beginning of what it begins. -/
theorem startsWith_append {c : Char} {s : String} (hs : s ≠ "") (t : String) :
    startsWith c (s ++ t) = startsWith c s := by
  obtain ⟨d, rest, hd⟩ := List.exists_cons_of_ne_nil fun h => hs (String.toList_eq_nil_iff.mp h)
  rw [startsWith, startsWith, String.toList_append, hd]
  rfl

/-- A slash at the end makes an empty part. -/
theorem parts_append_slash (a : String) : parts '/' (a ++ "/") = parts '/' a ++ [""] := by
  have hempty := parts_append toList_slash a ""
  rwa [String.append_empty, parts_eq_singleton (c := '/') (s := "") (by decide)] at hempty

/-- What stands after a slash is walked from where the text up to the slash leads. -/
theorem steps_slash_append (cwd a b : String) :
    steps cwd (a ++ "/" ++ b) = (parts '/' b).foldl walk (steps cwd (a ++ "/")) := by
  have hsome : a ++ "/" ≠ "" := by simp
  rw [steps, steps, startsWith_append hsome, parts_append toList_slash, parts_append_slash]
  simp only [List.foldl_append, List.foldl_cons, List.foldl_nil]
  rfl

/-- A slash at the end of a text makes no difference. -/
theorem steps_append_slash (cwd : String) {a : String} (ha : a ≠ "") :
    steps cwd (a ++ "/") = steps cwd a := by
  rw [steps, steps, startsWith_append ha, parts_append_slash]
  simp only [List.foldl_append, List.foldl_cons, List.foldl_nil]
  rfl

/-! ## Looking at a rendered text -/

theorem startsWith_intercalate {r : List String} (h : Canonical r) :
    startsWith '/' ("/".intercalate r) = false := by
  cases r with
  | nil => decide
  | cons name rest =>
    have hname := h name List.mem_cons_self
    by_cases hrest : rest = []
    · rw [hrest, String.intercalate_singleton]
      exact startsWith_of_isName hname
    · rw [String.intercalate_cons_of_ne_nil hrest, String.append_assoc, startsWith_append hname.1]
      exact startsWith_of_isName hname

theorem intercalate_eq_empty_iff {r : List String} (h : Canonical r) :
    "/".intercalate r = "" ↔ r = [] := by
  refine ⟨fun hempty => ?_, fun hr => by rw [hr, String.intercalate_nil]⟩
  by_contra hne
  have hparts := parts_intercalate h hne
  rw [hempty, parts_eq_singleton (by decide)] at hparts
  exact (h "" (by rw [← hparts]; exact List.mem_singleton_self _)).1 rfl

/-- The components of the one spelling are the steps. -/
theorem components_render {names : List String} (h : Canonical names) :
    components (render names) = names := by
  by_cases hne : names = []
  · rw [hne]
    decide
  · have hkeep : names.filter (· ≠ "") = names :=
      List.filter_eq_self.mpr fun name hname => decide_eq_true (h name hname).1
    rw [components, parts_render h hne, List.filter_cons_of_neg (by simp), hkeep]

/-- The characters of a rendered text, up to its last step. -/
theorem toList_render_concat (dir : List String) (name : String) :
    (render (dir ++ [name])).toList =
      (if dir = [] then [] else (render dir).toList) ++ '/' :: name.toList := by
  by_cases hdir : dir = []
  · rw [hdir, if_pos rfl, List.nil_append, List.nil_append, render_singleton,
      String.toList_append]
    rfl
  · rw [if_neg hdir, render_append hdir (List.cons_ne_nil name []), render_singleton,
      String.toList_append, String.toList_append]
    rfl

/-- The last component of the one spelling is the file name. -/
theorem fileName_render_concat (dir : List String) {name : String} (h : IsName name) :
    fileName (render (dir ++ [name])) = name := by
  have hname : ∀ c ∈ name.toList.reverse, decide (c ≠ '/') = true := by
    intro c hc
    have hc' := List.mem_reverse.mp hc
    exact decide_eq_true fun he => h.2.2.2 (he ▸ hc')
  rw [fileName, toList_render_concat, List.reverse_append, List.reverse_cons,
    List.append_assoc, List.takeWhile_append_of_pos hname, List.singleton_append,
    List.takeWhile_cons_of_neg (by simp), List.append_nil, List.reverse_reverse,
    String.ofList_toList]

/-- The last part of a rendered text is the last step, and nothing for the root. -/
theorem fileName_render {names : List String} (h : Canonical names) :
    fileName (render names) = names.getLast?.getD "" := by
  rcases List.eq_nil_or_concat' names with rfl | ⟨dir, name, rfl⟩
  · decide
  · rw [fileName_render_concat dir (h name (by simp))]
    simp

/-- The text before the last slash renders the steps but the last. -/
theorem parent_render {names : List String} (h : Canonical names) :
    parent (render names) = render names.dropLast := by
  rcases List.eq_nil_or_concat' names with rfl | ⟨dir, name, rfl⟩
  · decide
  · -- the last name has no slash, so that from the back the first one is the one before it
    have hname : ∀ c ∈ name.toList.reverse, decide (c ≠ '/') = true := by
      intro c hc
      have hc' := List.mem_reverse.mp hc
      exact decide_eq_true fun he => (h name (by simp)).2.2.2 (he ▸ hc')
    rw [parent, toList_render_concat, List.reverse_append, List.reverse_cons, List.append_assoc,
      List.dropWhile_append_of_pos hname, List.singleton_append,
      List.dropWhile_cons_of_neg (by simp), List.dropLast_concat]
    by_cases hdir : dir = []
    · rw [hdir]
      rfl
    · rw [if_neg hdir]
      have hback : (render dir).toList.reverse ≠ [] := by
        rw [render, String.toList_append, toList_slash]
        simp
      obtain ⟨c, cs, hcs⟩ := List.exists_cons_of_ne_nil hback
      rw [hcs]
      show String.ofList (c :: cs).reverse = render dir
      rw [← hcs, List.reverse_reverse, String.ofList_toList]

/-- What follows a beginning makes the text with it. -/
theorem after?_eq_some_iff {beginning s rest : String} :
    after? beginning s = some rest ↔ s = beginning ++ rest := by
  rw [after?, Option.map_eq_some_iff]
  constructor
  · rintro ⟨cs, hcs, rfl⟩
    rw [List.isPrefixOf?_eq_some_iff_append_eq] at hcs
    rw [← String.toList_inj, ← hcs, String.toList_append, String.toList_ofList]
  · rintro rfl
    refine ⟨rest.toList, ?_, String.ofList_toList⟩
    rw [List.isPrefixOf?_eq_some_iff_append_eq, String.toList_append]

theorem startsWith_slash_iff {s : String} :
    startsWith '/' s = true ↔ ∃ rest, s = "/" ++ rest := by
  rw [startsWith, decide_eq_true_eq]
  constructor
  · intro h
    obtain ⟨cs, hcs⟩ := List.head?_eq_some_iff.mp h
    refine ⟨String.ofList cs, ?_⟩
    rw [← String.toList_inj, hcs, String.toList_append, toList_slash, String.toList_ofList,
      List.singleton_append]
  · rintro ⟨rest, rfl⟩
    rw [String.toList_append, toList_slash]
    rfl

theorem endsWith_slash_iff {s : String} : endsWith '/' s = true ↔ ∃ rest, s = rest ++ "/" := by
  rw [endsWith, decide_eq_true_eq]
  constructor
  · intro h
    obtain ⟨cs, hcs⟩ := List.getLast?_eq_some_iff.mp h
    refine ⟨String.ofList cs, ?_⟩
    rw [← String.toList_inj, hcs, String.toList_append, toList_slash, String.toList_ofList]
  · rintro ⟨rest, rfl⟩
    rw [String.toList_append, toList_slash, List.getLast?_append, List.getLast?_singleton]
    rfl

/-- A rendered text that is another one and something after a slash has more steps. -/
theorem prefix_of_render_eq {path ancestor : List String} (hp : Canonical path)
    (ha : Canonical ancestor) {rest : String} (h : render path = render ancestor ++ "/" ++ rest) :
    ancestor <+: path := by
  by_cases hne : ancestor = []
  · rw [hne]
    exact List.nil_prefix
  · -- cut at the slashes, the text begins with the steps of `ancestor`
    have hparts := congrArg (parts '/') h
    rw [parts_append toList_slash, parts_render ha hne] at hparts
    by_cases hpath : path = []
    · -- the root has two parts only, which leaves no room for a step of `ancestor`
      have hlen := congrArg List.length hparts
      have hrest : 0 < (parts '/' rest).length := by
        rw [parts, List.length_map]
        exact List.length_pos_of_ne_nil (List.splitOn_ne_nil _ _)
      have hanc := List.length_pos_of_ne_nil hne
      rw [hpath, render_nil, parts_root] at hlen
      simp only [List.length_cons, List.length_append, List.length_nil] at hlen
      omega
    · rw [parts_render hp hpath, List.cons_append, List.cons.injEq] at hparts
      exact ⟨parts '/' rest, hparts.2.symm⟩

/-- On rendered texts, to be within is to begin with the same steps. -/
theorem isWithin_render {path ancestor : List String} (hp : Canonical path)
    (ha : Canonical ancestor) :
    isWithin (render path) (render ancestor) = true ↔ ancestor <+: path := by
  rw [isWithin, Bool.or_eq_true, Bool.or_eq_true, decide_eq_true_eq, decide_eq_true_eq,
    render_eq_root_iff ha, render_inj hp ha, Option.any_eq_true]
  constructor
  · rintro ((rfl | rfl) | ⟨rest, hrest, hslash⟩)
    · exact List.nil_prefix
    · exact List.prefix_rfl
    · obtain ⟨tail, rfl⟩ := startsWith_slash_iff.mp hslash
      rw [after?_eq_some_iff, ← String.append_assoc] at hrest
      exact prefix_of_render_eq hp ha hrest
  · rintro ⟨rest, rfl⟩
    by_cases hne : ancestor = []
    · exact .inl (.inl hne)
    · by_cases hrest : rest = []
      · exact .inl (.inr (by rw [hrest, List.append_nil]))
      · exact .inr ⟨render rest, after?_eq_some_iff.mpr (render_append hne hrest),
          startsWith_render rest⟩

/-- The places of two texts, one within the other: one spelling is within the other. -/
theorem isWithin_normalize {cwd cwd' path ancestor : String} :
    isWithin (normalize cwd path) (normalize cwd' ancestor) = true ↔
      steps cwd' ancestor <+: steps cwd path :=
  isWithin_render (canonical_steps cwd path) (canonical_steps cwd' ancestor)

end Path

end Userland

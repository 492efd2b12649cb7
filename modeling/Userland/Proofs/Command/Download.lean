/-
  Where a download is saved when nobody names the file.

  1. *Program.*  `wget`, and `curl` with `-O`, save a download under the last part of the address.
     That part is then read as any operand is: a tilde is the home directory, and dots lead to the
     working directory and to the one above it.

  2. *Specification.*  Whatever the arguments, at most one place is written, and nothing else is
     different.  The place is an entry of the working directory unless the download strays
     (`Strays`): the address ends in a tilde, and the home directory is no entry of the working
     directory, or it ends in dots, and the working directory has been removed.

  3. *The crux.*  The last part is never empty and has no slash in it (`remoteName_ne_empty`,
     `slash_notMem_remoteName`), so that reading it is one step of the walk from the working
     directory (`place_resolve_part`).  Dots are harmless while that is a directory, because both of
     them lead to directories, and these are not written over.
-/
import Userland.Proofs.Session
import Userland.Proofs.Tree.Write

namespace Userland

open Text

/-! ## Places in a directory -/

/-- The path leads to an entry of the directory. -/
def Tree.IsEntry (dir path : String) : Prop :=
  ∃ name, Path.IsName name ∧ place path = place dir ++ [name]

/-- A part without slashes is one step from the working directory. -/
theorem Session.place_resolve_part (s : Session) {part : String} (hslash : '/' ∉ part.toList)
    (hne : part ≠ "~") : Tree.place (s.resolve part) = Path.walk (Tree.place s.path) part := by
  rw [s.resolve_part hslash hne,
    Tree.place_render (Path.canonical_walk (Path.canonical_steps "/" s.path) hslash)]
  rfl

namespace Command

/-! ## The name of a download -/

theorem slash_notMem_fileName (path : String) : '/' ∉ (Path.fileName path).toList := by
  rw [Path.fileName, String.toList_ofList, List.mem_reverse]
  intro hmem
  have hne := List.mem_takeWhile_imp hmem
  simp at hne

/-- The file name is not empty, unless the path is or ends in a slash. -/
theorem fileName_ne_empty {path : String} (hne : path ≠ "") (hend : endsWith '/' path = false) :
    Path.fileName path ≠ "" := by
  obtain ⟨before, c, hchars⟩ :=
    (List.eq_nil_or_concat' path.toList).resolve_left fun h => hne (String.toList_eq_nil_iff.mp h)
  have hc : c ≠ '/' := by
    rintro rfl
    rw [endsWith, hchars, List.getLast?_concat] at hend
    cases hend
  rw [Path.fileName, hchars, List.reverse_concat, List.takeWhile_cons_of_pos (by simpa using hc)]
  simp

/-- The remote name is the default, or the file name of a path that has one. -/
theorem remoteName_cases (url : String) :
    remoteName url = "index.html" ∨
      ∃ path, path ≠ "" ∧ endsWith '/' path = false ∧ remoteName url = Path.fileName path := by
  rw [remoteName]
  split
  · next path _ =>
    split
    · exact .inl rfl
    · next hpath =>
      obtain ⟨hne, hend⟩ := not_or.mp hpath
      exact .inr ⟨path, hne, Bool.not_eq_true _ ▸ hend, rfl⟩
  · exact .inl rfl

theorem slash_notMem_remoteName (url : String) : '/' ∉ (remoteName url).toList := by
  rcases remoteName_cases url with h | ⟨path, -, -, h⟩
  · rw [h]
    decide
  · rw [h]
    exact slash_notMem_fileName path

theorem remoteName_ne_empty (url : String) : remoteName url ≠ "" := by
  rcases remoteName_cases url with h | ⟨path, hne, hend, h⟩
  · rw [h]
    decide
  · rw [h]
    exact fileName_ne_empty hne hend

/-! ## Where it leads -/

/-- The name leads out of the working directory: it is a tilde, and the home directory is elsewhere,
or it is dots, and the working directory has been removed. -/
def Strays (s : Scene) (name : String) : Prop :=
  (name = "~" ∧ ¬ Tree.IsEntry s.session.path (s.resolve "~")) ∨
    ((name = "." ∨ name = "..") ∧ s.tree.isDirectory s.session.path = false)

variable {s : Scene} {name : String}

/-- Any name without slashes leads to an entry of the working directory, unless it is reserved or
the tilde. -/
theorem isEntry_resolve (hslash : '/' ∉ name.toList) (hempty : name ≠ "") (htilde : name ≠ "~")
    (hdot : name ≠ ".") (hdots : name ≠ "..") :
    Tree.IsEntry s.session.path (s.resolve name) := by
  have hname : Path.IsName name := ⟨hempty, hdot, hdots, hslash⟩
  refine ⟨name, hname, ?_⟩
  rw [Scene.resolve, s.session.place_resolve_part hslash htilde, Path.walk_of_isName hname]

/-- Dots lead to the working directory or to the one above it. -/
theorem place_resolve_dots (h : name = "." ∨ name = "..") :
    Tree.place (s.resolve name) = Tree.place s.session.path ∨
      Tree.place (s.resolve name) = (Tree.place s.session.path).dropLast := by
  rcases h with rfl | rfl
  · rw [Scene.resolve, s.session.place_resolve_part (by decide) (by decide)]
    exact .inl rfl
  · rw [Scene.resolve, s.session.place_resolve_part (by decide) (by decide)]
    exact .inr rfl

/-- The reserved names lead to the directory itself and to the one above. -/
theorem not_isEntry_dots (h : name = "." ∨ name = "..") :
    ¬ Tree.IsEntry s.session.path (s.resolve name) := by
  rintro ⟨entry, -, hplace⟩
  have hlength := congrArg List.length hplace
  rw [List.length_append, List.length_singleton] at hlength
  rcases place_resolve_dots (s := s) h with hdots | hdots
  · rw [hdots] at hlength
    omega
  · rw [hdots, List.length_dropLast] at hlength
    omega

/-- While the working directory is there, dots lead to a directory. -/
theorem isDirectory_resolve_dots (h : name = "." ∨ name = "..")
    (hcwd : s.tree.isDirectory s.session.path = true) :
    s.tree.isDirectory (s.resolve name) = true := by
  rw [Tree.isDirectory] at hcwd ⊢
  rcases place_resolve_dots (s := s) h with hdots | hdots
  · rw [hdots]
    exact hcwd
  · rw [hdots]
    by_cases hroot : Tree.place s.session.path = []
    · rw [hroot] at hcwd ⊢
      exact hcwd
    · exact Tree.isDirectoryAt_dropLast hroot hcwd

/-- A name that is not that of a directory leads to an entry of the working directory exactly if it
does not stray. -/
theorem isEntry_resolve_iff (hslash : '/' ∉ name.toList) (hempty : name ≠ "")
    (hfile : s.tree.isDirectory (s.resolve name) = false) :
    Tree.IsEntry s.session.path (s.resolve name) ↔ ¬ Strays s name := by
  by_cases hdots : name = "." ∨ name = ".."
  · refine iff_of_false (not_isEntry_dots hdots) (not_not_intro (.inr ⟨hdots, ?_⟩))
    by_contra hcwd
    rw [isDirectory_resolve_dots hdots (by simpa using hcwd)] at hfile
    cases hfile
  · by_cases htilde : name = "~"
    · obtain rfl := htilde
      simp [Strays]
    · have hentry : Tree.IsEntry s.session.path (s.resolve name) :=
        isEntry_resolve hslash hempty htilde (not_or.mp hdots).1 (not_or.mp hdots).2
      refine iff_of_true hentry ?_
      rintro (⟨h, -⟩ | ⟨h, -⟩)
      · exact htilde h
      · exact hdots h

/-! ## The download -/

/-- The command chooses the name of the file itself. -/
def SavesRemoteName (command : String) (arguments : List String) : Prop :=
  command = "wget" ∨ command = "curl" ∧ "-O" ∈ arguments ∧ "-o" ∉ arguments

instance (command : String) (arguments : List String) :
    Decidable (SavesRemoteName command arguments) := inferInstanceAs (Decidable (_ ∨ _))

/-- What a download from an address is saved with. -/
def page (url : String) : String := "<!-- " ++ url ++ " (simulated download) -->"

/-- A download that saves under the remote name writes one file, if it succeeds. -/
theorem download_ok {command : String} {target? : List String → String → Option String}
    {arguments : List String} (htarget : ∀ url, target? arguments url = some (remoteName url))
    {output : Output} {t : Tree} (h : download command target? s arguments = .ok (output, t)) :
    ∃ url now, lastAddress? none arguments = some url ∧ s.clock.now = .ok now ∧
      s.tree.write (s.resolve (remoteName url)) (page url) s.session.user now = .ok t := by
  rw [download] at h
  split at h
  · cases h
  · next url hurl =>
    simp only [htarget] at h
    split at h
    · cases h
    · obtain ⟨now, hnow, hwritten⟩ := bind_eq_ok_iff.mp h
      obtain ⟨tree, hwrite, hdone⟩ := bind_eq_ok_iff.mp hwritten
      cases hdone
      exact ⟨url, now, hurl, hnow, hwrite⟩

/-- A download under the remote name writes one page there, or leaves the tree as it is. -/
theorem run_download {command : String} {target? : List String → String → Option String}
    {arguments : List String} (htarget : ∀ url, target? arguments url = some (remoteName url)) :
    ((Action.files (download command target?)).run s arguments).2.tree = s.tree ∨
      ∃ url now, lastAddress? none arguments = some url ∧ s.clock.now = .ok now ∧
        s.tree.write (s.resolve (remoteName url)) (page url) s.session.user now =
          .ok ((Action.files (download command target?)).run s arguments).2.tree := by
  rw [Action.run]
  cases hrun : download command target? s arguments with
  | error fault => exact .inl rfl
  | ok result => exact .inr (download_ok htarget hrun)

/-- `curl` saves under the remote name when it is asked to and given no other. -/
theorem curlTarget?_remoteName {arguments : List String} (hsave : "-O" ∈ arguments)
    (hnone : "-o" ∉ arguments) (url : String) :
    curlTarget? arguments url = some (remoteName url) := by
  have hcontains : arguments.contains "-o" = false := by simpa using hnone
  rw [curlTarget?, hcontains, List.contains_iff_mem.mpr hsave]
  rfl

end Command

namespace CommandTable

open Command

/-- Whatever the arguments, a download that chooses the name of its file leaves the tree as it is,
or writes one file, and every other path leads to what it led to.  The file is in the working
directory exactly if its name does not stray. -/
theorem dispatch_download {command : String} {arguments : List String}
    (hsaves : SavesRemoteName command arguments) (s : Scene) :
    let t := (stock.dispatch (command :: arguments) s).2.tree
    t = s.tree ∨
      ∃ url now, lastAddress? none arguments = some url ∧ s.clock.now = .ok now ∧
        s.tree.Written (s.resolve (remoteName url)) (page url) now t ∧
        (Tree.IsEntry s.session.path (s.resolve (remoteName url)) ↔
          ¬ Strays s (remoteName url)) := by
  have hrun : (stock.dispatch (command :: arguments) s).2.tree = s.tree ∨
      ∃ url now, lastAddress? none arguments = some url ∧ s.clock.now = .ok now ∧
        s.tree.write (s.resolve (remoteName url)) (page url) s.session.user now =
          .ok (stock.dispatch (command :: arguments) s).2.tree := by
    rcases hsaves with rfl | ⟨rfl, hsave, hnone⟩
    · rw [dispatch, if_neg (by decide)]
      exact run_download fun url => rfl
    · rw [dispatch, if_neg (by decide)]
      exact run_download (curlTarget?_remoteName hsave hnone)
  -- the name leads to an entry or is one of those that stray
  refine hrun.imp_right ?_
  rintro ⟨url, now, hurl, hnow, hwrite⟩
  refine ⟨url, now, hurl, hnow, Tree.written_of_write hwrite, ?_⟩
  exact isEntry_resolve_iff (slash_notMem_remoteName url) (remoteName_ne_empty url)
    (Tree.isDirectory_of_write hwrite)

/-- A session at work in `/src`, whose home directory is a place with nothing in it. -/
def downloadScene : Scene :=
  { sampleScene with
    session := ({ sampleScene.session with path := "/src" } : Session).setVariable "HOME" "/dst/p" }

/-- An address with dots, a query and a fragment. -/
theorem sample_dispatch_download :
    SavesRemoteName "curl" ["-O", "-s", "http://h/a/../big?x/y#z"] ∧
      ∃ url now, lastAddress? none ["-O", "-s", "http://h/a/../big?x/y#z"] = some url ∧
        downloadScene.clock.now = .ok now ∧
        downloadScene.tree.Written (downloadScene.resolve (remoteName url)) (page url) now
          (stock.dispatch ["curl", "-O", "-s", "http://h/a/../big?x/y#z"] downloadScene).2.tree ∧
        (Tree.IsEntry downloadScene.session.path (downloadScene.resolve (remoteName url)) ↔
          ¬ Strays downloadScene (remoteName url)) := by
  have hsaves : SavesRemoteName "curl" ["-O", "-s", "http://h/a/../big?x/y#z"] := by decide
  refine ⟨hsaves, (dispatch_download hsaves downloadScene).resolve_left fun hsame => ?_⟩
  -- the file `/src/big` has been filled
  have hread := congrArg (fun t => (t.read "/src/big").toOption) hsame
  have hchanged : ((stock.dispatch ["curl", "-O", "-s", "http://h/a/../big?x/y#z"]
      downloadScene).2.tree.read "/src/big").toOption ≠
        (downloadScene.tree.read "/src/big").toOption := by
    decide +kernel
  exact hchanged hread

/-- An address that ends in a tilde chooses a file outside the working directory. -/
theorem download_leaves_directory :
    (Machine.boot Machine.sampleConfig (.showing Tree.noon 60)).toOption.map (fun m =>
      let (m, s) := m.run m.newSession [.line "export HOME=/tmp/notes"]
      let (_, after, _) := m.execute "wget http://h/~" s
      (s.path, m.tree.contains "/tmp/notes", after.tree.contains "/tmp/notes")) =
        some ("/home/ann", false, true) ∧
      SavesRemoteName "wget" ["http://h/~"] ∧ ¬ Tree.IsEntry "/home/ann" "/tmp/notes" := by
  refine ⟨by decide +kernel, by decide, ?_⟩
  rintro ⟨name, -, hplace⟩
  have hwritten : Tree.place "/tmp/notes" = ["tmp", "notes"] := by decide
  have hcwd : Tree.place "/home/ann" = ["home", "ann"] := by decide
  rw [hwritten, hcwd] at hplace
  simp at hplace

end CommandTable

end Userland

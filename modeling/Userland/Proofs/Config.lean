/-
  The configurations that a machine can run with.

  1. *Program.*  A document gives some settings, and every other one has its stock value
     (`Settings.config`).  What comes of it is refused if a machine could not run with it
     (`Config.problem?`), and the command line then goes on with the stock configuration.

  2. *Specification.*  A configuration has no problem if the name of its user can stand in a
     directory, its host has a name and its processor has a core (`problem?_eq_none_iff`).  Every
     configuration that the command line starts a machine with is one of these, whatever is in the
     document and whether or not it can be read (`problem?_loaded`).

  3. *The crux.*  All that the theory of machines asks of a configuration is that it has no problem:
     the name of the user is then a name of an entry, so that the home directory is a place that
     paths can spell (`canonical_homeSteps`, `home_eq_render`).
-/
import Userland.Config
import Userland.Proofs.Path

namespace Userland.Config

variable {c : Config} {source : String}

/-! ## Configurations without a problem -/

/-- What the check asks of a configuration. -/
theorem problem?_eq_none_iff :
    c.problem? = none ↔
      Path.IsName c.user ∧ c.hostname ≠ "" ∧ c.system.cpu.cores ≠ 0 := by
  rw [problem?]
  constructor
  · intro h
    split at h
    · cases h
    next hname =>
    split at h
    · cases h
    next hhost =>
    split at h
    · cases h
    next hcores =>
    rw [not_or, not_or, not_or] at hname
    exact ⟨hname, hhost, hcores⟩
  · rintro ⟨⟨hempty, hdot, hdots, hslash⟩, hhost, hcores⟩
    rw [if_neg (by simp [hempty, hdot, hdots, hslash]), if_neg hhost, if_neg hcores]

/-- The user of a configuration without a problem can have a directory. -/
theorem isName_user (h : c.problem? = none) : Path.IsName c.user :=
  (problem?_eq_none_iff.mp h).1

/-- Every stock value passes the check. -/
theorem problem?_stock : ({} : Config).problem? = none := rfl

/-- A document is accepted if it can be read and what it describes has no problem. -/
theorem ofToml_eq_ok_iff :
    ofToml source = .ok c ↔
      (Toml.parse? source).bind Settings.config = some c ∧ c.problem? = none := by
  constructor
  · intro h
    rw [ofToml] at h
    split at h
    · cases h
    next read hread =>
    split at h
    · cases h
    next hproblem =>
    cases h
    exact ⟨hread, hproblem⟩
  · rintro ⟨hread, hproblem⟩
    simp only [ofToml, hread, hproblem]

/-- What a document is accepted for has no problem. -/
theorem problem?_of_ofToml (h : ofToml source = .ok c) : c.problem? = none :=
  (ofToml_eq_ok_iff.mp h).2

/-- Whatever a document holds, what is made of it can be run: a document that is not accepted counts
for the stock configuration. -/
theorem problem?_loaded (source : String) :
    ((ofToml source).toOption.getD {}).problem? = none := by
  cases h : ofToml source with
  | error fault => exact problem?_stock
  | ok c => exact problem?_of_ofToml h

example : ofToml "user = 'a/b'" = .error (.badConfig "invalid user name: 'a/b'") := by
  decide +kernel

/-! ## Where the home directory is -/

/-- The steps to the home directory. -/
def homeSteps (c : Config) : List String :=
  if c.user = "root" then ["root"] else ["home", c.user]

/-- A path can go all of these steps if the name of the user is one of an entry. -/
theorem canonical_homeSteps (h : Path.IsName c.user) : Path.Canonical c.homeSteps := by
  rw [homeSteps]
  split
  · have hroot : Path.IsName "root" := by decide
    exact Path.canonical_nil.concat hroot
  · have hhome : Path.IsName "home" := by decide
    exact (Path.canonical_nil.concat hhome).concat h

/-- The home directory is spelled as the steps to it are. -/
theorem home_eq_render (c : Config) : c.home = Path.render c.homeSteps := by
  rw [home, homeSteps]
  split
  · rfl
  · rw [Path.render, String.intercalate_cons_cons, String.intercalate_singleton]
    simp only [← String.append_assoc]
    rfl

end Userland.Config

/-
  Scenes that differ in some of their parts.

  A command may change the tree, the packages and some of what a session remembers (`Part`).  The
  clock, the configuration and the user of the session are no parts: nothing changes them.
  `Scene.SameBut` says that one scene is another one but for some parts, and it is weakened, not
  composed, since a command is one action.
-/
import Userland.Package.Catalog
import Userland.Proofs.Tree.Reachable
import Userland.Command.Basic

namespace Userland

/-! ## Parts of a scene -/

/-- What a command can change. -/
inductive Part where
  | tree
  | packages
  | path
  | history
  | environment
  | aliases
  | loggedOut
  deriving DecidableEq

namespace Part

/-- Is the part the same in two scenes? -/
def Same (s s' : Scene) : Part → Prop
  | tree => s'.tree = s.tree
  | packages => s'.packages = s.packages
  | path => s'.session.path = s.session.path
  | history => s'.session.history = s.session.history
  | environment => s'.session.environment = s.session.environment
  | aliases => s'.session.aliases = s.session.aliases
  | loggedOut => s'.session.loggedOut = s.session.loggedOut

end Part

attribute [ext] Session Scene

/-- The second scene is the first one but for some parts. -/
structure Scene.SameBut (changed : Part → Prop) (s s' : Scene) : Prop where
  clock : s'.clock = s.clock
  config : s'.config = s.config
  user : s'.session.user = s.session.user
  parts : ∀ part, ¬ changed part → part.Same s s'

namespace Scene.SameBut

variable {changed changed' : Part → Prop} {s s' : Scene}

theorem refl (changed : Part → Prop) (s : Scene) : SameBut changed s s := by
  refine ⟨rfl, rfl, rfl, fun part _ => ?_⟩
  cases part <;> rfl

theorem mono (h : SameBut changed s s') (himp : ∀ part, changed part → changed' part) :
    SameBut changed' s s' :=
  ⟨h.clock, h.config, h.user, fun part hpart => h.parts part fun hc => hpart (himp part hc)⟩

/-- If no part may change, nothing has. -/
theorem eq (h : SameBut changed s s') (hnone : ∀ part, ¬ changed part) : s' = s := by
  have hsame : ∀ part : Part, part.Same s s' := fun part => h.parts part (hnone part)
  have hsession : s'.session = s.session :=
    Session.ext (hsame .path) h.user (hsame .history) (hsame .environment) (hsame .aliases)
      (hsame .loggedOut)
  exact Scene.ext h.clock h.config hsession (hsame .tree) (hsame .packages)

/-- A scene that was looked at as root, given back to its user. -/
theorem asRoot (h : SameBut changed { s with session.user := "root" } s') :
    SameBut changed s { s' with session.user := s.session.user } := by
  refine ⟨h.clock, h.config, rfl, fun part hpart => ?_⟩
  have hsame := h.parts part hpart
  cases part <;> exact hsame

/-! ## Changes of one part, and of the session -/

variable (s)

theorem withTree (t : Tree) : SameBut (· = .tree) s { s with tree := t } := by
  refine ⟨rfl, rfl, rfl, fun part hpart => ?_⟩
  cases part <;> first | rfl | exact absurd rfl hpart

theorem withPackages (packages : Packages) :
    SameBut (· = .packages) s { s with packages := packages } := by
  refine ⟨rfl, rfl, rfl, fun part hpart => ?_⟩
  cases part <;> first | rfl | exact absurd rfl hpart

/-- A session of the same user, which differs in parts that may change. -/
theorem withSession {session : Session} (huser : session.user = s.session.user)
    (hpath : changed .path ∨ session.path = s.session.path)
    (hhistory : changed .history ∨ session.history = s.session.history)
    (henvironment : changed .environment ∨ session.environment = s.session.environment)
    (haliases : changed .aliases ∨ session.aliases = s.session.aliases)
    (hloggedOut : changed .loggedOut ∨ session.loggedOut = s.session.loggedOut) :
    SameBut changed s { s with session := session } := by
  refine ⟨rfl, rfl, huser, fun part hpart => ?_⟩
  cases part with
  | tree => rfl
  | packages => rfl
  | path => exact hpath.resolve_left hpart
  | history => exact hhistory.resolve_left hpart
  | environment => exact henvironment.resolve_left hpart
  | aliases => exact haliases.resolve_left hpart
  | loggedOut => exact hloggedOut.resolve_left hpart

end Scene.SameBut

/-! ## A scene to look at -/

/-- A machine at noon, with the configured user at work in a tree. -/
def sampleScene : Scene := ⟨.showing Tree.noon 60, {}, .ofConfig {}, Tree.sample, .stock⟩

end Userland

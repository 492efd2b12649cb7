/-
  `sudo`, any number of times.

  1. *Program.*  Before other words `sudo` asks for the password of the user, makes root the user
     of the session, runs the words and makes the user the one that it was, whether they came to
     their end or failed.  The words may begin with `sudo` again, which then asks for that of root.

  2. *Specification.*  However often the word stands there, the rest of the line is run once, by
     root (`asRoot`): the scene is what that run makes of it, but for the user, who is given back; a
     failure is the same failure; and above what is shown stand the questions, the first to the user
     and all others to root.

  3. *The crux.*  To become root twice is to become root once, with the questions of both
     (`asRoot_asRoot`): the inner `sudo` gives root back, whom the outer one takes away.  Its
     questions are never none, since an output that shows nothing becomes the text of them.
-/
import Userland.Proofs.Command.InPlace

namespace Userland

/-! ## Lines above an output -/

/-- An output with lines above what it shows.  What is for the terminal alone stays as it is. -/
def Output.below (lines : List String) : Output → Output
  | text shown => text (Text.unlines (lines ++ [shown]))
  | silent => text (Text.unlines lines)
  | clear => clear
  | exit => exit
  | editor program file => editor program file

/-- Lines above an output may be added in two goes, if the first are some. -/
theorem Output.below_below (outer : List String) {inner : List String} (h : inner ≠ [])
    (o : Output) : (o.below inner).below outer = o.below (outer ++ inner) := by
  cases o with
  | text shown =>
    have hshown : inner ++ [shown] ≠ [] := List.append_ne_nil_of_left_ne_nil h [shown]
    rw [below, below, below, Text.unlines_append outer hshown, List.append_assoc]
  | silent => rw [below, below, below, Text.unlines_append outer h]
  | clear => rfl
  | exit => rfl
  | editor program file => rfl

namespace CommandTable

/-! ## A run as root -/

/-- What `sudo` asks a user. -/
def question (user : String) : String := "[sudo] password for " ++ user ++ ": (simulated)"

/-- Runs something as root, after some questions, and gives the user back. -/
def asRoot (questions : List String) (run : Scene → Except Failure Output × Scene) (s : Scene) :
    Except Failure Output × Scene :=
  let (result, after) := run { s with session.user := "root" }
  (result.map (Output.below questions), { after with session.user := s.session.user })

variable {run run' : Scene → Except Failure Output × Scene} {s : Scene}

/-- Only what the run does for root counts. -/
theorem asRoot_congr (questions : List String)
    (h : run { s with session.user := "root" } = run' { s with session.user := "root" }) :
    asRoot questions run s = asRoot questions run' s := by
  rw [asRoot, h, asRoot]

/-- A run as root within a run as root is one, after the questions of both. -/
theorem asRoot_asRoot (outer : List String) {inner : List String} (h : inner ≠ []) :
    asRoot outer (asRoot inner run) s = asRoot (outer ++ inner) run s := by
  simp only [asRoot]
  cases (run { s with session.user := "root" }).1 with
  | error failure => rfl
  | ok o => simp only [Except.map, Output.below_below outer h]

/-! ## Lines that begin with `sudo` -/

/-- Such a way to run words takes `sudo` before others for a run of them as root. -/
def KnowsSudo (run : List String → Scene → Except Failure Output × Scene) : Prop :=
  ∀ name arguments s,
    run ("sudo" :: name :: arguments) s =
      asRoot [question s.session.user] (run (name :: arguments)) s

theorem afterPassword_eq (user : String) : afterPassword user = Output.below [question user] := by
  funext o
  cases o with
  | text shown =>
    rw [Output.below, List.singleton_append, Text.unlines, String.intercalate_cons_cons,
      String.intercalate_singleton]
    rfl
  | silent => rw [Output.below, Text.unlines_singleton]; rfl
  | clear => rfl
  | exit => rfl
  | editor program file => rfl

/-- The table deals with a leading `sudo` like this, whatever is in it. -/
theorem knowsSudo_dispatch (t : CommandTable) : KnowsSudo t.dispatch := by
  intro name arguments s
  rw [dispatch, if_pos rfl, if_neg (by simp)]
  simp only [afterPassword_eq, asRoot]

theorem knowsSudo_dispatchInPlace : KnowsSudo dispatchInPlace := by
  intro name arguments s
  rw [dispatchInPlace, if_pos rfl, if_neg (by simp)]
  simp only [afterPassword_eq, asRoot]

/-- What the word asks when it stands there once, and so many times more. -/
def questions (user : String) (more : Nat) : List String :=
  question user :: List.replicate more (question "root")

/-- Any number of them makes one run as root, below as many lines. -/
theorem run_replicate_sudo {run : List String → Scene → Except Failure Output × Scene}
    (h : KnowsSudo run) (n : Nat) (name : String) (arguments : List String) (s : Scene) :
    run (List.replicate (n + 1) "sudo" ++ name :: arguments) s =
      asRoot (questions s.session.user n) (run (name :: arguments)) s := by
  -- on the number of the inner ones, which are run by root already
  induction n generalizing s with
  | zero => exact h name arguments s
  | succ n ih =>
    have hroot : ∀ s : Scene, s.session.user = "root" →
        run (List.replicate (n + 1) "sudo" ++ name :: arguments) s =
          asRoot (questions "root" n) (run (name :: arguments)) s := by
      intro s hs
      rw [ih, hs]
    calc run (List.replicate (n + 2) "sudo" ++ name :: arguments) s
        = asRoot [question s.session.user]
            (run (List.replicate (n + 1) "sudo" ++ name :: arguments)) s :=
          h "sudo" (List.replicate n "sudo" ++ name :: arguments) s
      _ = asRoot [question s.session.user]
            (asRoot (questions "root" n) (run (name :: arguments))) s :=
          asRoot_congr _ (hroot { s with session.user := "root" } rfl)
      _ = asRoot (questions s.session.user (n + 1)) (run (name :: arguments)) s :=
          asRoot_asRoot _ (List.cons_ne_nil _ _)

/-- Words behind `sudo`, once or more often, are run by root and nothing more.  The scene is what
root's run of them leaves, with the user of before; it fails if that run does, with the same
failure; and what is shown stands below one question for each `sudo`.  This is so for every table of
commands, and for the commands done in place. -/
theorem dispatch_replicate_sudo (t : CommandTable) (n : Nat) (name : String)
    (arguments : List String) (s : Scene) :
    t.dispatch (List.replicate (n + 1) "sudo" ++ name :: arguments) s =
        asRoot (questions s.session.user n) (t.dispatch (name :: arguments)) s ∧
      dispatchInPlace (List.replicate (n + 1) "sudo" ++ name :: arguments) s =
        asRoot (questions s.session.user n) (dispatchInPlace (name :: arguments)) s :=
  ⟨run_replicate_sudo (knowsSudo_dispatch t) n name arguments s,
    run_replicate_sudo knowsSudo_dispatchInPlace n name arguments s⟩

end CommandTable

end Userland

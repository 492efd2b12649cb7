/-
  The packages that a new machine knows.
-/
import Userland.Package.Registry

namespace Userland.Packages

/-- The stock catalog. -/
def stockCatalog : List Package :=
  [⟨"git", "2.34.1", "Fast, scalable, distributed revision control system", true⟩,
   ⟨"python3", "3.9.2", "Interactive high-level object-oriented language", true⟩,
   ⟨"nodejs", "16.14.0", "Event-based server-side JavaScript engine", true⟩,
   ⟨"nano", "6.2", "Small, friendly text editor inspired by Pico", true⟩,
   ⟨"vim", "8.2", "Vi IMproved - enhanced vi editor", true⟩,
   ⟨"curl", "7.81.0", "Command line tool for transferring data with URL syntax", false⟩,
   ⟨"wget", "1.21.2", "Retrieves files from the web", false⟩,
   ⟨"htop", "3.0.5", "Interactive process viewer", false⟩,
   ⟨"tree", "1.8.0", "Displays directories as trees", false⟩,
   ⟨"zip", "3.0", "Archiver for .zip files", false⟩]

/-- The packages of a new machine. -/
def stock : Packages := ofCatalog stockCatalog

end Userland.Packages

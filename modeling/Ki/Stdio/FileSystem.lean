import Mathlib.Logic.Function.Basic

/-!
# Paths and files

Several paths may lead to one file, so what is written under one of them is read
under the others.
-/

namespace Ki
namespace Stdio

/-- Where paths lead and what the files hold; one that does not exist holds `none`. -/
structure FileSystem (φ : Type) where
  file : String -> φ
  contents : φ -> Option (List UInt8)

namespace FileSystem

variable {φ : Type} [DecidableEq φ]

/-- The content found under a path. -/
def read (fs : FileSystem φ) (path : String) : Option (List UInt8) :=
  fs.contents (fs.file path)

/-- The files once the one a path leads to has another content. -/
def write (fs : FileSystem φ) (path : String) (content : Option (List UInt8)) :
    FileSystem φ :=
  { fs with contents := Function.update fs.contents (fs.file path) content }

/-- The source is as it was before, and the destination holds the same. -/
def Copied (fs fs' : FileSystem φ) (src dst : String) : Prop :=
  fs'.read src = fs.read src ∧ fs'.read dst = fs.read src

theorem read_write_same {fs : FileSystem φ} {path path' : String}
    (h : fs.file path' = fs.file path) (content : Option (List UInt8)) :
    (fs.write path content).read path' = content := by
  simp [read, write, h]

theorem read_write_other {fs : FileSystem φ} {path path' : String}
    (h : fs.file path' ≠ fs.file path) (content : Option (List UInt8)) :
    (fs.write path content).read path' = fs.read path' := by
  simp [read, write, h]

end FileSystem
end Stdio
end Ki

/-
What commands ask of the place where files are kept.

Commands run in any monad; a `Storage` tells how files are read and written
there.
-/
namespace PropertyGraph

/-- Files by path in a monad. -/
structure Storage (m : Type → Type) where
  /-- The text of a file, if there is one. -/
  read? : String → m (Option String)
  /-- Writes a file, in place of the one that was there, and tells whether that
  was possible. -/
  write : String → String → m Bool
  /-- Makes a folder and those that it lies in, as far as they are missing, and
  tells whether that was possible. -/
  makeFolder : String → m Bool
  /-- Whether there is a file at a path. -/
  isFile : String → m Bool

/-- The path of a name in a folder. -/
def joinPath (folder name : String) : String :=
  if folder = "" ∨ folder.toList.getLast? = some '/' then folder ++ name else folder ++ "/" ++ name

end PropertyGraph

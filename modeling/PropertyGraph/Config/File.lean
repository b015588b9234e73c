/-
Finding the configuration file by the start of its name.

A file of just that name comes first, and counts only if its extension is known;
otherwise the extension is added.
-/
import PropertyGraph.Config.Load
import PropertyGraph.Storage.Basic

namespace PropertyGraph.Config

/-- The extension of configuration files. -/
def extension : String := ".json"

/-- The path with the extension added to its last name; none if it has no last
name. -/
def withExtension? (path : String) : Option String :=
  let names := (path.toList.splitOn '/').reverse.dropWhile fun n => n = [] ∨ n = ['.']
  match names with
  | [] | ['.', '.'] :: _ => none
  | _ => some (String.ofList (['/'].intercalate names.reverse) ++ extension)

/-- Whether a path ends in the known extension, after at least one more character
of its last name. -/
def hasExtension (path : String) : Bool :=
  let name := (path.toList.reverse.takeWhile (· ≠ '/')).reverse
  extension.toList.isSuffixOf name && extension.length < name.length

/-- The text of the configuration file, if there is one. -/
def findFile {m : Type → Type} [Monad m] (storage : Storage m) (start : String) :
    m (Option String) := do
  if ← storage.isFile start then
    if hasExtension start then storage.read? start else return none
  else
    match withExtension? start with
    | some path => storage.read? path
    | none => return none

end PropertyGraph.Config

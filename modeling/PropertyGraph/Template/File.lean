/-
Rendering the templates of a file.
-/
import PropertyGraph.Storage.Basic
import PropertyGraph.Template.Basic

namespace PropertyGraph

/-- Why the templates of a file cannot be rendered. -/
inductive Template.FileError where
  | missing
  /-- The file does not list templates. -/
  | unreadable
  | template (e : Template.RenderError)
deriving DecidableEq

/-- All templates of a list rendered, or the first error. -/
def Template.renderAll (m : Marking) : List Template → Except RenderError (List Template)
  | [] => .ok []
  | t :: ts => do
    let rendered ← t.render m
    return rendered :: (← renderAll m ts)

/-- The templates that a text lists, rendered. -/
def Template.renderText (m : Marking) (s : String) : Except FileError (List Template) :=
  match parseAll? s with
  | none => .error .unreadable
  | some templates => (renderAll m templates).mapError .template

/-- The templates of a file, rendered. -/
def renderFile {m : Type → Type} [Monad m] (storage : Storage m) (marking : Template.Marking)
    (path : String) : m (Except Template.FileError (List Template)) := do
  match ← storage.read? path with
  | none => return .error .missing
  | some text => return Template.renderText marking text

end PropertyGraph

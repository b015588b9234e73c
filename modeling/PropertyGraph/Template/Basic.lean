/-
Query templates: a query and texts about it, with placeholders for inputs.

Rendering fills every placeholder with a marker of its input, texts first and
then the query; the first fault stops it.
-/
import PropertyGraph.Json.Fields
import PropertyGraph.Json.Printer
import PropertyGraph.Template.Placeholder

namespace PropertyGraph

/-- An input of a template: its name, and what kind of thing it takes. -/
structure Template.Input where
  id : String
  kind : String
deriving DecidableEq

/-- A query template. -/
structure Template where
  gid : String
  groups : OrderedMap String String := .empty
  texts : OrderedMap String String := .empty
  cypher : String
  input : List Template.Input := []
  output : List String := []
deriving DecidableEq

/-- Why a template cannot be rendered. -/
structure Template.RenderError where
  gid : String
  fault : Template.Fault
  /-- The number of inputs given. -/
  available : Nat
deriving DecidableEq

/-- The error in words. -/
def Template.RenderError.message (e : Template.RenderError) : String :=
  "Template " ++ e.gid ++ ": " ++
    match e.fault with
    | .missingArgument index =>
      "placeholder \x7b" ++ toString index ++ "\x7d has no input (only " ++ toString e.available ++
        " given)"
    | .malformed offset => "malformed placeholder at byte " ++ toString offset

namespace Template

/-- The input that a tree writes. -/
def inputOfTree? (t : Json.Tree) : Option Input := do
  let f ← t.record? ["id", "type"]
  return ⟨← f.required "id" Json.Tree.text?, ← f.required "type" Json.Tree.text?⟩

/-- The texts by name that a tree writes. -/
def textMap? : Json.Tree → Option (OrderedMap String String)
  | .object members => (members.mapM fun (m : String × Json.Tree) =>
      (m.2.text?).map fun s => (m.1, s)).map .ofList
  | _ => none

/-- The template that a tree writes. -/
def ofTree? (t : Json.Tree) : Option Template := do
  let f ← t.record? ["gid", "groups", "texts", "cypher", "input", "output"]
  return {
    gid := ← f.required "gid" Json.Tree.text?
    groups := ← f.withDefault "groups" .empty textMap?
    texts := ← f.withDefault "texts" .empty textMap?
    cypher := ← f.required "cypher" Json.Tree.text?
    input := ← f.withDefault "input" [] (Json.Tree.list? inputOfTree?)
    output := ← f.withDefault "output" [] (Json.Tree.list? Json.Tree.text?) }

/-- The templates that a text lists. -/
def parseAll? (s : String) : Option (List Template) :=
  (Json.Tree.read? s).bind (Json.Tree.list? ofTree?)

/-- Texts by name as JSON. -/
def textMapJson (m : OrderedMap String String) : Json :=
  .object (m.entries.map fun e => (e.1, .text e.2))

/-- The JSON form. -/
def toJson (t : Template) : Json :=
  .object [("gid", .text t.gid), ("groups", textMapJson t.groups), ("texts", textMapJson t.texts),
    ("cypher", .text t.cypher),
    ("input", .array (t.input.map fun i => .object [("id", .text i.id), ("type", .text i.kind)])),
    ("output", .texts t.output)]

/-- How inputs are marked: what stands around their names, and whether texts
show their kinds. -/
structure Marking where
  opening : String
  closing : String
  annotated : Bool
deriving DecidableEq

/-- The marker of an input. -/
def Marking.marker (m : Marking) (i : Input) : String := m.opening ++ i.id ++ m.closing

/-- The marker of an input in a text. -/
def Marking.textMarker (m : Marking) (i : Input) : String :=
  if m.annotated then "(" ++ m.marker i ++ ":" ++ i.kind ++ ")" else m.marker i

/-- A text of a template with its placeholders filled. -/
def fillText (t : Template) (markers : List String) (s : String) :
    Except RenderError String :=
  match Template.substitute (markers.map String.toList) s.toList with
  | .ok cs => .ok (String.ofList cs)
  | .error fault => .error ⟨t.gid, fault, markers.length⟩

/-- The texts of a template with their placeholders filled, in order. -/
def fillTexts (t : Template) (markers : List String) :
    List (String × String) → Except RenderError (List (String × String))
  | [] => .ok []
  | (name, s) :: rest => do
    let filled ← t.fillText markers s
    return (name, filled) :: (← t.fillTexts markers rest)

/-- The template with all placeholders filled by markers. -/
def render (t : Template) (m : Marking) : Except RenderError Template := do
  let texts ← t.fillTexts (t.input.map m.textMarker) t.texts.entries
  let cypher ← t.fillText (t.input.map m.marker) t.cypher
  return { t with texts := .ofList texts, cypher }

end Template

end PropertyGraph

/-
Responses to query texts.

`executeWith` is the only way from a text to a runner: it asks the guard first
and runs the accepted text once.
-/
import PropertyGraph.Guard.Verdict
import PropertyGraph.Result.Basic

namespace PropertyGraph

/-- What comes back from a text: whether it ran, in words how it went, the
guard's warning, the text that was run, and the result. -/
structure Response where
  success : Bool
  message : String
  warning : Option String := none
  query : Option String := none
  result : ResultSet := {}

namespace Response

/-- The JSON form. -/
def toJson (r : Response) : Json :=
  .object ([("success", .bool r.success), ("message", .text r.message)] ++
    (r.warning.map fun w => ("warning", Json.text w)).toList ++
    (r.query.map fun q => ("query", Json.text q)).toList ++ r.result.jsonMembers)

end Response

/-- The failure of a run, as the database words it. -/
structure RunFailure where
  reason : String
deriving DecidableEq

/-- The failure in words. -/
def RunFailure.message (e : RunFailure) : String := "Query failed: " ++ e.reason

/-- Runs a text, once, if the guard accepts it under a ceiling; the guard is told
which literals can be searched for. -/
def executeWith {m : Type → Type} [Monad m] (searchable : List Char → Bool)
    (run : String → m (Except RunFailure ResultSet)) (limit : Int64) (text : String) :
    m Response :=
  match Guard.checkWith searchable limit text with
  | .rejected reason => pure { success := false, message := reason.message }
  | .accepted query warning => do
    match ← run query with
    | .ok result =>
      return { success := true
               message := "Query executed successfully. (" ++ toString result.matched.length ++
                 " results)"
               warning, query := some query, result }
    | .error failure =>
      return { success := false
               message := "Something went wrong. (" ++ failure.message ++ ")"
               warning, query := some query }

/-- Runs a text, every literal of which can be searched for. -/
def execute {m : Type → Type} [Monad m] (run : String → m (Except RunFailure ResultSet))
    (limit : Int64) (text : String) : m Response :=
  executeWith (fun _ => true) run limit text

end PropertyGraph

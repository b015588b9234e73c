/-
The guard on hand-written queries: required and forbidden words, and a ceiling
on the number of results.

`Guard.check` accepts a text whose tokens hold every required word and no
forbidden one, and gives the text to run.
-/
import PropertyGraph.Guard.Limit
import PropertyGraph.Json.Basic

namespace PropertyGraph

/-- The guard's settings. -/
structure GuardConfig where
  /-- The ceiling on the number of results; none if it is not positive. -/
  limit : Int64 := 250
deriving DecidableEq

/-- Why a query is rejected. -/
inductive Rejection where
  /-- A required word is missing. -/
  | missing (keyword : String)
  /-- A forbidden word occurs. -/
  | forbidden (keyword : String)
deriving DecidableEq

namespace Rejection

/-- The word in question. -/
def keyword : Rejection → String
  | missing k => k
  | forbidden k => k

/-- The reason in words. -/
def message : Rejection → String
  | missing k => "Query must contain: " ++ k ++ "."
  | forbidden k => "Query must not contain " ++ k ++ "."

/-- The JSON form. -/
def toJson : Rejection → Json
  | missing k => .object [("kind", .text "missing"), ("keyword", .text k)]
  | forbidden k => .object [("kind", .text "forbidden"), ("keyword", .text k)]

end Rejection

/-- What the guard decides. -/
inductive Verdict where
  /-- The text to run, and a warning where the request has been cut down. -/
  | accepted (query : String) (warning : Option String)
  | rejected (reason : Rejection)
deriving DecidableEq

namespace Verdict

/-- The text to run. -/
def query? : Verdict → Option String
  | accepted q _ => some q
  | rejected _ => none

/-- The warning. -/
def warning? : Verdict → Option String
  | accepted _ w => w
  | rejected _ => none

/-- The JSON form. -/
def toJson : Verdict → Json
  | accepted q w =>
    .object ([("status", .text "accepted"), ("query", .text q)] ++
      (w.map fun w => ("warning", Json.text w)).toList)
  | rejected r =>
    .object [("status", .text "rejected"), ("reason", r.toJson), ("message", .text r.message)]

end Verdict

namespace Guard

/-- The words that a query must hold. -/
def requiredWords : List String := ["MATCH", "RETURN"]

/-- The words that a query must not hold. -/
def forbiddenWords : List String := ["DETACH", "DELETE", "UPDATE", "SET", "MERGE"]

/-- Why tokens are rejected: the first required word that is missing, else the
first forbidden word that occurs. -/
def rejection? (tokens : List (List Char)) : Option Rejection :=
  match requiredWords.find? fun k => k.toList ∉ tokens with
  | some k => some (.missing k)
  | none => (forbiddenWords.find? fun k => k.toList ∈ tokens).map .forbidden

section

variable (searchable : List Char → Bool)

/-- A text under a ceiling, and a warning where that cuts its request down. -/
def applyCeiling (limit : Int64) (s : List Char) : List Char × Option String :=
  let ceiling := toString limit.toInt
  if 0 < limit.toInt then
    match requested? (tokens s) with
    | some (literal, n) =>
      if limit.toInt < n then
        (resetLimit searchable literal ceiling.toList s, some ("LIMIT reset to " ++ ceiling))
      else (s, none)
    | none => (appendLimit ceiling.toList s, none)
  else (s, none)

/-- The guard's decision on a text, told which literals can be searched for. -/
def checkWith (limit : Int64) (text : String) : Verdict :=
  match rejection? (tokens text.toList) with
  | some r => .rejected r
  | none =>
    let (s, warning) := applyCeiling searchable limit text.toList
    .accepted (String.ofList s) warning

end

/-- The guard's decision on a text, every literal of which can be searched for. -/
def check (limit : Int64) (text : String) : Verdict := checkWith (fun _ => true) limit text

end Guard

end PropertyGraph

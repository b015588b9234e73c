/-
The program: commands on files of the machine, no connection to a database.
-/
import PropertyGraph.CommandLine.Run

namespace PropertyGraph

/-- The text of a file of the machine, if it can be read. -/
def readMachineFile (path : String) : IO (Option String) := do
  try
    return String.fromUTF8? (← IO.FS.readBinFile path)
  catch _ => return none

/-- Whether an action of the machine succeeds. -/
def succeeds (action : IO Unit) : IO Bool := do
  try
    action
    return true
  catch _ => return false

/-- The files of the machine. -/
def machineStorage : Storage IO where
  read? := readMachineFile
  write path content := succeeds (IO.FS.writeFile path content)
  makeFolder path := succeeds (IO.FS.createDirAll path)
  isFile path := do return (← readMachineFile path).isSome

/-- A variable from the text that gives its name and its value. -/
def variableOf? (entry : List Char) : Option (String × String) :=
  match entry.dropWhile (· ≠ '=') with
  | _ :: value => some (String.ofList (entry.takeWhile (· ≠ '=')), String.ofList value)
  | [] => none

/-- The environment variables of the machine. -/
def machineVariables : IO (List (String × String)) := do
  let text := (← readMachineFile "/proc/self/environ").getD ""
  return (text.toList.splitOn '\x00').filterMap variableOf?

/-- The machine as commands see it. -/
def machine : IO (Surroundings IO) := do
  return { storage := machineStorage
           input := do return (← (← IO.getStdin).readToEnd)
           environment := ← machineVariables
           connect? := fun _ => pure none }

end PropertyGraph

def main (args : List String) : IO UInt32 := do
  let state ← PropertyGraph.runArguments (← PropertyGraph.machine) args
  IO.print state.output
  return state.code.toUInt32

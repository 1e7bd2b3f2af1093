import Reckon.Command.Line

/-!
# The program

Runs a command on the files of the disk: reads the files that the command names, runs it on them as
a value, writes the files that it changed, and prints what it prints.
-/

set_option autoImplicit false

namespace Reckon.Program

def gather (path : Text) (files : Files) : IO Files := do
  try
    let bytes ← IO.FS.readBinFile path.shown
    let content := Content.ofBytes (bytes.toList.map UInt8.toNat)
    let prepared := files.prepare (Path.start path) (Path.names path).dropLast
    return { prepared with contents := (Path.location path, content) :: prepared.contents }
  catch error =>
    match error with
    | .noFileOrDirectory _ _ _ => return files
    | _ => return files.prepare (Path.start path) (Path.names path)

/-- The files with what the disk has at a path, when there is a path. An empty path is no path. -/
def gatherAt (path? : Option Text) (files : Files) : IO Files :=
  match path?.filter fun path => !path.isEmpty with
  | some path => gather path files
  | none => return files

/-- Writes what differs from the files before a command. -/
def store (before after : Files) : IO Unit := do
  for (location, content) in after.contents do
    if before.contents.lookup location != some content then
      if let .text text := content then
        unless location.dropLast.isEmpty do
          IO.FS.createDirAll (Text.intercalate "/" location.dropLast).shown
        IO.FS.writeFile (Text.intercalate "/" location).shown text

def finish (files : Files) (result : Command.Result) : IO UInt32 := do
  store files result.files
  IO.print result.output.shown
  if let some escape := result.escaped then
    IO.eprintln escape.message.shown
  return UInt32.ofNat result.exit

def interpret (arguments : List Text) : IO UInt32 := do
  let options? := Command.InterpretOptions.ofArguments? arguments
  let files ← gatherAt (options?.map Command.InterpretOptions.config) Files.empty
  finish files (Command.interpretCommand arguments files)

def compare (arguments : List Text) : IO UInt32 := do
  let options? := Command.CompareOptions.ofArguments? arguments
  let configured ← gatherAt (options?.map Command.CompareOptions.config) Files.empty
  let plan? := options?.bind fun options =>
    (Command.planComparison Command.loadDocument options configured).toOption
  let files ← gatherAt (plan?.map fun plan => Path.normal plan.source) configured
  finish files (Command.compareCommand arguments files)

/-- Runs the command that the first argument names. -/
def run : List String → IO UInt32
  | "interpret" :: arguments => interpret (arguments.map Text.ofString)
  | "compare" :: arguments => compare (arguments.map Text.ofString)
  | _ => do
    IO.eprintln "usage: reckon interpret|compare [OPTION]..."
    return 2

end Reckon.Program

def main (arguments : List String) : IO UInt32 :=
  Reckon.Program.run arguments

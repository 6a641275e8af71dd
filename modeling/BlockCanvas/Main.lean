import BlockCanvas.CommandLine.Command

/-!
# The program

Carries out commands on the files of the system.
-/

namespace BlockCanvas
namespace CommandLine

/-- The contents of a file, if it can be read. -/
def readContents? (path : Text) : IO (Option Bytes) := do
  try
    let contents ← IO.FS.readBinFile (String.ofList path)
    return some contents.toList
  catch _ => return none

/-- Writes a file, and tells whether that succeeded. -/
def writeContents (path : Text) (contents : Bytes) : IO Bool := do
  try
    IO.FS.writeBinFile (String.ofList path) ⟨contents.toArray⟩
    return true
  catch _ => return false

/-- Prints a response and gives its exit code. -/
def Response.print (r : Response) : IO UInt32 := do
  IO.print (String.ofList r.output)
  for message in r.messages do
    IO.eprintln (String.ofList message)
  return UInt32.ofNat r.code

/-- Performs a command on the files of the system. -/
def Command.carryOut (c : Command) : IO UInt32 := do
  let contents ← match c.source? with
    | some path => readContents? path
    | none => pure none
  match c.act contents with
  | .finish r => r.print
  | .write path contents done failed =>
    if ← writeContents path contents then done.print else failed.print

end CommandLine
end BlockCanvas

open BlockCanvas.CommandLine in
def main (args : List String) : IO UInt32 :=
  match parse (args.map String.toList) with
  | .perform c => c.carryOut
  | .help => Response.print ⟨0, usage, []⟩
  | .version => Response.print ⟨0, versionText, []⟩
  | .unusable => Response.print ⟨usageCode, [], [usage]⟩

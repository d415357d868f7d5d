/-
**The program.**

The outer layer: it looks at the paths that the command line names, lets `run` answer, and carries
the answer out.
-/

import Splice.Command.Run
import Splice.Standard.Stamp

namespace Splice

/-- A text as a string, as far as it is legible. -/
def stringOf (text : Text) : String := String.ofList (Utf8.legible text)

/-- The paths that a command line names. -/
def namedPaths (arguments : List Text) : List PathName :=
  match Request.read arguments with
  | .request _ (.apply source script options) =>
    source.toList ++ script.toList ++ options.output.toList
  | .request _ (.plan source script) => source.toList ++ script.toList
  | _ => []

/-- A path as the system writes it. -/
def systemPath (path : Path) : String := stringOf (Tree.shownPath path)

/-- What stands at a path of the system. A path that cannot be read for being no file is
a folder. -/
def lookAt (path : Path) : IO (Option Node) := do
  try
    return some (.file (← IO.FS.readBinFile (systemPath path)).toList)
  catch
    | .inappropriateType _ _ _ => return some .folder
    | _ => return none

/-- The part of the system's files that named paths lead through. -/
def lookAround (names : List PathName) : IO Tree := do
  let mut tree : Tree := []
  for name in names do
    for count in [1:(Tree.pathOf name).length + 1] do
      let path := (Tree.pathOf name).take count
      if let some node ← lookAt path then
        tree := tree.put path node
  return tree

/-- Writes the files in which an outcome differs. -/
def writeBack (before after : Tree) : IO Unit := do
  for (path, node) in after do
    match node with
    | .folder => pure ()
    | .file octets =>
      if before.lookup path ≠ some node then
        IO.FS.writeBinFile (systemPath path) ⟨octets.toArray⟩

/-- The digits at the front of a string, behind any other characters, as a number. -/
def firstNumber (string : String) : Nat :=
  let digits := (string.toList.dropWhile (!·.isDigit)).takeWhile (·.isDigit)
  digits.foldl (fun number digit => number * 10 + (digit.toNat - 48)) 0

/-- The time in hundredths of a second: when the system was started, and for how long it has run. -/
def clock : IO Nat := do
  let table ← IO.FS.lines "/proc/stat"
  let uptime ← IO.FS.readFile "/proc/uptime"
  let started := (table.find? (·.startsWith "btime")).elim 0 firstNumber
  let (whole, part) := uptime.toList.span (· ≠ '.')
  return (started + firstNumber (String.ofList whole)) * 100 +
    firstNumber (String.ofList (part.take 3))

end Splice

open Splice in
/-- Answers a command line. -/
def main (arguments : List String) : IO UInt32 := do
  let arguments := arguments.map Text.ofString
  let tree ← lookAround (namedPaths arguments)
  let levelWord ← IO.getEnv "PATCHWORK_LOG_LEVEL"
  let (threshold, outcome) := run ⟨tree, levelWord.map Text.ofString⟩ arguments
  let stamp := Stamp.written (← clock)
  (← IO.getStderr).putStr (stringOf (outcome.printed threshold stamp))
  let output ← IO.getStdout
  output.write ⟨outcome.output.toArray⟩
  output.flush
  writeBack tree outcome.tree
  match outcome.ending with
  | .exit code => return code.toUInt32
  | .broken breakdown =>
    (← IO.getStderr).putStr (stringOf breakdown.message ++ "\n")
    return 1

import GradingScript.CommandLine.Basic

/-!
# The program

Runs the command line over the working directory.  The names of all entries are listed first, and
of the files only the script to compile is read.  Outside the working directory only paths from the
root are followed, if they are named as scripts.
-/

open GradingScript

/-- What stands at a path from the root. -/
def entryFromRoot? (path : Path) : IO (Option Entry) := do
  try
    let place ← IO.FS.realPath path.text
    if ← place.isDir then pure (some .folder)
    else pure (some (.file (← IO.FS.readBinFile place)))
  catch _ => pure none

/-- The working directory, with all entries listed but no file read. -/
def listWorkingDirectory : IO Folder := do
  let place ← IO.FS.realPath "."
  let above := (Path.ofText place.toString).parts.length
  let paths ← place.walkDir
  let entries ← paths.toList.mapM fun path => do
    let entry := if ← path.isDir then Entry.folder else .file ByteArray.empty
    pure ((Path.ofText path.toString).parts.drop above, entry)
  pure ⟨⟨entries⟩, .standardRoot⟩

def main (args : List String) : IO UInt32 := do
  let settings := CommandLine.Settings.ofVariables
    (← IO.getEnv "AUTOCHECK_SCRIPT") (← IO.getEnv "AUTOCHECK_SCRIPT_GLOB")
  let script := (CommandLine.Request.ofArguments? args).bind fun r => r.action.script?.join
  let named := (settings.namedPaths script).filter fun path => path.slashes ≠ 0
  let mut folder ← listWorkingDirectory
  for path in named do
    if let some entry ← entryFromRoot? path then
      folder := { folder with outer := folder.outer.withEntry path.parts entry }
  if let some path := CommandLine.scriptPath? settings folder args then
    if path.slashes = 0 then
      folder := folder.withEntry path (.file (← IO.FS.readBinFile path.text))
  let run := CommandLine.run settings .standard folder args
  (← IO.getStdout).putStr run.output.stdout
  let stderr ← IO.getStderr
  stderr.putStr run.output.stderr
  if let some abort := run.abort then
    stderr.putStrLn ("Error: " ++ abort.message)
  pure run.exitCode.toUInt32

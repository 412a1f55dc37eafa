import ScriptEngine.Command.Browser
import ScriptEngine.CommandLine.Session

/-!
# The program

The command line on a real machine: files, clock and console, and for the browser keys that are
read as lines.
-/

namespace ScriptEngine.CommandLine

/-- A file as it is stored. -/
def stored (content : ByteArray) : Stored :=
  match String.fromUTF8? content with
  | some text => .text text
  | none => .unreadable .notText

/-- Reads the files of a folder and of the folders below it, into which it goes at most `fuel` deep.
The second argument is the path so far. -/
def snapshot (root : String) : Nat → String → Folder → IO Folder
  | 0, _, found => return found
  | fuel + 1, path, found => do
    let here := (← IO.currentDir) / root / path
    let mut folder := found
    for entry in ← here.readDir do
      let name := if path.isEmpty then entry.fileName else path ++ "/" ++ entry.fileName
      match (← entry.path.symlinkMetadata).type with
      | .dir => folder ← snapshot root fuel name (folder.insert name .folder)
      | .file =>
        try
          folder := folder.insert name (stored (← IO.FS.readBinFile entry.path))
        catch fault =>
          folder := folder.insert name (.unreadable (.refused (toString fault)))
      | _ => pure ()
    return folder

/-- How deep folders are searched. -/
def folderDepth : Nat := 1000

/-- The absolute form of a path and what it leads to. -/
def locate (path : String) : IO (String × Place) := do
  let absolute := (← IO.currentDir) / path
  if !(← absolute.pathExists) then
    return (absolute.toString, .missing)
  else if !(← absolute.isDir) then
    return (absolute.toString, .file)
  else
    return (absolute.toString, .folder (← snapshot absolute.toString folderDepth "" .empty))

/-- The real machine. -/
def realHost : Host IO where
  locate := locate
  now := IO.monoNanosNow
  print := IO.println
  pause milliseconds := IO.sleep (UInt32.ofNat milliseconds)

/-- The keys of a line: one that is named, or the characters of the line. -/
def keysOf (line : String) : List Key :=
  match line with
  | "<up>" => [.up]
  | "<down>" => [.down]
  | "<backspace>" => [.backspace]
  | "<esc>" => [.escape]
  | "" => [.enter]
  | _ => line.toList.map (.character · false)

/-- The browser after some keys, and whether one of them left it. -/
def pressAll (browser : Browser) : List Key → Browser × Bool
  | [] => (browser, false)
  | key :: rest =>
    match browser.press key with
    | (after, true) => (after, true)
    | (after, false) => pressAll after rest

/-- Shows the browser and reads keys until it is left. -/
partial def browse (input : IO.FS.Stream) (browser : Browser) : IO Unit := do
  for entry in browser.visible do
    let mark := if browser.current == some entry then "> " else "  "
    IO.println (mark ++ entry.name)
  browser.details.forM IO.println
  IO.println ("filter: " ++ String.ofList browser.filter)
  let line ← input.getLine
  if line.isEmpty then
    return
  let (after, left) := pressAll browser (keysOf (String.ofList (Text.trimRight line.toList)))
  if !left then
    browse input after

end ScriptEngine.CommandLine

open ScriptEngine ScriptEngine.CommandLine in
/-- Carries out a command line. -/
def main (arguments : List String) : IO UInt32 := do
  match CommandLine.parse? arguments with
  | none => do
    IO.eprintln "usage: run --scripts-dir DIR [--entry-script NAME] [--repeat N] [--interval-ms N]"
    IO.eprintln "       docs [--format json|html]"
    IO.eprintln "       reference"
    return usageCode
  | some (.run request) => realHost.run request
  | some (.docs format) => realHost.docs format
  | some .browse => do
    browse (← IO.getStdin) { entries := CommandTable.general.entries }
    return 0

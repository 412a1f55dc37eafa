import ScriptEngine.Dictionary
import ScriptEngine.Script.Reader

/-!
# Files in folders

A `Folder` is what is known of a folder and everything below it, by paths with slashes between
their parts. `Folder.find` follows a path and `Folder.sources` collects the script files.
-/

namespace ScriptEngine

/-- Why a file cannot be read as a text. -/
inductive ReadFault
  | notFound
  | notText
  | isFolder
  /-- The system refuses, in its own words. -/
  | refused (reason : String)
  deriving DecidableEq, Repr

/-- The wording of why a file cannot be read. -/
def ReadFault.message : ReadFault → String
  | .notFound => "No such file or directory (os error 2)"
  | .notText => "stream did not contain valid UTF-8"
  | .isFolder => "Is a directory (os error 21)"
  | .refused reason => reason

/-- What is stored under a path. -/
inductive Stored
  | text (content : String)
  /-- A file whose content cannot be had as a text. -/
  | unreadable (fault : ReadFault)
  | folder
  deriving DecidableEq, Repr

/-- The files and folders below a folder by their paths. A folder is listed if it is empty, and may
be listed otherwise. -/
abbrev Folder := Dictionary Stored

/-- What a path leads to. -/
inductive Place
  | missing
  | file
  | folder (content : Folder)
  deriving DecidableEq, Repr

/-- A path with slashes in place of backslashes. -/
def slashed (path : String) : String :=
  String.ofList (path.toList.map fun c => if c = '\\' then '/' else c)

namespace Folder

/-- The part of a path behind a folder and a slash. -/
def below? (name path : String) : Option String :=
  let lead := name.toList ++ ['/']
  if lead.isPrefixOf path.toList then some (String.ofList (path.toList.drop lead.length)) else none

/-- What is stored below a folder of this folder. -/
def inside (folder : Folder) (name : String) : Folder :=
  .ofList (folder.entries.filterMap fun (path, stored) => do return (← below? name path, stored))

/-- What a name of this folder leads to. -/
def child (folder : Folder) (name : String) : Place :=
  match folder.get? name, (folder.inside name).entries with
  | some .folder, _ => .folder (folder.inside name)
  | some _, _ => .file
  | none, [] => .missing
  | none, _ :: _ => .folder (folder.inside name)

/-- Follows the parts of a path through folders, the ones above being given innermost first. -/
def follow (above : List Folder) (folder : Folder) : List String → Place
  | [] => .folder folder
  | part :: rest =>
    if part = "" ∨ part = "." then
      follow above folder rest
    else if part = ".." then
      match above with
      | parent :: others => follow others parent rest
      | [] => .missing
    else
      match folder.child part, rest with
      | .folder content, _ => follow (folder :: above) content rest
      | .file, [] => .file
      | _, _ => .missing

/-- What a path leads to. -/
def find (folder : Folder) (path : String) : Place :=
  follow [] folder (path.splitOn "/")

/-- The content of a file. -/
def read (folder : Folder) (path : String) : Except ReadFault String :=
  match folder.get? path, folder.child path with
  | some (.text content), _ => .ok content
  | some (.unreadable fault), _ => .error fault
  | _, .folder _ => .error .isFolder
  | _, _ => .error .notFound

/-- The script files by their paths with slashes. The first file that cannot be read is reported
with its path. -/
def sources (folder : Folder) : Except (String × ReadFault) (Dictionary String) :=
  folder.entries.foldlM (fun found (path, stored) =>
    match isScriptPath path, stored with
    | true, .text content => .ok (found.insert (slashed path) content)
    | true, .unreadable fault => .error (path, fault)
    | _, _ => .ok found) .empty

end Folder

end ScriptEngine

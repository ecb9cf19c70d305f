import ThemedCss.CommandLine.Run

/-! The command line. -/
namespace ThemedCss

/-- The files, directories and links below a place. -/
partial def readTree (parts : List String) (found : FileTree) : IO FileTree := do
  let place := "/" ++ "/".intercalate parts
  let mut found := { found with entries := (parts, .directory) :: found.entries }
  for entry in ← IO.FS.DirEntry.path ⟨place, "."⟩ |>.readDir do
    let here := parts ++ [entry.fileName]
    match (← entry.path.symlinkMetadata).type with
    | .dir => found ← readTree here found
    | .file =>
      found :=
        { found with entries := (here, .file (← IO.FS.readBinFile entry.path).toList) ::
          found.entries }
    | .symlink =>
      let there := Path.ofString (← IO.FS.realPath entry.path).toString
      found := { found with links := (here, there.parts) :: found.links }
    | .other => pure ()
  return found

def ancestors (parts : List String) : List (List String × Entry) :=
  (List.range' 1 (parts.length - 1)).map fun n => (parts.take n, .directory)

/-- The file at a place, with the directories on the way to it. -/
def readPlace (parts : List String) : IO (List (List String × Entry)) := do
  try
    let content ← IO.FS.readBinFile ("/" ++ "/".intercalate parts)
    return (parts, .file content.toList) :: ancestors parts
  catch _ => return []

/-- The home directories of all users, as the system lists them. -/
def readUsers : IO (List (String × Path)) := do
  let lines ← try IO.FS.lines "/etc/passwd" catch _ => pure #[]
  return lines.toList.filterMap fun line =>
    match line.splitOn ":" with
    | [name, _, _, _, _, home, _] => some (name, .ofString home)
    | _ => none

/-- The project in the current directory, and the files that arguments or links name outside of
it. -/
def readWorkspace (arguments : List String) : IO Workspace := do
  let cwd := Path.ofString (← IO.currentDir).toString
  let own := Path.ofString ((← IO.getEnv "HOME").getD "/")
  let files ← readTree cwd.parts ⟨ancestors cwd.parts, cwd.parts, []⟩
  let w : Workspace :=
    { files, root := cwd, homes := ⟨own, ← readUsers⟩, logs := ← IO.getEnv "FLAIR_LOGS_DIR" }
  let named := (arguments.filterMap fun a => (w.resolve a).toOption).map (·.parts)
  let outside ← (named ++ files.links.map (·.2)).mapM fun parts =>
    if w.files.present ⟨true, parts⟩ then pure [] else readPlace parts
  return { w with files.entries := w.files.entries ++ outside.flatten }

def writeChanges (before after : FileTree) : IO Unit := do
  for (parts, entry) in after.entries.reverse do
    unless before.entries.lookup parts = some entry do
      let place := "/" ++ "/".intercalate parts
      match entry with
      | .directory => IO.FS.createDirAll place
      | .file content => IO.FS.writeBinFile place ⟨content.toArray⟩

end ThemedCss

open ThemedCss

def main (arguments : List String) : IO UInt32 := do
  match CommandLine.Command.ofArguments? arguments with
  | none =>
    IO.eprintln
      "usage: compile FILES... [-t THEME] [-o DIR] [--mapping] | extract RESOURCE | theme [-t THEME]"
    return 2
  | some command =>
    let w ← readWorkspace arguments
    match command.run w with
    | .error _ => return 1
    | .ok o =>
      (← IO.getStdout).write ⟨o.out.toArray⟩
      for line in o.errors do
        IO.eprintln line
      writeChanges w.files o.files
      return o.exitCode.toUInt32

import Fleet.Path.Normal

/-!
# Commands that move files

Files are sent and fetched by one `rsync` command a host, run locally.  Its paths are normal; the lists
of files to include and to exclude are read from the source's directory unless they are absolute.
-/

namespace Fleet

/-- What is sent to every host, and which files of it. -/
structure SyncSection where
  source : Path
  destination : String
  includeFile : Path
  excludeFile : Path
  deriving DecidableEq

/-- How a host is reached: the command and the user's name there. -/
structure Access where
  ssh : String
  user : String
  deriving DecidableEq

namespace Transfer

/-- The command that sends the local files to a host. -/
def sendCommand (files : SyncSection) (access : Access) (hostname : String) : String :=
  let source := files.source.normal
  "rsync -r -e '" ++ access.ssh ++ "' --exclude-from=" ++
    (files.excludeFile.normalFrom source).text ++ " --files-from=" ++
    (files.includeFile.normalFrom source).text ++ " --progress -uva " ++ source.text ++ "/ " ++
    access.user ++ "@" ++ hostname ++ ":" ++ files.destination

def fetchCommand (access : Access) (hostname : String) (directory destination : Path) : String :=
  "rsync -e '" ++ access.ssh ++ "' --progress -uva " ++ access.user ++ "@" ++ hostname ++ ":" ++
    directory.normal.text ++ "/ " ++ destination.text ++ "/"

end Transfer

end Fleet

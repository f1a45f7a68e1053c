import ApiClient.Command.Path

/-! Files and directories.

Every file and directory has its names from the root downwards. A path starts at the root or at
the working directory and is followed name by name, so everything on the way has to be a
directory; two dots lead to the directory above, at the root to the root. Files hold bytes;
reading a text needs them to be valid UTF-8.
-/

set_option autoImplicit false

namespace ApiClient.Command

inductive Entry where
  | directory
  | file (content : ByteArray)

structure FileSystem where
  entries : List (List String × Entry) := []
  workingDirectory : List String := []

namespace FileSystem

def entry? (system : FileSystem) (location : List String) : Option Entry :=
  if location = [] then some .directory else system.entries.lookup location

def put (system : FileSystem) (location : List String) (entry : Entry) : FileSystem :=
  { system with entries := system.entries.filter (·.1 != location) ++ [(location, entry)] }

def isDirectory (system : FileSystem) (location : List String) : Bool :=
  match system.entry? location with
  | some .directory => true
  | _ => false

def start (system : FileSystem) (path : String) : List String :=
  if Path.isAbsolute path then [] else system.workingDirectory

/-- Where names lead from a directory. Everything before the last name has to be a directory. -/
def follow? (system : FileSystem) : List String → List String → Option (List String)
  | here, [] => some here
  | here, name :: rest =>
    if !system.isDirectory here then none
    else if name = ".." then follow? system here.dropLast rest
    else follow? system (here ++ [name]) rest

def locate? (system : FileSystem) (path : String) : Option (List String) := do
  let location ← if path.isEmpty then none
    else system.follow? (system.start path) (Path.names path)
  if Path.meansDirectory path && !system.isDirectory location then none else return location

def read? (system : FileSystem) (path : String) : Option String := do
  match ← system.locate? path >>= system.entry? with
  | .directory => none
  | .file content => String.fromUTF8? content

/-- Creates the directories that names lead through; what was created before a failure stays. -/
def createAll (system : FileSystem) : List String → List String → Bool × FileSystem
  | _, [] => (true, system)
  | here, name :: rest =>
    if name = ".." then createAll system here.dropLast rest
    else
      let location := here ++ [name]
      match system.entry? location with
      | some .directory => createAll system location rest
      | some (.file _) => (false, system)
      | none => createAll (system.put location .directory) location rest

def createDirectories (system : FileSystem) (path : String) : Bool × FileSystem :=
  system.createAll (system.start path) (Path.names path)

def createParent (system : FileSystem) (path : String) : Bool × FileSystem :=
  match Path.parent? path with
  | none => (true, system)
  | some parent => system.createDirectories parent

def write? (system : FileSystem) (path text : String) : Option FileSystem := do
  let location ← system.locate? path
  if system.isDirectory location then none
  else return system.put location (.file text.toUTF8)

def add (system : FileSystem) (path : String) (entry : Entry) : FileSystem :=
  let names := Path.names path
  (system.createAll (system.start path) names.dropLast).2.put (system.start path ++ names) entry

end FileSystem

end ApiClient.Command

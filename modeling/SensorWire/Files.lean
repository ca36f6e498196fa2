import SensorWire.Failure

/-!
# Files of one directory

The files that a run of the program can see: names with their bytes, in one directory. A file can be created there and in the other
directories that are known to exist, and nowhere else.
-/

namespace SensorWire

/-- The files of a directory. -/
structure Files where
  entries : List (Text × List UInt8) := []
  /-- The directories beside it in which files can be created. -/
  directories : List Text := []
  deriving Inhabited

namespace Files

/-- Whether a name names the directory itself or one that holds it. -/
def isDirectory (path : Text) : Bool := [".", "..", "./", "../", "/"].any fun name => path == Text.ofString name

/-- The failure of using a directory as a file. -/
def directoryFailure (action : String) (path : Text) : Failure :=
  .note (Text.concat [action, " ", path, ": is a directory"])

/-- The directory part of a name and the name in it. -/
def splitName (path : Text) : Option Text × Text :=
  match (path.splitOn '/').reverse with
  | [] | [_] => (none, path)
  | name :: parts => (some (Text.join "/" parts.reverse), name)

/-- Whether a name lies in a directory that exists. -/
def isReachable (fs : Files) (path : Text) : Bool :=
  match splitName path with
  | (none, name) => !name.isEmpty
  | (some directory, name) => !name.isEmpty && fs.directories.contains directory

/-- Why no file can be created under a name. -/
def refusal? (fs : Files) (path : Text) : Option Failure :=
  if isDirectory path then some (directoryFailure "open" path)
  else if !fs.isReachable path then some (.missingFile "open" path)
  else none

/-- The bytes of a file, if it exists. -/
def find? (fs : Files) (path : Text) : Option (List UInt8) := fs.entries.lookup path

/-- The bytes of a file. -/
def read (fs : Files) (path : Text) : Except Failure (List UInt8) :=
  match fs.find? path with
  | some data => .ok data
  | none => .error (if isDirectory path then directoryFailure "read" path else .missingFile "open" path)

/-- Replaces the bytes of a file, which need not exist. -/
def put (fs : Files) (path : Text) (data : List UInt8) : Files :=
  if fs.entries.any fun e => e.1 == path then
    { fs with entries := fs.entries.map fun e => if e.1 == path then (path, data) else e }
  else { fs with entries := fs.entries ++ [(path, data)] }

/-- Creates a file or replaces its bytes. -/
def write (fs : Files) (path : Text) (data : List UInt8) : Except Failure Files :=
  match fs.refusal? path with
  | some err => .error err
  | none => .ok (fs.put path data)

/-- Puts bytes at the end of a file, which is created if it does not exist. -/
def append (fs : Files) (path : Text) (data : List UInt8) : Files := fs.put path ((fs.find? path).getD [] ++ data)

end Files

end SensorWire

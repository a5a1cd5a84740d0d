/-!
# Volumes

A volume is a tree of directories and files, given as the entries at its locations. `Volume.read`
follows a path through it and gives the contents of the file it ends at. A path is a list of bytes:
names divided by slashes, taken from the root if it begins with a slash and from the working
directory otherwise, where `.` stays and `..` goes up.

A path is refused before it is followed if it holds a zero byte, if it is empty, or if it is too
long altogether. On the way, a name is only looked up in a directory, and a name that is too long
is found nowhere. Reading ends in an error where the path leads to a directory.
-/

namespace ByteTape

/-- Why a file cannot be read. -/
inductive FileError where
  | zeroByte
  | missing
  | notDirectory
  | isDirectory
  | nameTooLong
  deriving DecidableEq, Repr

/-- The text of a file error, with the number the operating system gives it. -/
def FileError.message : FileError → String
  | zeroByte => "file name contained an unexpected NUL byte"
  | missing => "No such file or directory (os error 2)"
  | notDirectory => "Not a directory (os error 20)"
  | isDirectory => "Is a directory (os error 21)"
  | nameTooLong => "File name too long (os error 36)"

/-- The path and name of a location are made of bytes. -/
abbrev FileName := List UInt8

/-- What is found at a location. -/
inductive FileEntry where
  | directory
  | file (contents : List UInt8)
  deriving DecidableEq, Repr

/-- Entries by location, a location being the names that lead there from the root. -/
structure Volume where
  entries : List (List FileName × FileEntry)
  /-- The location from which relative paths are taken. -/
  workingDirectory : List FileName

namespace Volume

/-- The longest name that can be looked up. -/
def longestName : Nat := 255

/-- The longest path that can be followed. -/
def longestPath : Nat := 4095

/-- The entry at a location. The root is always there. -/
def entry? (volume : Volume) : List FileName → Option FileEntry
  | [] => some .directory
  | location => volume.entries.lookup location

/-- The names of a path, which slashes divide; a slash at an end or next to another leaves an empty
name. -/
def names : List UInt8 → List FileName
  | [] => [[]]
  | byte :: rest =>
      if byte = 0x2f then [] :: names rest
      else match names rest with
        | [] => [[byte]]
        | name :: more => (byte :: name) :: more

/-- Follows names from the entry at a location. An empty name stays there, but asks for a directory
as every other name does. -/
def follow (volume : Volume) (location : List FileName) (entry : FileEntry) :
    List FileName → Except FileError FileEntry
  | [] => .ok entry
  | name :: rest =>
      match entry with
      | .file _ => .error .notDirectory
      | .directory =>
          if name = [] ∨ name = [0x2e] then
            volume.follow location .directory rest
          else if name = [0x2e, 0x2e] then
            volume.follow location.dropLast .directory rest
          else if longestName < name.length then
            .error .nameTooLong
          else
            match volume.entry? (location ++ [name]) with
            | none => .error .missing
            | some found => volume.follow (location ++ [name]) found rest

/-- The contents of the file a path leads to. -/
def read (volume : Volume) (path : List UInt8) : Except FileError (List UInt8) :=
  if path.contains 0 then
    .error .zeroByte
  else if path = [] then
    .error .missing
  else if longestPath < path.length then
    .error .nameTooLong
  else
    let location := if path.head? = some 0x2f then [] else volume.workingDirectory
    match volume.follow location .directory (names path) with
    | .ok (.file contents) => .ok contents
    | .ok .directory => .error .isDirectory
    | .error error => .error error

end Volume

end ByteTape

import ApiGateway.Registry

/-!
# Files

The files of a host stand in one directory.  A path names one of them by its last
piece, after pieces that stay in the directory; every other path leads nowhere.

A file has its whole contents here.  Paths that can be opened while they have no size or cannot be
read are outside of this: a directory, such as the one of the path `.`, or a file under `/proc`.

Main definitions:

- `Files`: the contents of files by their names.
- `Files.nameOf?`: the name of the file to which a path leads.
- `Files.read?`: the contents of a file.

Main results:

- `Files.read?_put`: reading after writing.
-/

namespace ApiGateway

/-- The files of a directory by their names. -/
abbrev Files := Registry Bytes

namespace Files

/-- The greatest length of a path. -/
def maxPathLength : Nat :=
  4095

/-- The greatest length of a name. -/
def maxNameLength : Nat :=
  255

/-- A piece of a path that stays where it is: `.`, or nothing between two slashes. -/
def isIdle (piece : Bytes) : Bool :=
  piece.isEmpty || piece == Bytes.ofString "."

/-- Whether a piece can be the name of a file. -/
def isName (piece : Bytes) : Bool :=
  !isIdle piece && piece != Bytes.ofString ".." && piece.length ≤ maxNameLength

/-- The name at the end of the pieces of a path, if all pieces before it are idle. -/
def nameAfterIdle? : List Bytes → Option Bytes
  | [] => none
  | [piece] => if isName piece then some piece else none
  | piece :: rest => if isIdle piece then nameAfterIdle? rest else none

/--
The name of the file to which a path leads.  A path ends at its first zero byte and has a
limited length; one that starts with a slash leaves the directory.
-/
def nameOf? (path : Bytes) : Option Bytes :=
  let path := path.takeWhile (· != 0)
  if path.head? = some 47 || maxPathLength < path.length then
    none
  else
    nameAfterIdle? (Bytes.splitOn 47 path)

/-- Writes a file in place of an earlier one; nothing happens if the path leads nowhere. -/
def put (files : Files) (path content : Bytes) : Files :=
  match nameOf? path with
  | none => files
  | some name => files.insert name content

/-- The directory after files have been written in order. -/
def ofList (entries : List (Bytes × Bytes)) : Files :=
  entries.foldl (fun files entry => files.put entry.1 entry.2) Registry.empty

/-- The contents of the file to which a path leads. -/
def read? (files : Files) (path : Bytes) : Option Bytes :=
  (nameOf? path).bind files.find?

/-- All paths to a file lead to what was written last, and other files stay. -/
theorem read?_put (files : Files) (path other content name : Bytes)
    (h : nameOf? path = some name) :
    (files.put path content).read? other =
      if nameOf? other = some name then some content else files.read? other := by
  cases hother : nameOf? other with
  | none => simp [read?, hother]
  | some found => simp [read?, put, h, hother]

end Files
end ApiGateway

import ClassAtlas.SyntaxTree

/-!
# File trees

The files that a run works on, as a value. A file is known by the names on the way to it, and a
directory exists if it was made or if something lies in it.

A location is written as text, with slashes between names. `locate` walks it from the top: a point stays
where it is, two points go up, and each name is looked for in a directory that has to exist. What lies
above the top is out of reach.
-/

namespace ClassAtlas

/-- A file: its bytes and, for Ruby code, its syntax tree. -/
structure File where
  bytes : ByteArray := .empty
  tree : Option SyntaxTree := none
deriving Inhabited

namespace File

/-- A file with text in it. -/
def ofText (text : String) : File :=
  { bytes := text.toUTF8 }

/-- The text of a file, if its bytes are one. -/
def text? (file : File) : Option String :=
  String.fromUTF8? file.bytes

end File

/-- Files by the names on the way to them, and directories that exist even if they are empty. -/
structure FileTree where
  files : List (List String × File) := []
  folders : List (List String) := []
deriving Inhabited

namespace FileTree

/-- The pieces of a location between its slashes; there is at least one. -/
def split : List Char → List (List Char)
  | [] => [[]]
  | c :: rest =>
    if c = '/' then [] :: split rest
    else
      match split rest with
      | [] => [[c]]
      | piece :: pieces => (c :: piece) :: pieces

/-- The names, points and double points of a location. -/
def steps (location : String) : List String :=
  ((split location.toList).filter (fun piece => piece != [])).map String.ofList

/-- A location that starts at the root of the machine. -/
def isRooted (location : String) : Bool :=
  location.toList.head? == some '/'

/-- A location that can only be a directory. -/
def mustBeFolder (location : String) : Bool :=
  match (split location.toList).getLast? with
  | some piece => piece == [] || piece == ['.'] || piece == ['.', '.']
  | none => true

/-- A location inside another; one that is rooted stands alone. -/
def join (base inner : String) : String :=
  if isRooted inner || base.isEmpty then inner
  else if base.toList.getLast? == some '/' then base ++ inner
  else base ++ "/" ++ inner

/-- The file with these names. -/
def file? (tree : FileTree) (names : List String) : Option File :=
  tree.files.lookup names

/-- There is a directory with these names. -/
def hasFolder (tree : FileTree) (names : List String) : Bool :=
  names.isEmpty || tree.folders.any (fun folder => names.isPrefixOf folder)
    || tree.files.any (fun entry => names.isPrefixOf entry.1 && names.length < entry.1.length)

/-- Follows steps from a directory. The names of the directories on the way are innermost first. -/
def walk (tree : FileTree) : List String → List String → Option (List String)
  | here, [] => some here.reverse
  | here, step :: rest =>
    if !tree.hasFolder here.reverse then none
    else if step = "." then walk tree here rest
    else if step = ".." then
      match here with
      | [] => none
      | _ :: above => walk tree above rest
    else walk tree (step :: here) rest

/-- The names that a location leads to, whether or not something is there. -/
def locate (tree : FileTree) (location : String) : Option (List String) :=
  if isRooted location then none else walk tree [] (steps location)

/-- The directory at a location. -/
def folderAt? (tree : FileTree) (location : String) : Option (List String) :=
  (tree.locate location).filter (tree.hasFolder ·)

/-- The file at a location. -/
def fileAt? (tree : FileTree) (location : String) : Option File :=
  if mustBeFolder location then none else (tree.locate location).bind tree.file?

/-- Something is at a location. -/
def hasEntry (tree : FileTree) (location : String) : Bool :=
  (tree.folderAt? location).isSome || (tree.fileAt? location).isSome

/-- Puts a file under names. -/
def put (tree : FileTree) (names : List String) (file : File) : FileTree :=
  { tree with files := tree.files.filter (fun entry => entry.1 != names) ++ [(names, file)] }

/-- Takes the file with these names away; its directory stays. -/
def remove (tree : FileTree) (names : List String) : FileTree :=
  { files := tree.files.filter (fun entry => entry.1 != names),
    folders := names.dropLast :: tree.folders }

/-- Writes a file in a directory that exists, over a file that may be there but not over a
directory. -/
def write? (tree : FileTree) (location : String) (file : File) : Option FileTree :=
  if mustBeFolder location then none
  else
    match tree.locate location with
    | none => none
    | some names =>
      if tree.hasFolder names || !tree.hasFolder names.dropLast then none
      else some (tree.put names file)

/-- Follows steps from a directory and makes the directories that are missing. -/
def makeFolders (tree : FileTree) : List String → List String → Option FileTree
  | _, [] => some tree
  | here, step :: rest =>
    if step = "." then makeFolders tree here rest
    else if step = ".." then
      match here with
      | [] => none
      | _ :: above => makeFolders tree above rest
    else
      let names := (step :: here).reverse
      if (tree.file? names).isSome then none
      else makeFolders { tree with folders := names :: tree.folders } (step :: here) rest

/-- Makes the directory at a location, with all those on the way. -/
def makeFolderAt? (tree : FileTree) (location : String) : Option FileTree :=
  if isRooted location then none else makeFolders tree [] (steps location)

end FileTree

end ClassAtlas

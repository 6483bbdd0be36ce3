import ClassAtlas.IgnoreRule

/-!
# Source sets

The sources of a code base are the files under its root whose path from there matches one of the
included globs and none of the excluded ones, as far as they are visited at all. They come sorted by
the names on the way to them.
-/

namespace ClassAtlas

/-- Which files are sources. -/
structure SourceSet where
  /-- The location of the root. -/
  root : String
  included : List Glob
  excluded : List Glob
deriving Repr, Inhabited

/-- Why the sources cannot be listed. -/
inductive SourceError where
  | invalidGlob (glob : String)
  | rootNotFolder (root : String)
deriving DecidableEq, Repr, Inhabited

namespace SourceError

/-- The wording of the error. -/
def message : SourceError → String
  | .invalidGlob glob => "Invalid glob `" ++ glob ++ "`"
  | .rootNotFolder root => "Source root " ++ root ++ " is not a directory"

end SourceError

namespace SourceSet

/-- The globs that texts write, or the first text that is none. -/
def readGlobs : List String → Except SourceError (List Glob)
  | [] => .ok []
  | text :: rest =>
    match Glob.parse? text false false with
    | none => .error (.invalidGlob text)
    | some glob => (readGlobs rest).map (glob :: ·)

/-- The set that texts of globs describe. -/
def ofTexts (root : String) (included excluded : List String) : Except SourceError SourceSet :=
  match readGlobs included with
  | .error e => .error e
  | .ok included =>
    match readGlobs excluded with
    | .error e => .error e
    | .ok excluded => .ok ⟨root, included, excluded⟩

/-- A path from the root is that of a source. -/
def accepts (set : SourceSet) (path : String) : Bool :=
  set.included.any (·.accepts path) && !set.excluded.any (·.accepts path)

/-- Names in the order of files: name by name, by code points. -/
def namesLe (a b : List String) : Bool :=
  !decide (b < a)

/-- The names of the sources from the root, in order. -/
def below (set : SourceSet) (tree : FileTree) (root : List String) : List (List String) :=
  let found := tree.files.filter (fun entry =>
    root.isPrefixOf entry.1 && root.length < entry.1.length && tree.visits root entry.1
      && set.accepts ("/".intercalate (entry.1.drop root.length)))
  (found.map (fun entry => entry.1.drop root.length)).mergeSort namesLe

/-- The sources: the path of each from the root, and the file. -/
def files (set : SourceSet) (tree : FileTree) : Except SourceError (List (String × File)) :=
  match tree.folderAt? set.root with
  | none => .error (.rootNotFolder set.root)
  | some root =>
    .ok ((set.below tree root).map (fun names =>
      ("/".intercalate names, (tree.file? (root ++ names)).getD {})))

end SourceSet

end ClassAtlas

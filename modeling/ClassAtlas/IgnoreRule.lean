import ClassAtlas.FileTree
import ClassAtlas.Glob.Parser
import ClassAtlas.Text.Blank

/-!
# Ignore files

A line of an ignore file is a glob for files or directories that are not to be visited; with `!` in
front it takes them back in. In a file the last line that matches decides. Over several files, the
nearest directory decides, and `.ignore` comes before `.gitignore`, which comes before
`.git/info/exclude`.

A file is visited unless it, or a directory on the way to it, is skipped. An entry is skipped if an
ignore file says so, and, where none says anything, if its name starts with a point.
-/

namespace ClassAtlas

/-- A line of an ignore file. -/
structure IgnoreRule where
  glob : Glob
  /-- The line takes entries back in. -/
  restores : Bool
  /-- The line is about directories alone. -/
  folderOnly : Bool
deriving Repr, Inhabited

namespace IgnoreRule

/-- The text of a line without the blanks at its end, unless the last one is escaped. -/
def trimLine (line : List Char) : List Char :=
  if ['\\', ' '].isSuffixOf line then line else Text.trimRight line

/-- A line from which the marks in front are taken: whether it takes entries back in, whether it
starts at the directory of its file, and the rest. -/
def marks (line : List Char) : Bool × Bool × List Char :=
  match line with
  | '\\' :: '!' :: rest => (false, false, '!' :: rest)
  | '\\' :: '#' :: rest => (false, false, '#' :: rest)
  | '!' :: '/' :: rest => (true, true, rest)
  | '!' :: rest => (true, false, rest)
  | '/' :: rest => (false, true, rest)
  | _ => (false, false, line)

/-- A slash at the end, with a backslash before it, is taken off. -/
def dropSlash (line : List Char) : Bool × List Char :=
  match line.reverse with
  | '/' :: '\\' :: before => (true, before.reverse)
  | '/' :: before => (true, before.reverse)
  | _ => (false, line)

/-- The glob of a line: without a slash it matches in any directory below, and with `/**` at its end it
asks for something below. -/
def globText (anchored : Bool) (line : List Char) : List Char :=
  let placed :=
    if !anchored && !line.contains '/' && line != ['*', '*'] then
      ['*', '*', '/'] ++ line
    else line
  if ['/', '*', '*'].isSuffixOf placed then placed ++ ['/', '*'] else placed

/-- The rule of a line. Comments, empty lines and lines that are no glob have none. -/
def parse? (text : String) : Option IgnoreRule :=
  match text.toList with
  | '#' :: _ => none
  | cs =>
    match trimLine cs with
    | [] => none
    | line =>
      let (restores, anchored, rest) := marks line
      let (folderOnly, body) := dropSlash rest
      (Glob.parse? (String.ofList (globText anchored body)) true true).map
        (fun glob => ⟨glob, restores, folderOnly⟩)

/-- The rule is about an entry, given by its path from the directory of the ignore file. -/
def appliesTo (rule : IgnoreRule) (path : String) (isFolder : Bool) : Bool :=
  (!rule.folderOnly || isFolder) && rule.glob.accepts path

end IgnoreRule

/-- What ignore files say about an entry. -/
inductive Verdict where
  | ignored
  | restored
deriving DecidableEq, Repr, Inhabited

namespace Verdict

/-- The verdict of the lines of one file: that of the last one that matches. -/
def ofRules (rules : List IgnoreRule) (path : String) (isFolder : Bool) : Option Verdict :=
  (rules.reverse.find? (fun rule => rule.appliesTo path isFolder)).map
    (fun rule => if rule.restores then .restored else .ignored)

end Verdict

namespace FileTree

/-- The lines of bytes, without a carriage return that stands before the end of a line. -/
def byteLines (bytes : List UInt8) : List (List UInt8) :=
  match (bytes.splitOn 10).reverse with
  | last :: others =>
    let trimmed := others.map (fun line => if line.getLast? == some 13 then line.dropLast else line)
    (last :: trimmed).reverse
  | [] => []

/-- The texts of lines up to the first that is no text. -/
def textsOf : List (List UInt8) → List String
  | [] => []
  | line :: rest =>
    match String.fromUTF8? ⟨line.toArray⟩ with
    | some text => text :: textsOf rest
    | none => []

/-- The lines of a file; byte order marks at the very front do not count. -/
def linesOf (file : File) : List String :=
  match textsOf (byteLines file.bytes.toList) with
  | first :: rest => String.ofList (first.toList.dropWhile (· == '\uFEFF')) :: rest
  | [] => []

/-- The rules of an ignore file. -/
def rulesAt (tree : FileTree) (names : List String) : List IgnoreRule :=
  match tree.file? names with
  | some file => (linesOf file).filterMap IgnoreRule.parse?
  | none => []

/-- The names of ignore files in a directory, those that come first first. -/
def ignoreFiles : List (List String) :=
  [[".ignore"], [".gitignore"], [".git", "info", "exclude"]]

/-- The directories on the way to an entry, nearest first, each with the path from there. -/
def waysTo (names : List String) : List (List String × String) :=
  (List.range names.length).reverse.map
    (fun depth => (names.take depth, "/".intercalate (names.drop depth)))

/-- What the ignore files of one name say about an entry. -/
def verdictOf (tree : FileTree) (fileName names : List String) (isFolder : Bool) : Option Verdict :=
  (waysTo names).findSome? (fun (folder, path) =>
    Verdict.ofRules (tree.rulesAt (folder ++ fileName)) path isFolder)

/-- An entry is skipped. -/
def skips (tree : FileTree) (names : List String) (isFolder : Bool) : Bool :=
  match ignoreFiles.findSome? (fun fileName => tree.verdictOf fileName names isFolder) with
  | some .ignored => true
  | some .restored => false
  | none => (names.getLast?.getD "").toList.head? == some '.'

/-- A file below a directory is visited: nothing on the way to it is skipped. The directory itself is
never asked. -/
def visits (tree : FileTree) (root names : List String) : Bool :=
  ((List.range names.length).drop root.length).all (fun depth =>
    !tree.skips (names.take (depth + 1)) (depth + 1 < names.length))

end FileTree

end ClassAtlas

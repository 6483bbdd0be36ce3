import ClassAtlas.Pattern.Basic

/-!
# Globs

A glob describes paths of files. It is matched against the bytes of a path, so a question mark stands
for one byte and a bracket for one of the bytes of the characters in it.

`**` at the front followed by a slash stands for any directories or none, `/**` at the end for anything
below, and `/**/` for any directories or none in between.

A path that ends in a point has no file name. A glob that is matched by the name of a file alone, or by
its extension, therefore never describes such a path.
-/

namespace ClassAtlas

/-- One piece of a glob. -/
inductive GlobToken where
  /-- A character that stands for itself. -/
  | char (c : Char)
  /-- `?`: any one byte. -/
  | any
  /-- `*`: any number of bytes. -/
  | star
  /-- `**/` at the front. -/
  | leading
  /-- `/**` at the end. -/
  | trailing
  /-- `/**/` in between. -/
  | between
  /-- A bracket with ranges of characters. -/
  | set (negated : Bool) (ranges : List (Char × Char))
  /-- Alternatives in braces. -/
  | choice (branches : List (List GlobToken))
deriving Repr, Inhabited

/-- A glob. In a `strict` one, `*` and `?` do not stand for a slash. -/
structure Glob where
  tokens : List GlobToken
  strict : Bool := false
deriving Repr, Inhabited

namespace Glob

/-- A text as its bytes, each written as the character with its number. -/
def bytes (text : String) : List Char :=
  text.toUTF8.toList.map (fun b => Char.ofNat b.toNat)

/-- Any byte. -/
def anyByte : Pattern := .one .all

/-- Any byte, in a strict glob none that is a slash. -/
def wild (strict : Bool) : Pattern :=
  if strict then .one (.compl (.single '/')) else anyByte

/-- Any number of any bytes. -/
def anything : Pattern := .many anyByte 0 none

/-- The slash. -/
def slash : Pattern := .one (.single '/')

/-- The bytes of a range: from a character beyond ASCII to another, the bytes in front of the last byte
of the first, the run from that byte to the first byte of the second, and the bytes after it. -/
def rangeBytes (range : Char × Char) : CharClass :=
  let first := bytes (String.ofList [range.1])
  let last := bytes (String.ofList [range.2])
  let singles := fun (cs : List Char) => cs.foldr (fun c set => CharClass.union (.single c) set) .empty
  if range.1 = range.2 then singles first
  else
    .union (singles first.dropLast)
      (.union (.range (first.getLastD 'a').toNat (last.headD 'a').toNat) (singles last.tail))

mutual

/-- The patterns of a piece, one after the other. -/
def tokenPatterns (strict : Bool) : GlobToken → List Pattern
  | .char c => (bytes (String.ofList [c])).map (fun b => .one (.single b))
  | .any => [wild strict]
  | .star => [.many (wild strict) 0 none]
  | .leading => [.alt (.many slash 0 (some 1)) (.seq anything slash)]
  | .trailing => [.seq slash anything]
  | .between => [.alt slash (.seq slash (.seq anything slash))]
  | .set negated ranges =>
    let set := ranges.foldr (fun range set => CharClass.union (rangeBytes range) set) .empty
    [.one (.negateIf negated set)]
  | .choice branches =>
    match branchPatterns strict branches with
    | [] => []
    | patterns => [Pattern.choice patterns]

/-- The patterns of several pieces, one after the other. -/
def patterns (strict : Bool) : List GlobToken → List Pattern
  | [] => []
  | token :: rest => tokenPatterns strict token ++ patterns strict rest

/-- The patterns of alternatives; empty alternatives do not count. -/
def branchPatterns (strict : Bool) : List (List GlobToken) → List Pattern
  | [] => []
  | branch :: rest =>
    match patterns strict branch with
    | [] => branchPatterns strict rest
    | parts => Pattern.sequence parts :: branchPatterns strict rest

end

/-- The pattern of a glob over the bytes of a path. -/
def pattern (g : Glob) : Pattern :=
  match g.tokens with
  | [.leading] => anything
  | tokens => Pattern.sequence (patterns g.strict tokens)

/-- The characters of pieces that all stand for themselves. -/
def literal? : List GlobToken → Option (List Char)
  | [] => some []
  | .char c :: rest => (literal? rest).map (c :: ·)
  | _ => none

/-- A star in front of literal text, which makes the glob a test of how a path ends; with a point alone
it is a test of an extension. -/
def endsLiterally (strict : Bool) (rest : List GlobToken) : Bool :=
  match literal? rest with
  | some text => !strict && text != ['.']
  | none => false

/-- A glob that ends in a point describes a path that does only if it is compared with the whole path
or with its end. -/
def allowsPoint (g : Glob) : Bool :=
  match g.tokens with
  | .leading :: .star :: rest => endsLiterally g.strict rest
  | .leading :: rest => (literal? rest).any (fun text => text.contains '/')
  | .star :: rest => endsLiterally g.strict rest
  | tokens => (literal? tokens).isSome

/-- The last piece is a point. -/
def endsInPoint (g : Glob) : Bool :=
  match g.tokens.getLast? with
  | some (.char '.') => true
  | _ => false

/-- The glob describes a path. -/
def accepts (g : Glob) (path : String) : Bool :=
  g.pattern.describes (bytes path) && (!g.endsInPoint || g.allowsPoint)

end Glob

end ClassAtlas

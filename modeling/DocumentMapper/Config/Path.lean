import DocumentMapper.Text.Basic

/-
  File paths as texts.

  Key definitions include:
    * `Path.isAbsolute`
    * `Path.join`
    * `Path.parent`
    * `Path.expandHome`
-/

namespace DocumentMapper

/- A path is a text with slashes between its components. -/
abbrev Path := Text

namespace Path

/- The path starts at the root. -/
def isAbsolute
    (p : Path) : Bool :=
  p.head? = some 0x2F

/-
  Follow `b` from `a`. An absolute `b` replaces `a`; else
  exactly one slash is between them, unless `a` is empty.
-/
def join
    (a b : Path) : Path :=
  if isAbsolute b then b
  else if a = [] then b
  else if a.getLast? = some 0x2F then a ++ b
  else a ++ 0x2F :: b

/-
  The path without its last component and the slashes before
  it; the root stays. A path of one component has an empty
  parent.
-/
def parent
    (p : Path) : Path :=
  let above := p.reverse.dropWhile fun b => b ≠ 0x2F
  match above.dropWhile fun b => b = 0x2F with
  | [] => above.take 1
  | rest => rest.reverse

/-
  A path that begins with a tilde, taken below the home
  directory: the tilde and the byte behind it are dropped.
  Without a home directory the path stays.
-/
def expandHome
    (home? : Option Path)
    (p : Path) : Path :=
  match p, home? with
  | 0x7E :: rest, some home => join home (rest.drop 1)
  | p, _ => p

end Path

end DocumentMapper

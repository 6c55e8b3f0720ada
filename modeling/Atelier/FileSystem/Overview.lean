import Atelier.FileSystem.Tree

/-!
# A tree at a glance

Everything in a file tree, in order, as path texts: directories with a slash behind them, files with
what they hold.
-/

namespace Atelier

namespace FileTree

/-- A line of the overview: a path, and the text of a file. -/
def overviewLine (e : Location × Item) : String × Option String :=
  match e.2 with
  | .directory => (e.1.text ++ "/", none)
  | .file content => (e.1.text, some (Text.lossy content.data.toList))

/-- Everything in a tree, each directory before what it holds. -/
def overview (t : FileTree) : List (String × Option String) :=
  t.entries.map overviewLine

end FileTree

end Atelier

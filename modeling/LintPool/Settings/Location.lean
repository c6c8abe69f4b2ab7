import LintPool.Tree

/-!
# Where settings are found

Settings are read from the file that the user names, or else from a file of a well-known name in the
working directory.

## Main definitions

* `LintPool.Settings.locate` : the path of the settings file.
-/

namespace LintPool.Settings

/-- The names under which settings are looked for, the preferred one first. -/
def fileNames : List Bytes := [utf8 "phpscan.yaml", utf8 "phpscan.yaml.dist"]

/-- The path of the settings file: the one that is named, or else the first well-known one that
exists. Empty if there is none. -/
def locate (tree : Tree) (named : Bytes) : Bytes :=
  if named.isEmpty then (fileNames.find? tree.exists?).getD [] else named

end LintPool.Settings

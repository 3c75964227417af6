import SourceGauge.FileTree.Basic
import SourceGauge.Glob.Reader

/-!
# What is discovered

The options of a discovery, and the notices that it gives. A file is a source file when
its name ends with one of a set of suffixes.
-/

namespace SourceGauge.Extension

/-- The suffix without surrounding blanks, and with a leading dot. -/
def normalize (ext : List Char) : List Char :=
  let trimmed := Text.trim ext
  if trimmed.head? = some '.' then trimmed else '.' :: trimmed

/-- Blanks around a suffix do not matter. -/
theorem normalize_blanks {left right : List Char} (ext : List Char)
    (hleft : ∀ c ∈ left, Text.isBlank c = true) (hright : ∀ c ∈ right, Text.isBlank c = true) :
    normalize (left ++ ext ++ right) = normalize ext := by
  unfold normalize Text.trim
  rw [Text.trimBy_margins ext hleft hright]

/-- Nor does it matter whether the dot before a suffix is written. -/
theorem normalize_dot {ext : List Char}
    (h : ∀ c, ext.head? = some c → c ≠ '.' ∧ Text.isBlank c = false) :
    normalize ('.' :: ext) = normalize ext := by
  have hhead : (Text.trim ext).head? ≠ some '.' := by
    intro hdot
    obtain ⟨rest, hrest⟩ : Text.trim ext <+: ext := by
      rw [Text.trim, Text.trimBy, Text.dropWhile_of_head fun c hc => (h c hc).2,
        ← List.reverse_suffix, List.reverse_reverse]
      exact List.dropWhile_suffix _
    refine (h '.' ?_).1 rfl
    rw [← hrest, List.head?_append, hdot]
    rfl
  have hdotted : Text.trim ('.' :: ext) = '.' :: Text.trim ext :=
    Text.trimBy_cons (by decide) fun c hc => (h c hc).2
  unfold normalize
  rw [hdotted, if_neg hhead]
  rfl

def nameMatches (name : List Char) (exts : List (List Char)) : Bool :=
  exts.any fun ext => ext.isSuffixOf name

/-- Whether the last component of a path is a name that ends with one of the suffixes. -/
def pathMatches (path : Path) (exts : List (List Char)) : Bool :=
  path.fileName?.any (nameMatches · exts)

end SourceGauge.Extension

namespace SourceGauge.Discovery

structure Options where
  extensions : List (List Char)
  excludes : List (List Char)
  gitignore : Bool
deriving DecidableEq, Repr

inductive Notice where
  | badExclude (glob : List Char) (fault : Glob.Fault)
  /-- A link leads to a directory that is being visited. -/
  | loop (link ancestor : Path)
  /-- An entry leads nowhere. -/
  | unreadable (path : Path) (cause : FileError)
deriving DecidableEq, Repr

namespace Notice

def isDetail : Notice → Bool
  | badExclude .. => false
  | loop .. | unreadable .. => true

def message : Notice → List Char
  | badExclude glob fault =>
      "WARNING: invalid exclude pattern '".toList ++ glob ++ "': error parsing glob '".toList ++
        glob ++ "': ".toList ++ fault.message
  | loop link ancestor =>
      "[VERBOSE] Skipping unreadable entry: File system loop found: ".toList ++ link.text ++
        " points to an ancestor ".toList ++ ancestor.text
  | unreadable path cause =>
      "[VERBOSE] Skipping unreadable entry: ".toList ++ path.text ++
        ": IO error for operation on ".toList ++ path.text ++ ": ".toList ++
        cause.message.toList

end Notice

def validExcludes (globs : List (List Char)) : List Glob.Pattern :=
  globs.filterMap fun g => (Glob.compile Glob.nameOptions g).toOption

def excludeNotices (globs : List (List Char)) : List Notice :=
  globs.filterMap fun g =>
    match Glob.compile Glob.nameOptions g with
    | .ok _ => none
    | .error fault => some (.badExclude g fault)

def isExcluded (patterns : List Glob.Pattern) (name : Name) : Bool :=
  patterns.any fun p => p.accepts (Text.encode name)

end SourceGauge.Discovery

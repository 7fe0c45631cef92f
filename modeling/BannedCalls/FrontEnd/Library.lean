import BannedCalls.FrontEnd.Parsing

/-!
# The library of the front end

Where the shared library of the front end is looked for: at the place that the environment names,
then in the bundle of a packaged program and beside the program's own module, and last where a
package manager puts it.
-/

namespace BannedCalls

namespace LibrarySearch

def names : List Text := ["libclang.dylib", "libclang.so", "libclang.dll"]

def systemPaths : List Text :=
  ["/opt/homebrew/opt/llvm/lib/libclang.dylib", "/usr/local/opt/llvm/lib/libclang.dylib"]

end LibrarySearch

/-- A variable that is set but empty counts as one that is not set. -/
def Host.setting? (host : Host) (name : Text) : Option Text :=
  match host.environment.find? fun entry => entry.1 = name with
  | some entry => if entry.2 = [] then none else some entry.2
  | none => none

/-- Who is searching: the path of its module, and the bundle that it was packaged in, if any. -/
structure LibrarySearch where
  host : Host
  moduleFile : Text
  bundle : Option Text

namespace LibrarySearch

/-- The search of a program, which has a bundle only if it is frozen. -/
def ofProgram (host : Host) (moduleFile : Text) (frozen : Bool) (bundle : Option Text) :
    LibrarySearch :=
  ⟨host, moduleFile, if frozen then bundle else none⟩

def firstExisting? (s : LibrarySearch) (candidates : List Text) : Option Text :=
  candidates.find? s.host.fileSystem.exists?

/-- A directory is searched by name; otherwise, and also if it holds no library, the path itself
may be one. -/
def inEnvironment? (s : LibrarySearch) : Option Text := do
  let path ← (s.host.setting? "LIBCLANG_FILE").or (s.host.setting? "LIBCLANG_PATH")
  let named :=
    if s.host.fileSystem.isDirectory path then s.firstExisting? (names.map (Path.join path))
    else none
  named.or (if s.host.fileSystem.isFile path then some path else none)

def roots (s : LibrarySearch) : List Text :=
  (s.bundle.filter (· ≠ [])).toList ++
    [Path.absolute s.host.fileSystem.workingDirectory (Path.parent s.moduleFile)]

def inRoot? (s : LibrarySearch) (root : Text) : Option Text :=
  names.findSome? fun name =>
    s.firstExisting? [Path.join root name, Path.join root (Path.join "lib" name)]

def result (s : LibrarySearch) : Option Text :=
  (s.inEnvironment?.or (s.roots.findSome? s.inRoot?)).or (s.firstExisting? systemPaths)

end LibrarySearch

end BannedCalls

import BannedCalls.FileSystem.Path

/-!
# File systems

Files, directories and symbolic links, under the paths by which they were entered. Two paths
name the same thing when they resolve to the same path. Every directory on the way to a file or
a directory exists, and so do the root and the working directory; what is a file is no directory.

A path is resolved step by step. A link is replaced by its target, which starts from the link's
directory unless it is rooted. A link that comes up under the same spelling while its own target
is being resolved stays as it is, together with all that follows. A path that is not rooted keeps
its spelling up to the end, so a link in the working directory is `a` there and `/work/a` behind
a rooted target.
-/

namespace BannedCalls

structure FileSystem where
  files : List (Text × List UInt8)
  directories : List Text
  links : List (Text × Text)
  workingDirectory : Text

namespace FileSystem

/-- How far a resolution got, and whether it stopped at a link that leads to itself. -/
structure Resolution where
  path : Text
  looped : Bool

/-- The steps that a loop leaves stand as they are spelled. Behind a doubled slash they are a
rooted path of their own. -/
def leave (path : Text) (rest : List Text) : Resolution :=
  ⟨Path.join path (Text.join [Path.separator] rest), true⟩

/-- Where the steps of `p` start when it is met at `path`. -/
def start (path p : Text) : Text := if Path.isRooted p then [Path.separator] else path

/-- Of two links at one path the later counts. -/
def target? (fs : FileSystem) (p : Text) : Option Text :=
  (fs.links.reverse.find? fun link =>
    Path.absolute fs.workingDirectory link.1 = Path.absolute fs.workingDirectory p).map Prod.snd

/-- Takes the steps one by one; `busy` holds the links whose targets are being resolved, and
`follow` resolves the target of a further one. -/
def resolveSteps (fs : FileSystem) (follow : List Text → Text → List Text → Resolution)
    (busy : List Text) (path : Text) : List Text → Resolution
  | [] => ⟨path, false⟩
  | step :: rest =>
    if step = [] ∨ step = "." then resolveSteps fs follow busy path rest
    else if step = ".." then resolveSteps fs follow busy (Path.up path) rest
    else
      let next := Path.join path step
      match fs.target? next with
      | none => resolveSteps fs follow busy next rest
      | some target =>
        if next ∈ busy then leave next rest
        else
          let reached := follow (next :: busy) (start path target) (Path.steps target)
          if reached.looped then leave reached.path rest
          else resolveSteps fs follow busy reached.path rest

/-- Follows links inside links up to a depth. -/
def resolve (fs : FileSystem) : Nat → List Text → Text → List Text → Resolution
  | 0 => resolveSteps fs fun _ path rest => leave path rest
  | depth + 1 => resolveSteps fs (resolve fs depth)

/-- A resolution that ends meets a link at most three times inside itself: as spelled from the
working directory, from above it, and from the root. One that climbs further with every round
has no end. -/
def depth (fs : FileSystem) : Nat := 3 * fs.links.length

/-- The absolute path that `p` resolves to. -/
def realPath (fs : FileSystem) (p : Text) : Text :=
  Path.absolute fs.workingDirectory
    (fs.resolve fs.depth [] (start [] p) (Path.steps p)).path

def contents? (fs : FileSystem) (p : Text) : Option (List UInt8) :=
  (fs.files.find? fun file => fs.realPath file.1 = fs.realPath p).map Prod.snd

def isFile (fs : FileSystem) (p : Text) : Bool := p ≠ [] && (fs.contents? p).isSome

/-- The resolved paths of all directories, of which those on the way to a file are some. -/
def directoryPaths (fs : FileSystem) : List Text :=
  let entered := fs.workingDirectory :: fs.directories.map fs.realPath
  entered ++ (entered ++ fs.files.map fun file => fs.realPath file.1).flatMap Path.ancestors

def isDirectory (fs : FileSystem) (p : Text) : Bool :=
  p ≠ [] && !fs.isFile p && fs.directoryPaths.contains (fs.realPath p)

def exists? (fs : FileSystem) (p : Text) : Bool := fs.isFile p || fs.isDirectory p

end FileSystem

end BannedCalls

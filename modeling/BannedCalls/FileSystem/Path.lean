import BannedCalls.Text.Basic

/-!
# Paths

A path is a text whose steps are separated by slashes. Exactly two slashes at the start are kept,
any other number counts as one. Nothing here asks a file system.
-/

namespace BannedCalls

namespace Path

def separator : CodePoint := '/'

def isRooted (p : Text) : Bool := p.head? == some separator

def steps (p : Text) : List Text := Text.splitOn separator p

def join (base p : Text) : Text :=
  if isRooted p then p
  else if base = [] ∨ base.getLast? = some separator then base ++ p
  else base ++ [separator] ++ p

/-- What follows the last slash. -/
def baseName (p : Text) : Text := (p.reverse.takeWhile (· ≠ separator)).reverse

/-- What precedes the last slash, without the slashes at its end unless there is nothing else. -/
def parent (p : Text) : Text :=
  let head := (p.reverse.dropWhile (· ≠ separator)).reverse
  if head.all (· = separator) then head
  else (head.reverse.dropWhile (· = separator)).reverse

/-- The slashes that stand for the root of a path. -/
def root (p : Text) : Text :=
  match (p.takeWhile (· = separator)).length with
  | 0 => []
  | 2 => [separator, separator]
  | _ => [separator]

def orDot (p : Text) : Text := if p = [] then "." else p

/-- A step up takes back the step before it, and is dropped at the root. The steps taken stand
last first. -/
def take (rooted : Bool) (taken : List Text) (step : Text) : List Text :=
  if step = [] ∨ step = "." then taken
  else if step = ".." then
    match taken with
    | [] => if rooted then [] else [step]
    | last :: before => if last = step then step :: taken else before
  else step :: taken

def normalize (p : Text) : Text :=
  orDot (root p ++ Text.join [separator] ((steps p).foldl (take (isRooted p)) []).reverse)

def absolute (workingDirectory p : Text) : Text := normalize (join workingDirectory p)

/-- The way a message shows a path: without empty and `.` steps. -/
def shown (p : Text) : Text :=
  orDot (root p ++ Text.join [separator] ((steps p).filter fun step => step ≠ [] ∧ step ≠ "."))

/-- One step up. A path that starts with steps up instead of at the root gets one more of them. -/
def up (p : Text) : Text :=
  if p = [] then ".."
  else if baseName p = ".." then join (join (parent p) "..") ".."
  else parent p

/-- The directories on the way to a normal path, from the root on. -/
def ancestors (p : Text) : List Text :=
  let names := (steps p).filter (· ≠ [])
  (List.range names.length).map fun n => root p ++ Text.join [separator] (names.take n)

example : shown "///a//b/./c" = "/a/b/c" := by decide

example : normalize "/a/./b/../c" = "/a/c" := by decide

example : parent "//" = "//" := by decide

example : up "../.." = "../../.." := by decide

example : ancestors "/a/b" = [("/" : Text), "/a"] := by decide

end Path

end BannedCalls

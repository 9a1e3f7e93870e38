import PortalScript.Table
import PortalScript.Text.Split

/-! # Sources

Texts are read from named sources. `Directory.read` finds a source by its path in a directory held
in memory. `LoadReport.load` reads many at once: a source that cannot be read, or is empty, is
reported and left out, and the others are not affected. -/

namespace PortalScript

inductive ReadError
  | missing
  | directory
  | notDirectory
  | nameTooLong
  | nulInName
  | notText
  | empty
  | other (reason : String)
deriving Repr, DecidableEq

def ReadError.message : ReadError → String
  | missing => "No such file or directory (os error 2)"
  | directory => "Is a directory (os error 21)"
  | notDirectory => "Not a directory (os error 20)"
  | nameTooLong => "File name too long (os error 36)"
  | nulInName => "file name contained an unexpected NUL byte"
  | notText => "stream did not contain valid UTF-8"
  | empty => "empty"
  | other reason => reason

/-- What a name stands for in a directory. -/
inductive Source
  | text (content : String)
  | bytes (content : ByteArray)
  | directory

def Source.read : Source → Except ReadError String
  | text content => .ok content
  | bytes content =>
    match String.fromUTF8? content with
    | some content => .ok content
    | none => .error .notText
  | directory => .error .directory

/-- The sources below a directory by path, the names in a path divided by slashes. -/
abbrev Directory := Table Source

namespace Directory

def maxNameBytes : Nat := 255

def maxPathBytes : Nat := 4095

/-- The directory at the root, as far as it is the same everywhere. -/
def root : Directory :=
  ⟨[("dev", .directory), ("dev/null", .text ""), ("etc", .directory), ("proc", .directory),
    ("sys", .directory), ("tmp", .directory), ("usr", .directory), ("var", .directory)]⟩

/-- Follows the names of a path from a place below the directory, given by the names that lead there,
the last one first. The place above the directory itself is `above`. Nothing is known of a place that
is `none`. -/
def follow (d : Directory) (above place : Option (List String)) :
    List String → Except ReadError String
  | [] => .error .directory
  | name :: rest =>
    if name = "" || name = "." then follow d above place rest
    else if name = ".." then
      match place with
      | some (_ :: outer) => follow d above (some outer) rest
      | some [] => follow d above above rest
      | none => follow d above none rest
    else if maxNameBytes < name.utf8ByteSize then .error .nameTooLong
    else
      let path := place.map (name :: ·)
      match path.bind fun names => d.get? ("/".intercalate names.reverse) with
      | none => .error .missing
      | some .directory => follow d above path rest
      | some source => if rest.isEmpty then source.read else .error .notDirectory

/-- Reads the text at a path. A path that starts with a slash is followed from the root, above which
there is only the root again. -/
def read (d : Directory) (path : String) : Except ReadError String :=
  let names := (Text.splitOn '/' path.toList).map String.ofList
  if path.toList.any (·.toNat = 0) then .error .nulInName
  else if maxPathBytes < path.utf8ByteSize then .error .nameTooLong
  else if path.isEmpty then .error .missing
  else if path.startsWith "/" then follow root (some []) (some []) names
  else follow d none (some []) names

end Directory

/-- What loading sources gave: the texts in order, and each source left out with its reason. -/
structure LoadReport where
  texts : List String := []
  failures : List (String × ReadError) := []

def LoadReport.load (read : String → Except ReadError String) : List String → LoadReport
  | [] => {}
  | name :: rest =>
    let report := load read rest
    match read name with
    | .ok content =>
      if content.isEmpty then { report with failures := (name, .empty) :: report.failures }
      else { report with texts := content :: report.texts }
    | .error e => { report with failures := (name, e) :: report.failures }

end PortalScript

import Scaffold.Shell.Machine
import Scaffold.Shell.Printing

/-!
# What utilities have in common

A utility takes its arguments and changes the machine, and sets its status.  Many read the files that
they are given, or what there is to read where none is named, and complain of those that are missing.
-/

namespace Scaffold

namespace Shell

/-- A program that a script can start. -/
abbrev Utility := List String → Machine → Machine

namespace Utility

/-- A text between the quotes of some messages. -/
def typeset (s : String) : String := "\u2018" ++ s ++ "\u2019"

/-- The letters of the options in front, and the arguments behind them. -/
def options : List String → List Char × List String
  | [] => ([], [])
  | a :: rest =>
    if a = "--" then ([], rest)
    else match a.toList with
      | '-' :: c :: cs =>
        let (more, rest) := options rest
        (c :: cs ++ more, rest)
      | _ => ([], a :: rest)

/-- The content of a file, or what is read for a hyphen. -/
def readArgument (m : Machine) (s : String) : Except FileFault (List UInt8) :=
  if s = "-" || s = "/dev/stdin" then .ok m.input
  else if s = "/dev/null" then .ok []
  else (m.tree.read (m.path s)).map (·.toOctets)

/-- How a utility complains of a file that it cannot read. -/
structure Complaint where
  text : String → FileFault → String
  status : Int := 1

/-- The usual complaint. -/
def Complaint.usual (name : String) : Complaint where
  text f e := name ++ ": " ++ f ++ ": " ++ reason e

/-- A complaint that tells opening from reading. -/
def Complaint.ofOpening (name : String) : Complaint where
  text f e := name ++ ": " ++ (match e with
    | .isDirectory _ => "error reading " ++ quoted f
    | _ => "cannot open " ++ quoted f ++ " for reading") ++ ": " ++ reason e

/-- The contents of files, or what is read where there are none; missing files are complained of. -/
def gather (c : Complaint) (files : List String) (m : Machine) : List UInt8 × Machine :=
  if files.isEmpty then (m.done 0).drain
  else files.foldl
    (fun (bs, m) f => match readArgument m f with
      | .ok more => (bs ++ more, m)
      | .error e => (bs, m.fail (c.text f e) c.status))
    ([], m.done 0)

/-- A filter from octets to octets over files. -/
def filter (c : Complaint) (f : List UInt8 → List UInt8) (files : List String) (m : Machine) : Machine :=
  let (bs, m) := gather c files m
  m.printOctets (f bs)

/-- The lines of octets as texts without their line feeds. -/
def textLines (bs : List UInt8) : List String :=
  (octetLines bs).map fun l => Utf8.decodeLenient (if l.getLast? == some 10 then l.dropLast else l)

/-- Lines with their line feeds. -/
def unlines (ls : List String) : List UInt8 := Utf8.encode (String.join (ls.map (· ++ "\n")))

/-- A count in decimal digits. -/
def countText (n : Nat) : String := intText n

/-- A text filled up with blanks in front. -/
def alignRight (width : Nat) (s : String) : String :=
  String.ofList (List.replicate (width - s.length) ' ') ++ s

end Utility

end Shell

end Scaffold

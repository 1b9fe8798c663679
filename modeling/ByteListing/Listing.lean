/-! # Listings

A listing is a sequence of lines, each at a nesting level.  It is printed with the
indentation string once per level and a line feed after every line. -/
set_option autoImplicit false
namespace ByteListing

structure Line where
  level : Nat
  text : String
deriving Repr, DecidableEq

namespace Listing

def repeated : Nat → String → String
  | 0, _ => ""
  | count + 1, text => text ++ repeated count text

def printLine (indent : String) (line : Line) : String :=
  repeated line.level indent ++ line.text ++ "\n"

def print (indent : String) (lines : List Line) : String :=
  String.join (lines.map (printLine indent))

end Listing

end ByteListing

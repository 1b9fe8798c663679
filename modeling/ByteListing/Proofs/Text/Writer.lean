import ByteListing.Listing

/-! # Writers that count levels

A listing can be written line by line: a writer holds what is written so far and the level at which
the next line stands, and goes to the next level and back around the lines of a block.  What is
written inside a block leaves the level behind as it was if it only adds lines (`block_eq_some`). -/
set_option autoImplicit false
namespace ByteListing.Listing

/-- What is written so far, and the level of the next line. -/
structure Writer where
  level : Nat
  lines : List Line

namespace Writer

def write (writer : Writer) (text : String) : Writer :=
  { writer with lines := writer.lines ++ [⟨writer.level, text⟩] }

def indent (writer : Writer) : Writer := { writer with level := writer.level + 1 }

/-- Goes back by one level.  There is none before the first. -/
def dedent (writer : Writer) : Writer := { writer with level := writer.level - 1 }

/-- Writes a line and, one level deeper, what belongs to it, and closes the block with a brace. -/
def block (writer : Writer) (text : String) (inside : Writer → Option Writer) : Option Writer :=
  (inside (writer.write text).indent).map fun filled => filled.dedent.write "\x7d"

def append (writer : Writer) (lines : List Line) : Writer :=
  { writer with lines := writer.lines ++ lines }

variable (writer : Writer)

@[simp] theorem level_append (lines : List Line) : (writer.append lines).level = writer.level := rfl

@[simp] theorem append_nil : writer.append [] = writer := by
  simp only [append, List.append_nil]

@[simp] theorem append_append (first second : List Line) :
    (writer.append first).append second = writer.append (first ++ second) := by
  simp only [append, List.append_assoc]

theorem write_eq_append (text : String) :
    writer.write text = writer.append [⟨writer.level, text⟩] := rfl

/-- Whatever lines stand in a block, the level behind it is the level before it. -/
theorem block_eq_some {text : String} {inside : Writer → Option Writer} {inner : List Line}
    (filled : inside (writer.write text).indent = some ((writer.write text).indent.append inner)) :
    writer.block text inside =
      some (writer.append (⟨writer.level, text⟩ :: (inner ++ [⟨writer.level, "\x7d"⟩]))) := by
  rw [block, filled, Option.map_some]
  simp only [write, indent, dedent, append, Nat.add_sub_cancel, List.append_assoc,
    List.cons_append, List.nil_append]

end Writer

end ByteListing.Listing

/-!
# StarQpu.Demo.Report

**The texts of the demonstration program.** Each text is a number of whole lines.
-/

namespace StarQpu.Report

/-- A line of one character. -/
def rule (c : Char) (length : Nat) : String := String.ofList (List.replicate length c) ++ "\n"

/-- The title of a program. -/
def header (title : String) : String :=
  "\n" ++ rule '═' 60 ++ "  " ++ title ++ "\n" ++ rule '═' 60 ++ "\n"

/-- The title of a section. -/
def heading (title : String) : String := "\n▶ " ++ title ++ "\n" ++ rule '─' 40

/-- A value under a label. -/
def value (label text : String) : String := "  " ++ label ++ ": " ++ text ++ "\n"

/-- A number under a label. -/
def count (label : String) (n : Nat) : String := value label (toString n)

/-- Something that went well. -/
def success (message : String) : String := "✓ " ++ message ++ "\n"

end StarQpu.Report

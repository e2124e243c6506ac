/-
Length-prefixed scope keys.  JavaScript counts a string in UTF-16 code units,
so the prefix of a component is its number of code units.
-/
import Mathlib.Algebra.GroupWithZero.Nat
import Mathlib.Data.List.Basic

namespace AiTeam

/-- `part.length` of a JavaScript string. -/
def utf16Length (part : String) : Nat :=
  (part.toList.map fun c => if c.val < 0x10000 then 1 else 2).sum

/-- `encodeScope`: every component is length-prefixed, so delimiters inside a
component cannot collide with the ones between components. -/
def encodeScope (parts : List String) : String :=
  "|".intercalate (parts.map fun part =>
    toString (utf16Length part) ++ ":" ++ part)

end AiTeam

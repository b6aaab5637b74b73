import GitOnCloudflare.Core.ObjectParse

/-!
# Header lines as line starts

What the byte scanner reads from its header lines, it reads at the line
starts that are marked as header lines.
-/

namespace GitOnCloudflare.Core

open Foundations.Utf8
open Pack

universe u

/-- A line may be followed by a line end only. -/
def EndsLine (more : Bytes) : Prop :=
  more = [] ∨ ∃ rest, more = 0x0a :: rest ∨ more = 0x0d :: rest

/-- A reader of lines does not look behind the line, and finds nothing behind
a byte order mark. -/
structure ReadsLine {Found : Type u} (read : Bytes → Option Found) :
    Prop where
  behind : ∀ line more, EndsLine more → read (line ++ more) = read line
  marked : ∀ rest, read (0xef :: rest) = none

/-! ## The first line -/

theorem stripCarriageReturn_cases (line : Bytes) :
    stripCarriageReturn line = line ∨
      line = stripCarriageReturn line ++ [0x0d] := by
  unfold stripCarriageReturn
  split
  · next last =>
    right
    exact (List.dropLast_append_getLast? _ last).symm
  · exact .inl rfl

section Reading

variable {Found : Type u} {read : Bytes → Option Found}

variable {state : State}

end Reading

end GitOnCloudflare.Core

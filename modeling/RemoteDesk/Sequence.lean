/-!
Counters that hand out numbers from one on. A counter that has handed out `2⁶⁴ - 1` numbers goes
on with zero.
-/
namespace RemoteDesk

/-- How many numbers have been handed out. -/
structure Sequence where
  issued : UInt64
  deriving DecidableEq, Repr, Inhabited

namespace Sequence

def start : Sequence := ⟨0⟩

/-- Hands out the next number. -/
def next (s : Sequence) : UInt64 × Sequence := (s.issued + 1, ⟨s.issued + 1⟩)

@[simp] theorem next_fst (s : Sequence) : s.next.1 = s.issued + 1 := rfl
@[simp] theorem next_issued (s : Sequence) : s.next.2.issued = s.issued + 1 := rfl

end Sequence

end RemoteDesk

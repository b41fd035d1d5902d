import RemoteDesk.Proofs.Desktop.Calls

/-!
Pictures agree with hit-testing. Each pixel of a capture stands for a point of the desktop, and it
has the colour of what is found at that point: the cursor's square, the window that the desktop
tells is there, or the gradient. A capture that no buffer can hold crashes the call instead.
-/
namespace RemoteDesk.Desktop

/-! ### Blocks of equal length -/

section Blocks

variable {α β : Type} {f : α → List β} {xs : List α} {k : Nat}

end Blocks

/-! ### What a pixel shows -/

/-- Whether a buffer can hold the picture of a display: the header, and three bytes for each pixel. -/
def Fits (d : Display) : Prop :=
  (Headless.pixmapHeader d).length + 3 * d.width.toNat * d.height.toNat ≤ 9223372036854775807

namespace Headless

variable {h : Headless} {d : Display} {row col : Nat}

theorem fits_iff (d : Display) : Fits d ↔ pixmapSize d ≤ maxBuffer := by
  have harea : 3 * d.width.toNat * d.height.toNat = d.width.toNat * d.height.toNat * 3 := by
    rw [Nat.mul_assoc, Nat.mul_comm]
  rw [Fits, harea]
  rfl

/-- A display of more pixels than any buffer has bytes for, with every coordinate in reach. -/
def endless : Display := ⟨0, "Wall", 4294967295, 1073741824, -2147483648, 0, true⟩

end Headless

end RemoteDesk.Desktop

import Modvm.Virtio.Effects

/-! Device accesses while the guest leaves its memory alone. -/

namespace Modvm.Virtio

open Modvm.Core Modvm.Lib

variable {D F T : Type}

def fixedGuest : Env D := fun _ guest => guest

@[simp]
theorem load_fixedGuest_bytes (q gpa n : Nat) (w : World D F T)
    : (w.load fixedGuest q gpa n).1 = readBytes w.guest.ram gpa n := rfl

@[simp]
theorem load_fixedGuest_guest (q gpa n : Nat) (w : World D F T)
    : (w.load fixedGuest q gpa n).2.guest = w.guest := rfl

@[simp]
theorem store_fixedGuest_guest (q gpa : Nat) (bytes : List Byte) (w : World D F T)
    : (w.store fixedGuest q gpa bytes).guest
      = { w.guest with ram := writeBytes w.guest.ram gpa bytes } := rfl

theorem Fetches.fixedGuest {q : Nat} {w next : World D F T}
    (steps : Fetches fixedGuest q w next)
    : next.guest = w.guest := by
  induction steps with
  | refl => rfl
  | tail _ step ih => cases step <;> exact ih

end Modvm.Virtio

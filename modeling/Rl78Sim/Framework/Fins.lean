import Mathlib.Algebra.GroupWithZero.Nat

/-! # Literals of Index Types

    A literal of `Fin n` rests on a proof that `n` is not zero, and a search for
    an index on the law of its equality test. Each has one instance here, so
    that an index is the same term in every module.
-/

namespace Fins

instance (priority := 2000) one : NeZero 1 := ⟨Nat.one_ne_zero⟩

instance (priority := 2000) two : NeZero 2 := ⟨Nat.succ_ne_zero 1⟩

instance (priority := 2000) four : NeZero 4 := ⟨Nat.succ_ne_zero 3⟩

instance (priority := 2000) eight : NeZero 8 := ⟨Nat.succ_ne_zero 7⟩

instance (priority := 2000) sixty_four : NeZero 64 := ⟨Nat.succ_ne_zero 63⟩

instance (priority := 2000) lawful (n : Nat) : LawfulBEq (Fin n) := instLawfulBEq

end Fins

/-!
# Powers of two and of ten

The two families of natural numbers that binary and decimal notation are measured in.
-/

namespace SchemaMigration

/-- Two to the power `n`. -/
def twoTo (n : Nat) : Nat :=
  Nat.pow 2 n

/-- Ten to the power `n`. -/
def tenTo (n : Nat) : Nat :=
  Nat.pow 10 n

end SchemaMigration

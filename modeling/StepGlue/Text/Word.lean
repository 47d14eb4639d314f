/-! The sizes of machine words, written out. -/

namespace StepGlue

/-- How many numbers 32 bits can hold. -/
def word32 : Nat := 4294967296

/-- How many numbers 64 bits can hold. -/
def word64 : Nat := 18446744073709551616

end StepGlue

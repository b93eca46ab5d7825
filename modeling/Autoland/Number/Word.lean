/-! The numbers that words of a set count of bits hold. -/

namespace Autoland.Word

/-- The first number that 64 bits do not hold. -/
def limit : Nat := 18446744073709551616

def signedLimit : Nat := 9223372036854775808

def halfLimit : Nat := 4294967296

def signedHalfLimit : Nat := 2147483648

def isSigned (n : Int) : Bool := -(signedLimit : Int) ≤ n && n < signedLimit

end Autoland.Word

import Reckon.Double.Rounding

/-!
# Arithmetic on doubles

The four operations and negation. A finite result is the exact one rounded once; an exact zero sum
is positive unless both terms are negative zeros; dividing by a zero gives an infinity, or
not-a-number for a zero by a zero.
-/

set_option autoImplicit false

namespace Reckon.Double

def negate : Double → Double
  | .nan => .nan
  | .infinite negative => .infinite (!negative)
  | .finite negative code => .finite (!negative) code

def add : Double → Double → Double
  | .nan, _ => .nan
  | _, .nan => .nan
  | .infinite left, .infinite right => if left == right then .infinite left else .nan
  | .infinite left, .finite _ _ => .infinite left
  | .finite _ _, .infinite right => .infinite right
  | .finite left leftCode, .finite right rightCode =>
    let total := signedUnits left leftCode + signedUnits right rightCode
    if total = 0 then zero (left && right) else ofUnits (total < 0) total.natAbs 1

def subtract (left right : Double) : Double :=
  add left (negate right)

def multiply : Double → Double → Double
  | .nan, _ => .nan
  | _, .nan => .nan
  | .infinite left, .infinite right => .infinite (left != right)
  | .infinite left, .finite right code => if code.val = 0 then .nan else .infinite (left != right)
  | .finite left code, .infinite right => if code.val = 0 then .nan else .infinite (left != right)
  | .finite left leftCode, .finite right rightCode =>
    ofUnits (left != right) (unitsOfCode leftCode * unitsOfCode rightCode) unitsPerOne

def divide : Double → Double → Double
  | .nan, _ => .nan
  | _, .nan => .nan
  | .infinite _, .infinite _ => .nan
  | .infinite left, .finite right _ => .infinite (left != right)
  | .finite left _, .infinite right => zero (left != right)
  | .finite left leftCode, .finite right rightCode =>
    if rightCode.val = 0 then
      if leftCode.val = 0 then .nan else .infinite (left != right)
    else
      ofUnits (left != right) (unitsOfCode leftCode * unitsPerOne) (unitsOfCode rightCode)

instance : Neg Double := ⟨negate⟩
instance : Add Double := ⟨add⟩
instance : Sub Double := ⟨subtract⟩
instance : Mul Double := ⟨multiply⟩
instance : Div Double := ⟨divide⟩

end Reckon.Double

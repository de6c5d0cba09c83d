namespace MetaInline.Unicode

/-- The code points `c` for which an odd number of the increasing `bounds` are at most `c`. -/
structure Ranges where
  bounds : Array Nat

namespace Ranges

def upperBound (bounds : Array Nat) (c lo hi : Nat) : Nat :=
  if lo < hi then
    let mid := (lo + hi) / 2
    if c < bounds.getD mid 0 then upperBound bounds c lo mid
    else upperBound bounds c (mid + 1) hi
  else lo
termination_by hi - lo

def contains (r : Ranges) (c : Nat) : Bool :=
  upperBound r.bounds c 0 r.bounds.size % 2 == 1

end Ranges
end MetaInline.Unicode

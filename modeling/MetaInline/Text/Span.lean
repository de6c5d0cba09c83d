namespace MetaInline

structure Span where
  start : Nat
  stop : Nat
deriving DecidableEq

namespace Span

def shift (n : Nat) (s : Span) : Span :=
  ⟨s.start + n, s.stop + n⟩

def covers (s t : Span) : Bool :=
  s.start ≤ t.start && t.stop ≤ s.stop

/-- The ranges share a byte, or one of them is empty and lies strictly inside the other. -/
def overlaps (s t : Span) : Bool :=
  s.start < t.stop && t.start < s.stop

end Span
end MetaInline

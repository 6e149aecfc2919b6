/-! Byte ranges of source files. A file is named by its position in the list of sources. -/
namespace KeyholeMarkup.Source

structure Span where
  file : Nat
  start : Nat
  stop : Nat
deriving DecidableEq, Repr

namespace Span

/-- A range that ends no earlier than it starts. -/
def between (file start stop : Nat) : Span := ⟨file, start, max stop start⟩

def length (span : Span) : Nat := span.stop - span.start

def isEmpty (span : Span) : Bool := span.start == span.stop

theorem start_le_stop_between (file start stop : Nat) :
    (between file start stop).start ≤ (between file start stop).stop := Nat.le_max_right ..

end Span
end KeyholeMarkup.Source

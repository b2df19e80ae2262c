import PathQuery.Plan.Basic
/-!
# Slices of slices

A slice of a window is counted from the window's own start, and never reaches beyond its end.
-/

namespace PathQuery

namespace Window

/-- A position counted from the start of the window, but not beyond its end. -/
def clamp (w : Window) (position : UInt64) : UInt64 :=
  match w.high with
  | some high => min high (w.low + position)
  | none => w.low + position

/-- The window cut down to its rows from `low` up to `high`. The end is set first: the start may not
pass it. -/
def slice (w : Window) (low high : Option UInt64) : Window :=
  let w := match high with
    | some high => { w with high := some (w.clamp high) }
    | none => w
  match low with
  | some low => { w with low := w.clamp low }
  | none => w

/-- The window ends where it starts. -/
def isEmpty (w : Window) : Bool :=
  w.high == some w.low

end Window

def Plan.slice (p : Plan) (low high : Option UInt64) : Plan :=
  { p with window := p.window.slice low high }

end PathQuery

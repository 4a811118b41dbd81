import DistinctCount.Sketch.Basic

namespace DistinctCount

/-- The identity of a sketch. A key that is deleted and made again has a sketch of another one. -/
abbrev SketchId := Nat

/-- Every sketch ever made, live or not. -/
structure Sketches where
  items : Array Sketch := #[]

namespace Sketches

def get (s : Sketches) (id : SketchId) : Sketch :=
  s.items.getD id default

def modify (s : Sketches) (id : SketchId) (f : Sketch → Sketch) : Sketches :=
  { items := s.items.modify id f }

def next (s : Sketches) : SketchId :=
  s.items.size

def add (s : Sketches) (sketch : Sketch) : Sketches :=
  { items := s.items.push sketch }

end Sketches

end DistinctCount

import ClipEdit.Scalar

/-!
# Exact scalars

The reading of `Scalar` in which nothing is rounded except where the editor says so: the rational
numbers. Every value is finite and equal to itself, so `Scalar.atLeast` and `Scalar.atMost` are the
maximum and the minimum.
-/

namespace ClipEdit.Exact

/-- The nearest whole number to `q`, a half away from zero. -/
def roundWhole (q : Rat) : Rat :=
  if q < 0 then -((-q + 1 / 2).floor : Rat) else ((q + 1 / 2).floor : Rat)

/-- The whole part of `q` as a frame index, held between `0` and `Frame.limit`. -/
def toFrame (q : Rat) : Frame :=
  min q.floor.toNat Frame.limit

instance : Scalar Rat where
  zero := 0
  decidableLT := inferInstance
  decidableLE := inferInstance
  isFinite _ := true
  magnitude q := if q < 0 then -q else q
  roundWhole := roundWhole
  toFrame := toFrame

end ClipEdit.Exact

/-!
# Go's time.Time

The wall reading of a `time.Time`: `int64` seconds counted from year 1 and
nanoseconds. Converting from and to Unix seconds wraps, adding saturates, and
both matter near the ends of the range. A monotonic reading plays no part in a
comparison with a time that has none.
-/

namespace Base

structure Time where
  ext : Int64
  nsec : Fin 1000000000
  deriving DecidableEq, Repr

namespace Time

/-- The seconds from year 1 to 1970. -/
def unixToInternal : Int64 := 62135596800

def unix (t : Time) : Int64 := t.ext - unixToInternal

def ofUnix (sec : Int64) : Time := ⟨sec + unixToInternal, 0⟩

/-- `t.Add` of a whole number of seconds. An overflow stops at the far end of
the range. -/
def addSeconds (t : Time) (d : Int64) : Time :=
  let sum := t.ext + d
  if decide (sum > t.ext) = decide (d > 0) then { t with ext := sum }
  else if d > 0 then { t with ext := Int64.maxValue }
  else { t with ext := -Int64.maxValue }

def after (t u : Time) : Bool := t.ext > u.ext || (t.ext == u.ext && t.nsec > u.nsec)

@[simp] theorem unix_ofUnix (sec : Int64) : (ofUnix sec).unix = sec := by
  simp [unix, ofUnix]

end Time

end Base

import AuthorWatch.Ledger.Record

/-! When a record is finalized: it has enough reports, is old enough, or has fallen
behind the tallest block. The last rule may close a record before its lowest time
arrives, and trades completeness for promptness. -/

namespace AuthorWatch

structure Policy where
  minReports : Int := 3
  /-- In seconds. -/
  maxAge : Int := 3
  maxLag : Int := 1
  deriving DecidableEq, Inhabited

namespace Policy

/-- Whether an open record is due at a time, beside a tallest block. -/
def holds (p : Policy) (r : Record) (now tallest : Int) : Bool :=
  p.minReports ≤ r.count || p.maxAge < now - r.firstSeen || r.height < tallest - p.maxLag

/-- A record is due once; a finalized one is never due again. -/
def due (p : Policy) (now tallest : Int) (r : Record) : Bool :=
  !r.finalized && p.holds r now tallest

end Policy

end AuthorWatch

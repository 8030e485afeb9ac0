-- SUMMARY: The first record seen for each join key.
import FederatedJoin.Record

/-!
# First rows

Records are remembered under their join keys; a later record with a known key
is ignored, and so is one without a key.
-/

namespace FederatedJoin

abbrev FirstRows : Type := List (JoinKey × Record)

namespace FirstRows

/-- Adds records under their keys on the given field. -/
def add (known : FirstRows) (field : String) (rows : List Record) : FirstRows :=
  (known ++ rows.filterMap fun row => (row.joinKey? field).map (·, row)).eraseDupsBy
    fun a b => a.1 == b.1

def get? (known : FirstRows) (key : JoinKey) : Option Record := known.lookup key

end FirstRows

end FederatedJoin

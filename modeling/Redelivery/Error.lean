/-!
# Errors of a source

Main definitions:

* `ReadError`: why connecting or reading gave no batch.
* `SettleError`: why an acknowledgment was not accepted.
-/

namespace Redelivery

/-- Why a source gave no batch. -/
inductive ReadError where
  /-- The source could not be reached. -/
  | connection (reason : String)
  /-- The source has nothing more to give. -/
  | closed
  /-- Outstanding batches were not all acknowledged in time. -/
  | timeout
  /-- The read was given up, by its caller or because a failed batch is waiting. -/
  | cancelled
  deriving DecidableEq, Repr

namespace ReadError

def message : ReadError → String
  | connection reason => "connection error: " ++ reason
  | closed => "source closed"
  | timeout => "timed out waiting for pending acknowledgments"
  | cancelled => "read cancelled"

def isClosed : ReadError → Bool
  | closed => true
  | _ => false

/-- The caller should simply read again. -/
def isRetryable : ReadError → Bool
  | cancelled => true
  | timeout => true
  | _ => false

end ReadError

/-- Why an acknowledgment was not accepted. -/
inductive SettleError where
  | rejected (reason : String)
  deriving DecidableEq, Repr

namespace SettleError

def message : SettleError → String
  | rejected reason => "acknowledgment rejected: " ++ reason

end SettleError

end Redelivery

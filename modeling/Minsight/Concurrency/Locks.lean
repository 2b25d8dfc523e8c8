import Minsight.Foundation.Leases

/-! # Redis locks

Every scheduled job takes a lock with `SET NX EX` and deletes it when it ends. Most of them
compare the entry with their own token first; between the comparison and the deletion the entry
can expire and be set by another worker. The locks of the evaluation jobs all hold the same value,
and their entry is deleted whoever has set it.
-/

namespace Minsight

open Leases

inductive RedisLock
  | ingest (dataSourceId : String)
  | triage | aggregation | investigate | humanReview | defenseAsset | regression | healthCheck
  deriving DecidableEq

def RedisLock.key : RedisLock → String
  | .ingest dataSourceId => "ingest:lock:" ++ dataSourceId
  | .triage => "triage:lock:global"
  | .aggregation => "aggregation:lock:global"
  | .investigate => "investigate:lock:global"
  | .humanReview => "human_review:lock:dispatch"
  | .defenseAsset => "defense_assets:lock:pipeline"
  | .regression => "eval:lock:regression"
  | .healthCheck => "eval:lock:health_check"

def RedisLock.ttlSeconds : RedisLock → ℕ
  | .ingest _ | .investigate => 600
  | .triage | .aggregation | .humanReview => 300
  | .defenseAsset => 600
  | .regression | .healthCheck => 900

/-- The entry is compared with the worker's token before it is deleted. -/
def RedisLock.comparesToken : RedisLock → Bool
  | .regression | .healthCheck => false
  | _ => true

/-- What a lock is set to, given the `uuid4` of the worker. -/
def RedisLock.token (uuid : String) : RedisLock → String
  | .regression | .healthCheck => "1"
  | _ => uuid

def RedisLock.lease (lock : RedisLock) : Lease String where
  key := lock.key
  ttl := lock.ttlSeconds * 1000
  compares := lock.comparesToken

/-- The commands of the context managers, and what happens to a worker in between. -/
inductive LockStep
  | wait (milliseconds : ℕ)
  | acquire (worker : ℕ) (lock : RedisLock) (uuid : String)
  | get (worker : ℕ)
  | delete (worker : ℕ)
  | die (worker : ℕ)

def LockStep.action : LockStep → Action String String
  | .wait d => .tick d
  | .acquire w lock uuid => .acquire w lock.lease (lock.token uuid)
  | .get w => .read w
  | .delete w => .delete w
  | .die w => .leave w

/-- The interleavings of any number of workers. -/
def lockSystem : System (State String String) LockStep where
  init := {}
  step l := Leases.step l.action

/-- No worker deletes its lock after its time has run out. -/
def deletesInTime (s : State String String) (l : LockStep) : Bool := inTime s l.action

theorem kept_of_reachable {s : State String String}
    (hs : lockSystem.ReachableBy (fun s l => deletesInTime s l = true) s) : Kept s :=
  hs.invariant kept_init fun _ _ _ => Kept.step

/--
While every deletion comes before the time of the lock has run out, no worker deletes an entry
that another worker has set and still uses.
-/
theorem locks_released_by_holders {s : State String String} {w : ℕ}
    (hs : lockSystem.ReachableBy (fun s l => deletesInTime s l = true) s)
    (hin : deletesInTime s (.delete w) = true) (v : ℕ) : ¬ Steals s w v :=
  (kept_of_reachable hs).not_steals hin

/-- A worker compares its token, the entry expires, and another worker takes the lock. -/
def lateTriage : State String String :=
  (lockSystem.run [.acquire 0 .triage "a", .wait 299999, .get 0, .wait 1, .acquire 1 .triage "b"]
    {}).getD {}

/-- A regression run takes longer than its lock lasts. -/
def lateRegression : State String String :=
  (lockSystem.run [.acquire 0 .regression "a", .wait 900000, .acquire 1 .regression "b"]
    {}).getD {}

theorem locks_are_stolen :
    (lockSystem.Reachable lateTriage ∧ Steals lateTriage 0 1) ∧
      lockSystem.Reachable lateRegression ∧ Steals lateRegression 0 1 :=
  ⟨⟨System.reachable_of_run (System.run_getD (by decide +kernel)),
      { lease := RedisLock.lease .triage, value := "a", since := 0 },
      { lease := RedisLock.lease .triage, value := "b", since := 300000 },
      { value := "b", expiresAt := 600000, owner := 1 }, rfl, rfl, rfl, by decide, rfl, rfl⟩,
    System.reachable_of_run (System.run_getD (by decide +kernel)),
    { lease := RedisLock.lease .regression, value := "1", since := 0 },
    { lease := RedisLock.lease .regression, value := "1", since := 900000 },
    { value := "1", expiresAt := 1800000, owner := 1 }, rfl, rfl, rfl, by decide, rfl, rfl⟩

/-- Two workers after each other, each in time. -/
def relayedTriage : State String String :=
  (lockSystem.runIf deletesInTime [.acquire 0 .triage "a", .acquire 1 .triage "b", .wait 1000,
    .get 0, .delete 0, .acquire 1 .triage "c", .wait 1000, .get 1] {}).getD {}

theorem locks_released_by_holders_relayed : ¬ Steals relayedTriage 1 0 :=
  locks_released_by_holders
    (System.ReachableBy.runIf .init (System.runIf_getD (by decide +kernel))) (by decide +kernel) 0

end Minsight

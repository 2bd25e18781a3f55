import Ironclaw.Lib.Redis
import Ironclaw.Store.Lock

/-!
# The fenced lock of the Redis store

The lock of a resource is a key that expires by itself, next to a counter of
its tokens.  Each call runs one script.
-/

namespace Ironclaw.RedisStore

open Lib Lib.Redis Domain Store

def errLockHeld : Fault :=
  .sentinel "redisstore: lock is held by another holder"

def errLeaseSuperseded : Fault :=
  .sentinel "redisstore: lease was superseded by a newer fencing token"

def errEmptyResource : Fault :=
  .sentinel "redisstore: resource name is required"

/-- An error of the server, as the client reports it. -/
def scriptFault : Failure → Fault
  | .wrongType => .sentinel "WRONGTYPE"
  | .notInteger => .sentinel "ERR value is not an integer or out of range"
  | .overflow => .sentinel "ERR increment or decrement would overflow"
  | .invalidExpire => .sentinel "ERR invalid expire time in 'set' command"

/-! ## The scripts -/

/-- Set a free lock to the next token. -/
def acquireLock (lock fence : String) (milliseconds : Int) :
    Script Int := do
  if ← keyExists lock then
    return -1
  let token ← incr fence
  setPX lock (numberText (toNumber token)) milliseconds
  return toNumber token

/-- Delete the lock of a current token. -/
def releaseLock (lock : String) (token : String) : Script Int := do
  let held ← Redis.get lock
  match held with
  | none => return 0
  | some held =>
    if readNumber held ≠ readNumber token then
      return -1
    del lock
    return 1

/-- Whether a token is still current. -/
def guardLock (lock fence : String) (token : String) : Script Int := do
  let current ← Redis.get fence
  match readNumber (current.getD "0"), readNumber token with
  | some current, some presented =>
    if presented < current then
      return -1
    let held ← Redis.get lock
    if held.bind readNumber ≠ some presented then
      return -1
    return 1
  | _, _ => Redis.fail .notInteger

/-! ## The store -/

section Locks

variable (space : String)

def lockKey (resource : String) : String :=
  space ++ ":lock:\x7b" ++ resource ++ "\x7d"

def fenceKey (resource : String) : String :=
  space ++ ":fence:\x7b" ++ resource ++ "\x7d"

/-- `ttl.Milliseconds()`. -/
def milliseconds (ttl : Int64) : Int := ttl.toInt.tdiv 1000000

def acquire (now : Time) (resource : String) (ttl : Int64)
    (server : Server) : Server × Except Fault Lease :=
  if resource = "" then (server, .error errEmptyResource)
  else
    let ttl := Locker.leaseTTL ttl
    match (acquireLock (lockKey space resource)
        (fenceKey space resource) (milliseconds ttl)).run now.nanos
          server with
    | (server, .error failure) =>
      (server, .error (.wrapped ("redisstore: acquiring lock " ++ resource)
        (scriptFault failure)))
    | (server, .ok token) =>
      if token < 0 then (server, .error errLockHeld)
      else
        (server, .ok ⟨resource, Int64.ofInt token, now.add ttl⟩)

def release (now : Time) (lease : Lease) (server : Server) :
    Server × Option Fault :=
  match (releaseLock (lockKey space lease.resource)
      (numberText lease.token.toInt)).run now.nanos server with
  | (server, .error failure) =>
    (server, some (.wrapped ("redisstore: releasing lock " ++ lease.resource)
      (scriptFault failure)))
  | (server, .ok released) =>
    if released < 0 then (server, some errLeaseSuperseded)
    else (server, none)

def guard (now : Time) (lease : Lease) (server : Server) :
    Server × Option Fault :=
  match (guardLock (lockKey space lease.resource)
      (fenceKey space lease.resource)
      (numberText lease.token.toInt)).run now.nanos server with
  | (server, .error failure) =>
    (server, some (.wrapped ("redisstore: guarding lock " ++ lease.resource)
      (scriptFault failure)))
  | (server, .ok valid) =>
    if valid < 0 then (server, some errLeaseSuperseded)
    else (server, none)

end Locks

end Ironclaw.RedisStore

import Ironclaw.Lib.GoMap
import Ironclaw.Lib.Text
import Mathlib.Algebra.GroupWithZero.Nat
import Mathlib.Data.Finset.Insert
import Mathlib.Logic.Function.Basic

/-!
# A Redis server and its scripts

Keys hold texts, hashes, sets and sorted sets, and may have a time at which
they expire.  An expired key is absent for every command.

A script runs at one moment, and nothing else runs meanwhile.  If a command of
it fails, the script ends there and what it has changed stays changed.

Scores are integers, and so are the numbers of scripts: those that a double
can hold.  A larger integer is rounded to one of them.
-/

namespace Ironclaw.Lib.Redis

open Option Function

variable {number : Int}

/-! ## Keys -/

/-- What a key can hold. -/
inductive Value where
  | text (content : String)
  | hash (fields : GoMap String String)
  | members (elements : Finset String)
  | scored (scores : GoMap String Int)

/-- What a key holds, and when it expires, in nanoseconds. -/
structure Held where
  value : Value
  deadline : Option Int

/-- The keys of a server, and the messages published on its channels. -/
structure Server where
  keys : String → Option Held
  published : List (String × String)

/-- A server without keys. -/
def Server.empty : Server := ⟨fun _ => none, []⟩

/-- The errors that end a script. -/
inductive Failure where
  | wrongType
  | notInteger
  | overflow
  | invalidExpire
deriving DecidableEq

def Held.expired (now : Int) (held : Held) : Bool :=
  held.deadline.any (· ≤ now)

namespace Server

variable (now : Int) (server : Server) (key : String)

/-- What a key holds, unless it has expired. -/
def live : Option Held :=
  (server.keys key).filter fun held => !held.expired now

/-- Change what a key holds; a key that exists keeps its deadline. -/
def put (value : Value) : Server :=
  { server with
    keys := Function.update server.keys key
      (some ⟨value, (server.live now key).bind Held.deadline⟩) }

def remove : Server :=
  { server with keys := Function.update server.keys key none }

/-- The hash of a key, empty if it is absent; none for another type. -/
def hashOf : Option (GoMap String String) :=
  match server.live now key with
  | none => some ∅
  | some ⟨.hash fields, _⟩ => some fields
  | some _ => none

def membersOf : Option (Finset String) :=
  match server.live now key with
  | none => some ∅
  | some ⟨.members elements, _⟩ => some elements
  | some _ => none

def scoredOf : Option (GoMap String Int) :=
  match server.live now key with
  | none => some ∅
  | some ⟨.scored scores, _⟩ => some scores
  | some _ => none

/-- The text of a key, if it has one. -/
def textOf : Option (Option String) :=
  match server.live now key with
  | none => some none
  | some ⟨.text content, _⟩ => some (some content)
  | some _ => none

end Server

/-! ## Numbers -/

/-- The decimal text of an integer. -/
def numberText (number : Int) : String :=
  String.ofList (Text.numeral number)

/-- The integer that a text stands for. -/
def readInt (text : String) : Option Int := Text.parseInt text.toList

@[simp]
theorem readInt_numberText (number : Int) :
    readInt (numberText number) = some number := by
  rw [readInt, numberText, String.toList_ofList, Text.parseInt_numeral]

/-- A natural number rounded to 53 significant bits, ties to even. -/
def roundNat (number : Nat) : Nat :=
  let unit := 2 ^ (number.log2 - 52)
  let units := number / unit
  let rest := number % unit
  if 2 * rest < unit ∨ 2 * rest = unit ∧ units % 2 = 0 then units * unit
  else (units + 1) * unit

/-- The double nearest to an integer. -/
def toNumber (number : Int) : Int := number.sign * roundNat number.natAbs

/-- The number of a text in a script. -/
def readNumber (text : String) : Option Int := (readInt text).map toNumber

theorem roundNat_eq {number : Nat} (small : number < 2 ^ 53) :
    roundNat number = number := by
  have exponent : number.log2 - 52 = 0 := by
    have bound : number.log2 < 53 := by
      rcases Nat.eq_zero_or_pos number with rfl | positive
      · decide
      · exact (Nat.log2_lt (Nat.pos_iff_ne_zero.mp positive)).mpr small
    omega
  simp only [roundNat, exponent, Nat.pow_zero, Nat.div_one, Nat.mod_one]
  simp

theorem toNumber_eq (small : number.natAbs < 2 ^ 53) :
    toNumber number = number := by
  rw [toNumber, roundNat_eq small, Int.sign_mul_natAbs]

/-! ## Scripts -/

/-- A script: at a moment, on a server. -/
def Script (Reply : Type) : Type :=
  Int → Server → Server × Except Failure Reply

namespace Script

variable {Reply Result : Type}

def bind (script : Script Reply) (next : Reply → Script Result) :
    Script Result :=
  fun now server =>
    match script now server with
    | (after, .ok reply) => next reply now after
    | (after, .error failure) => (after, .error failure)

instance instMonad : Monad Script where
  pure reply := fun _ server => (server, .ok reply)
  bind := bind

def run (script : Script Reply) (now : Int) (server : Server) :
    Server × Except Failure Reply :=
  script now server

theorem run_pure (reply : Reply) (now : Int) (server : Server) :
    run (pure reply) now server = (server, .ok reply) :=
  rfl

theorem run_bind {script : Script Reply} {next : Reply → Script Result}
    {now : Int} {server after : Server} {reply : Reply}
    (first : run script now server = (after, .ok reply)) :
    run (script >>= next) now server = run (next reply) now after := by
  show bind script next now server = next reply now after
  rw [bind, show script now server = (after, .ok reply) from first]

theorem run_bind_error {script : Script Reply} {next : Reply → Script Result}
    {now : Int} {server after : Server} {failure : Failure}
    (first : run script now server = (after, .error failure)) :
    run (script >>= next) now server = (after, .error failure) := by
  show bind script next now server = _
  rw [bind, show script now server = (after, .error failure) from first]

end Script

/-! ## Commands -/

def fail {Reply : Type} (failure : Failure) : Script Reply :=
  fun _ server => (server, .error failure)

/-- `tonumber`, for a text whose number is then compared. -/
def tonumber (text : String) : Script Int :=
  match readNumber text with
  | some number => pure number
  | none => fail .notInteger

section Commands

variable (key : String)

/-- `EXISTS`. -/
def keyExists : Script Bool := fun now server =>
  (server, .ok (server.live now key).isSome)

/-- `DEL`. -/
def del : Script Unit := fun _ server => (server.remove key, .ok ())

/-- `EXPIRE`: a time to live that is not positive deletes the key. -/
def expire (seconds : Int) : Script Unit := fun now server =>
  match server.live now key with
  | none => (server, .ok ())
  | some held =>
    if seconds ≤ 0 then (server.remove key, .ok ())
    else
      ({ server with
          keys := Function.update server.keys key
            (some ⟨held.value, some (now + 1000000000 * seconds)⟩) },
        .ok ())

/-- `SPUBLISH`. -/
def spublish (message : String) : Script Unit := fun _ server =>
  ({ server with published := server.published ++ [(key, message)] }, .ok ())

/-- `GET`. -/
def get : Script (Option String) := fun now server =>
  match server.textOf now key with
  | none => (server, .error .wrongType)
  | some content => (server, .ok content)

/-- `SET` with `PX`. -/
def setPX (content : String) (milliseconds : Int) : Script Unit :=
  fun now server =>
    if milliseconds ≤ 0 then (server, .error .invalidExpire)
    else
      ({ server with
          keys := Function.update server.keys key
            (some ⟨.text content, some (now + 1000000 * milliseconds)⟩) },
        .ok ())

/-- Whether an integer has 64 bits. -/
def inRange (number : Int) : Bool :=
  -9223372036854775808 ≤ number ∧ number ≤ 9223372036854775807

/-- An integer as a text, increased by an amount. -/
def increased (current : Option String) (amount : Int) :
    Except Failure Int :=
  match readInt (current.getD "0") with
  | none => .error .notInteger
  | some number =>
    if inRange (number + amount) then .ok (number + amount)
    else .error .overflow

/-- `INCR`. -/
def incr : Script Int := fun now server =>
  match server.textOf now key with
  | none => (server, .error .wrongType)
  | some content =>
    match increased content 1 with
    | .error failure => (server, .error failure)
    | .ok number =>
      (server.put now key (.text (numberText number)), .ok number)

/-- `HGET`. -/
def hget (field : String) : Script (Option String) := fun now server =>
  match server.hashOf now key with
  | none => (server, .error .wrongType)
  | some fields => (server, .ok (fields.lookup field))

/-- Write pairs of a field and its value, in order. -/
def setAll (pairs : List (String × String))
    (fields : GoMap String String) : GoMap String String :=
  pairs.foldl (fun fields pair => fields.insert pair.1 pair.2) fields

/-- `HSET`. -/
def hset (pairs : List (String × String)) : Script Unit :=
  fun now server =>
    match server.hashOf now key with
    | none => (server, .error .wrongType)
    | some fields =>
      (server.put now key (.hash (setAll pairs fields)), .ok ())

/-- `HSETNX`. -/
def hsetnx (field content : String) : Script Unit := fun now server =>
  match server.hashOf now key with
  | none => (server, .error .wrongType)
  | some fields =>
    if (fields.lookup field).isSome then (server, .ok ())
    else
      (server.put now key (.hash (fields.insert field content)), .ok ())

/-- `HINCRBY`. -/
def hincrby (field : String) (amount : Int) : Script Int :=
  fun now server =>
    match server.hashOf now key with
    | none => (server, .error .wrongType)
    | some fields =>
      match increased (fields.lookup field) amount with
      | .error failure => (server, .error failure)
      | .ok number =>
        (server.put now key (.hash (fields.insert field (numberText number))),
          .ok number)

/-- `SADD`. -/
def sadd (element : String) : Script Unit := fun now server =>
  match server.membersOf now key with
  | none => (server, .error .wrongType)
  | some elements =>
    (server.put now key (.members (insert element elements)), .ok ())

/-- `ZSCORE`. -/
def zscore (element : String) : Script (Option Int) := fun now server =>
  match server.scoredOf now key with
  | none => (server, .error .wrongType)
  | some scores => (server, .ok (scores.lookup element))

/-- `ZADD`. -/
def zadd (score : Int) (element : String) : Script Unit :=
  fun now server =>
    match server.scoredOf now key with
    | none => (server, .error .wrongType)
    | some scores =>
      (server.put now key (.scored (scores.insert element score)), .ok ())

/-- The entries with a score above a bound. -/
def scoresAbove (bound : Int) (scores : GoMap String Int) :
    GoMap String Int :=
  ⟨scores.entries.filter fun entry => bound < entry.2,
    scores.nodupKeys.sublist List.filter_sublist⟩

/-- `ZREMRANGEBYSCORE` from the lowest score; an emptied key is deleted. -/
def zremrangebyscore (bound : Int) : Script Unit := fun now server =>
  match server.scoredOf now key with
  | none => (server, .error .wrongType)
  | some scores =>
    let remaining := scoresAbove bound scores
    if remaining.entries = [] then (server.remove key, .ok ())
    else (server.put now key (.scored remaining), .ok ())

end Commands

/-! ## Keys after a change -/

namespace Server

/-- The server with another content of one key. -/
def set (server : Server) (key : String) (held : Option Held) :
    Server :=
  { server with keys := Function.update server.keys key held }

/-- The server after a message on a channel. -/
def publish (server : Server) (channel message : String) : Server :=
  { server with published := server.published ++ [(channel, message)] }

variable {now : Int} {server : Server} {key other : String}
variable {held : Option Held} {value : Value}
variable {deadline : Option Int}

@[simp]
theorem keys_set_self (server : Server) :
    (server.set key held).keys key = held :=
  update_self ..

theorem keys_set_of_ne (different : other ≠ key) :
    (server.set key held).keys other = server.keys other :=
  update_of_ne different ..

theorem live_set_self (server : Server) :
    (server.set key held).live now key =
      held.filter fun held => !held.expired now := by
  rw [live, keys_set_self]

theorem live_set_of_ne (different : other ≠ key) :
    (server.set key held).live now other = server.live now other := by
  rw [live, keys_set_of_ne different, live]

@[simp]
theorem set_set (server : Server) (held later : Option Held) :
    (server.set key held).set key later = server.set key later := by
  simp only [set, update_idem]

theorem put_eq_set (server : Server) :
    server.put now key value = server.set key
      (some ⟨value, (server.live now key).bind Held.deadline⟩) :=
  rfl

theorem live_of_keys (found : server.keys key = some ⟨value, none⟩) :
    server.live now key = some ⟨value, none⟩ := by
  rw [live, found]
  rfl

theorem live_of_absent (absent : server.keys key = none) :
    server.live now key = none := by
  rw [live, absent]
  rfl

theorem not_expired_of_live
    {found : Held} (live : server.live now key = some found) :
    found.expired now = false := by
  have kept := (filter_eq_some_iff.mp live).2
  simpa using kept

theorem live_put_self (server : Server) :
    (server.put now key value).live now key =
      some ⟨value, (server.live now key).bind Held.deadline⟩ := by
  rw [put_eq_set, live_set_self]
  cases live : server.live now key with
  | none => rfl
  | some found =>
    have current := not_expired_of_live live
    rw [Held.expired] at current
    simp only [bind_some, filter_some, Held.expired,
      current, Bool.not_false, if_true]

@[simp]
theorem put_put (server : Server) (value later : Value) :
    (server.put now key value).put now key later =
      server.put now key later := by
  rw [put_eq_set, live_put_self, put_eq_set,
    set_set]
  rfl

theorem put_of_live
    (live : server.live now key = some ⟨value, deadline⟩) :
    server.put now key value = server := by
  have found := (filter_eq_some_iff.mp live).1
  rw [put, live]
  simp only [bind_some]
  rw [← found, update_eq_self]

theorem hashOf_of_live {fields : GoMap String String}
    (live : server.live now key = some ⟨.hash fields, deadline⟩) :
    server.hashOf now key = some fields := by
  rw [hashOf, live]

theorem scoredOf_of_live {scores : GoMap String Int}
    (live : server.live now key = some ⟨.scored scores, deadline⟩) :
    server.scoredOf now key = some scores := by
  rw [scoredOf, live]

theorem membersOf_of_live {elements : Finset String}
    (live : server.live now key = some ⟨.members elements, deadline⟩) :
    server.membersOf now key = some elements := by
  rw [membersOf, live]

theorem hashOf_of_absent (absent : server.keys key = none) :
    server.hashOf now key = some ∅ := by
  rw [hashOf, live_of_absent absent]

theorem membersOf_of_absent (absent : server.keys key = none) :
    server.membersOf now key = some ∅ := by
  rw [membersOf, live_of_absent absent]

@[simp]
theorem hashOf_put (fields : GoMap String String) :
    (server.put now key (.hash fields)).hashOf now key = some fields :=
  hashOf_of_live (live_put_self server)

@[simp]
theorem scoredOf_put (scores : GoMap String Int) :
    (server.put now key (.scored scores)).scoredOf now key = some scores :=
  scoredOf_of_live (live_put_self server)

theorem hashOf_set_of_ne (different : other ≠ key) :
    (server.set key held).hashOf now other = server.hashOf now other := by
  rw [hashOf, live_set_of_ne different, hashOf]

theorem membersOf_set_of_ne (different : other ≠ key) :
    (server.set key held).membersOf now other =
      server.membersOf now other := by
  rw [membersOf, live_set_of_ne different, membersOf]

theorem live_of_hashOf {fields : GoMap String String} {field : String}
    (found : server.hashOf now key = some fields)
    (present : (fields.lookup field).isSome = true) :
    ∃ deadline, server.live now key = some ⟨.hash fields, deadline⟩ := by
  rw [hashOf] at found
  split at found
  · cases found
    cases present
  · rename_i deadline live
    cases found
    exact ⟨deadline, live⟩
  · cases found

end Server

/-- Write a field unless the hash has it. -/
def setNew (field content : String) (fields : GoMap String String) :
    GoMap String String :=
  if (fields.lookup field).isSome then fields
  else fields.insert field content

/-! ## Rules for the commands -/

section Rules

variable {now : Int} {server : Server} {key : String}

theorem run_tonumber {text : String} (read : readInt text = some number) :
    (tonumber text).run now server = (server, .ok (toNumber number)) := by
  simp only [tonumber, readNumber, read, map_some, Script.run_pure]

theorem run_get
    {content : Option String} (found : server.textOf now key = some content) :
    (get key).run now server = (server, .ok content) := by
  rw [Script.run, get, found]

theorem run_incr
    {content : Option String} (found : server.textOf now key = some content)
    (read : readInt (content.getD "0") = some number)
    (fits : inRange (number + 1) = true) :
    (incr key).run now server =
      (server.put now key (.text (numberText (number + 1))),
        .ok (number + 1)) := by
  rw [Script.run, incr, found]
  simp only [increased, read, fits, if_true]

theorem run_setPX
    {content : String} {milliseconds : Int} (positive : 0 < milliseconds) :
    (setPX key content milliseconds).run now server = ({ server with
          keys := update server.keys key
            (some ⟨.text content, some (now + 1000000 * milliseconds)⟩) },
        .ok ()) := by
  rw [Script.run, setPX, if_neg (not_le.mpr positive)]

section Hashes

variable {fields : GoMap String String} {field : String}
variable (found : server.hashOf now key = some fields)
include found

theorem run_hget : (hget key field).run now server =
      (server, .ok (fields.lookup field)) := by
  rw [Script.run, hget, found]

theorem run_hset (pairs : List (String × String)) :
    (hset key pairs).run now server =
      (server.put now key (.hash (setAll pairs fields)), .ok ()) := by
  rw [Script.run, hset, found]

theorem run_hsetnx (content : String) :
    (hsetnx key field content).run now server =
      (server.put now key (.hash (setNew field content fields)), .ok ()) := by
  rw [Script.run, hsetnx, found]
  simp only [setNew]
  split
  · rename_i present
    rcases Server.live_of_hashOf found present with ⟨deadline, live⟩
    rw [Server.put_of_live live]
  · rfl

theorem run_hincrby {amount : Int}
    (read : readInt ((fields.lookup field).getD "0") = some number)
    (fits : inRange (number + amount) = true) :
    (hincrby key field amount).run now server = (server.put now key
        (.hash (fields.insert field (numberText (number + amount)))),
        .ok (number + amount)) := by
  rw [Script.run, hincrby, found]
  simp only [increased, read, fits, if_true]

theorem run_hincrby_overflow {amount : Int}
    (read : readInt ((fields.lookup field).getD "0") = some number)
    (exceeds : inRange (number + amount) = false) :
    (hincrby key field amount).run now server =
      (server, .error .overflow) := by
  rw [Script.run, hincrby, found]
  simp only [increased, read, exceeds, Bool.false_eq_true, if_false]

end Hashes

theorem run_sadd {elements : Finset String}
    (found : server.membersOf now key = some elements) (element : String) :
    (sadd key element).run now server =
      (server.put now key (.members (insert element elements)), .ok ()) := by
  rw [Script.run, sadd, found]

section SortedSets

variable {scores : GoMap String Int} {element : String}
variable (found : server.scoredOf now key = some scores)
include found

theorem run_zscore : (zscore key element).run now server =
      (server, .ok (scores.lookup element)) := by
  rw [Script.run, zscore, found]

theorem run_zadd (score : Int) : (zadd key score element).run now server =
      (server.put now key (.scored (scores.insert element score)),
        .ok ()) := by
  rw [Script.run, zadd, found]

/-- Trimming, and then setting a time to live. -/
theorem run_trim_expire (bound seconds : Int)
    (kept : 0 < seconds → (scoresAbove bound scores).entries ≠ []) :
    (do
      zremrangebyscore key bound
      expire key seconds : Script Unit).run now server =
      (server.set key (if seconds ≤ 0 then none
          else some ⟨.scored (scoresAbove bound scores),
            some (now + 1000000000 * seconds)⟩), .ok ()) := by
  by_cases emptied : (scoresAbove bound scores).entries = []
  · have trimmed : (zremrangebyscore key bound).run now server =
        (server.remove key, .ok ()) := by
      rw [Script.run, zremrangebyscore, found]
      simp only [emptied, if_true]
    have none : seconds ≤ 0 := not_lt.mp fun some => kept some emptied
    rw [Script.run_bind trimmed, if_pos none, Script.run, expire,
      show (server.remove key).live now key = Option.none from
        Server.live_set_self server]
    rfl
  · have trimmed : (zremrangebyscore key bound).run now server =
        (server.put now key (.scored (scoresAbove bound scores)),
          .ok ()) := by
      rw [Script.run, zremrangebyscore, found]
      simp only [emptied, if_false]
    rw [Script.run_bind trimmed, Script.run, expire, Server.live_put_self]
    simp only
    split
    · exact congrArg (·, _) (Server.set_set server _ _)
    · exact congrArg (·, _) (Server.set_set server _ _)

end SortedSets

theorem lookup_scoresAbove
    {bound score : Int} {scores : GoMap String Int} {element : String} :
    (scoresAbove bound scores).lookup element = some score ↔
      scores.lookup element = some score ∧ bound < score := by
  have member := @AList.mem_lookup_iff String (fun _ => Int) _
  rw [← mem_def, ← mem_def, member, member, scoresAbove]
  simp [List.mem_filter]

end Rules

end Ironclaw.Lib.Redis

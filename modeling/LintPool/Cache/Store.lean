import LintPool.Cache.Entry
import LintPool.Duration

/-!
# Cache stores

A store keeps the text of entries under keys, each with the second in which it was put there. An
entry that is older than the store's time to live is as good as gone.

## Main definitions

* `LintPool.Cache.Table` : a store.
* `LintPool.Cache.Table.get`, `LintPool.Cache.Table.put` : looking up and storing entries.
* `LintPool.Cache.Table.prune`, `LintPool.Cache.Table.size` : forgetting old entries, and counting.
* `LintPool.Cache.Store` : a table, or a store that keeps nothing.
-/

namespace LintPool.Cache

/-- A point in time, in nanoseconds since the start of 1970. -/
abbrev Instant := Int

namespace Instant

/-- The nanoseconds of a second. -/
def second : Int := 1000000000

/-- The point in time that is some milliseconds after the start of 1970. -/
def ofMillis (n : Int) : Instant := n * 1000000

/-- The second that a point in time lies in. -/
def toSeconds (t : Instant) : Int := t.fdiv second

/-- The time from the start of a second up to `now`, as far as a duration can hold it. -/
def since (now : Instant) (seconds : Int) : Int :=
  max Int64.minValue.toInt (min Int64.maxValue.toInt (now - seconds * second))

end Instant

/-- A stored entry: its text, and the second in which it was stored. -/
structure Row where
  key : Bytes
  data : Bytes
  created : Int
  deriving DecidableEq

/-- A store of rows with distinct keys. -/
structure Table where
  /-- How long an entry is good; for ever unless positive. -/
  ttl : Duration
  rows : List Row := []
  closed : Bool := false

/-- What was asked of a store. -/
inductive Request where
  | get
  | put
  /-- Storing a text as it is. -/
  | putText
  | prune
  | size
  deriving DecidableEq

/-- Why a store gave no answer. -/
inductive Error where
  /-- The store was closed before. -/
  | closed (request : Request)
  | badEntry (e : Entry.ReadError)
  deriving DecidableEq

/-- The message of an error. -/
def Error.message (w : Json.Wording) : Error → Bytes
  | .badEntry e => e.message w
  | .closed request =>
    (match request with
      | .get => utf8 "query cache: "
      | .put => utf8 "store cache entry: "
      | .putText => []
      | .prune => utf8 "prune cache: "
      | .size => utf8 "count cache entries: ") ++
    utf8 "sql: database is closed"

namespace Table

/-- Whether a row is too old to be served. -/
def expired (t : Table) (now : Instant) (row : Row) : Bool :=
  0 < t.ttl && t.ttl.toInt < now.since row.created

/-- The row of a key. -/
def find? (t : Table) (key : Bytes) : Option Row := t.rows.find? (·.key == key)

/-- The entry of a key, if there is one that is not too old. -/
def get (t : Table) (now : Instant) (key : Bytes) : Except Error (Option Entry) :=
  if t.closed then .error (.closed .get)
  else
    match t.find? key with
    | none => .ok none
    | some row =>
      if t.expired now row then .ok none
      else
        match Entry.decode row.data with
        | .ok e => .ok (some e)
        | .error e => .error (.badEntry e)

/-- A store with a text under a key, in place of what was there. -/
def insert (t : Table) (now : Instant) (key data : Bytes) : Table :=
  let row : Row := { key, data, created := now.toSeconds }
  { t with rows := t.rows.filter (·.key != key) ++ [row] }

/-- Stores a text under a key. -/
def putText (t : Table) (now : Instant) (key data : Bytes) : Except Error Table :=
  if t.closed then .error (.closed .putText) else .ok (t.insert now key data)

/-- Stores an entry under a key. -/
def put (t : Table) (now : Instant) (key : Bytes) (e : Entry) : Except Error Table :=
  if t.closed then .error (.closed .put) else .ok (t.insert now key e.encode)

/-- Whether pruning takes a row away. -/
def prunes (t : Table) (now : Instant) (row : Row) : Bool :=
  row.created < Instant.toSeconds (now - t.ttl.toInt)

/-- Takes the expired rows away, and says how many these were. -/
def prune (t : Table) (now : Instant) : Except Error (Table × Nat) :=
  if t.ttl ≤ 0 then .ok (t, 0)
  else if t.closed then .error (.closed .prune)
  else
    let (gone, kept) := t.rows.partition (t.prunes now)
    .ok ({ t with rows := kept }, gone.length)

/-- The number of rows, expired or not. -/
def size (t : Table) : Except Error Nat :=
  if t.closed then .error (.closed .size) else .ok t.rows.length

/-- A store after it was closed. -/
def close (t : Table) : Table := { t with closed := true }

/-- A store in which every row holds the same text. -/
def overwrite (t : Table) (data : Bytes) : Table :=
  { t with rows := t.rows.map fun row => { row with data } }

end Table

/-! ## Stores by name -/

/-- A store, which may be one that keeps nothing. -/
inductive Store where
  | none
  | table (t : Table)

/-- Why a store could not be opened. -/
inductive OpenError where
  | unknownDriver (driver : Bytes)
  /-- The store is a server that is out of reach. -/
  | unreachable
  deriving DecidableEq

/-- The message of an opening error. -/
def OpenError.message : OpenError → Bytes
  | .unknownDriver driver => utf8 "unknown cache driver " ++ quoted driver
  | .unreachable => utf8 "connect to redis: network is unreachable"

namespace Store

/-- An empty store of the kind that is asked for by name. -/
def «open» (driver : Bytes) (ttl : Duration) : Except OpenError Store :=
  if driver.isEmpty || driver == utf8 "none" then .ok .none
  else if driver == utf8 "sqlite" then .ok (.table { ttl })
  else if driver == utf8 "redis" then .error .unreachable
  else .error (.unknownDriver driver)

end Store

end LintPool.Cache

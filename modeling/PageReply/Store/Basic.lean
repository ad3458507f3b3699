import PageReply.Event

/-!
# The store of buffered responses

Entries stand in the order they were stored, the oldest first, at most one for a key. An entry is
handed out once. It expires when it has been kept for the lifetime of the store: expired entries are
never handed out, and are dropped from the front, as far as they reach, whenever a response is
stored or on demand. A full store gives up its oldest entry.

Every operation is told the time; the store has no clock of its own. Only the time between two
points in time counts, and of that only what 64 bits hold.
-/

namespace PageReply

/-- The key of a session and a page: the length of the session id, a colon, the session id and the
URL. As the length says where the session id ends, no two pairs share a key. -/
def Store.key (session : Bytes) (url : Url) : Bytes :=
  Bytes.decimal session.length ++ Byte.colon :: session ++ url.text

/-- What has happened to the responses of a store so far. -/
structure Stats where
  stored : Nat := 0
  /-- Responses handed out. -/
  served : Nat := 0
  /-- Look-ups that found nothing to hand out. -/
  misses : Nat := 0
  /-- Responses dropped because they were too old. -/
  expired : Nat := 0
  /-- Responses dropped to make room. -/
  evicted : Nat := 0
deriving DecidableEq, Repr

structure Entry where
  key : Bytes
  response : Response
  /-- When it was stored, in nanoseconds. -/
  storedAt : Int
deriving DecidableEq, Repr

structure Store where
  limits : Limits
  /-- The oldest entry comes first. -/
  entries : List Entry := []
  stats : Stats := {}
deriving DecidableEq, Repr

/-- What a look-up finds. -/
inductive Lookup where
  | missing
  /-- An entry that is too old to be handed out. -/
  | stale
  /-- A response to hand out. -/
  | hit (response : Response)
deriving DecidableEq, Repr

def Lookup.response? : Lookup → Option Response
  | .hit response => some response
  | .missing | .stale => none

/-- The counters after a look-up. An entry that is too old counts as expired and as not found. -/
def Stats.afterLookup (s : Stats) : Lookup → Stats
  | .missing => { s with misses := s.misses + 1 }
  | .stale => { s with expired := s.expired + 1, misses := s.misses + 1 }
  | .hit _ => { s with served := s.served + 1 }

/-- The entry has been kept for the whole lifetime, as far as 64 bits can tell. -/
def Entry.Expired (e : Entry) (lifetime now : Int) : Prop :=
  lifetime ≤ Time.wrap (now - e.storedAt)

instance (e : Entry) (lifetime now : Int) : Decidable (e.Expired lifetime now) :=
  inferInstanceAs (Decidable (_ ≤ _))

namespace Store

def size (s : Store) : Nat :=
  s.entries.length

/-- What the store has under a key at a given time. -/
def lookup (s : Store) (now : Int) (key : Bytes) : Lookup :=
  match s.entries.find? (·.key = key) with
  | none => .missing
  | some e => if e.Expired s.limits.lifetime now then .stale else .hit e.response

def erase (s : Store) (key : Bytes) : Store :=
  { s with entries := s.entries.filter (·.key ≠ key) }

/-- Looks a page up for a session. Whatever is found leaves the store. -/
def take (s : Store) (now : Int) (session : Bytes) (url : Url) : Lookup × Store :=
  let found := s.lookup now (key session url)
  (found, { s.erase (key session url) with stats := s.stats.afterLookup found })

/-- The number of entries that a purge at a given time drops. -/
def purgeable (s : Store) (now : Int) : Nat :=
  (s.entries.takeWhile (·.Expired s.limits.lifetime now)).length

/-- Drops entries from the front until one is reached that has not expired at the given time, which
may differ from the current one. -/
def purge (s : Store) (now : Int) : Store :=
  { s with
    entries := s.entries.dropWhile (·.Expired s.limits.lifetime now)
    stats.expired := s.stats.expired + s.purgeable now }

/-- Drops entries from the front of a list until it is shorter than the capacity. -/
def evict (capacity : Nat) : List Entry → List Entry
  | [] => []
  | e :: es => if capacity ≤ (e :: es).length then evict capacity es else e :: es

/-- The number of entries that have to go before another one fits. -/
def excess (s : Store) : Nat :=
  s.size - (evict s.limits.capacity s.entries).length

/-- Drops the oldest entries until another one fits. -/
def makeRoom (s : Store) : Store :=
  { s with
    entries := evict s.limits.capacity s.entries
    stats.evicted := s.stats.evicted + s.excess }

/-- The store that a new entry with a given key is appended to: expired entries are gone first, then
the entry that the new one replaces, then whatever has to make room. -/
def prepare (s : Store) (now : Int) (key : Bytes) : Store :=
  ((s.purge now).erase key).makeRoom

/-- Stores a response for a page and a session, in place of the one stored there before. -/
def insert (s : Store) (now : Int) (session : Bytes) (url : Url) (response : Response) : Store :=
  let ready := s.prepare now (key session url)
  { ready with
    entries := ready.entries ++ [{ key := key session url, response, storedAt := now }]
    stats.stored := ready.stats.stored + 1 }

end Store

/-! ## What a store reports

The log events of each operation are read off the store before it. -/

def Lookup.event (url : Url) : Lookup → Event
  | .missing => .missing url
  | .stale => .stale url
  | .hit response => .served url response.size

namespace Store

/-- A purge that drops nothing is not worth a line. -/
def purgeEvents (s : Store) (now : Int) : List Event :=
  if s.purgeable now = 0 then [] else [.purged (s.purgeable now)]

/-- One event for each entry that makes room, with the number of entries before it goes. -/
def roomEvents (s : Store) : List Event :=
  (List.range s.excess).map fun gone => .evicting (s.size - gone)

def insertEvents (s : Store) (now : Int) (key : Bytes) : List Event :=
  s.purgeEvents now ++ ((s.purge now).erase key).roomEvents

end Store

end PageReply

import LmmApi.Lib.GoInt
import LmmApi.Lib.GoText
import LmmApi.Lib.LinkedList
import Mathlib.Data.List.AList

/-!
# The byte cache

`ByteCache` of `pkg/cachex`: a cache that is bounded by the number of its entries and by the bytes they
weigh. A map leads from a key to an element of a list, which is ordered by the last use; when there is
too much, the last elements are removed. Entries expire when they are looked at, there is no janitor.

Every method holds the lock, so the methods are functions of the cache and of the clock they read.
`Compute` reads it twice. The byte count is an `int64`, which wraps.
-/

namespace LmmApi.Cache

open Go (wrap)

/-- `byteCacheEntry`. -/
structure Entry (V : Type*) where
  key : String
  value : V
  bytes : ℤ
  expiresAt : Option ℤ

structure ByteCache (V : Type*) where
  entries : AList fun _ : String => ℕ
  order : LinkedList (Entry V)
  maxEntries : ℤ
  maxBytes : ℤ
  usedBytes : ℤ
  weigh : String → V → ℤ

variable {V : Type*}

def Entry.Expired (e : Entry V) (now : ℤ) : Prop := ∃ t ∈ e.expiresAt, t ≤ now
  deriving Decidable

namespace ByteCache

/-- `NewByteCache`. -/
def new (maxEntries maxBytes : ℤ) (weigh : Option (String → V → ℤ)) : ByteCache V where
  entries := ∅
  order := .empty
  maxEntries := if maxEntries < 1 then 1 else maxEntries
  maxBytes := if maxBytes < 1 then 1 else maxBytes
  usedBytes := 0
  weigh := weigh.getD fun key _ => Go.len key

variable (c : ByteCache V) (key : String) (value : V) (now : ℤ)

/-- The number of keys. -/
def len : ℕ := c.entries.entries.length

/-- The element of a key with its entry. The elements in the map are those of the list. -/
def find? : Option (ℕ × Entry V) :=
  (c.entries.lookup key).bind fun id => (c.order.get? id).map (id, ·)

def remove (id : ℕ) : ByteCache V :=
  match c.order.get? id with
  | none => c
  | some e =>
    { c with
      entries := c.entries.erase e.key
      order := c.order.erase id
      usedBytes := wrap (c.usedBytes - e.bytes) }

/-- The condition of the loop of `store`. -/
def Over : Prop := c.maxEntries < c.len ∨ c.maxBytes < c.usedBytes
  deriving Decidable

/-- The loop of `store`. A cache without elements that is still over its limits is never left. Every
round removes an element, so `fuel` is the number of elements. -/
def evict : ℕ → ByteCache V → Option (ByteCache V)
  | 0, c => if c.Over then none else some c
  | fuel + 1, c =>
    if c.Over then c.order.back?.bind fun id => evict fuel (c.remove id)
    else some c

/-- `store` up to its loop. -/
def place (weight ttl now : ℤ) : ByteCache V :=
  let expiresAt := if 0 < ttl then some (now + ttl) else none
  let c := match c.find? key with
    | some (id, e) =>
      { c with
        usedBytes := wrap (c.usedBytes - e.bytes)
        order := (c.order.update id fun e => { e with value, bytes := weight, expiresAt }).moveToFront id }
    | none =>
      { c with
        order := c.order.pushFront { key, value, bytes := weight, expiresAt }
        entries := c.entries.insert key c.order.fresh }
  { c with usedBytes := wrap (c.usedBytes + weight) }

/-- `store`, which has no result if its loop does not end. -/
def store (weight ttl now : ℤ) : Option (ByteCache V) :=
  let c := c.place key value weight ttl now
  evict c.order.length c

/-- The weight of a value is out of range. -/
def Rejects : Prop :=
  c.weigh key value < 0 ∨ c.maxBytes < c.weigh key value
  deriving Decidable

def get : Option V × ByteCache V :=
  match c.find? key with
  | none => (none, c)
  | some (id, e) =>
    if e.Expired now then (none, c.remove id)
    else (some e.value, { c with order := c.order.moveToFront id })

def setWithTTL (ttl now : ℤ) : Option (ByteCache V) :=
  if c.Rejects key value then some c else c.store key value (c.weigh key value) ttl now

/-- `Store`. -/
def put : Option (ByteCache V) := c.setWithTTL key value 0 now

/-- The part of `LoadOrStore` after a key that is not there. -/
def storeAbsent : Option ((V × Bool) × ByteCache V) :=
  if c.Rejects key value then some ((value, false), c)
  else (c.store key value (c.weigh key value) 0 now).map ((value, false), ·)

/-- `LoadOrStore`: the value, and whether it was loaded. -/
def loadOrStore : Option ((V × Bool) × ByteCache V) :=
  match c.find? key with
  | none => c.storeAbsent key value now
  | some (id, e) =>
    if e.Expired now then (c.remove id).storeAbsent key value now
    else some ((e.value, true), { c with order := c.order.moveToFront id })

/-- Remove a key: the method `Delete`. -/
def delete : ByteCache V :=
  match c.find? key with
  | none => c
  | some (id, _) => c.remove id

/-- The value of a key for the callback of `Compute`, after an expired one has been removed. -/
def current : Option V × ByteCache V :=
  match c.find? key with
  | none => (none, c)
  | some (id, e) => if e.Expired now then (none, c.remove id) else (some e.value, c)

/-- `Compute`: the next value, and whether it is stored. The callback gets the current value, if it is
found, and says whether the next one is kept. The clock is read again when the value is stored. -/
def compute (ttl : ℤ) (update : Option V → V × Bool) (now later : ℤ) :
    Option ((V × Bool) × ByteCache V) :=
  let (found, c) := c.current key now
  let (next, keep) := update found
  if keep = false then some ((next, false), c.delete key)
  else if c.Rejects key next then some ((next, false), c.delete key)
  else (c.store key next (c.weigh key next) ttl later).map fun c =>
    ((next, (c.entries.lookup key).isSome), c)

/-- `Keys`: the loop from front to back. -/
def keys (c : ByteCache V) (now : ℤ) : List String × ByteCache V :=
  c.order.elements.foldl (fun (keys, c) (id, e) =>
    if e.Expired now then (keys, c.remove id) else (keys ++ [e.key], c)) ([], c)

/-- `DeleteMany`: which keys were there. -/
def deleteMany (keys : List String) : (AList fun _ : String => Bool) × ByteCache V :=
  keys.foldl (fun (deleted, c) key =>
    (deleted.insert key (c.entries.lookup key).isSome, c.delete key)) (∅, c)

def purge : ByteCache V := { c with entries := ∅, order := .empty, usedBytes := 0 }

end ByteCache

/-- A call of a method, with the times it reads. -/
inductive Op (V : Type*)
  | get (key : String) (now : ℤ)
  | setWithTTL (key : String) (value : V) (ttl now : ℤ)
  | store (key : String) (value : V) (now : ℤ)
  | loadOrStore (key : String) (value : V) (now : ℤ)
  | compute (key : String) (ttl : ℤ) (update : Option V → V × Bool) (now later : ℤ)
  | delete (key : String)
  | deleteMany (keys : List String)
  | keys (now : ℤ)
  | purge

/-- The cache after a call, if it returns. -/
def Op.exec : Op V → ByteCache V → Option (ByteCache V)
  | get key now, c => some (c.get key now).2
  | setWithTTL key value ttl now, c => c.setWithTTL key value ttl now
  | store key value now, c => c.put key value now
  | loadOrStore key value now, c => (c.loadOrStore key value now).map Prod.snd
  | compute key ttl update now later, c => (c.compute key ttl update now later).map Prod.snd
  | delete key, c => some (c.delete key)
  | deleteMany ks, c => some (c.deleteMany ks).2
  | keys now, c => some (c.keys now).2
  | purge, c => some c.purge

end LmmApi.Cache

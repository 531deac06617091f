/-
This file models the Kademlia routing table of
`p2p/src/discovery/kademlia/routing_table/`: keys and their XOR distance
(`entry.rs`), buckets of status-tagged entries (`bucket.rs`) and the table of 32
buckets with its operations (`mod.rs`).

The table's `RwLock` is taken once per operation, so every operation is one
function of the table. The wall clock is an argument: an operation that stamps
`last_seen` takes the timestamp it would read. So is chance: a search for a random
entry takes the order in which it visits the table.
-/

import Karyon.Net.Address
import Karyon.P2p.Bloom
import Mathlib.Data.List.Sort

namespace Karyon.P2p

open Karyon.Net

/-! ### Keys and entries -/

def KEY_SIZE : Nat := 32

/-- The unique key identifying a peer. -/
abbrev Key := Vector UInt8 KEY_SIZE

def xorDistance (key other : Key) : Key := key.zipWith (· ^^^ ·) other

/-- The transport protocol of a peer address. -/
inductive Protocol where
  | tcp
  | tls
  | udp
  | quic
  deriving DecidableEq

/-- A peer address with protocol and priority. -/
structure PeerAddr where
  addr : Addr
  port : Port
  protocol : Protocol
  priority : UInt16
  deriving DecidableEq

/-- A peer in the routing table. -/
structure Entry where
  key : Key
  addrs : List PeerAddr
  discoveryAddrs : List PeerAddr
  protocols : Bloom
  deriving DecidableEq

/-- The first address, on which the subnet checks are made. -/
def Entry.primaryAddr (entry : Entry) : Option Addr := entry.addrs.head?.map PeerAddr.addr

/-! ### Buckets -/

abbrev EntryStatusFlag := UInt16

def CONNECTED_ENTRY : EntryStatusFlag := 0b000001
def DISCONNECTED_ENTRY : EntryStatusFlag := 0b000010
def PENDING_ENTRY : EntryStatusFlag := 0b000100
def UNREACHABLE_ENTRY : EntryStatusFlag := 0b001000
def UNSTABLE_ENTRY : EntryStatusFlag := 0b010000
def INCOMPATIBLE_ENTRY : EntryStatusFlag := 0b100000

/-- An entry of a bucket with its status word, failure counter and timestamp. -/
structure BucketEntry where
  status : EntryStatusFlag
  entry : Entry
  failures : UInt32
  lastSeen : Int
  deriving DecidableEq

variable (e : BucketEntry)

def BucketEntry.isConnected : Bool := e.status ^^^ CONNECTED_ENTRY == 0
def BucketEntry.isIncompatible : Bool := e.status ^^^ INCOMPATIBLE_ENTRY == 0
def BucketEntry.isUnreachable : Bool := e.status ^^^ UNREACHABLE_ENTRY == 0
def BucketEntry.isUnstable : Bool := e.status ^^^ UNSTABLE_ENTRY == 0

def BUCKET_SIZE : Nat := 20

/-- A group of entries, in insertion order. -/
structure Bucket where
  entries : List BucketEntry

def Bucket.new : Bucket := ⟨[]⟩

variable (bucket : Bucket)

/-- Append an entry as pending. The bucket itself does not check its size. -/
def Bucket.add (entry : Entry) (now : Int) : Bucket :=
  ⟨bucket.entries ++
    [{ status := PENDING_ENTRY, entry := entry, failures := 0, lastSeen := now }]⟩

def Bucket.len : Nat := bucket.entries.length

def Bucket.remove (key : Key) : Bucket :=
  ⟨bucket.entries.eraseP fun e => e.entry.key == key⟩

/-- The status change of one entry. -/
def BucketEntry.setStatus (entryFlag : EntryStatusFlag) (now : Int) : BucketEntry :=
  let e := { e with status := entryFlag }
  let e := if e.isUnreachable || e.isUnstable then { e with failures := e.failures + 1 } else e
  if !e.isUnreachable then { e with lastSeen := now } else e

/-- Apply a change to the first entry that satisfies the test. -/
def updateFirst (test : BucketEntry → Bool) (change : BucketEntry → BucketEntry) :
    List BucketEntry → List BucketEntry
  | [] => []
  | e :: rest => if test e then change e :: rest else e :: updateFirst test change rest

/-- Update the status of the first entry with the key, if there is one. -/
def Bucket.updateEntry (key : Key) (entryFlag : EntryStatusFlag) (now : Int) : Bucket :=
  ⟨updateFirst (fun e => e.entry.key == key) (fun e => e.setStatus entryFlag now)
    bucket.entries⟩

def Bucket.containsKey (key : Key) : Bool :=
  bucket.entries.any fun e => e.entry.key == key

/-! ### Subnet restrictions -/

/-- Both addresses are IP loopback addresses. -/
def isLoopbackPair : Addr → Addr → Bool
  | .ip a, .ip b => a.isLoopback && b.isLoopback
  | _, _ => false

/-- The two addresses lie in one /24 (IPv4) or /64 (IPv6) prefix and are not both loopback. -/
def subnetMatch (addr otherAddr : Addr) : Bool :=
  if isLoopbackPair addr otherAddr then false
  else
    match addr, otherAddr with
    | .ip (.v4 ip), .ip (.v4 otherIp) => ip.take 3 == otherIp.take 3
    | .ip (.v6 ip), .ip (.v6 otherIp) => ip.take 4 == otherIp.take 4
    | _, _ => false

/-- The comparison the counting loop makes for one stored entry. -/
def entryMatch (stored entry : Entry) : Bool :=
  match stored.primaryAddr, entry.primaryAddr with
  | some a, some b => subnetMatch a b
  | _, _ => false

def TABLE_SIZE : Nat := 32

/-- The distance limit for the closest buckets. -/
def DISTANCE_LIMIT : Nat := 32

def MAX_MATCHED_SUBNET_IN_BUCKET : Nat := 1
def MAX_MATCHED_SUBNET_IN_TABLE : Nat := 6

/-- The inner counting loop over one bucket; `inBucket` says whether it is the bucket the
entry would go to. `none` is the early return that restricts the entry. -/
def countBucket (entry : Entry) (inBucket : Bool) :
    List BucketEntry → Nat → Nat → Option (Nat × Nat)
  | [], bucketCount, tableCount => some (bucketCount, tableCount)
  | e :: rest, bucketCount, tableCount =>
    let matched := entryMatch e.entry entry
    let bucketCount := if matched && inBucket then bucketCount + 1 else bucketCount
    let tableCount := if matched then tableCount + 1 else tableCount
    if bucketCount ≥ MAX_MATCHED_SUBNET_IN_BUCKET then none
    else countBucket entry inBucket rest bucketCount tableCount

/-- The outer counting loop over the buckets from position `i` on. -/
def countTable (entry : Entry) (idx : Nat) : List Bucket → Nat → Nat → Nat → Bool
  | [], _, _, _ => false
  | bucket :: rest, i, bucketCount, tableCount =>
    match countBucket entry (i == idx) bucket.entries bucketCount tableCount with
    | none => true
    | some (bucketCount, tableCount) =>
      if tableCount ≥ MAX_MATCHED_SUBNET_IN_TABLE then true
      else countTable entry idx rest (i + 1) bucketCount tableCount

/-- The entry may not be added: its bucket has a match, or the table has too many. -/
def subnetRestricted (buckets : Vector Bucket TABLE_SIZE) (idx : Fin TABLE_SIZE)
    (entry : Entry) : Bool :=
  countTable entry idx buckets.toList 0 0 0

/-! ### The table -/

/-- The possible results of adding an entry. -/
inductive AddEntryResult where
  | added
  | exists
  | ignored
  | restricted

/-- The routing table of the node whose own key is `key`. -/
structure RoutingTable where
  key : Key
  buckets : Vector Bucket TABLE_SIZE

def RoutingTable.new (key : Key) : RoutingTable := ⟨key, Vector.replicate TABLE_SIZE .new⟩

/-- The number of leading zero bits of a byte. -/
def leadingZeros (b : UInt8) : Nat := if b = 0 then 8 else 7 - Nat.log2 b.toNat

/-- The scan for the first nonzero byte, from position `i` on. The index is below
`TABLE_SIZE` whatever the byte is. -/
def bucketIndexFrom : List UInt8 → Nat → Option (Fin TABLE_SIZE)
  | [], _ => none
  | b :: rest, i =>
    if b ≠ 0 then
      let lz := i * 8 + leadingZeros b
      let bits := KEY_SIZE * 8 - 1
      some ⟨(bits - lz) / 8, by simp only [bits, KEY_SIZE, TABLE_SIZE]; omega⟩
    else bucketIndexFrom rest (i + 1)

variable (table : RoutingTable)

/-- The bucket a key belongs to; the local key belongs to none. -/
def RoutingTable.bucketIndex (key : Key) : Option (Fin TABLE_SIZE) :=
  bucketIndexFrom (xorDistance table.key key).toList 0

def RoutingTable.setBucket (idx : Fin TABLE_SIZE) (bucket : Bucket) : RoutingTable :=
  { table with buckets := table.buckets.set idx bucket }

/-- Add an entry and say what happened to it. -/
def RoutingTable.addEntry (entry : Entry) (now : Int) : RoutingTable × AddEntryResult :=
  match table.bucketIndex entry.key with
  | none => (table, .ignored)
  | some bucketIdx =>
    let bucket := table.buckets.get bucketIdx
    if bucket.containsKey entry.key then (table, .exists)
    else if subnetRestricted table.buckets bucketIdx entry then (table, .restricted)
    else if bucket.len < BUCKET_SIZE then
      (table.setBucket bucketIdx (bucket.add entry now), .added)
    else
      match bucket.entries.find? BucketEntry.isIncompatible with
      | some e =>
        (table.setBucket bucketIdx ((bucket.remove e.entry.key).add entry now), .added)
      | none => (table, .ignored)

def RoutingTable.containsKey (key : Key) : Bool :=
  match table.bucketIndex key with
  | none => false
  | some bucketIdx => (table.buckets.get bucketIdx).containsKey key

def RoutingTable.updateEntry (key : Key) (entryFlag : EntryStatusFlag) (now : Int) : RoutingTable :=
  match table.bucketIndex key with
  | none => table
  | some bucketIdx =>
    table.setBucket bucketIdx ((table.buckets.get bucketIdx).updateEntry key entryFlag now)

def RoutingTable.removeEntry (key : Key) : RoutingTable :=
  match table.bucketIndex key with
  | none => table
  | some bucketIdx => table.setBucket bucketIdx ((table.buckets.get bucketIdx).remove key)

/-- The buckets at distance `i` from `bucketIdx` that the walk visits, the lower neighbour
before the upper one. -/
def walkRing (bucketIdx : Fin TABLE_SIZE) (i : Nat) : List (Fin TABLE_SIZE) :=
  (if bucketIdx.val ≥ i ∧ bucketIdx.val - i ≥ 1 then
    [⟨bucketIdx.val - i, by have := bucketIdx.isLt; omega⟩] else []) ++
  (if above : bucketIdx.val + i < TABLE_SIZE - 1 then [⟨bucketIdx.val + i, by omega⟩] else [])

/-- The walk over the buckets that starts at `bucketIdx` and goes outwards. -/
def walkFrom (bucketIdx : Fin TABLE_SIZE) : List (Fin TABLE_SIZE) :=
  bucketIdx :: (List.range' 1 (DISTANCE_LIMIT - 1)).flatMap (walkRing bucketIdx)

variable (targetKey : Key)

/-- The buckets walked for a target key. -/
def RoutingTable.bucketIndexes : List (Fin TABLE_SIZE) :=
  walkFrom ((table.bucketIndex targetKey).getD ⟨0, by decide⟩)

/-- The loop over one bucket of the closest-entries search. The flag says that the outer
loop is left. -/
def collectBucket (keep : BucketEntry → Bool) (maxEntries : Nat) :
    List BucketEntry → List Entry → List Entry × Bool
  | [], entries => (entries, false)
  | bucketEntry :: rest, entries =>
    if keep bucketEntry then
      let entries := entries ++ [bucketEntry.entry]
      if entries.length = maxEntries then (entries, true)
      else collectBucket keep maxEntries rest entries
    else collectBucket keep maxEntries rest entries

/-- The loop over the walked buckets of the closest-entries search. -/
def collectBuckets (keep : BucketEntry → Bool) (maxEntries : Nat) :
    List Bucket → List Entry → List Entry
  | [], entries => entries
  | bucket :: rest, entries =>
    match collectBucket keep maxEntries bucket.entries entries with
    | (entries, true) => entries
    | (entries, false) => collectBuckets keep maxEntries rest entries

/-- The entries the closest-entries search does not skip. -/
def usable (localBloom : LocalBloom) (bucketEntry : BucketEntry) : Bool :=
  if bucketEntry.isUnreachable || bucketEntry.isUnstable then false
  else localBloom.matches bucketEntry.entry.protocols

/-- Keys are compared bytewise from the first byte on. -/
def closer (a b : Entry) : Prop :=
  (xorDistance targetKey a.key).toList ≤ (xorDistance targetKey b.key).toList

instance (targetKey : Key) : DecidableRel (closer targetKey) := fun a b =>
  inferInstanceAs
    (Decidable ((xorDistance targetKey a.key).toList ≤ (xorDistance targetKey b.key).toList))

/-- Collect entries along the bucket walk, then sort them by distance. -/
def RoutingTable.closestEntriesFiltered (maxEntries : Nat) (localBloom : LocalBloom) : List Entry :=
  let walk := (table.bucketIndexes targetKey).map fun idx => table.buckets.get idx
  (collectBuckets (usable localBloom) maxEntries walk []).insertionSort (closer targetKey)

def RoutingTable.closestEntries (maxEntries : Nat) : List Entry :=
  table.closestEntriesFiltered targetKey maxEntries .default

/-- All entries whose advertised bloom may contain the item. -/
def RoutingTable.entriesWithItem (siphash : Bytes → UInt64) (table : RoutingTable)
    (item : Bytes) : List Entry :=
  table.buckets.toList.flatMap fun bucket =>
    (bucket.entries.filter fun e => !(e.isUnreachable || e.isUnstable) &&
      e.entry.protocols.mayContain siphash item).map BucketEntry.entry

/-- Some entry has the IP among its discovery addresses. -/
def RoutingTable.hasDiscoveryIp (ip : IpAddr) : Bool :=
  table.buckets.toList.any fun bucket => bucket.entries.any fun e =>
    e.entry.discoveryAddrs.any fun peerAddr => peerAddr.addr == .ip ip

/-- The entries of each bucket that a refresh may visit. -/
def RoutingTable.refreshCandidates (perBucket : Nat) : List BucketEntry :=
  table.buckets.toList.flatMap fun bucket =>
    (bucket.entries.filter fun e => !e.isConnected && !e.isIncompatible).take perBucket

/-! ### Random entries -/

/-- A random order for lists of any length: every position is drawn once. -/
structure Shuffle where
  order : (length : Nat) → List (Fin length)
  complete : ∀ length, (order length).Perm (List.finRange length)

/-- The elements of a list in the random order. -/
def Shuffle.sample {Item : Type} (shuffle : Shuffle) (items : List Item) : List Item :=
  (shuffle.order items.length).map items.get

theorem Shuffle.sample_perm {Item : Type} (shuffle : Shuffle) (items : List Item) :
    (shuffle.sample items).Perm items := by
  have drawn := (shuffle.complete items.length).map items.get
  rw [List.map_get_finRange] at drawn
  exact drawn

/-- The order that changes nothing. -/
def Shuffle.inOrder : Shuffle := ⟨List.finRange, fun _ => .refl _⟩

/-- The random choices of one search: the order of the buckets, and the order of the entries of
each bucket. -/
structure Draw where
  buckets : Shuffle
  entries : Fin TABLE_SIZE → Shuffle

def Draw.inOrder : Draw := ⟨.inOrder, fun _ => .inOrder⟩

/-- The first drawn entry that has one of the flags and an acceptable bloom. -/
def RoutingTable.randomEntryFiltered (entryFlag : EntryStatusFlag) (localBloom : LocalBloom)
    (draw : Draw) : Option Entry :=
  (draw.buckets.sample (List.finRange TABLE_SIZE)).findSome? fun idx =>
    (((draw.entries idx).sample (table.buckets.get idx).entries).find? fun e =>
      e.status &&& entryFlag != 0 && localBloom.matches e.entry.protocols).map BucketEntry.entry

def RoutingTable.randomEntry (entryFlag : EntryStatusFlag) (draw : Draw) : Option Entry :=
  table.randomEntryFiltered entryFlag .default draw

end Karyon.P2p

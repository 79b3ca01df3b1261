/-
  File:      Nullgate/Membership/Document.lean
  Subject:   THE MEMBERSHIP DOCUMENT (`membership.rs`): how entries are written and read.

  Each entry stands under `e/<id>` in a document every member can write to. The reader skips
  other keys and large values, and stops behind `MAX_ENTRIES` records.

  * `publishEntry`, `loadEntries`, `buildRoster` -- the functions of the source;
  * `loadEntries_eq` -- what a read without errors yields: the entries of the first
    `MAX_ENTRIES` records that count;
  * `junk_harmless` -- the roster of a document with junk in it is the roster of its authentic
    entries, where they all stand among the first `MAX_ENTRIES` counted records. Records of a
    member push them behind those (`junk_not_harmless`).
-/
import Nullgate.Membership.Wire
import Nullgate.Roster.Convergence

namespace Nullgate

open Nullgate.Lib

/-! ## 1. Writing and reading -/

/-- Key prefix for roster entries inside the membership document: `e/`. -/
def KEY_PREFIX : List UInt8 := [0x65, 0x2f]

def MAX_ENTRIES : Nat := 50000

def MAX_ENTRY_BYTES : Nat := 4096

/-- What the store returns of a record: key, and length and hash of the value. -/
structure Record where
  key : List UInt8
  contentLen : Nat
  contentHash : Bytes 32
  deriving DecidableEq

/-- A document and its blobs, as a node reads them: the stream of `get_many(Query::all())`, in
    the store's order, and the values available locally (`get_bytes`). -/
structure Replica where
  stream : List (Except String Record)
  blobs : Bytes 32 → Option (List UInt8)

/-- **The reader of the linked crate** (`ciborium::from_reader::<Entry, _>`). It reads back what
    the writer wrote; what else it reads is left open. -/
structure EntryReader where
  fromReader : List UInt8 → Option Entry
  law : ∀ e, (entryBytes e).length < UInt64.size → fromReader (entryBytes e) = some e

/-- The reader that takes what the codec writes, and nothing else. -/
def EntryReader.derived : EntryReader where
  fromReader bytes := (entryCodec.dec bytes).map Prod.fst
  law e h := by
    have hdec := entryCodec.dec_enc h
    simp [entryBytes, hdec]

/-- `publish_entry`: the record `set_bytes` stores for the entry. -/
def publishEntry (P : Primitives) (e : Entry) : Record where
  key := KEY_PREFIX ++ (e.id P).toList
  contentLen := (entryBytes e).length
  contentHash := P.hash (entryBytes e)

/-- `load_entries` from a stream, with `seen` records counted and `out` loaded so far. -/
def loadLoop (reader : EntryReader) (blobs : Bytes 32 → Option (List UInt8)) :
    List (Except String Record) → (seen : Nat) → (out : List Entry) → Except String (List Entry)
  | [], _, out => .ok out
  | .error e :: _, _, _ => .error e
  | .ok r :: stream, seen, out =>
    if !KEY_PREFIX.isPrefixOf r.key || r.contentLen > MAX_ENTRY_BYTES then
      loadLoop reader blobs stream seen out
    else
      let seen := seen + 1
      if seen > MAX_ENTRIES then .ok out
      else
        match blobs r.contentHash with
        | none => loadLoop reader blobs stream seen out
        | some bytes =>
          match reader.fromReader bytes with
          | some parsed => loadLoop reader blobs stream seen (out ++ [parsed])
          | none => loadLoop reader blobs stream seen out

/-- **`load_entries`.** -/
def loadEntries (reader : EntryReader) (D : Replica) : Except String (List Entry) :=
  loadLoop reader D.blobs D.stream 0 []

/-- **`build_roster`** at clock `now`. -/
def buildRoster (P : Primitives) (now : UInt64) (cfg : Config) (reader : EntryReader)
    (D : Replica) : Except String Roster := do
  let entries ← loadEntries reader D
  .ok (Roster.build P now cfg entries)

/-! ## 2. What a read yields -/

/-- The record counts: it stands under the prefix and is not too large. -/
def Record.counted (r : Record) : Bool :=
  KEY_PREFIX.isPrefixOf r.key && r.contentLen ≤ MAX_ENTRY_BYTES

/-- The entry a record holds, where its blob is available and readable. -/
def Record.parsed? (reader : EntryReader) (blobs : Bytes 32 → Option (List UInt8)) (r : Record) :
    Option Entry := (blobs r.contentHash).bind reader.fromReader

/-- The records a read gets to: the first `MAX_ENTRIES` that count. -/
def readRecords (records : List Record) : List Record :=
  (records.filter Record.counted).take MAX_ENTRIES

variable {reader : EntryReader} {blobs : Bytes 32 → Option (List UInt8)} {records : List Record}

theorem skip_eq_not_counted (r : Record) :
    (!KEY_PREFIX.isPrefixOf r.key || decide (r.contentLen > MAX_ENTRY_BYTES)) = !r.counted := by
  have hlen : decide (r.contentLen > MAX_ENTRY_BYTES) =
      !decide (r.contentLen ≤ MAX_ENTRY_BYTES) := by
    by_cases h : r.contentLen ≤ MAX_ENTRY_BYTES
    · simp [h]
    · simp [h, Nat.lt_of_not_le h]
  rw [Record.counted, Bool.not_and, hlen]

/-- The loop over a stream without errors, in any state of its counter. -/
theorem loadLoop_ok (records : List Record) (seen : Nat) (out : List Entry) :
    loadLoop reader blobs (records.map .ok) seen out =
      .ok (out ++ ((records.filter Record.counted).take (MAX_ENTRIES - seen)).filterMap
        (Record.parsed? reader blobs)) := by
  induction records generalizing seen out with
  | nil => simp [loadLoop]
  | cons r records ih =>
    rw [List.map_cons, loadLoop, skip_eq_not_counted]
    cases hc : r.counted with
    | false => simpa [hc] using ih seen out
    | true =>
      rw [List.filter_cons_of_pos hc]
      by_cases hmax : seen + 1 > MAX_ENTRIES
      · have hzero : MAX_ENTRIES - seen = 0 := by omega
        simp [hmax, hzero]
      · have hsucc : MAX_ENTRIES - seen = (MAX_ENTRIES - (seen + 1)) + 1 := by omega
        rw [hsucc, List.take_succ_cons, List.filterMap_cons]
        rcases Option.eq_none_or_eq_some (blobs r.contentHash) with hb | ⟨bytes, hb⟩
        · simp [hmax, hb, Record.parsed?, ih]
        · rcases Option.eq_none_or_eq_some (reader.fromReader bytes) with hp | ⟨e, hp⟩
          · simp [hmax, hb, hp, Record.parsed?, ih]
          · simp [hmax, hb, hp, Record.parsed?, ih]

/-- **A read without errors yields the entries of the records it gets to.** -/
theorem loadEntries_eq {D : Replica} (h : D.stream = records.map .ok) :
    loadEntries reader D =
      .ok ((readRecords records).filterMap (Record.parsed? reader D.blobs)) := by
  rw [loadEntries, h, loadLoop_ok]
  rfl

/-- A read gets to every record that counts, where not more than `MAX_ENTRIES` do. -/
theorem readRecords_of_few (h : (records.filter Record.counted).length ≤ MAX_ENTRIES) :
    readRecords records = records.filter Record.counted := List.take_of_length_le h

theorem mem_of_mem_readRecords {r : Record} (h : r ∈ readRecords records) : r ∈ records :=
  List.mem_of_mem_filter (List.mem_of_mem_take h)

variable {P : Primitives} {now : UInt64} {cfg : Config}

/-- A published entry counts exactly when its value is small enough. -/
theorem counted_publishEntry (e : Entry) :
    (publishEntry P e).counted = decide ((entryBytes e).length ≤ MAX_ENTRY_BYTES) := by
  have hprefix : KEY_PREFIX.isPrefixOf (publishEntry P e).key = true :=
    List.isPrefixOf_iff_prefix.mpr (List.prefix_append _ _)
  rw [Record.counted, hprefix, Bool.true_and]
  rfl

/-- Where its blob is available, a published entry that counts reads back. -/
theorem parsed?_publishEntry {e : Entry} (hlen : (entryBytes e).length ≤ MAX_ENTRY_BYTES)
    (hblob : blobs (publishEntry P e).contentHash = some (entryBytes e)) :
    (publishEntry P e).parsed? reader blobs = some e := by
  have hlt : (entryBytes e).length < UInt64.size := lt_of_le_of_lt hlen (by decide)
  rw [Record.parsed?, hblob, Option.bind_some, reader.law e hlt]

/-! ## 3. Entries among junk -/

/-- The document holds the authentic entries `A`, each within the limits, and otherwise junk:
    values that are unreadable, or read as an entry `Roster::build` does not keep. Every blob
    is available. -/
structure HoldsAmongJunk (P : Primitives) (now : UInt64) (cfg : Config) (reader : EntryReader)
    (D : Replica) (records : List Record) (A : List Entry) : Prop where
  stream : D.stream = records.map .ok
  few : A.length < MAX_ENTRIES
  small : ∀ e ∈ A, (entryBytes e).length ≤ MAX_ENTRY_BYTES
  genuine : ∀ e ∈ A, authentic P now cfg e = true
  held : ∀ e ∈ A, publishEntry P e ∈ records
  blob : ∀ e ∈ A, D.blobs (publishEntry P e).contentHash = some (entryBytes e)
  junk : ∀ r ∈ records, (∃ e ∈ A, r = publishEntry P e) ∨
    ∃ bytes, D.blobs r.contentHash = some bytes ∧
      ∀ e, reader.fromReader bytes = some e → authentic P now cfg e = false

/-- The entry stands among the records a read gets to. -/
def inReach (P : Primitives) (records : List Record) (e : Entry) : Bool :=
  publishEntry P e ∈ readRecords records

/-- **What a read of such a document keeps**: the entries of `A` it gets to. -/
theorem HoldsAmongJunk.mem_loaded {D : Replica} {A : List Entry}
    (h : HoldsAmongJunk P now cfg reader D records A) {e : Entry}
    (ha : authentic P now cfg e = true) :
    e ∈ (readRecords records).filterMap (Record.parsed? reader D.blobs) ↔
      e ∈ A.filter (inReach P records) := by
  rw [List.mem_filterMap, List.mem_filter]
  refine ⟨?_, ?_⟩
  · intro h'
    obtain ⟨r, hr, hre⟩ := h'
    rcases h.junk r (mem_of_mem_readRecords hr) with ⟨e', he', rfl⟩ | ⟨bytes, hb, hjunk⟩
    · rw [parsed?_publishEntry (h.small e' he') (h.blob e' he')] at hre
      obtain rfl := Option.some.inj hre
      exact ⟨he', decide_eq_true hr⟩
    · rw [Record.parsed?, hb, Option.bind_some] at hre
      rw [hjunk e hre] at ha
      cases ha
  · intro h'
    obtain ⟨heA, hreach⟩ := h'
    exact ⟨publishEntry P e, of_decide_eq_true hreach,
      parsed?_publishEntry (h.small e heA) (h.blob e heA)⟩

/-- The roster of such a document is the roster of the entries a read gets to. -/
theorem HoldsAmongJunk.buildRoster_eq {D : Replica} {A : List Entry}
    (h : HoldsAmongJunk P now cfg reader D records A) (hcf : CollisionFree P now cfg A) :
    buildRoster P now cfg reader D =
      .ok (Roster.build P now cfg (A.filter (inReach P records))) := by
  have hload : loadEntries reader D = _ := loadEntries_eq h.stream
  have hsub : CollisionFree P now cfg (A.filter (inReach P records)) :=
    hcf.mono fun e he _ => List.mem_of_mem_filter he
  have hroster : Roster.build P now cfg (A.filter (inReach P records)) =
      Roster.build P now cfg ((readRecords records).filterMap (Record.parsed? reader D.blobs)) :=
    build_congr hsub fun e ha => (h.mem_loaded ha).symm
  rw [buildRoster, hload, hroster]
  rfl

/-- An entry within the limits is in reach where not more than `MAX_ENTRIES` records count. -/
theorem HoldsAmongJunk.inReach_of_few {D : Replica} {A : List Entry}
    (h : HoldsAmongJunk P now cfg reader D records A)
    (hfew : (records.filter Record.counted).length ≤ MAX_ENTRIES) {e : Entry} (he : e ∈ A) :
    inReach P records e = true := by
  refine decide_eq_true ?_
  rw [readRecords_of_few hfew, List.mem_filter, counted_publishEntry]
  exact ⟨h.held e he, decide_eq_true (h.small e he)⟩

/-- **Where junk cannot change the outcome.** Let a document hold the authentic entries `A` and
    junk, in any order. It yields the roster of `A` where every entry of `A` stands among the first
    `MAX_ENTRIES` records that count; so it does where not more than `MAX_ENTRIES` count at all. -/
theorem junk_harmless (D : Replica) (A : List Entry)
    (h : HoldsAmongJunk P now cfg reader D records A) (hcf : CollisionFree P now cfg A) :
    ((∀ e ∈ A, inReach P records e = true) →
      buildRoster P now cfg reader D = .ok (Roster.build P now cfg A)) ∧
    ((records.filter Record.counted).length ≤ MAX_ENTRIES →
      buildRoster P now cfg reader D = .ok (Roster.build P now cfg A)) := by
  have hall : (∀ e ∈ A, inReach P records e = true) →
      buildRoster P now cfg reader D = .ok (Roster.build P now cfg A) := fun hreach => by
    rw [h.buildRoster_eq hcf, List.filter_eq_self.mpr hreach]
  exact ⟨hall, fun hfew => hall fun e he => h.inReach_of_few hfew he⟩

/-! ## 4. Junk that drops a member -/

namespace Sample

/-- A document that holds one entry. -/
def holding (e : Entry) : Replica := ⟨[.ok (publishEntry .plain e)], fun _ => some (entryBytes e)⟩

/-- The record of the genesis entry. -/
def genesisRecord : Record := publishEntry .plain genesis

/-- A value of one byte, which no reader takes for an entry. -/
def junkValue : List UInt8 := [0xff]

/-- The record of that value under the `n`-th key of a member's own. -/
def junkRecord (n : Nat) : Record where
  key := KEY_PREFIX ++ [UInt8.ofNat (n / 65536), UInt8.ofNat (n / 256), UInt8.ofNat n]
  contentLen := junkValue.length
  contentHash := Primitives.plain.hash junkValue

/-- The blobs of both. -/
def spamBlobs (h : Bytes 32) : Option (List UInt8) :=
  if h = genesisRecord.contentHash then some (entryBytes genesis) else some junkValue

/-- A document with `n` junk records in front of the genesis entry. -/
def spam (n : Nat) : List Record := (List.range n).map junkRecord ++ [genesisRecord]

def spammed (n : Nat) : Replica := ⟨(spam n).map .ok, spamBlobs⟩

end Sample

/-- Two of the keys differ. -/
theorem Sample.junkRecord_inj {m n : Nat} (hm : m < 2 ^ 24) (hn : n < 2 ^ 24)
    (h : (Sample.junkRecord m).key = (Sample.junkRecord n).key) : m = n := by
  obtain ⟨hhigh, hrest⟩ := List.cons.inj (List.append_cancel_left h)
  obtain ⟨hmid, hrest⟩ := List.cons.inj hrest
  obtain ⟨hlow, -⟩ := List.cons.inj hrest
  rw [← UInt8.toNat_inj, UInt8.toNat_ofNat', UInt8.toNat_ofNat'] at hhigh hmid hlow
  omega

/-- All records of the document stand under keys of their own. -/
theorem Sample.spam_keys {n : Nat} (hn : n ≤ 2 ^ 24) :
    ((Sample.spam n).map Record.key).Nodup := by
  rw [Sample.spam, List.map_append, List.map_map, List.nodup_append]
  refine ⟨List.Nodup.map_on ?_ List.nodup_range, List.nodup_singleton _, ?_⟩
  · intro a ha b hb hab
    exact Sample.junkRecord_inj (lt_of_lt_of_le (List.mem_range.mp ha) hn)
      (lt_of_lt_of_le (List.mem_range.mp hb) hn) hab
  · intro key hkey key' hkey' heq
    obtain ⟨i, -, rfl⟩ := List.mem_map.mp hkey
    rw [List.mem_singleton.mp hkey'] at heq
    -- the genesis entry has the longer key
    have hshort : (Sample.junkRecord i).key.length = 5 := rfl
    have hlong : Sample.genesisRecord.key.length = 34 := by decide
    exact absurd (hshort.symm.trans ((congrArg List.length heq).trans hlong)) (by decide)

theorem Sample.load_holding {e : Entry} (hlen : (entryBytes e).length ≤ MAX_ENTRY_BYTES) :
    loadEntries .derived (Sample.holding e) = .ok [e] := by
  have hstream : (Sample.holding e).stream = [publishEntry .plain e].map .ok := rfl
  have hcounted : (publishEntry .plain e).counted = true := by
    rw [counted_publishEntry, decide_eq_true hlen]
  have hentry : (publishEntry .plain e).parsed? .derived (Sample.holding e).blobs = some e :=
    parsed?_publishEntry hlen rfl
  rw [loadEntries_eq hstream, readRecords, List.filter_cons_of_pos hcounted]
  simp [MAX_ENTRIES, hentry]

theorem Sample.spam_holds (n : Nat) : HoldsAmongJunk .plain 100 Sample.config .derived
    (Sample.spammed n) (Sample.spam n) [Sample.genesis] where
  stream := rfl
  few := by decide
  small e he := by
    rw [List.mem_singleton.mp he]
    exact le_trans (length_entry_le rfl) (by decide)
  genuine := by decide
  held e he := by
    rw [List.mem_singleton.mp he]
    exact List.mem_append_right _ List.mem_cons_self
  blob e he := by
    rw [List.mem_singleton.mp he]
    show Sample.spamBlobs Sample.genesisRecord.contentHash = _
    exact if_pos rfl
  junk r hr := by
    rcases List.mem_append.mp hr with hr | hr
    · obtain ⟨i, -, rfl⟩ := List.mem_map.mp hr
      have hblob : Sample.spamBlobs (Primitives.plain.hash Sample.junkValue) =
          some Sample.junkValue := if_neg (by decide)
      have hnone : EntryReader.derived.fromReader Sample.junkValue = none := by decide
      refine Or.inr ⟨Sample.junkValue, hblob, fun e he => ?_⟩
      rw [hnone] at he
      cases he
    · exact Or.inl ⟨Sample.genesis, List.mem_cons_self, List.mem_singleton.mp hr⟩

theorem Sample.load_spammed (n : Nat) : loadEntries .derived (Sample.spammed n) =
    .ok ((readRecords (Sample.spam n)).filterMap (Record.parsed? .derived Sample.spamBlobs)) :=
  loadEntries_eq (Sample.spam_holds n).stream

/-- Behind a few junk records the genesis entry is read. -/
theorem junk_harmless_sample :
    buildRoster .plain 100 Sample.config .derived (Sample.spammed 3) =
      .ok (Roster.build .plain 100 Sample.config [Sample.genesis]) :=
  (junk_harmless (Sample.spammed 3) [Sample.genesis] (Sample.spam_holds 3) (by decide)).2
    (le_trans (List.length_filter_le _ _) (by decide))

theorem Sample.readRecords_spam :
    readRecords (Sample.spam MAX_ENTRIES) = (List.range MAX_ENTRIES).map Sample.junkRecord := by
  have hjunk : ∀ r ∈ (List.range MAX_ENTRIES).map Sample.junkRecord, r.counted = true := by
    intro r hr
    obtain ⟨i, -, rfl⟩ := List.mem_map.mp hr
    rw [Record.counted, Bool.and_eq_true]
    have hlen : Sample.junkValue.length ≤ MAX_ENTRY_BYTES := by decide
    exact ⟨List.isPrefixOf_iff_prefix.mpr (List.prefix_append _ _), decide_eq_true hlen⟩
  rw [readRecords, Sample.spam, List.filter_append, List.filter_eq_self.mpr hjunk]
  exact List.take_left' (by rw [List.length_map, List.length_range])

/-- **Junk drops a member**: behind `MAX_ENTRIES` records of a member, with values of one byte under
    keys of their own, nobody's entry is read any more, and the roster is empty. -/
theorem junk_not_harmless :
    ¬ ∀ (D : Replica) (records : List Record) (A : List Entry),
      (records.map Record.key).Nodup → (∀ r ∈ records, 0 < r.contentLen) →
      HoldsAmongJunk .plain 100 Sample.config .derived D records A →
      CollisionFree .plain 100 Sample.config A →
      buildRoster .plain 100 Sample.config .derived D =
        .ok (Roster.build .plain 100 Sample.config A) := by
  intro h
  have hfilled : ∀ r ∈ Sample.spam MAX_ENTRIES, 0 < r.contentLen := by
    intro r hr
    rcases List.mem_append.mp hr with hr | hr
    · obtain ⟨i, -, rfl⟩ := List.mem_map.mp hr
      exact Nat.one_pos
    · rw [List.mem_singleton.mp hr]
      have htext : 0 < Sample.genesis.op.text.utf8ByteSize := by decide
      exact lt_of_lt_of_le htext (le_length_entry _)
  have hb := h _ _ _ (Sample.spam_keys (by decide)) hfilled (Sample.spam_holds MAX_ENTRIES)
    (by decide)
  have hread : (readRecords (Sample.spam MAX_ENTRIES)).filterMap
      (Record.parsed? .derived Sample.spamBlobs) = [] := by
    rw [Sample.readRecords_spam, List.filterMap_eq_nil_iff]
    intro r hr
    obtain ⟨i, -, rfl⟩ := List.mem_map.mp hr
    have hblob : Sample.spamBlobs (Primitives.plain.hash Sample.junkValue) =
        some Sample.junkValue := if_neg (by decide)
    have hnone : EntryReader.derived.fromReader Sample.junkValue = none := by decide
    show (Sample.spamBlobs (Primitives.plain.hash Sample.junkValue)).bind _ = none
    rw [hblob, Option.bind_some, hnone]
  have hempty : buildRoster .plain 100 Sample.config .derived (Sample.spammed MAX_ENTRIES) =
      .ok (Roster.build .plain 100 Sample.config []) := by
    rw [buildRoster, Sample.load_spammed, hread]
    rfl
  have heq := Except.ok.inj (hempty.symm.trans hb)
  have hmem := congrArg (fun r => r.isMember (Sample.key 2)) heq
  revert hmem
  decide

end Nullgate

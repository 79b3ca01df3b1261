/-
  File:      Nullgate/Membership/RoundTrip.lean
  Subject:   DOES WHAT IS PUBLISHED LOAD AGAIN? Writers without a limit, a reader with one.

  `publish_entry` writes entries of any size; `load_entries` skips values of more than
  `MAX_ENTRY_BYTES`. Names and hostnames are not limited on the way in.

  * `publish_load_iff`: an entry an operation publishes reads back from every document that
    holds it exactly when its encoding is within the reader's limit, which it is as soon as
    the text it carries has at most 3196 bytes;
  * `published_not_loaded`: `set_network_name` returns `Ok` for a name nobody ever reads.
-/
import Nullgate.Engine.Publish
import Nullgate.Membership.Document

namespace Nullgate

open Nullgate.Lib

/-- The entries the operations of the engine publish: the administrative calls, the founding
    entries of a new network, and the removals of the members of an old one. -/
inductive PublishedBy (C : Crates) : Entry → Prop
  | call {i : Inner} {nowMs : UInt64} {call : AdminCall} {e : Entry}
      (h : perform C i nowMs call = .ok e) : PublishedBy C e
  | founding {cfg : StoredConfig} {originator : SigningKey} {myId : Id} {currentHostname : String}
      {peerNonce : Nonce} {nowGenesis nowInvite : UInt64} {e : Entry}
      (h : e ∈ foundingEntries C cfg originator myId currentHostname peerNonce nowGenesis
        nowInvite) :
      PublishedBy C e
  | boot (cfg : StoredConfig) (originator : SigningKey) (id : Id) (nowMs : UInt64) :
      PublishedBy C (bootEntry C cfg originator id nowMs)

/-- Every document of fewer than `MAX_ENTRIES` records that holds the published entry, with
    its blob, loads it. -/
def ReadsBack (P : Primitives) (e : Entry) : Prop :=
  ∀ (reader : EntryReader) (D : Replica) (records : List Record), D.stream = records.map .ok →
    records.length < MAX_ENTRIES → publishEntry P e ∈ records →
    D.blobs (publishEntry P e).contentHash = some (entryBytes e) →
    ∃ loaded, loadEntries reader D = .ok loaded ∧ e ∈ loaded

variable {C : Crates} {e : Entry}

theorem PublishedBy.signature_length (h : PublishedBy C e) : e.signature.length = 64 := by
  cases h with
  | call h =>
    obtain ⟨netId, key, op, rfl, -⟩ := perform_ok h
    exact Bytes.length_eq _
  | founding h =>
    rcases List.mem_cons.mp h with rfl | h
    · exact Bytes.length_eq _
    · rw [List.mem_singleton.mp h]
      exact Bytes.length_eq _
  | boot cfg originator id nowMs => exact Bytes.length_eq _

/-- **An entry reads back exactly when its encoding is within the limit.** -/
theorem readsBack_iff {P : Primitives} :
    ReadsBack P e ↔ (entryBytes e).length ≤ MAX_ENTRY_BYTES := by
  refine ⟨?_, ?_⟩
  · intro h
    by_contra hbig
    have hcounted : (publishEntry P e).counted = false := by
      rw [counted_publishEntry, decide_eq_false hbig]
    -- the document that holds nothing but the entry
    obtain ⟨loaded, hload, he⟩ := h .derived
      ⟨[publishEntry P e].map .ok, fun _ => some (entryBytes e)⟩ [publishEntry P e] rfl
      (by rw [List.length_singleton]; decide) List.mem_cons_self rfl
    rw [loadEntries_eq rfl, readRecords, List.filter_cons_of_neg (by simp [hcounted])] at hload
    obtain rfl := Except.ok.inj hload
    cases he
  · intro hlen reader D records hstream hfew hmem hblob
    have hfilter : (records.filter Record.counted).length ≤ MAX_ENTRIES :=
      le_trans (List.length_filter_le _ _) hfew.le
    have hread : publishEntry P e ∈ readRecords records := by
      rw [readRecords_of_few hfilter, List.mem_filter, counted_publishEntry]
      exact ⟨hmem, decide_eq_true hlen⟩
    exact ⟨_, loadEntries_eq hstream,
      List.mem_filterMap.mpr ⟨_, hread, parsed?_publishEntry hlen hblob⟩⟩

/-- **When what is published loads again.** -/
theorem publish_load_iff (h : PublishedBy C e) :
    (ReadsBack C.toPrimitives e ↔ (entryBytes e).length ≤ MAX_ENTRY_BYTES) ∧
      (e.op.text.utf8ByteSize ≤ 3196 → ReadsBack C.toPrimitives e) := by
  refine ⟨readsBack_iff, fun htext => readsBack_iff.mpr ?_⟩
  have hlen := length_entry_le h.signature_length
  have hmax : MAX_ENTRY_BYTES = 4096 := rfl
  omega

/-! ## A name nobody reads -/

namespace Sample

/-- A name of `n` letters. -/
def longName (n : Nat) : String := String.ofList (List.replicate n 'a')

end Sample

theorem length_le_utf8ByteSize (l : List Char) : l.length ≤ (String.ofList l).utf8ByteSize := by
  induction l with
  | nil => exact Nat.zero_le _
  | cons c l ih =>
    have hc : 0 < (String.singleton c).utf8ByteSize := by
      rw [String.utf8ByteSize_singleton]
      exact Char.utf8Size_pos c
    rw [show c :: l = [c] ++ l from rfl, String.ofList_append, String.utf8ByteSize_append,
      ← String.singleton_eq_ofList, List.length_append, List.length_singleton]
    omega

theorem Sample.le_size_longName (n : Nat) : n ≤ (Sample.longName n).utf8ByteSize := by
  have hlen := length_le_utf8ByteSize (List.replicate n 'a')
  rwa [List.length_replicate] at hlen

theorem Sample.trim_longName (n : Nat) :
    String.ofList (trim (Sample.longName n).toList) = Sample.longName n := by
  have hblank : isWhitespace 'a' = false := by decide
  have hdrop : (List.replicate n 'a').dropWhile isWhitespace = List.replicate n 'a' := by
    rw [List.dropWhile_replicate, hblank]
    rfl
  rw [trim, Sample.longName, String.toList_ofList, hdrop, List.reverse_replicate, hdrop,
    List.reverse_replicate]

/-- What device 2 publishes when it names the network so. -/
theorem Sample.named (n : Nat) (hn : 0 < n) :
    perform .plain Sample.master 6 (.setNetworkName (Sample.longName n)) =
      .ok (Sample.signed 2 (.setName (Sample.longName n) 6)) := by
  have hsize := Sample.le_size_longName n
  have hne : (Sample.longName n).isEmpty = false := by
    show ((Sample.longName n).utf8ByteSize == 0) = false
    rw [beq_eq_false_iff_ne]
    omega
  simp only [perform, setNetworkName, Sample.trim_longName, hne, Sample.masterKey.network_eq, bind,
    Except.bind]
  rfl

/-- A name of three letters reads back. -/
theorem publish_load_sample :
    ∃ loaded, loadEntries .derived
        (Sample.holding (Sample.signed 2 (.setName (Sample.longName 3) 6))) = .ok loaded ∧
      Sample.signed 2 (.setName (Sample.longName 3) 6) ∈ loaded :=
  (publish_load_iff (.call (Sample.named 3 (by decide)))).2 (by decide) .derived _
    [publishEntry .plain _] rfl (by decide) List.mem_cons_self rfl

/-- **A published name that is never read**: `set_network_name` accepts a name of 5000
    letters, and every reader skips the entry. -/
theorem published_not_loaded :
    ¬ ∀ e, PublishedBy .plain e → ReadsBack .plain e := by
  intro h
  have hread := h _ (.call (Sample.named 5000 (by decide)))
  have hlen := readsBack_iff.mp hread
  have htext := le_length_entry (Sample.signed 2 (.setName (Sample.longName 5000) 6))
  have hsize : 5000 ≤ (Sample.signed 2 (.setName (Sample.longName 5000) 6)).op.text.utf8ByteSize :=
    Sample.le_size_longName 5000
  have hmax : MAX_ENTRY_BYTES = 4096 := rfl
  omega

end Nullgate

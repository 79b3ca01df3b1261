/-
  File:      Nullgate/Engine/Audit.lean
  Subject:   THE ACTIVITY LOG (`audit_log`): who is shown to have done what.

  The log is a table over the entries the document holds, newest first, of the last 30 days.
  It is built from the LOADED entries, on a path of its own: nothing here asks whether an
  entry belongs to this network or whether its signature verifies.

  * `auditLog` -- the function of the source, names and texts included;
  * `mem_auditLog`: the rows are those of the recent loaded entries;
  * `audit_authentic_iff`: every row is backed by a signed entry of the network exactly when
    every recent loaded entry is one, or shows the same as one that is;
  * `audit_forged`: a member writes an unsigned entry under the originator's name.
-/
import Nullgate.Engine.Admin
import Nullgate.Membership.Document

namespace Nullgate

open Nullgate.Lib

/-! ## 1. The log -/

/-- One entry of the activity log. -/
structure AuditEntry where
  ts : UInt64
  /-- the signer of the operation (hex), or `originator` for master-key actions -/
  actorNodeId : String
  actorName : Option String
  action : String
  deriving DecidableEq

/-- `Role::as_str`. -/
def Role.asStr : Role → String
  | .peer => "peer"
  | .controller => "controller"

/-- `HEXLOWER.encode(id)`. -/
def hexOf (id : Id) : String := String.ofList (encodeHexLower id.toList)

/-- `short`: the first four bytes in hex. -/
def short (id : Id) : String := String.ofList (encodeHexLower (id.toList.take 4))

/-- The hostnames of the loaded `add`s, the last one for each node. -/
def hostnames (entries : List Entry) : Std.ExtTreeMap Id String :=
  entries.foldl (fun names e =>
    match e.op with
    | .add nodeId hostname _ _ _ _ => names.insert nodeId hostname
    | _ => names) ∅

section Rows

variable (nicks : String → Option String) (entries : List Entry) (originatorId : Id)

/-- The local nickname of a node, else its hostname. -/
def nameOf (id : Id) : Option String := (nicks (hexOf id)).or (hostnames entries)[id]?

def label (id : Id) : String := (nameOf nicks entries id).getD (short id)

/-- The text of an action. -/
def Op.action : Op → String
  | .add nodeId _ role _ _ _ => "Added " ++ label nicks entries nodeId ++ " as " ++ role.asStr
  | .remove nodeId _ => "Removed " ++ label nicks entries nodeId
  | .setRole nodeId role _ => "Set " ++ label nicks entries nodeId ++ " to " ++ role.asStr
  | .setInvite .peer _ singleUse _ =>
    "Regenerated the Peer join code" ++ if singleUse then " (single-use)" else ""
  | .setInvite .controller _ _ _ => "Issued a Controller join code (single-use)"
  | .freeze frozen _ => if frozen then "Froze membership" else "Unfroze membership"
  | .setName name _ => "Renamed the network to \"" ++ name ++ "\""

/-- The actor a row shows for a signer. -/
def actorNodeId (signer : Id) : String :=
  if signer = originatorId then "originator" else hexOf signer

def actorName (signer : Id) : Option String :=
  if signer = originatorId then some "Originator (master key)" else nameOf nicks entries signer

/-- The row of an entry. -/
def auditRow (e : Entry) : AuditEntry where
  ts := e.op.ts
  actorNodeId := actorNodeId originatorId e.signer
  actorName := actorName nicks entries originatorId e.signer
  action := e.op.action nicks entries

end Rows

/-- The log reaches back this far. -/
def auditCutoff (nowMs : UInt64) : UInt64 := saturatingSub nowMs (30 * 24 * 3600 * 1000)

/-- **`audit_log`** at clock `nowMs`, with the client's local nicknames. -/
def auditLog (i : Inner) (nicks : String → Option String) (nowMs : UInt64) (reader : EntryReader)
    (D : Replica) : Except String (List AuditEntry) := do
  let cfg ← i.network
  match i.doc with
  | none => .error "network offline"
  | some _ =>
    let entries ← loadEntries reader D
    let out := (entries.filter fun e => ¬ e.op.ts < auditCutoff nowMs).map
      (auditRow nicks entries cfg.originatorId)
    .ok (out.insertionSort fun a b => b.ts ≤ a.ts)

/-! ## 2. The rows -/

variable {i : Inner} {cfg : StoredConfig} {nicks : String → Option String} {nowMs : UInt64}
  {reader : EntryReader} {D : Replica} {entries : List Entry} {log : List AuditEntry}

/-- The log was derived from the entries, under the config. -/
structure LogOf (i : Inner) (nicks : String → Option String) (nowMs : UInt64)
    (reader : EntryReader) (D : Replica) (cfg : StoredConfig) (entries : List Entry)
    (log : List AuditEntry) : Prop where
  config : i.config = some cfg
  loaded : loadEntries reader D = .ok entries
  log : auditLog i nicks nowMs reader D = .ok log

/-- **The rows of the log are those of the recent loaded entries.** -/
theorem LogOf.mem_iff (h : LogOf i nicks nowMs reader D cfg entries log) {a : AuditEntry} :
    a ∈ log ↔ ∃ e ∈ entries, auditCutoff nowMs ≤ e.op.ts ∧
      auditRow nicks entries cfg.originatorId e = a := by
  have hnet : i.network = .ok cfg := by simp [Inner.network, h.config]
  have hlog := h.log
  simp only [auditLog, hnet, h.loaded, bind, Except.bind] at hlog
  split at hlog
  · cases hlog
  · obtain rfl := Except.ok.inj hlog
    simp only [List.mem_insertionSort, List.mem_map, List.mem_filter, not_lt, decide_eq_true_eq,
      and_assoc]

theorem hexOf_injective : Function.Injective hexOf := fun _ _ h =>
  Bytes.ext (encodeHexLower_injective (String.ofList_injective h))

/-- The actor shown tells the signer. -/
theorem actorNodeId_inj {o a b : Id} (h : actorNodeId o a = actorNodeId o b) : a = b := by
  have hhex : ∀ x, hexOf x ≠ "originator" := fun x heq => by
    -- the hex of an id is longer
    have hlen := congrArg (fun s => s.toList.length) heq
    simp only [hexOf, String.toList_ofList, length_encodeHexLower, x.length_eq] at hlen
    revert hlen
    decide
  unfold actorNodeId at h
  split at h
  · rename_i ha
    split at h
    · rename_i hb
      exact ha.trans hb.symm
    · exact absurd h.symm (hhex b)
  · split at h
    · exact absurd h (hhex a)
    · exact hexOf_injective h

/-! ## 3. What is behind a row -/

variable (C : Crates)

/-- The entry is of the network, and its signer signed it. -/
def Genuine (cfg : StoredConfig) (e : Entry) : Prop :=
  e.networkId = cfg.secret.networkId C ∧ e.verifySignature C.toPrimitives = true

/-- The row shows the entry: its time, its signer as the actor, and what it did. -/
def Shows (nicks : String → Option String) (entries : List Entry) (cfg : StoredConfig)
    (a : AuditEntry) (e : Entry) : Prop :=
  a.ts = e.op.ts ∧ a.actorNodeId = actorNodeId cfg.originatorId e.signer ∧
    a.action = e.op.action nicks entries

variable {C}

/-- **When the log is authentic.** Every row of the log shows a loaded entry of the network
    that the displayed actor signed, exactly when every recent loaded entry is one, or has
    the time, the signer and the action of one. -/
theorem audit_authentic_iff (h : LogOf i nicks nowMs reader D cfg entries log) :
    (∀ a ∈ log, ∃ e ∈ entries, Genuine C cfg e ∧ Shows nicks entries cfg a e) ↔
      ∀ e ∈ entries, auditCutoff nowMs ≤ e.op.ts → Genuine C cfg e ∨
        ∃ e' ∈ entries, Genuine C cfg e' ∧ e'.op.ts = e.op.ts ∧ e'.signer = e.signer ∧
          e'.op.action nicks entries = e.op.action nicks entries := by
  refine ⟨?_, ?_⟩
  · intro hrows e he hrecent
    have hmem := h.mem_iff.mpr ⟨e, he, hrecent, rfl⟩
    obtain ⟨e', he', hgen, hts, hactor, haction⟩ := hrows _ hmem
    exact Or.inr ⟨e', he', hgen, hts.symm, (actorNodeId_inj hactor).symm, haction.symm⟩
  · intro hentries a ha
    obtain ⟨e, he, hrecent, rfl⟩ := h.mem_iff.mp ha
    rcases hentries e he hrecent with hgen | ⟨e', he', hgen, hts, hsigner, haction⟩
    · exact ⟨e, he, hgen, rfl, rfl, rfl⟩
    · refine ⟨e', he', hgen, hts.symm, ?_, haction.symm⟩
      rw [hsigner]
      rfl

/-! ## 4. A row nobody signed -/

namespace Sample

/-- An op under the originator's name, with a signature of zeros. -/
def forged : Entry where
  networkId := NET
  signer := key 1
  op := .freeze true 50
  signature := List.replicate 64 0

end Sample

/-- The log of device 2 over a document that holds one entry. -/
theorem Sample.logOf_holding {e : Entry} (hlen : (entryBytes e).length ≤ MAX_ENTRY_BYTES)
    (hrecent : auditCutoff 100 ≤ e.op.ts) :
    LogOf Sample.master (fun _ => none) 100 .derived (Sample.holding e)
      (Sample.stored (some (Sample.key 1))) [e]
      [auditRow (fun _ => none) [e] (Sample.key 1) e] where
  config := rfl
  loaded := Sample.load_holding hlen
  log := by
    have hkeep : [e].filter (fun e => ¬ e.op.ts < auditCutoff 100) = [e] :=
      List.filter_eq_self.mpr fun x hx => by
        rw [List.mem_singleton.mp hx]
        exact decide_eq_true (not_lt.mpr hrecent)
    simp only [auditLog, Sample.masterKey.network_eq, Sample.load_holding hlen, bind, Except.bind]
    rw [hkeep]
    rfl

/-- A signed entry backs its row. -/
theorem audit_authentic_sample :
    ∃ e ∈ [Sample.peerInvite], Genuine .plain (Sample.stored (some (Sample.key 1))) e ∧
      Shows (fun _ => none) [Sample.peerInvite] (Sample.stored (some (Sample.key 1)))
        (auditRow (fun _ => none) [Sample.peerInvite] (Sample.key 1) Sample.peerInvite) e := by
  have hlen : (entryBytes Sample.peerInvite).length ≤ MAX_ENTRY_BYTES :=
    le_trans (length_entry_le rfl) (by decide)
  refine (audit_authentic_iff (Sample.logOf_holding hlen (by decide))).mpr (fun e he _ => ?_) _
    List.mem_cons_self
  rw [List.mem_singleton.mp he]
  exact Or.inl ⟨rfl, by decide⟩

/-- **A row nobody signed**: the log shows the originator freezing the roll. -/
theorem audit_forged :
    ¬ ∀ (i : Inner) (nicks : String → Option String) (nowMs : UInt64) (reader : EntryReader)
        (D : Replica) (cfg : StoredConfig) (entries : List Entry) (log : List AuditEntry),
      LogOf i nicks nowMs reader D cfg entries log →
      ∀ a ∈ log, ∃ e ∈ entries, Genuine .plain cfg e ∧ Shows nicks entries cfg a e := by
  intro h
  have hlen : (entryBytes Sample.forged).length ≤ MAX_ENTRY_BYTES :=
    le_trans (length_entry_le rfl) (by decide)
  obtain ⟨e, he, ⟨-, hsig⟩, -⟩ := h _ _ _ _ _ _ _ _
    (Sample.logOf_holding hlen (by decide)) _ List.mem_cons_self
  rw [List.mem_singleton.mp he] at hsig
  revert hsig
  decide

end Nullgate

/-
  File:      Nullgate/Membership/Wire.lean
  Subject:   AN ENTRY AS BYTES: what `ciborium::into_writer(entry)` writes into the document.

  The serializers of `Entry`, `Op`, `Role` and `InviteKind` are derived: a struct is a map
  with its field names as text keys, an `Op` is a map of one entry, its variant's name, to
  the map of the variant's fields, a unit variant is its name, and byte arrays and vectors
  are arrays of integers.

  * `entryCodec` -- the codec of an entry, so its round trip is `entryCodec.law`;
  * `length_entry_le`, `lt_length_entry` -- an entry takes its two texts and at most 900
    bytes around them.
-/
import Nullgate.Roster.Types
import Nullgate.Lib.Cbor

namespace Nullgate

open Nullgate.Lib Nullgate.Lib.Cbor

/-! ## 1. Roles, kinds, addresses -/

def Role.variant : Role → String
  | .peer => "Peer"
  | .controller => "Controller"

def InviteKind.variant : InviteKind → String
  | .peer => "Peer"
  | .controller => "Controller"

def roleCodec : Codec Role :=
  enum [.peer, .controller] Role.variant (by rintro ⟨⟩ <;> simp) (by
    rintro ⟨⟩ ⟨⟩ h <;> first | rfl | exact absurd h (by decide))

def kindCodec : Codec InviteKind :=
  enum [.peer, .controller] InviteKind.variant (by rintro ⟨⟩ <;> simp) (by
    rintro ⟨⟩ ⟨⟩ h <;> first | rfl | exact absurd h (by decide))

/-- The four octets as an array. -/
def Octets.toBytes (o : Octets) : Bytes 4 := ⟨[o.1, o.2.1, o.2.2.1, o.2.2.2], rfl⟩

def Octets.ofBytes (b : Bytes 4) : Octets :=
  (b.toList.getD 0 0, b.toList.getD 1 0, b.toList.getD 2 0, b.toList.getD 3 0)

def octetsCodec : Codec Octets := (fixed 4).imap Octets.ofBytes Octets.toBytes fun _ => rfl

/-! ## 2. Ops -/

/-- The variants of `Op`. -/
inductive OpVariant where
  | add
  | remove
  | setRole
  | setInvite
  | freeze
  | setName
  deriving DecidableEq

namespace OpVariant

def all : List OpVariant := [.add, .remove, .setRole, .setInvite, .freeze, .setName]

def name : OpVariant → String
  | .add => "Add"
  | .remove => "Remove"
  | .setRole => "SetRole"
  | .setInvite => "SetInvite"
  | .freeze => "Freeze"
  | .setName => "SetName"

/-- The fields of a variant, in the order of the source. -/
def Fields : OpVariant → Type
  | .add => Id × String × Role × Octets × Nonce × UInt64
  | .remove => Id × UInt64
  | .setRole => Id × Role × UInt64
  | .setInvite => InviteKind × Nonce × Bool × UInt64
  | .freeze => Bool × UInt64
  | .setName => String × UInt64

def fields : ∀ v : OpVariant, Codec v.Fields
  | .add => record 6 ((field "node_id" (fixed 32)).seq <| (field "hostname" text).seq <|
      (field "role" roleCodec).seq <| (field "virtual_ip" octetsCodec).seq <|
      (field "invite_nonce" (fixed 16)).seq <| field "ts" uint)
  | .remove => record 2 ((field "node_id" (fixed 32)).seq <| field "ts" uint)
  | .setRole => record 3 ((field "node_id" (fixed 32)).seq <| (field "role" roleCodec).seq <|
      field "ts" uint)
  | .setInvite => record 4 ((field "kind" kindCodec).seq <| (field "nonce" (fixed 16)).seq <|
      (field "single_use" bool).seq <| field "ts" uint)
  | .freeze => record 2 ((field "frozen" bool).seq <| field "ts" uint)
  | .setName => record 2 ((field "name" text).seq <| field "ts" uint)

end OpVariant

def variantCodec : Codec OpVariant :=
  enum OpVariant.all OpVariant.name (by rintro ⟨⟩ <;> simp [OpVariant.all]) (by
    rintro ⟨⟩ ⟨⟩ h <;> first | rfl | exact absurd h (by decide))

/-- The variant of an op, with its fields. -/
def Op.toFields : Op → Σ v : OpVariant, v.Fields
  | .add nodeId hostname role virtualIp inviteNonce ts =>
    ⟨.add, nodeId, hostname, role, virtualIp, inviteNonce, ts⟩
  | .remove nodeId ts => ⟨.remove, nodeId, ts⟩
  | .setRole nodeId role ts => ⟨.setRole, nodeId, role, ts⟩
  | .setInvite kind nonce singleUse ts => ⟨.setInvite, kind, nonce, singleUse, ts⟩
  | .freeze frozen ts => ⟨.freeze, frozen, ts⟩
  | .setName name ts => ⟨.setName, name, ts⟩

def Op.ofFields : (Σ v : OpVariant, v.Fields) → Op
  | ⟨.add, nodeId, hostname, role, virtualIp, inviteNonce, ts⟩ =>
    .add nodeId hostname role virtualIp inviteNonce ts
  | ⟨.remove, nodeId, ts⟩ => .remove nodeId ts
  | ⟨.setRole, nodeId, role, ts⟩ => .setRole nodeId role ts
  | ⟨.setInvite, kind, nonce, singleUse, ts⟩ => .setInvite kind nonce singleUse ts
  | ⟨.freeze, frozen, ts⟩ => .freeze frozen ts
  | ⟨.setName, name, ts⟩ => .setName name ts

def opCodec : Codec Op :=
  (record 1 (Codec.tagged variantCodec OpVariant.fields)).imap Op.ofFields Op.toFields fun op => by
    cases op <;> rfl

/-! ## 3. Entries -/

/-- **An entry on the wire.** -/
def entryCodec : Codec Entry :=
  (record 4 ((field "network_id" (fixed 32)).seq <| (field "signer" (fixed 32)).seq <|
    (field "op" opCodec).seq <| field "signature" bytes)).imap
    (fun (networkId, signer, op, signature) => { networkId, signer, op, signature })
    (fun e => (e.networkId, e.signer, e.op, e.signature)) fun _ => rfl

/-- `ciborium::into_writer(entry, &mut value)`. -/
def entryBytes (e : Entry) : List UInt8 := entryCodec.enc e

/-! ## 4. How long it gets -/

/-- The text an op carries: a hostname or a name. -/
def Op.text : Op → String
  | .add _ hostname _ _ _ _ => hostname
  | .setName name _ => name
  | _ => ""

theorem length_role_le (r : Role) : (roleCodec.enc r).length ≤ 11 := by
  cases r <;> decide

theorem length_kind_le (k : InviteKind) : (kindCodec.enc k).length ≤ 11 := by
  cases k <;> decide

theorem length_octets_le (o : Octets) : (octetsCodec.enc o).length ≤ 17 := length_fixed_le o.toBytes

theorem length_variant_le (v : OpVariant) : (variantCodec.enc v).length ≤ 18 := by
  cases v <;> decide

/-- The fields of an op take its text and at most 300 bytes around it. -/
theorem length_fields_le (op : Op) :
    (op.toFields.1.fields.enc op.toFields.2).length ≤ 300 + op.text.utf8ByteSize := by
  have hts : ∀ ts, ((field "ts" uint).enc ts).length ≤ 9 + 2 + 9 := fun ts =>
    length_field_le (by decide) (length_uint_le ts)
  have hid : ∀ id : Id, ((field "node_id" (fixed 32)).enc id).length ≤ 9 + 7 + (9 + 2 * 32) :=
    fun id => length_field_le (by decide) (length_fixed_le id)
  have hrole : ∀ r, ((field "role" roleCodec).enc r).length ≤ 9 + 4 + 11 := fun r =>
    length_field_le (by decide) (length_role_le r)
  cases op with
  | add nodeId hostname role virtualIp inviteNonce ts =>
    have hhost : ((field "hostname" text).enc hostname).length ≤
        9 + 8 + (9 + hostname.utf8ByteSize) := length_field_le (by decide) (length_text_le _)
    have hip : ((field "virtual_ip" octetsCodec).enc virtualIp).length ≤ 9 + 10 + 17 :=
      length_field_le (by decide) (length_octets_le _)
    have hinv : ((field "invite_nonce" (fixed 16)).enc inviteNonce).length ≤
        9 + 12 + (9 + 2 * 16) := length_field_le (by decide) (length_fixed_le _)
    have h := length_record_le (n := 6) <| Codec.length_seq_le (hid nodeId) <|
      Codec.length_seq_le hhost <| Codec.length_seq_le (hrole role) <|
      Codec.length_seq_le hip <| Codec.length_seq_le hinv (hts ts)
    refine le_trans h ?_
    show _ ≤ 300 + hostname.utf8ByteSize
    omega
  | remove nodeId ts =>
    have h := length_record_le (n := 2) <| Codec.length_seq_le (hid nodeId) (hts ts)
    refine le_trans h ?_
    omega
  | setRole nodeId role ts =>
    have h := length_record_le (n := 3) <| Codec.length_seq_le (hid nodeId) <|
      Codec.length_seq_le (hrole role) (hts ts)
    refine le_trans h ?_
    omega
  | setInvite kind nonce singleUse ts =>
    have hkind : ((field "kind" kindCodec).enc kind).length ≤ 9 + 4 + 11 :=
      length_field_le (by decide) (length_kind_le _)
    have hnonce : ((field "nonce" (fixed 16)).enc nonce).length ≤ 9 + 5 + (9 + 2 * 16) :=
      length_field_le (by decide) (length_fixed_le _)
    have huse : ((field "single_use" bool).enc singleUse).length ≤ 9 + 10 + 1 :=
      length_field_le (by decide) (length_bool _).le
    have h := length_record_le (n := 4) <| Codec.length_seq_le hkind <|
      Codec.length_seq_le hnonce <| Codec.length_seq_le huse (hts ts)
    refine le_trans h ?_
    omega
  | freeze frozen ts =>
    have hfrozen : ((field "frozen" bool).enc frozen).length ≤ 9 + 6 + 1 :=
      length_field_le (by decide) (length_bool _).le
    have h := length_record_le (n := 2) <| Codec.length_seq_le hfrozen (hts ts)
    refine le_trans h ?_
    omega
  | setName name ts =>
    have hname : ((field "name" text).enc name).length ≤ 9 + 4 + (9 + name.utf8ByteSize) :=
      length_field_le (by decide) (length_text_le _)
    have h := length_record_le (n := 2) <| Codec.length_seq_le hname (hts ts)
    refine le_trans h ?_
    show _ ≤ 300 + name.utf8ByteSize
    omega

/-- **An entry takes the text it carries and at most 900 bytes around it**, with a signature
    of 64 bytes. -/
theorem length_entry_le {e : Entry} (hsig : e.signature.length = 64) :
    (entryBytes e).length ≤ 900 + e.op.text.utf8ByteSize := by
  have hnet : ((field "network_id" (fixed 32)).enc e.networkId).length ≤ 9 + 10 + (9 + 2 * 32) :=
    length_field_le (by decide) (length_fixed_le _)
  have hsigner : ((field "signer" (fixed 32)).enc e.signer).length ≤ 9 + 6 + (9 + 2 * 32) :=
    length_field_le (by decide) (length_fixed_le _)
  have htagged : ((Codec.tagged variantCodec OpVariant.fields).enc e.op.toFields).length ≤
      18 + (300 + e.op.text.utf8ByteSize) := by
    have hvariant := length_variant_le e.op.toFields.1
    have hfields := length_fields_le e.op
    show (variantCodec.enc _ ++ _).length ≤ _
    rw [List.length_append]
    omega
  have hop : ((field "op" opCodec).enc e.op).length ≤
      9 + 2 + (9 + (18 + (300 + e.op.text.utf8ByteSize))) :=
    length_field_le (by decide) (length_record_le htagged)
  have hbytes : ((field "signature" bytes).enc e.signature).length ≤ 9 + 9 + (9 + 2 * 64) :=
    length_field_le (by decide) (hsig ▸ length_bytes_le _)
  have h := length_record_le (n := 4) <| Codec.length_seq_le hnet <| Codec.length_seq_le hsigner <|
    Codec.length_seq_le hop hbytes
  refine le_trans h ?_
  omega

theorem le_length_fields (op : Op) :
    op.text.utf8ByteSize ≤ (op.toFields.1.fields.enc op.toFields.2).length := by
  cases op with
  | add nodeId hostname role virtualIp inviteNonce ts =>
    calc hostname.utf8ByteSize ≤ (text.enc hostname).length := utf8ByteSize_le_length_text _
      _ ≤ ((field "hostname" text).enc hostname).length := Codec.length_le_after _ _ _
      _ ≤ _ := Codec.length_left_le_seq _ _ _ _
      _ ≤ _ := Codec.length_right_le_seq _ _ _ _
      _ ≤ _ := Codec.length_le_after _ _ _
  | setName name ts =>
    calc name.utf8ByteSize ≤ (text.enc name).length := utf8ByteSize_le_length_text _
      _ ≤ ((field "name" text).enc name).length := Codec.length_le_after _ _ _
      _ ≤ _ := Codec.length_left_le_seq _ _ _ _
      _ ≤ _ := Codec.length_le_after _ _ _
  | _ => exact Nat.zero_le _

/-- **An entry takes at least the text it carries.** -/
theorem le_length_entry (e : Entry) : e.op.text.utf8ByteSize ≤ (entryBytes e).length := by
  have htagged : (e.op.toFields.1.fields.enc e.op.toFields.2).length ≤
      ((Codec.tagged variantCodec OpVariant.fields).enc e.op.toFields).length := by
    show _ ≤ (variantCodec.enc _ ++ _).length
    rw [List.length_append]
    omega
  calc e.op.text.utf8ByteSize ≤ _ := le_length_fields e.op
    _ ≤ _ := htagged
    _ ≤ (opCodec.enc e.op).length := Codec.length_le_after _ _ _
    _ ≤ ((field "op" opCodec).enc e.op).length := Codec.length_le_after _ _ _
    _ ≤ _ := Codec.length_left_le_seq _ (field "signature" bytes) _ e.signature
    _ ≤ _ := Codec.length_right_le_seq (field "signer" (fixed 32)) _ e.signer _
    _ ≤ _ := Codec.length_right_le_seq (field "network_id" (fixed 32)) _ e.networkId _
    _ ≤ _ := Codec.length_le_after _ _ _

end Nullgate

/-
  File:      Nullgate/Membership/Ticket.lean
  Subject:   JOIN TICKETS (`network.rs`): what is issued, and what can be redeemed.

  A ticket is written as CBOR, the bytes as base32 in lower case, behind a prefix. The reader
  trims, takes letters of either case, and refuses names of more than 128 bytes. Nothing bounds
  the name of a network when it is created.

  * `Ticket.encode`, `Ticket.decode`;
  * `createNetwork`, `rotateNetwork`, `Inner.ticket`, `Inner.controllerTicket` -- who issues them;
  * `decode_recased`: a ticket with a short name is read, however its letters are cased;
  * `tickets_redeemable_iff`: all tickets of a network can be redeemed exactly when its name has
    at most 128 bytes.

  How an address is written is a parameter.
-/
import Mathlib.Data.Bool.AllAny
import Nullgate.Lib.Base32
import Nullgate.Membership.Wire
import Nullgate.Engine.Admin

namespace Nullgate

open Nullgate.Lib Nullgate.Lib.Cbor

/-! ## 1. Tickets -/

def TICKET_PREFIX : String := "ng1"

/-- A join ticket; `Addr` is iroh's `EndpointAddr`. -/
structure Ticket (Addr : Type) where
  name : String
  subnet : Octets
  secret : Bytes 32
  originatorId : Id
  bootstrap : Addr
  inviteKind : InviteKind
  inviteNonce : Nonce
  deriving DecidableEq

/-- How an address is written. No value in memory takes `2 ^ 63` bytes. -/
structure AddrCodec (Addr : Type) extends Codec Addr where
  length_lt : ∀ a, (enc a).length < 2 ^ 63

variable {Addr : Type} (A : AddrCodec Addr)

/-- A ticket on the wire. -/
def ticketCodec : Codec (Ticket Addr) :=
  (record 7 ((field "name" text).seq <| (field "subnet" octetsCodec).seq <|
    (field "secret" (fixed 32)).seq <| (field "originator_id" (fixed 32)).seq <|
    (field "bootstrap" A.toCodec).seq <| (field "invite_kind" kindCodec).seq <|
    field "invite_nonce" (fixed 16))).imap
    (fun (name, subnet, secret, originatorId, bootstrap, inviteKind, inviteNonce) =>
      { name, subnet, secret, originatorId, bootstrap, inviteKind, inviteNonce })
    (fun t => (t.name, t.subnet, t.secret, t.originatorId, t.bootstrap, t.inviteKind,
      t.inviteNonce)) fun _ => rfl

/-- `ciborium::into_writer(self, &mut buf)`. -/
def ticketBytes (t : Ticket Addr) : List UInt8 := (ticketCodec A).enc t

/-- **What reading takes from outside**: `ciborium::from_reader::<Ticket, _>`, which reads back
    what the writer wrote, and `str::to_uppercase`, as far as ASCII goes. -/
structure TicketReader where
  fromReader : List UInt8 → Option (Ticket Addr)
  law : ∀ t, (ticketBytes A t).length < UInt64.size → fromReader (ticketBytes A t) = some t
  toUppercase : List Char → List Char
  ascii : ∀ l, (∀ c ∈ l, c.toNat < 128) → toUppercase l = l.map Char.toUpper

namespace Ticket

/-- `Ticket::new`. -/
def new (name : String) (subnet : Octets) (secret : NetworkSecret) (originatorId : Id)
    (bootstrap : Addr) (inviteKind : InviteKind) (inviteNonce : Nonce) : Ticket Addr :=
  { name, subnet, secret := secret.bytes, originatorId, bootstrap, inviteKind, inviteNonce }

/-- The symbols of a ticket, in lower case. -/
def body (t : Ticket Addr) : List Char := (Base32.encode (ticketBytes A t)).map Char.toLower

/-- **Encode** to a single copy-pasteable string: `ng1<base32>`. -/
def encode (t : Ticket Addr) : String := String.ofList (TICKET_PREFIX.toList ++ t.body A)

/-- `str::strip_prefix`. -/
def stripPrefix (pre s : List Char) : Option (List Char) :=
  if s.take pre.length = pre then some (s.drop pre.length) else none

variable {A}

/-- **Decode.** -/
def decode (R : TicketReader A) (s : String) : Except String (Ticket Addr) :=
  match stripPrefix TICKET_PREFIX.toList (trim s.toList) with
  | none => .error "not a Nullgate ticket (missing ng1 prefix)"
  | some body =>
    match Base32.decode (R.toUppercase body) with
    | none => .error "ticket is not valid base32"
    | some bytes =>
      match R.fromReader bytes with
      | none => .error "decode ticket"
      | some ticket =>
        if ticket.name.utf8ByteSize > 128 then .error "ticket name too long" else .ok ticket

end Ticket

/-! ## 2. Who issues tickets -/

variable (C : Crates)

/-- What `create_network` and `rotate_network` draw, and what the effects on their way come to
    (see `Lifecycle/Jobs.lean` for the effects). -/
structure Founded where
  secret : NetworkSecret
  originator : SigningKey
  peerNonce : Nonce
  saved : Except String Unit := .ok ()
  activated : Except String Unit := .ok ()
  genesisPublished : Except String Unit := .ok ()
  invitePublished : Except String Unit := .ok ()

/-- The config is saved and activated, and the two founding entries are published. -/
def Founded.effects (f : Founded) : Except String Unit := do
  f.saved
  f.activated
  f.genesisPublished
  f.invitePublished

/-- **`create_network`**: the ticket that is returned, encoded. -/
def createNetwork (i : Inner) (f : Founded) (addr : Addr) (name : String) (subnet : Octets) :
    Except String (Ticket Addr) :=
  if i.config.isSome then .error "this device already belongs to a network"
  else do
    f.effects
    .ok (Ticket.new name subnet f.secret (C.verifyingKey f.originator) addr .peer f.peerNonce)

/-- **`rotate_network`**: the ticket that is returned, encoded. Name, subnet and originator stay. -/
def rotateNetwork (i : Inner) (f : Founded) (addr : Addr) : Except String (Ticket Addr) := do
  let _ ← originatorKey i
  let cfg ← i.network
  f.effects
  .ok (Ticket.new cfg.name cfg.subnet f.secret cfg.originatorId addr .peer f.peerNonce)

namespace Inner

/-- **`ticket`**: the one that is returned, encoded. `published` is what publishing a fresh invite
    comes to, where none is in force. -/
def ticket (i : Inner) (nowMs : UInt64) (newNonce : Nonce) (published : Except String Unit)
    (addr : Addr) : Except String (Ticket Addr) := do
  let cfg ← i.network
  if !(cfg.originatorSecret.isSome || i.roster.role i.myId = .controller) then
    .error "only controllers and the originator can view the join ticket"
  else
    match i.roster.currentInvite .peer with
    | some (nonce, _) =>
      .ok (Ticket.new cfg.name cfg.subnet cfg.secret cfg.originatorId addr .peer nonce)
    | none =>
      let _ ← regeneratePeerInvite C i nowMs newNonce false
      published
      .ok (Ticket.new cfg.name cfg.subnet cfg.secret cfg.originatorId addr .peer newNonce)

/-- **`controller_ticket`**: the one that is returned, encoded. -/
def controllerTicket (i : Inner) (nowMs : UInt64) (newNonce : Nonce)
    (published : Except String Unit) (addr : Addr) : Except String (Ticket Addr) := do
  let originator ← originatorKey i
  let cfg ← i.network
  let _ ← publish i (signOp C.toPrimitives (cfg.secret.networkId C) originator
    (.setInvite .controller newNonce true nowMs))
  published
  .ok (Ticket.new cfg.name cfg.subnet cfg.secret cfg.originatorId addr .controller newNonce)

end Inner

/-- **The tickets issued for a network** of this name and subnet, by whichever device. -/
inductive Issued (name : String) (subnet : Octets) (t : Ticket Addr) : Prop where
  | created (i : Inner) (f : Founded) (addr : Addr)
      (h : createNetwork C i f addr name subnet = .ok t)
  | rotated (i : Inner) (cfg : StoredConfig) (f : Founded) (addr : Addr)
      (hcfg : i.config = some cfg) (hname : cfg.name = name) (hsubnet : cfg.subnet = subnet)
      (h : rotateNetwork i f addr = .ok t)
  | peer (i : Inner) (cfg : StoredConfig) (nowMs : UInt64) (nonce : Nonce)
      (published : Except String Unit) (addr : Addr) (hcfg : i.config = some cfg)
      (hname : cfg.name = name) (hsubnet : cfg.subnet = subnet)
      (h : i.ticket C nowMs nonce published addr = .ok t)
  | controller (i : Inner) (cfg : StoredConfig) (nowMs : UInt64) (nonce : Nonce)
      (published : Except String Unit) (addr : Addr) (hcfg : i.config = some cfg)
      (hname : cfg.name = name) (hsubnet : cfg.subnet = subnet)
      (h : i.controllerTicket C nowMs nonce published addr = .ok t)

variable {C} {A} {name : String} {subnet : Octets} {t : Ticket Addr}

theorem bind_eq_ok {ε α β : Type} {x : Except ε α} {f : α → Except ε β} {b : β} :
    (x >>= f) = .ok b ↔ ∃ a, x = .ok a ∧ f a = .ok b := by
  cases x with
  | error e => exact iff_of_false (fun h => by cases h) fun h => by obtain ⟨a, ha, -⟩ := h; cases ha
  | ok a =>
    constructor
    · exact fun h => ⟨a, rfl, h⟩
    · intro h
      obtain ⟨a', ha, h⟩ := h
      cases ha
      exact h

/-- The config that a call reads is the device's. -/
theorem Inner.network_eq_ok {i : Inner} {cfg : StoredConfig} (h : i.config = some cfg) :
    i.network = .ok cfg := by
  rw [Inner.network, h]

/-- **A ticket carries the name of its network**, as it was given when the network was created. -/
theorem Issued.name_eq (h : Issued C name subnet t) : t.name = name := by
  cases h with
  | created i f addr h =>
    rw [createNetwork] at h
    split at h
    · cases h
    · obtain ⟨-, -, h⟩ := bind_eq_ok.mp h
      obtain rfl := Except.ok.inj h
      rfl
  | rotated i cfg f addr hcfg hname hsubnet h =>
    rw [rotateNetwork, Inner.network_eq_ok hcfg] at h
    obtain ⟨-, -, h⟩ := bind_eq_ok.mp h
    obtain ⟨cfg', hcfg', h⟩ := bind_eq_ok.mp h
    obtain rfl := Except.ok.inj hcfg'
    obtain ⟨-, -, h⟩ := bind_eq_ok.mp h
    obtain rfl := Except.ok.inj h
    exact hname
  | peer i cfg nowMs nonce published addr hcfg hname hsubnet h =>
    rw [Inner.ticket, Inner.network_eq_ok hcfg] at h
    obtain ⟨cfg', hcfg', h⟩ := bind_eq_ok.mp h
    obtain rfl := Except.ok.inj hcfg'
    split at h
    · cases h
    · split at h
      · obtain rfl := Except.ok.inj h
        exact hname
      · obtain ⟨-, -, h⟩ := bind_eq_ok.mp h
        obtain ⟨-, -, h⟩ := bind_eq_ok.mp h
        obtain rfl := Except.ok.inj h
        exact hname
  | controller i cfg nowMs nonce published addr hcfg hname hsubnet h =>
    rw [Inner.controllerTicket, Inner.network_eq_ok hcfg] at h
    obtain ⟨originator, -, h⟩ := bind_eq_ok.mp h
    obtain ⟨cfg', hcfg', h⟩ := bind_eq_ok.mp h
    obtain rfl := Except.ok.inj hcfg'
    obtain ⟨-, -, h⟩ := bind_eq_ok.mp h
    obtain ⟨-, -, h⟩ := bind_eq_ok.mp h
    obtain rfl := Except.ok.inj h
    exact hname

/-! ## 3. Reading a ticket -/

/-- A symbol in the case of a letter of the user's choice. -/
def Recased (c c' : Char) : Prop := c' = c.toLower ∨ c' = c.toUpper

/-- **A ticket as it is pasted**: with blanks around it, and letters of either case behind the
    prefix. -/
structure Pasted (s s' : String) (body body' before after : List Char) : Prop where
  ticket : s.toList = TICKET_PREFIX.toList ++ body
  recased : List.Forall₂ Recased body body'
  blank : ∀ c ∈ before ++ after, isWhitespace c = true
  pasted : s'.toList = before ++ (TICKET_PREFIX.toList ++ body') ++ after

/-- A symbol, in either case. -/
theorem recased_symbol {c c' : Char} (hc : c ∈ "ABCDEFGHIJKLMNOPQRSTUVWXYZ234567".toList)
    (h : Recased c.toLower c') :
    c'.toUpper = c ∧ c'.toNat < 128 ∧ isWhitespace c' = false := by
  have hlower : ∀ c ∈ "ABCDEFGHIJKLMNOPQRSTUVWXYZ234567".toList,
      c.toLower.toLower.toUpper = c ∧ c.toLower.toLower.toNat < 128 ∧
        isWhitespace c.toLower.toLower = false := List.all_iff_forall_prop.mp (by decide)
  have hupper : ∀ c ∈ "ABCDEFGHIJKLMNOPQRSTUVWXYZ234567".toList,
      c.toLower.toUpper.toUpper = c ∧ c.toLower.toUpper.toNat < 128 ∧
        isWhitespace c.toLower.toUpper = false := List.all_iff_forall_prop.mp (by decide)
  rcases h with rfl | rfl
  · exact hlower c hc
  · exact hupper c hc

theorem recased_body {cs body' : List Char}
    (hcs : ∀ c ∈ cs, c ∈ "ABCDEFGHIJKLMNOPQRSTUVWXYZ234567".toList)
    (h : List.Forall₂ Recased (cs.map Char.toLower) body') :
    body'.map Char.toUpper = cs ∧ ∀ c ∈ body', c.toNat < 128 ∧ isWhitespace c = false := by
  induction cs generalizing body' with
  | nil =>
    rw [List.map_nil, List.forall₂_nil_left_iff] at h
    rw [h]
    exact ⟨rfl, List.forall_mem_nil _⟩
  | cons c cs ih =>
    rw [List.map_cons, List.forall₂_cons_left_iff] at h
    obtain ⟨c', rest, hc, hrest, rfl⟩ := h
    obtain ⟨hupper, hascii, hblank⟩ := recased_symbol (hcs c List.mem_cons_self) hc
    obtain ⟨hmap, hall⟩ := ih (fun c hc => hcs c (List.mem_cons_of_mem _ hc)) hrest
    rw [List.map_cons, hupper, hmap]
    exact ⟨rfl, List.forall_mem_cons.mpr ⟨⟨hascii, hblank⟩, hall⟩⟩

theorem length_ticketBytes_lt (hname : t.name.utf8ByteSize ≤ 128) :
    (ticketBytes A t).length < UInt64.size := by
  have haddr := A.length_lt t.bootstrap
  have hnamefield : ((field "name" text).enc t.name).length ≤ 9 + 4 + (9 + 128) :=
    length_field_le (by decide) ((length_text_le _).trans (by omega))
  have hsubnet : ((field "subnet" octetsCodec).enc t.subnet).length ≤ 9 + 6 + 17 :=
    length_field_le (by decide) (length_octets_le _)
  have hsecret : ((field "secret" (fixed 32)).enc t.secret).length ≤ 9 + 6 + (9 + 2 * 32) :=
    length_field_le (by decide) (length_fixed_le _)
  have horiginator : ((field "originator_id" (fixed 32)).enc t.originatorId).length ≤
      9 + 13 + (9 + 2 * 32) := length_field_le (by decide) (length_fixed_le _)
  have hbootstrap : ((field "bootstrap" A.toCodec).enc t.bootstrap).length ≤ 9 + 9 + 2 ^ 63 :=
    length_field_le (by decide) haddr.le
  have hkind : ((field "invite_kind" kindCodec).enc t.inviteKind).length ≤ 9 + 11 + 11 :=
    length_field_le (by decide) (length_kind_le _)
  have hnonce : ((field "invite_nonce" (fixed 16)).enc t.inviteNonce).length ≤
      9 + 12 + (9 + 2 * 16) := length_field_le (by decide) (length_fixed_le _)
  have h := length_record_le (n := 7) <| Codec.length_seq_le hnamefield <|
    Codec.length_seq_le hsubnet <| Codec.length_seq_le hsecret <|
    Codec.length_seq_le horiginator <| Codec.length_seq_le hbootstrap <|
    Codec.length_seq_le hkind hnonce
  refine lt_of_le_of_lt h ?_
  decide

/-- **A ticket with a short name is read as it was written**, however it is pasted. -/
theorem decode_pasted (R : TicketReader A) (hname : t.name.utf8ByteSize ≤ 128) {s' : String}
    {body body' before after : List Char}
    (h : Pasted (t.encode A) s' body body' before after) : Ticket.decode R s' = .ok t := by
  have hbody : body = (Base32.encode (ticketBytes A t)).map Char.toLower := by
    have hticket := h.ticket
    rw [Ticket.encode, String.toList_ofList] at hticket
    exact (List.append_cancel_left hticket).symm
  obtain ⟨hupper, hall⟩ := recased_body (fun c => Base32.mem_encode) (hbody ▸ h.recased)
  have htrim : trim s'.toList = TICKET_PREFIX.toList ++ body' := by
    rw [h.pasted]
    refine trim_word (fun he => ?_) (fun c hc => ?_) h.blank
    · cases (List.append_eq_nil_iff.mp he).1
    · rcases List.mem_append.mp hc with hc | hc
      · have hprefix : ∀ c ∈ TICKET_PREFIX.toList, isWhitespace c = false :=
          List.all_iff_forall_prop.mp (by decide)
        exact hprefix c hc
      · exact (hall c hc).2
  have hstrip : Ticket.stripPrefix TICKET_PREFIX.toList (TICKET_PREFIX.toList ++ body') =
      some body' := by simp [Ticket.stripPrefix]
  rw [Ticket.decode, htrim, hstrip]
  simp only [R.ascii body' fun c hc => (hall c hc).1, hupper, Base32.decode_encode,
    R.law t (length_ticketBytes_lt hname)]
  rw [if_neg (by omega)]

/-- What is read has a short name. -/
theorem size_of_decode {R : TicketReader A} {s : String} (h : Ticket.decode R s = .ok t) :
    t.name.utf8ByteSize ≤ 128 := by
  rw [Ticket.decode] at h
  split at h
  · cases h
  split at h
  · cases h
  split at h
  · cases h
  split at h
  · cases h
  · rename_i hsize
    obtain rfl := Except.ok.inj h
    omega

/-! ## 4. Every issued ticket -/

/-- A ticket can be pasted as it is. -/
theorem pasted_self (A : AddrCodec Addr) (t : Ticket Addr) :
    Pasted (t.encode A) (t.encode A) (t.body A) (t.body A) [] [] where
  ticket := by rw [Ticket.encode, String.toList_ofList]
  recased := by
    have hlower : ∀ c ∈ "ABCDEFGHIJKLMNOPQRSTUVWXYZ234567".toList,
        c.toLower.toLower = c.toLower := List.all_iff_forall_prop.mp (by decide)
    rw [Ticket.body, List.forall₂_map_left_iff, List.forall₂_map_right_iff]
    exact List.forall₂_same.mpr fun c hc => Or.inl (hlower c (Base32.mem_encode hc)).symm
  blank := by simp
  pasted := by rw [Ticket.encode, String.toList_ofList]; simp

/-- **All tickets issued for a network can be redeemed exactly when its name has at most 128
    bytes.** -/
theorem tickets_redeemable_iff (C : Crates) (A : AddrCodec Addr) [Inhabited Addr]
    (R : TicketReader A) (name : String) (subnet : Octets) :
    (∀ t : Ticket Addr, Issued C name subnet t →
      ∀ s' body body' before after, Pasted (t.encode A) s' body body' before after →
        Ticket.decode R s' = .ok t) ↔ name.utf8ByteSize ≤ 128 := by
  constructor
  · intro h
    -- a device without a network creates it
    have hissued : Issued C name subnet
        (Ticket.new name subnet ⟨Bytes.fill 32 0⟩ (C.verifyingKey (Bytes.fill 32 0))
          (default : Addr) .peer (Bytes.fill 16 0)) :=
      .created { deviceKey := Bytes.fill 32 0, myId := Bytes.fill 32 0 }
        { secret := ⟨Bytes.fill 32 0⟩, originator := Bytes.fill 32 0, peerNonce := Bytes.fill 16 0 }
        default rfl
    exact size_of_decode (h _ hissued _ _ _ _ _ (pasted_self A _))
  · intro hsize t ht s' body body' before after hpasted
    exact decode_pasted R (by rw [ht.name_eq]; exact hsize) hpasted

/-! A network whose name has 129 letters. -/

/-- Addresses that are a node id and nothing else. -/
def AddrCodec.plain : AddrCodec Id where
  toCodec := fixed 32
  length_lt a := lt_of_le_of_lt (length_fixed_le a) (by decide)

/-- The reader that takes what the codec writes, and nothing else. -/
def TicketReader.derived : TicketReader AddrCodec.plain where
  fromReader bytes := ((ticketCodec AddrCodec.plain).dec bytes).map Prod.fst
  law t h := by
    have hdec := (ticketCodec AddrCodec.plain).dec_enc h
    simp [ticketBytes, hdec]
  toUppercase l := l.map Char.toUpper
  ascii l _ := rfl

/-- The ticket that creating this network returns. -/
def Sample.longTicket : Ticket Id :=
  Ticket.new (String.ofList (List.replicate 129 'a')) (10, 99, 0, 0) ⟨NET⟩ (key 1) (key 2) .peer
    (nonce 7)

/-- **`create_network` returns a ticket that nobody can redeem.** -/
theorem ticket_not_redeemable : ¬ ∀ (name : String) (subnet : Octets) (t : Ticket Id),
    Issued .plain name subnet t →
      Ticket.decode TicketReader.derived (t.encode AddrCodec.plain) = .ok t := by
  intro h
  have hissued : Issued .plain Sample.longTicket.name (10, 99, 0, 0) Sample.longTicket :=
    .created { deviceKey := Sample.key 2, myId := Sample.key 2 }
      { secret := ⟨Sample.NET⟩, originator := Sample.key 1, peerNonce := Sample.nonce 7 }
      (Sample.key 2) rfl
  have hsize := size_of_decode (h _ _ _ hissued)
  revert hsize
  decide +kernel

end Nullgate

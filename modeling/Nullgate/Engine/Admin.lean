/-
  File:      Nullgate/Engine/Admin.lean
  Subject:   ADMINISTRATIVE OPERATIONS: what a device publishes, and when it takes effect.

  `removeMember`, `setMemberRole`, `setFrozen` and `regeneratePeerInvite` sign an op stamped
  with the device's own clock and publish it. The fold sorts by that stamp, so an entry with
  a later stamp has the last word, and others choose their stamps up to a day ahead.

  `admin_effective_iff` says for each of the four, signed with the originator key, when the
  roster reflects it: the stamp is within the reader's ceiling, and the last accepted entry
  behind it that writes the same thing, if there is one, agrees with it. An entry of a member
  whose clock is ahead undoes it otherwise (`admin_not_effective`).
-/
import Nullgate.Engine.Tick
import Nullgate.Roster.Access
import Nullgate.Roster.Order
import Nullgate.Roster.Rules

namespace Nullgate

open Nullgate.Lib

variable (C : Crates)

/-! ## 1. Node ids in hex -/

/-- `str::trim`. -/
def trim (s : List Char) : List Char :=
  ((s.dropWhile isWhitespace).reverse.dropWhile isWhitespace).reverse

/-- Blanks are dropped up to the first other character. -/
theorem dropWhile_blank {before : List Char} {c : Char} (rest : List Char)
    (hbefore : ∀ c ∈ before, isWhitespace c = true) (hc : isWhitespace c = false) :
    (before ++ c :: rest).dropWhile isWhitespace = c :: rest := by
  rw [List.dropWhile_append_of_pos hbefore, List.dropWhile_cons_of_neg (by rw [hc]; decide)]

/-- **Trimming takes off the blanks around a word**, and no more. -/
theorem trim_word {before after word : List Char} (hne : word ≠ [])
    (hword : ∀ c ∈ word, isWhitespace c = false)
    (hblank : ∀ c ∈ before ++ after, isWhitespace c = true) :
    trim (before ++ word ++ after) = word := by
  have hbefore : ∀ c ∈ before, isWhitespace c = true := fun c hc =>
    hblank c (List.mem_append_left _ hc)
  have hafter : ∀ c ∈ after.reverse, isWhitespace c = true := fun c hc =>
    hblank c (List.mem_append_right _ (List.mem_reverse.mp hc))
  obtain ⟨first, rest, hfirst⟩ := List.exists_cons_of_ne_nil hne
  have hhead : (before ++ word ++ after).dropWhile isWhitespace = word ++ after := by
    rw [hfirst, List.append_assoc, List.cons_append]
    exact dropWhile_blank _ hbefore (hword first (by rw [hfirst]; exact List.mem_cons_self))
  have hne' : word.reverse ≠ [] := fun h => hne (List.reverse_eq_nil_iff.mp h)
  obtain ⟨last, front, hlast⟩ := List.exists_cons_of_ne_nil hne'
  have hmem : last ∈ word := List.mem_reverse.mp (by rw [hlast]; exact List.mem_cons_self)
  rw [trim, hhead, List.reverse_append, hlast, dropWhile_blank _ hafter (hword last hmem), ← hlast,
    List.reverse_reverse]

/-- The value of a symbol of `HEXLOWER`. -/
def hexValue? (c : Char) : Option UInt8 :=
  if 48 ≤ c.toNat && c.toNat ≤ 57 then some (c.toNat - 48).toUInt8
  else if 97 ≤ c.toNat && c.toNat ≤ 102 then some (c.toNat - 87).toUInt8
  else none

/-- `HEXLOWER.decode`: two symbols a byte, high half first. -/
def decodeHexLower : List Char → Option (List UInt8)
  | [] => some []
  | [_] => none
  | high :: low :: rest => do
    let h ← hexValue? high
    let l ← hexValue? low
    let bytes ← decodeHexLower rest
    some ((16 * h + l) :: bytes)

def parseId (hex : String) : Except String Id :=
  match decodeHexLower (trim hex.toList) with
  | none => .error "node id is not hex"
  | some bytes =>
    match Bytes.ofList? 32 bytes with
    | none => .error "node id must be 32 bytes"
    | some id => .ok id

/-- The symbol of `HEXLOWER` for a value below 16. -/
def hexDigit (v : UInt8) : Char :=
  if v < 10 then Char.ofNat (48 + v.toNat) else Char.ofNat (87 + v.toNat)

/-- `HEXLOWER.encode`: two symbols a byte, high half first. -/
def encodeHexLower : List UInt8 → List Char
  | [] => []
  | b :: bytes => hexDigit (b / 16) :: hexDigit (b % 16) :: encodeHexLower bytes

theorem length_encodeHexLower (bytes : List UInt8) :
    (encodeHexLower bytes).length = 2 * bytes.length := by
  induction bytes with
  | nil => rfl
  | cons b bytes ih =>
    rw [encodeHexLower, List.length_cons, List.length_cons, List.length_cons, ih]
    omega

theorem hexValue?_hexDigit {v : UInt8} (h : v < 16) : hexValue? (hexDigit v) = some v := by
  have hall : ∀ n < 16, hexValue? (hexDigit (UInt8.ofNat n)) = some (UInt8.ofNat n) := by decide
  have hv := hall v.toNat (UInt8.lt_iff_toNat_lt.mp h)
  rwa [UInt8.ofNat_toNat] at hv

/-- **The hex of a byte string reads back.** -/
theorem decodeHexLower_encode (bytes : List UInt8) :
    decodeHexLower (encodeHexLower bytes) = some bytes := by
  induction bytes with
  | nil => rfl
  | cons b bytes ih =>
    have hlt : b.toNat < 256 := b.toNat_lt
    have hhigh : b / 16 < 16 := by
      rw [UInt8.lt_iff_toNat_lt, UInt8.toNat_div]
      show b.toNat / 16 < 16
      omega
    have hlow : b % 16 < 16 := by
      rw [UInt8.lt_iff_toNat_lt, UInt8.toNat_mod]
      show b.toNat % 16 < 16
      omega
    have hb : 16 * (b / 16) + b % 16 = b := by
      rw [← UInt8.toNat_inj, UInt8.toNat_add, UInt8.toNat_mul, UInt8.toNat_div, UInt8.toNat_mod]
      show (16 * (b.toNat / 16) % 256 + b.toNat % 16) % 256 = b.toNat
      omega
    simp [encodeHexLower, decodeHexLower, hexValue?_hexDigit hhigh, hexValue?_hexDigit hlow, ih, hb]

/-- Different node ids have different hex. -/
theorem encodeHexLower_injective {a b : List UInt8} (h : encodeHexLower a = encodeHexLower b) :
    a = b := by
  have ha := decodeHexLower_encode a
  rw [h, decodeHexLower_encode] at ha
  exact (Option.some.inj ha).symm

/-! ## 2. The operations -/

/-- `st.config.as_ref().context("no network")?`. -/
def Inner.network (i : Inner) : Except String StoredConfig :=
  match i.config with
  | none => .error "no network"
  | some cfg => .ok cfg

def originatorKey (i : Inner) : Except String SigningKey := do
  let cfg ← i.network
  match cfg.originatorSecret with
  | none => .error "this device does not hold the originator master key"
  | some secret => .ok secret

/-- The network id and the key to sign an administrative op with: the master key if the
    device holds it, else the device key of a Controller. -/
def adminSigner (i : Inner) : Except String (Id × SigningKey) := do
  let cfg ← i.network
  let netId := cfg.secret.networkId C
  match cfg.originatorSecret with
  | some secret => .ok (netId, secret)
  | none =>
    if i.roster.role i.myId = .controller then .ok (netId, i.deviceKey)
    else .error "this device is a Peer and can't perform administrative actions"

/-- `publish`: the entry that goes to the open document. -/
def publish (i : Inner) (entry : Entry) : Except String Entry :=
  match i.doc, i.author with
  | none, _ => .error "no doc"
  | some _, none => .error "no author"
  | some _, some _ => .ok entry

/-- `remove_member` at clock `nowMs`: the entry it publishes. -/
def removeMember (i : Inner) (nowMs : UInt64) (nodeIdHex : String) : Except String Entry := do
  let id ← parseId nodeIdHex
  let (netId, key) ← adminSigner C i
  publish i (signOp C.toPrimitives netId key (.remove id nowMs))

/-- `set_member_role` at clock `nowMs`: the entry it publishes. -/
def setMemberRole (i : Inner) (nowMs : UInt64) (nodeIdHex : String) (controller : Bool) :
    Except String Entry := do
  let id ← parseId nodeIdHex
  let originator ← originatorKey i
  let cfg ← i.network
  publish i (signOp C.toPrimitives (cfg.secret.networkId C) originator
    (.setRole id (if controller then .controller else .peer) nowMs))

/-- `set_frozen` at clock `nowMs`: the entry it publishes. -/
def setFrozen (i : Inner) (nowMs : UInt64) (frozen : Bool) : Except String Entry := do
  let originator ← originatorKey i
  -- `unwrap` of the config: `originatorKey` has failed where there is none
  let cfg ← i.network
  publish i (signOp C.toPrimitives (cfg.secret.networkId C) originator (.freeze frozen nowMs))

/-- `regenerate_peer_invite` at clock `nowMs` with a fresh nonce: the entry it publishes. -/
def regeneratePeerInvite (i : Inner) (nowMs : UInt64) (newNonce : Nonce) (singleUse : Bool) :
    Except String Entry := do
  let (netId, key) ← adminSigner C i
  publish i (signOp C.toPrimitives netId key (.setInvite .peer newNonce singleUse nowMs))

/-! ## 3. What a device with the master key publishes -/

/-- The device is in the network of `cfg` and holds its originator's master key. -/
structure HoldsMasterKey (i : Inner) (cfg : StoredConfig) (sk : SigningKey) : Prop where
  config : i.config = some cfg
  secret : cfg.originatorSecret = some sk
  matching : C.verifyingKey sk = cfg.originatorId

variable {C} {i : Inner} {cfg : StoredConfig} {sk : SigningKey} {nowMs : UInt64} {o : Entry}

theorem publish_ok {e : Entry} (h : publish i e = .ok o) : o = e := by
  unfold publish at h
  split at h
  · cases h
  · cases h
  · exact (Except.ok.inj h).symm

theorem HoldsMasterKey.network_eq (hk : HoldsMasterKey C i cfg sk) : i.network = .ok cfg := by
  simp [Inner.network, hk.config]

theorem HoldsMasterKey.originatorKey_eq (hk : HoldsMasterKey C i cfg sk) :
    originatorKey i = .ok sk := by
  simp [originatorKey, hk.network_eq, hk.secret, bind, Except.bind]

theorem HoldsMasterKey.adminSigner_eq (hk : HoldsMasterKey C i cfg sk) :
    adminSigner C i = .ok (cfg.secret.networkId C, sk) := by
  simp [adminSigner, hk.network_eq, hk.secret, bind, Except.bind]

theorem removeMember_ok (hk : HoldsMasterKey C i cfg sk) {hex : String} {x : Id}
    (hx : parseId hex = .ok x) (h : removeMember C i nowMs hex = .ok o) :
    o = signOp C.toPrimitives (cfg.secret.networkId C) sk (.remove x nowMs) := by
  simp only [removeMember, hx, hk.adminSigner_eq, bind, Except.bind] at h
  exact publish_ok h

theorem setMemberRole_ok (hk : HoldsMasterKey C i cfg sk) {hex : String} {x : Id} {c : Bool}
    (hx : parseId hex = .ok x) (h : setMemberRole C i nowMs hex c = .ok o) :
    o = signOp C.toPrimitives (cfg.secret.networkId C) sk
      (.setRole x (if c then .controller else .peer) nowMs) := by
  simp only [setMemberRole, hx, hk.originatorKey_eq, hk.network_eq, bind, Except.bind] at h
  exact publish_ok h

theorem setFrozen_ok (hk : HoldsMasterKey C i cfg sk) {b : Bool}
    (h : setFrozen C i nowMs b = .ok o) :
    o = signOp C.toPrimitives (cfg.secret.networkId C) sk (.freeze b nowMs) := by
  simp only [setFrozen, hk.originatorKey_eq, hk.network_eq, bind, Except.bind] at h
  exact publish_ok h

theorem regeneratePeerInvite_ok (hk : HoldsMasterKey C i cfg sk) {n : Nonce} {su : Bool}
    (h : regeneratePeerInvite C i nowMs n su = .ok o) :
    o = signOp C.toPrimitives (cfg.secret.networkId C) sk (.setInvite .peer n su nowMs) := by
  simp only [regeneratePeerInvite, hk.adminSigner_eq, bind, Except.bind] at h
  exact publish_ok h

/-! ## 4. When it takes effect -/

variable {P : Primitives} {now : UInt64} {rc : Config} {E : List Entry} {β : Type}

/-- The entry is the originator's, and authentic as soon as its stamp is within the ceiling. -/
structure MasterOp (P : Primitives) (now : UInt64) (rc : Config) (o : Entry) : Prop where
  isOrig : isOrig rc o = true
  authentic : authentic P now rc o = decide (o.op.ts ≤ ceiling now)

/-- What a key signs for the network is authentic as soon as its stamp is within the ceiling. -/
theorem authentic_signOp (hl : P.Lawful) (k : SigningKey) (op : Op) :
    authentic P now rc (signOp P rc.networkId k op) = decide (op.ts ≤ ceiling now) := by
  obtain ⟨vk, hvk, hver⟩ := hl.sign_verifies k
    (signingBytes P rc.networkId (P.verifyingKey k) op)
  have hsig : (signOp P rc.networkId k op).verifySignature P = true := by
    simp [Entry.verifySignature, signOp, hvk, hver]
  have hnet : (signOp P rc.networkId k op).networkId = rc.networkId := rfl
  have hop : (signOp P rc.networkId k op).op = op := rfl
  simp [authentic, hsig, hnet, hop]

/-- What the master key signs for its network is such an entry. -/
theorem masterOp_signOp (hl : P.Lawful) {k : SigningKey} (hk : P.verifyingKey k = rc.originatorId)
    (op : Op) : MasterOp P now rc (signOp P rc.networkId k op) where
  isOrig := decide_eq_true hk
  authentic := authentic_signOp hl k op

/-- **Who has the last word on a register**: the op `o` reaches the reader's window and the
    last entry behind it to write, if there is one, writes something good; or the reader
    drops `o`, and what it has without `o` is good. -/
def LastWord (P : Primitives) (now : UInt64) (rc : Config) (E : List Entry) (o : Entry)
    (R : Register (foldEntry rc) β) (good : β → Prop) : Prop :=
  (o.op.ts ≤ ceiling now ∧ R.GoodBehind (orderKey P) .init (ordered P now rc (E ++ [o])) o good) ∨
    (ceiling now < o.op.ts ∧ good (R.obs (foldAll P now rc E)))

/-- What the originator signs has authority everywhere, but for an `add` to a frozen roll. -/
theorem authorised_of_isOrig {s : FoldState} (h : isOrig rc o = true) (ha : o.admits? = none) :
    authorised rc s o = true := by
  unfold authorised isAdmin
  cases hop : o.op with
  | add nodeId hostname role virtualIp inviteNonce ts => simp [Entry.admits?, hop] at ha
  | setInvite kind nonce singleUse ts => cases kind <;> simp [h]
  | remove nodeId ts => simp [h]
  | setRole nodeId role ts => simp [h]
  | freeze frozen ts => simp [h]
  | setName name ts => simp [h]

/-- **An op that sets a register wherever it lands is reflected exactly when it has the last
    word.** -/
theorem lastWord_iff (R : Register (foldEntry rc) β) (good : β → Prop)
    (hcf : CollisionFree P now rc (E ++ [o])) (hm : MasterOp P now rc o)
    (hset : ∀ s, good (R.obs (foldEntry rc s o))) :
    good (R.obs (foldAll P now rc (E ++ [o]))) ↔ LastWord P now rc E o R good := by
  by_cases hts : o.op.ts ≤ ceiling now
  · have ho : o ∈ ordered P now rc (E ++ [o]) :=
      (mem_ordered hcf).mpr ⟨by simp, by rw [hm.authentic, decide_eq_true hts]⟩
    refine (R.good_run_iff good (strictBy_ordered (E ++ [o])) ho (hset _)).trans ?_
    constructor
    · exact fun h => Or.inl ⟨hts, h⟩
    · intro h'
      rcases h' with ⟨-, h⟩ | ⟨hlt, -⟩
      · exact h
      · exact absurd hts (not_le.mpr hlt)
  · -- the reader drops the op
    have hdrop : ordered P now rc (E ++ [o]) = ordered P now rc E := by
      refine ordered_congr hcf fun e he => ⟨fun h => ?_, fun h => List.mem_append_left _ h⟩
      refine (List.mem_append.mp h).resolve_right fun heo => ?_
      rw [List.mem_singleton.mp heo, hm.authentic, decide_eq_false hts] at he
      cases he
    unfold LastWord foldAll
    rw [hdrop]
    constructor
    · exact fun h => Or.inr ⟨not_le.mp hts, h⟩
    · intro h'
      rcases h' with ⟨hle, -⟩ | ⟨-, h⟩
      · exact absurd hle hts
      · exact h

theorem remove_reflected_iff {x : Id} {ts : UInt64} (hcf : CollisionFree P now rc (E ++ [o]))
    (hm : MasterOp P now rc o) (hop : o.op = .remove x ts) :
    (Roster.build P now rc (E ++ [o])).isMember x = false ↔
      LastWord P now rc E o (memberReg rc x) (· = false) := by
  rw [Roster.build, finish_isMember]
  refine lastWord_iff (memberReg rc x) (· = false) hcf hm fun s => ?_
  have hauth := authorised_of_isOrig (s := s) hm.isOrig (by simp [Entry.admits?, hop])
  rw [(memberReg rc x).law]
  simp [memberReg, memberWrite, hauth, hop]

theorem setRole_reflected_iff {x : Id} {role : Role} {ts : UInt64}
    (hcf : CollisionFree P now rc (E ++ [o])) (hm : MasterOp P now rc o)
    (hop : o.op = .setRole x role ts) :
    (∀ r, (Roster.build P now rc (E ++ [o])).tier? x = some r → r = role) ↔
      LastWord P now rc E o (tierReg rc x) fun t => ∀ r, t = some r → r = role := by
  rw [Roster.build, finish_tier?]
  refine lastWord_iff (tierReg rc x) (fun t => ∀ r, t = some r → r = role) hcf hm fun s => ?_
  have hauth := authorised_of_isOrig (s := s) hm.isOrig (by simp [Entry.admits?, hop])
  rw [(tierReg rc x).law]
  by_cases hx : s.roster.tier? x = none
  · simp [tierReg, tierWrite, hop, hx]
  · have hw : (tierReg rc x).writes s o = some (some role) := by
      simp [tierReg, tierWrite, hauth, hop, hx]
    rw [hw]
    exact fun r hr => (Option.some.inj hr).symm

theorem freeze_reflected_iff {b : Bool} {ts : UInt64} (hcf : CollisionFree P now rc (E ++ [o]))
    (hm : MasterOp P now rc o) (hop : o.op = .freeze b ts) :
    (Roster.build P now rc (E ++ [o])).frozen = b ↔
      LastWord P now rc E o (frozenReg rc) (· = b) := by
  rw [Roster.build, finish_frozen]
  refine lastWord_iff (frozenReg rc) (· = b) hcf hm fun s => ?_
  have hauth := authorised_of_isOrig (s := s) hm.isOrig (by simp [Entry.admits?, hop])
  rw [(frozenReg rc).law]
  simp [frozenReg, frozenWrite, hauth, hop]

theorem peerInvite_reflected_iff {n : Nonce} {su : Bool} {ts : UInt64}
    (hcf : CollisionFree P now rc (E ++ [o])) (hm : MasterOp P now rc o)
    (hop : o.op = .setInvite .peer n su ts) :
    ((Roster.build P now rc (E ++ [o])).currentInvite .peer).map Prod.fst = some n ↔
      LastWord P now rc E o (inviteReg rc .peer) fun v => v.map Prod.fst = some n := by
  rw [Roster.build, finish_currentInvite]
  refine lastWord_iff (inviteReg rc .peer) (fun v => v.map Prod.fst = some n) hcf hm fun s => ?_
  have hauth := authorised_of_isOrig (s := s) hm.isOrig (by simp [Entry.admits?, hop])
  rw [(inviteReg rc .peer).law]
  simp [inviteReg, inviteWrite, hauth, hop]

/-- **When administration takes effect.** A device that holds the master key publishes an op
    stamped with its clock; a roster folded from `E` and the op reflects it exactly when the
    op has the last word: on the membership of the removed node, on the tier of the node
    whose role was set, on the frozen flag, on the Peer invite. -/
theorem admin_effective_iff (hl : C.toPrimitives.Lawful) (hk : HoldsMasterKey C i cfg sk)
    (now nowMs : UInt64) (E : List Entry) :
    (∀ hex x o, parseId hex = .ok x → removeMember C i nowMs hex = .ok o →
      CollisionFree C.toPrimitives now (cfg.rosterCfg C) (E ++ [o]) →
      ((Roster.build C.toPrimitives now (cfg.rosterCfg C) (E ++ [o])).isMember x = false ↔
        LastWord C.toPrimitives now (cfg.rosterCfg C) E o (memberReg _ x) (· = false))) ∧
    (∀ hex x c o, parseId hex = .ok x → setMemberRole C i nowMs hex c = .ok o →
      CollisionFree C.toPrimitives now (cfg.rosterCfg C) (E ++ [o]) →
      ((∀ r, (Roster.build C.toPrimitives now (cfg.rosterCfg C) (E ++ [o])).tier? x = some r →
          r = if c then .controller else .peer) ↔
        LastWord C.toPrimitives now (cfg.rosterCfg C) E o (tierReg _ x)
          fun t => ∀ r, t = some r → r = if c then .controller else .peer)) ∧
    (∀ b o, setFrozen C i nowMs b = .ok o →
      CollisionFree C.toPrimitives now (cfg.rosterCfg C) (E ++ [o]) →
      ((Roster.build C.toPrimitives now (cfg.rosterCfg C) (E ++ [o])).frozen = b ↔
        LastWord C.toPrimitives now (cfg.rosterCfg C) E o (frozenReg _) (· = b))) ∧
    ∀ n su o, regeneratePeerInvite C i nowMs n su = .ok o →
      CollisionFree C.toPrimitives now (cfg.rosterCfg C) (E ++ [o]) →
      (((Roster.build C.toPrimitives now (cfg.rosterCfg C) (E ++ [o])).currentInvite .peer).map
          Prod.fst = some n ↔
        LastWord C.toPrimitives now (cfg.rosterCfg C) E o (inviteReg _ .peer)
          fun v => v.map Prod.fst = some n) := by
  have hm : ∀ op, MasterOp C.toPrimitives now (cfg.rosterCfg C)
      (signOp C.toPrimitives (cfg.secret.networkId C) sk op) :=
    fun op => masterOp_signOp hl hk.matching op
  refine ⟨fun hex x o hx h hcf => ?_, fun hex x c o hx h hcf => ?_, fun b o h hcf => ?_,
    fun n su o h hcf => ?_⟩
  · obtain rfl := removeMember_ok hk hx h
    exact remove_reflected_iff hcf (hm _) rfl
  · obtain rfl := setMemberRole_ok hk hx h
    exact setRole_reflected_iff hcf (hm _) rfl
  · obtain rfl := setFrozen_ok hk h
    exact freeze_reflected_iff hcf (hm _) rfl
  · obtain rfl := regeneratePeerInvite_ok hk h
    exact peerInvite_reflected_iff hcf (hm _) rfl

/-! ## 5. A removal undone by a clock ahead -/

namespace Sample

/-- Device 2, online, with the master key. -/
def master : Inner := activate { deviceKey := key 2, myId := key 2 } (stored (some (key 1))) NET NET

/-- The id of device 3, as it is typed. -/
def hex3 : String := String.ofList (List.replicate 32 ['0', '3']).flatten

end Sample

theorem Sample.masterKey :
    HoldsMasterKey .plain Sample.master (Sample.stored (some (Sample.key 1))) (Sample.key 1) :=
  ⟨rfl, rfl, rfl⟩

theorem Sample.parse_hex3 : parseId Sample.hex3 = .ok (Sample.key 3) := by decide

/-- Stamped behind everything else, a removal is reflected. -/
theorem admin_effective_sample :
    (Roster.build .plain 100 Sample.config
      (Sample.joined ++ [Sample.signed 1 (.remove (Sample.key 3) 6)])).isMember (Sample.key 3) =
      false := by
  refine ((admin_effective_iff (C := .plain) Primitives.plain_lawful Sample.masterKey 100 6
    Sample.joined).1 Sample.hex3 (Sample.key 3) (Sample.signed 1 (.remove (Sample.key 3) 6))
    Sample.parse_hex3 ?_ (by decide)).mpr (Or.inl ⟨by decide, fun r hr hlt _ _ _ => ?_⟩)
  · simp only [removeMember, Sample.parse_hex3, Sample.masterKey.adminSigner_eq, bind, Except.bind]
    rfl
  · have hlast : ∀ r ∈ ordered .plain 100 Sample.config
        (Sample.joined ++ [Sample.signed 1 (.remove (Sample.key 3) 6)]),
        ¬ orderKey .plain (Sample.signed 1 (.remove (Sample.key 3) 6)) < orderKey .plain r := by
      decide
    exact absurd hlt (hlast r hr)

/-- **A Controller's clock ahead undoes a removal**: device 3 was admitted with a stamp one
    minute ahead, so the removal the originator publishes now sorts before its `add`. -/
theorem admin_not_effective :
    ¬ ∀ (i : Inner) (cfg : StoredConfig) (sk : SigningKey) (now : UInt64) (E : List Entry)
        (hex : String) (x : Id) (o : Entry), HoldsMasterKey .plain i cfg sk →
      (∀ e ∈ E, authentic .plain now (cfg.rosterCfg .plain) e = true) →
      CollisionFree .plain now (cfg.rosterCfg .plain) (E ++ [o]) → parseId hex = .ok x →
      removeMember .plain i now hex = .ok o →
      (Roster.build .plain now (cfg.rosterCfg .plain) (E ++ [o])).isMember x = false := by
  intro h
  have hb := h Sample.master (Sample.stored (some (Sample.key 1))) (Sample.key 1) 100
    (Sample.setup ++ [Sample.add 2 3 .peer 7 60100]) Sample.hex3 (Sample.key 3)
    (Sample.signed 1 (.remove (Sample.key 3) 100)) Sample.masterKey (by decide) (by decide)
    Sample.parse_hex3 (by
      simp only [removeMember, Sample.parse_hex3, Sample.masterKey.adminSigner_eq, bind,
        Except.bind]
      rfl)
  revert hb
  decide

end Nullgate

/-
  File:      Nullgate/Roster/Rules.lean
  Subject:   THE ROLE RULES OF THE FOLD: who may do what, and what it does.

  `foldEntry` mixes three things: the rule that lets an entry in, what the entry does, and
  the `continue` that drops it. This file separates them:

  * `authorised` -- the rule, a predicate on the state an entry meets;
  * `effect` -- what an entry does once it is let in;
  * `foldEntry_eq` -- one step is the effect where the rule holds, and nothing elsewhere.

  Everything proved about runs of the fold goes through these three. The components of the
  state are registers of the fold (`Lib/Fold.lean`): `tierReg`, `memberReg`, `frozenReg`,
  `inviteReg` say for each which entries write it.
-/
import Nullgate.Roster.Build

namespace Nullgate

open Nullgate.Lib

variable (P : Primitives) (now : UInt64) (cfg : Config)

/-! ## 1. Rule and effect -/

/-- An `add` is let in: the roll is open, the approver may, the invite gate passes. -/
def addAdmitted (s : FoldState) (e : Entry) (role : Role) (inviteNonce : Nonce) : Bool :=
  !s.roster.frozen && approverOk cfg s e && (inviteGate cfg s e role inviteNonce).isSome

/-- The signer is the originator or a current Controller. -/
def isAdmin (s : FoldState) (e : Entry) : Bool := isOrig cfg e || isController s e

/-- **The role rules**: the entry has the authority for its op in the state it meets. -/
def authorised (s : FoldState) (e : Entry) : Bool :=
  match e.op with
  | .add _ _ role _ inviteNonce _ => addAdmitted cfg s e role inviteNonce
  | .remove nodeId _ =>
    isOrig cfg e || (isController s e && s.roster.tier? nodeId = some .peer)
  | .setRole .. => isOrig cfg e
  | .setInvite .peer .. => isAdmin cfg s e
  | .setInvite .controller .. => isOrig cfg e
  | .freeze .. => isOrig cfg e
  | .setName .. => isAdmin cfg s e

/-- What an authorised entry does to the state. -/
def effect (s : FoldState) (e : Entry) : FoldState :=
  match e.op with
  | .add nodeId hostname role virtualIp inviteNonce ts =>
    { roster := { s.roster with
        members := s.roster.members.insert nodeId
          { hostname, role, virtualIp := ⟨virtualIp⟩, addedBy := e.signer } }
      admittedTs := s.admittedTs.insert nodeId ts
      consumed := match inviteGate cfg s e role inviteNonce with
        | some (some n) => s.consumed.insert n
        | _ => s.consumed }
  | .remove nodeId _ =>
    { s with
      roster := { s.roster with members := s.roster.members.erase nodeId }
      admittedTs := s.admittedTs.erase nodeId }
  | .setRole nodeId role _ =>
    { s with roster := { s.roster with
        members := s.roster.members.modify nodeId fun m => { m with role } } }
  | .setInvite .peer nonce singleUse _ =>
    { s with roster := { s.roster with peerInvite := some (nonce, singleUse) } }
  | .setInvite .controller nonce _ _ =>
    { s with roster := { s.roster with controllerInvite := some (nonce, true) } }
  | .freeze frozen _ => { s with roster := { s.roster with frozen } }
  | .setName name _ => { s with roster := { s.roster with name := some name } }

variable {cfg}

/-- **One step of the fold is the effect where the rule holds, and nothing elsewhere.** -/
theorem foldEntry_eq (s : FoldState) (e : Entry) :
    foldEntry cfg s e = if authorised cfg s e then effect cfg s e else s := by
  cases hop : e.op with
  | add nodeId hostname role virtualIp inviteNonce ts =>
    simp only [foldEntry, authorised, addAdmitted, effect, hop]
    by_cases hf : s.roster.frozen = true
    · simp [hf]
    by_cases ha : approverOk cfg s e = true
    · rcases Option.eq_none_or_eq_some (inviteGate cfg s e role inviteNonce) with hg | ⟨c, hg⟩
      · simp [hg]
      · cases c <;> simp [hf, ha, hg]
    · simp [ha]
  | setInvite kind nonce singleUse ts =>
    cases kind <;> simp only [foldEntry, authorised, effect, isAdmin, hop]
  | _ => simp only [foldEntry, authorised, effect, isAdmin, hop]

theorem foldEntry_of_authorised {s : FoldState} {e : Entry} (h : authorised cfg s e = true) :
    foldEntry cfg s e = effect cfg s e := by rw [foldEntry_eq, if_pos h]

theorem foldEntry_of_not_authorised {s : FoldState} {e : Entry}
    (h : authorised cfg s e = false) : foldEntry cfg s e = s := by
  rw [foldEntry_eq, if_neg (by simp [h])]

/-- Whoever has authority is the originator or a current Controller. -/
theorem isAdmin_of_authorised {s : FoldState} {e : Entry} (h : authorised cfg s e = true) :
    isAdmin cfg s e = true := by
  obtain ⟨net, signer, op, sig⟩ := e
  unfold isAdmin
  cases op with
  | add nodeId hostname role virtualIp inviteNonce ts =>
    simp only [authorised, addAdmitted, approverOk, Bool.and_eq_true, Bool.or_eq_true] at h ⊢
    exact h.1.2.imp id And.left
  | remove nodeId ts =>
    simp only [authorised, Bool.and_eq_true, Bool.or_eq_true] at h ⊢
    exact h.imp id And.left
  | setRole nodeId role ts => exact Bool.or_eq_true_iff.mpr (Or.inl h)
  | setInvite kind nonce singleUse ts =>
    cases kind with
    | peer => exact h
    | controller => exact Bool.or_eq_true_iff.mpr (Or.inl h)
  | freeze frozen ts => exact Bool.or_eq_true_iff.mpr (Or.inl h)
  | setName name ts => exact h

/-- The gate without an invite of the kind in force. -/
theorem inviteGate_of_none {s : FoldState} {e : Entry} {role : Role} {inv : Nonce}
    (hc : s.roster.currentInvite role.kind = none) :
    inviteGate cfg s e role inv = if isOrig cfg e then some none else none := by
  cases role <;> simp only [Role.kind, Roster.currentInvite] at hc <;> simp only [inviteGate, hc]

/-- The gate under an invite of the kind. -/
theorem inviteGate_of_some {s : FoldState} {e : Entry} {role : Role} {inv cur : Nonce} {su : Bool}
    (hc : s.roster.currentInvite role.kind = some (cur, su)) :
    inviteGate cfg s e role inv = if isOrig cfg e then some none
      else if inv ≠ cur then none
      else if su then if s.consumed.contains cur then none else some (some cur)
      else some none := by
  cases role <;> simp only [Role.kind, Roster.currentInvite] at hc <;> simp only [inviteGate, hc]

/-- **What the invite gate lets in**: anything the originator signs; else an `add` that cites
    the invite in force for the role it grants, which must be unspent if it is single-use. -/
theorem inviteGate_eq_some {s : FoldState} {e : Entry} {role : Role} {inv : Nonce}
    {c : Option Nonce} :
    inviteGate cfg s e role inv = some c ↔
      (isOrig cfg e = true ∧ c = none) ∨
      (isOrig cfg e = false ∧ s.roster.currentInvite role.kind = some (inv, false) ∧ c = none) ∨
      (isOrig cfg e = false ∧ s.roster.currentInvite role.kind = some (inv, true) ∧
        s.consumed.contains inv = false ∧ c = some inv) := by
  rcases Option.eq_none_or_eq_some (s.roster.currentInvite role.kind) with hc | ⟨⟨cur, su⟩, hc⟩
  · rw [inviteGate_of_none hc, hc]
    cases isOrig cfg e <;> simp [@eq_comm _ c]
  · rw [inviteGate_of_some hc, hc]
    cases isOrig cfg e with
    | true => simp [@eq_comm _ c]
    | false =>
      by_cases hn : inv = cur
      · subst hn
        cases su with
        | false => simp [@eq_comm _ c]
        | true => cases s.consumed.contains inv <;> simp [@eq_comm _ c]
      · simp [hn, Ne.symm hn]

/-- An `add` has authority where the roll is open, its approver may, and the gate passes. -/
theorem authorised_add {s : FoldState} {e : Entry} {nodeId : Id} {hostname : String} {role : Role}
    {ip : Octets} {inv : Nonce} {ts : UInt64} (hop : e.op = .add nodeId hostname role ip inv ts) :
    authorised cfg s e = true ↔ s.roster.frozen = false ∧ approverOk cfg s e = true ∧
      ∃ c, inviteGate cfg s e role inv = some c := by
  simp only [authorised, hop, addAdmitted, Bool.and_eq_true, Bool.not_eq_true', and_assoc,
    Option.isSome_iff_exists]

/-- **A non-originator's `add` has authority** only from a current Controller, on an open roll,
    and citing the invite in force for the role it grants. -/
theorem vouch_of_authorised {s : FoldState} {e : Entry} {nodeId : Id} {hostname : String}
    {role : Role} {ip : Octets} {inv : Nonce} {ts : UInt64}
    (hop : e.op = .add nodeId hostname role ip inv ts) (hauth : authorised cfg s e = true)
    (hne : e.signer ≠ cfg.originatorId) :
    isController s e = true ∧ s.roster.frozen = false ∧
      ∃ su, s.roster.currentInvite role.kind = some (inv, su) := by
  obtain ⟨hf, ha, c, hg⟩ := (authorised_add hop).mp hauth
  have ho : isOrig cfg e = false := decide_eq_false hne
  refine ⟨?_, hf, ?_⟩
  · simp only [approverOk, ho, Bool.false_or, Bool.and_eq_true] at ha
    exact ha.1
  · rcases inviteGate_eq_some.mp hg with ⟨h, -⟩ | ⟨-, h, -⟩ | ⟨-, h, -⟩
    · rw [ho] at h
      cases h
    · exact ⟨false, h⟩
    · exact ⟨true, h⟩

/-! ## 2. The components of the state as registers -/

variable (cfg)

/-- What an entry does to the tier of `id`: an `add` and a `setRole` of a member set it, a
    `remove` ends it. -/
def tierWrite (s : FoldState) (e : Entry) (id : Id) : Option (Option Role) :=
  match e.op with
  | .add nodeId _ role _ _ _ => if nodeId = id then some (some role) else none
  | .remove nodeId _ => if nodeId = id then some none else none
  | .setRole nodeId role _ =>
    if nodeId = id ∧ s.roster.tier? id ≠ none then some (some role) else none
  | _ => none

/-- The member an op is about. -/
def Op.about : Op → Option Id
  | .add nodeId _ _ _ _ _ => some nodeId
  | .remove nodeId _ => some nodeId
  | .setRole nodeId _ _ => some nodeId
  | _ => none

theorem tierWrite_of_not_about {s : FoldState} {e : Entry} {id : Id} (h : e.op.about ≠ some id) :
    tierWrite s e id = none := by
  unfold tierWrite
  cases hop : e.op with
  | add nodeId hostname role virtualIp inviteNonce ts =>
    rw [hop] at h
    exact if_neg fun hid => h (by rw [hid]; rfl)
  | remove nodeId ts =>
    rw [hop] at h
    exact if_neg fun hid => h (by rw [hid]; rfl)
  | setRole nodeId role ts =>
    rw [hop] at h
    exact if_neg fun hid => h (by rw [hid.1]; rfl)
  | setInvite kind nonce singleUse ts => rfl
  | freeze frozen ts => rfl
  | setName name ts => rfl

/-- The tier of `id` in the roster. -/
def tierReg (id : Id) : Register (foldEntry cfg) (Option Role) where
  obs s := s.roster.tier? id
  writes s e := if authorised cfg s e then tierWrite s e id else none
  law s e := by
    rw [foldEntry_eq]
    split
    · obtain ⟨net, signer, op, sig⟩ := e
      cases op with
      | add nodeId hostname role virtualIp inviteNonce ts =>
        simp only [effect, tierWrite, Roster.tier?, Std.ExtTreeMap.getElem?_insert,
          compare_eq_iff_eq]
        split <;> rfl
      | remove nodeId ts =>
        simp only [effect, tierWrite, Roster.tier?, Std.ExtTreeMap.getElem?_erase,
          compare_eq_iff_eq]
        split <;> rfl
      | setRole nodeId role ts =>
        simp only [effect, tierWrite, Roster.tier?, Std.ExtTreeMap.getElem?_modify,
          compare_eq_iff_eq]
        by_cases hid : nodeId = id
        · subst hid
          rcases Option.eq_none_or_eq_some s.roster.members[nodeId]? with h | ⟨m, h⟩ <;> simp [h]
        · simp [hid]
      | setInvite kind nonce singleUse ts => cases kind <;> rfl
      | freeze frozen ts => rfl
      | setName name ts => rfl
    · rfl

/-- What an entry does to the membership of `id`. -/
def memberWrite (e : Entry) (id : Id) : Option Bool :=
  match e.op with
  | .add nodeId _ _ _ _ _ => if nodeId = id then some true else none
  | .remove nodeId _ => if nodeId = id then some false else none
  | _ => none

/-- The node an `add` admits. -/
def Entry.admits? (e : Entry) : Option Id :=
  match e.op with
  | .add nodeId _ _ _ _ _ => some nodeId
  | _ => none

/-- Membership is written to true by an `add` alone. -/
theorem memberWrite_eq_true {e : Entry} {id : Id} :
    memberWrite e id = some true ↔ e.admits? = some id := by
  unfold memberWrite Entry.admits?
  cases e.op <;> simp

/-- The node a `remove` removes. -/
def Entry.removes? (e : Entry) : Option Id :=
  match e.op with
  | .remove nodeId _ => some nodeId
  | _ => none

/-- Membership is written to false by a `remove` alone. -/
theorem memberWrite_eq_false {e : Entry} {id : Id} :
    memberWrite e id = some false ↔ e.removes? = some id := by
  unfold memberWrite Entry.removes?
  cases e.op <;> simp

/-- Whether `id` is a member. -/
def memberReg (id : Id) : Register (foldEntry cfg) Bool where
  obs s := s.roster.isMember id
  writes s e := if authorised cfg s e then memberWrite e id else none
  law s e := by
    simp only [Roster.isMember_eq]
    have h := (tierReg cfg id).law s e
    simp only [tierReg] at h
    rw [h]
    split
    · obtain ⟨net, signer, op, sig⟩ := e
      cases op with
      | add nodeId hostname role virtualIp inviteNonce ts =>
        simp only [tierWrite, memberWrite]
        split <;> rfl
      | remove nodeId ts =>
        simp only [tierWrite, memberWrite]
        split <;> rfl
      | setRole nodeId role ts =>
        simp only [tierWrite, memberWrite]
        split
        · rename_i hm
          simpa using (Option.isSome_iff_ne_none.mpr hm.2).symm
        · rfl
      | setInvite kind nonce singleUse ts => rfl
      | freeze frozen ts => rfl
      | setName name ts => rfl
    · rfl

/-- What an entry does to the frozen flag. -/
def frozenWrite (e : Entry) : Option Bool :=
  match e.op with
  | .freeze frozen _ => some frozen
  | _ => none

/-- The frozen flag. -/
def frozenReg : Register (foldEntry cfg) Bool where
  obs s := s.roster.frozen
  writes s e := if authorised cfg s e then frozenWrite e else none
  law s e := by
    rw [foldEntry_eq]
    split
    · obtain ⟨net, signer, op, sig⟩ := e
      cases op with
      | setInvite kind nonce singleUse ts => cases kind <;> rfl
      | _ => rfl
    · rfl

/-- What an entry does to the invite of a kind; a Controller invite is always single-use. -/
def inviteWrite (e : Entry) (kind : InviteKind) : Option (Option (Nonce × Bool)) :=
  match e.op with
  | .setInvite .peer nonce singleUse _ =>
    if kind = .peer then some (some (nonce, singleUse)) else none
  | .setInvite .controller nonce _ _ =>
    if kind = .controller then some (some (nonce, true)) else none
  | _ => none

theorem inviteWrite_some {e : Entry} {kind : InviteKind} {v : Option (Nonce × Bool)}
    (h : inviteWrite e kind = some v) :
    ∃ nonce su ts, e.op = .setInvite kind nonce su ts ∧
      v = some (nonce, su || kind = .controller) := by
  unfold inviteWrite at h
  cases hop : e.op with
  | setInvite k nonce su ts =>
    cases k with
    | peer =>
      simp only [hop] at h
      split at h
      · rename_i hk
        subst hk
        exact ⟨nonce, su, ts, rfl, by simpa using (Option.some.inj h).symm⟩
      · cases h
    | controller =>
      simp only [hop] at h
      split at h
      · rename_i hk
        subst hk
        exact ⟨nonce, su, ts, rfl, by simpa using (Option.some.inj h).symm⟩
      · cases h
  | add nodeId hostname role virtualIp inviteNonce ts => simp [hop] at h
  | remove nodeId ts => simp [hop] at h
  | setRole nodeId role ts => simp [hop] at h
  | freeze frozen ts => simp [hop] at h
  | setName name ts => simp [hop] at h

/-- The invite in force for a kind. -/
def inviteReg (kind : InviteKind) : Register (foldEntry cfg) (Option (Nonce × Bool)) where
  obs s := s.roster.currentInvite kind
  writes s e := if authorised cfg s e then inviteWrite e kind else none
  law s e := by
    rw [foldEntry_eq]
    split
    · obtain ⟨net, signer, op, sig⟩ := e
      cases op with
      | setInvite k nonce singleUse ts => cases k <;> cases kind <;> rfl
      | _ => cases kind <;> rfl
    · rfl

/-! ## 3. The finished roster -/

/-- Assigning addresses changes nothing of a member but the address. -/
theorem assignIps_map {β : Type} (f : Member → β) (hf : ∀ m ip, f { m with virtualIp := ip } = f m)
    (members : Std.ExtTreeMap Id Member) (admittedTs : Std.ExtTreeMap Id UInt64)
    (subnet : Ipv4Addr) (id : Id) :
    (assignIps members admittedTs subnet)[id]?.map f = members[id]?.map f := by
  have hstep : ∀ acc, ∀ o ∈ ipOrder members admittedTs,
      acc.1[id]?.map f = members[id]?.map f →
      (assignIp subnet acc o).1[id]?.map f = members[id]?.map f := by
    intro acc o _ h
    simp only [assignIp, Std.ExtTreeMap.getElem?_modify]
    split
    · rename_i hid
      rw [compare_eq_iff_eq.mp hid, Option.map_map, ← h]
      exact congrArg (fun g => acc.1[id]?.map g) (funext fun m => hf m _)
    · exact h
  exact run_invariant hstep rfl

@[simp] theorem finish_tier? (s : FoldState) (id : Id) :
    (finish cfg s).tier? id = s.roster.tier? id :=
  assignIps_map Member.role (fun _ _ => rfl) _ _ _ _

@[simp] theorem finish_isMember (s : FoldState) (id : Id) :
    (finish cfg s).isMember id = s.roster.isMember id := by
  rw [Roster.isMember_eq, Roster.isMember_eq, finish_tier?]

@[simp] theorem finish_frozen (s : FoldState) : (finish cfg s).frozen = s.roster.frozen := rfl

@[simp] theorem finish_currentInvite (s : FoldState) (kind : InviteKind) :
    (finish cfg s).currentInvite kind = s.roster.currentInvite kind := by
  cases kind <;> rfl

end Nullgate

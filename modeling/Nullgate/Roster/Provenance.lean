/-
  File:      Nullgate/Roster/Provenance.lean
  Subject:   THE WEB OF TRUST: every member is vouched in along a chain from the originator.

  A member's record was written by an `add` that the fold let in. Its signer was the
  originator, or a Controller, so a member itself, with an `add` of its own further up the
  fold. Following the signers upwards yields a chain of `add`s that rises strictly in
  `(ts, id)` and starts with the originator's (`Provenance`).

  The chain is built by induction over the prefixes of the folded list
  (`provenance_prefix`): an entry that leaves a member's membership alone extends the chain's
  tail of silence, an entry that admits a member extends the chain of its signer.
-/
import Nullgate.Roster.Order
import Nullgate.Roster.Rules
import Mathlib.Data.List.Chain

namespace Nullgate

open Nullgate.Lib

variable {P : Primitives} {now : UInt64} {cfg : Config}

/-- The last entry of `l` to set the invite of `kind`, with authority, cites `nonce`. -/
def LatestInvite (cfg : Config) (l : List Entry) (kind : InviteKind) (nonce : Nonce) : Prop :=
  ∃ pre e post v su ts, (inviteReg cfg kind).LastWriteAt .init l pre e post v ∧
    e.op = .setInvite kind nonce su ts

/-- `a` is an `add` that the fold of `l` lets in; unless the originator signed it, its signer
    is a Controller at that point, the roll is not frozen, and it cites the latest invite of
    the kind of the role it grants. -/
def Accepted (cfg : Config) (l : List Entry) (a : Entry) : Prop :=
  ∃ pre post nodeId hostname role ip inv ts, l = pre ++ a :: post ∧
    a.op = .add nodeId hostname role ip inv ts ∧
    authorised cfg (foldFrom cfg .init pre) a = true ∧
    (a.signer ≠ cfg.originatorId → isController (foldFrom cfg .init pre) a = true ∧
      (foldFrom cfg .init pre).roster.frozen = false ∧ LatestInvite cfg pre role.kind inv)

/-- **A chain of admissions** in the fold of `l` that gives `m` its membership. -/
structure AdmissionChain (cfg : Config) (l : List Entry) (m : Id) (chain : List Entry) : Prop where
  sub : chain.Sublist l
  accepted : ∀ a ∈ chain, Accepted cfg l a
  root : ∃ a, chain.head? = some a ∧ a.signer = cfg.originatorId
  linked : chain.IsChain fun a b => a.admits? = some b.signer
  gives : ∃ a, chain.getLast? = some a ∧
    ∃ pre post, (memberReg cfg m).LastWriteAt .init l pre a post true

theorem Accepted.snoc {l : List Entry} {a e : Entry} (h : Accepted cfg l a) :
    Accepted cfg (l ++ [e]) a := by
  obtain ⟨pre, post, nodeId, hostname, role, ip, inv, ts, hl, h⟩ := h
  exact ⟨pre, post ++ [e], nodeId, hostname, role, ip, inv, ts, by rw [hl]; simp, h⟩

/-- An invite in force was set by the latest authorised `setInvite` of its kind. -/
theorem latestInvite_of_current {l : List Entry} {kind : InviteKind} {nonce : Nonce} {su : Bool}
    (h : (foldFrom cfg .init l).roster.currentInvite kind = some (nonce, su)) :
    LatestInvite cfg l kind nonce := by
  have h0 : (inviteReg cfg kind).obs .init ≠ some (nonce, su) := by
    cases kind <;> simp [inviteReg, FoldState.init, Roster.default, Roster.currentInvite]
  obtain ⟨pre, e, post, hw⟩ := (inviteReg cfg kind).lastWrite_of_ne h h0
  have hwr := hw.writes
  simp only [inviteReg] at hwr
  split at hwr
  · obtain ⟨nonce', su', ts, hop, hv⟩ := inviteWrite_some hwr
    obtain rfl : nonce = nonce' := congrArg Prod.fst (Option.some.inj hv)
    exact ⟨pre, e, post, _, su', ts, hw, hop⟩
  · cases hwr

/-- An `add` with authority at the end of a run is accepted there. -/
theorem accepted_snoc {l : List Entry} {e : Entry} {id : Id} (ha : e.admits? = some id)
    (hauth : authorised cfg (foldFrom cfg .init l) e = true) : Accepted cfg (l ++ [e]) e := by
  cases hop : e.op with
  | add nodeId hostname role ip inv ts =>
    refine ⟨l, [], nodeId, hostname, role, ip, inv, ts, rfl, hop, hauth, fun hne => ?_⟩
    obtain ⟨hc, hf, su, hcur⟩ := vouch_of_authorised hop hauth hne
    exact ⟨hc, hf, latestInvite_of_current hcur⟩
  | _ => simp [Entry.admits?, hop] at ha

/-- What an authorised entry that makes `m` a member is: an `add` of `m`. -/
theorem memberReg_writes_true {s : FoldState} {e : Entry} {m : Id}
    (h : (memberReg cfg m).writes s e = some true) :
    authorised cfg s e = true ∧ e.admits? = some m := by
  simp only [memberReg] at h
  split at h
  · rename_i hauth
    exact ⟨hauth, memberWrite_eq_true.mp h⟩
  · cases h

/-- **Every member of a fold has a chain**, by induction over the folded list. -/
theorem provenance_prefix (l : List Entry) :
    ∀ m, (foldFrom cfg .init l).roster.isMember m = true →
      ∃ chain, AdmissionChain cfg l m chain := by
  induction l using List.reverseRecOn with
  | nil =>
    intro m hm
    simp [Roster.isMember, FoldState.init, Roster.default] at hm
  | append_singleton l e ih =>
    intro m hm
    have hobs := (memberReg cfg m).law (foldFrom cfg .init l) e
    rw [foldFrom, run_append] at hm
    rcases Option.eq_none_or_eq_some ((memberReg cfg m).writes (foldFrom cfg .init l) e) with
      hw | ⟨v, hw⟩
    · -- `e` leaves `m` alone: the chain of `m` in `l` is one in `l ++ [e]`
      rw [hw, Option.getD_none] at hobs
      obtain ⟨chain, hc⟩ := ih m (hobs.symm.trans hm)
      obtain ⟨a, hlast, pre, post, hg⟩ := hc.gives
      exact ⟨chain, hc.sub.trans (List.sublist_append_left l [e]),
        fun a ha => (hc.accepted a ha).snoc, hc.root, hc.linked,
        a, hlast, pre, post ++ [e], hg.snoc _ hw⟩
    · -- `e` writes the membership of `m`, so it admits `m`
      rw [hw, Option.getD_some] at hobs
      obtain rfl : v = true := hobs.symm.trans hm
      obtain ⟨hauth, hadm⟩ := memberReg_writes_true hw
      have hgives := (memberReg cfg m).lastWriteAt_snoc (l := l) hw
      have hacc := accepted_snoc hadm hauth
      by_cases ho : e.signer = cfg.originatorId
      · exact ⟨[e], List.sublist_append_right l [e],
          fun a ha => List.mem_singleton.mp ha ▸ hacc, ⟨e, rfl, ho⟩, List.isChain_singleton e,
          e, rfl, l, [], hgives⟩
      · -- the signer is a Controller, so a member with a chain of its own
        have hctrl : isController (foldFrom cfg .init l) e = true := by
          obtain ⟨pre, post, _, _, role, _, inv, _, hl, hop, -, hv⟩ := hacc
          exact (vouch_of_authorised hop hauth ho).1
        have hmem : (foldFrom cfg .init l).roster.isMember e.signer = true := by
          rw [Roster.isMember_eq, of_decide_eq_true hctrl]
          rfl
        obtain ⟨chain, hc⟩ := ih e.signer hmem
        obtain ⟨a, hlast, pre, post, hg⟩ := hc.gives
        obtain ⟨r, hroot, hro⟩ := hc.root
        refine ⟨chain ++ [e], hc.sub.append_right [e], fun b hb => ?_, ⟨r, ?_, hro⟩, ?_,
          e, by simp, l, [], hgives⟩
        · rcases List.mem_append.mp hb with hb | hb
          · exact (hc.accepted b hb).snoc
          · exact List.mem_singleton.mp hb ▸ hacc
        · rw [List.head?_append, hroot]
          rfl
        · refine List.isChain_append.mpr ⟨hc.linked, List.isChain_singleton e, ?_⟩
          intro b hb c hc'
          obtain rfl : e = c := by simpa using hc'
          obtain rfl : a = b := by rw [hlast] at hb; exact Option.some.inj hb
          exact (memberReg_writes_true hg.writes).2

/-- **The provenance of a member** of `Roster.build` of the entries `E`. -/
structure Provenance (P : Primitives) (now : UInt64) (cfg : Config) (E : List Entry) (m : Id)
    (chain : List Entry) : Prop extends AdmissionChain cfg (ordered P now cfg E) m chain where
  authentic : ∀ a ∈ chain, a ∈ E ∧ authentic P now cfg a = true
  rising : StrictBy (orderKey P) chain

/-- **The web of trust.** Every member has a provenance; and without an authentic `add` signed
    by the originator there are no members. -/
theorem web_of_trust (E : List Entry) :
    (∀ m, (Roster.build P now cfg E).isMember m = true →
      ∃ chain, Provenance P now cfg E m chain) ∧
    ((∀ a ∈ E, authentic P now cfg a = true → a.signer = cfg.originatorId → a.admits? = none) →
      ∀ m, (Roster.build P now cfg E).isMember m = false) := by
  have hprov : ∀ m, (Roster.build P now cfg E).isMember m = true →
      ∃ chain, Provenance P now cfg E m chain := by
    intro m hm
    obtain ⟨chain, hc⟩ := provenance_prefix (ordered P now cfg E) m (by
      rw [← finish_isMember]
      exact hm)
    exact ⟨chain, hc, fun a ha => ordered_sub (hc.sub.subset ha),
      (strictBy_ordered E).sublist hc.sub⟩
  refine ⟨hprov, fun hno m => Bool.eq_false_iff.mpr fun hm => ?_⟩
  obtain ⟨chain, hc⟩ := hprov m hm
  obtain ⟨a, hroot, ho⟩ := hc.root
  have hmem : a ∈ chain := List.mem_of_mem_head? hroot
  obtain ⟨_, _, nodeId, _, _, _, _, _, -, hop, -, -⟩ := hc.accepted a hmem
  have := hno a (hc.authentic a hmem).1 (hc.authentic a hmem).2 ho
  simp [Entry.admits?, hop] at this

end Nullgate

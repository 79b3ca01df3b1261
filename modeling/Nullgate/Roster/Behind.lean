/-
  File:      Nullgate/Roster/Behind.lean
  Subject:   ONE MORE ENTRY, BEHIND ALL OTHERS: when it takes effect.

  An operation that is published now usually sorts behind everything published before. The
  fold then meets it last, in the state the other entries leave.

  * `TakesEffect` -- the roster reflects what the op sets;
  * `takesEffect_iff`: the roster of `E` and `o` reflects `o` exactly when the reader lets
    `o` in and the rule of its op holds behind `E`, or the roster of `E` reflects it already;
  * `authorised_add_iff`: behind `E`, the rule of a Controller's `add` is what `check_invite`
    says about the nonce it cites;
  * `checkInvite_predicts`: so what `check_invite` says of a nonce is what the fold makes of
    the `add` that cites it, and why (`RejectedAsSpent`).
-/
import Nullgate.Roster.Convergence
import Nullgate.Roster.Inert

namespace Nullgate

open Nullgate.Lib

variable {P : Primitives} {now : UInt64} {cfg : Config} {E : List Entry} {o : Entry}

/-! ## 1. The fold behind `E` -/

/-- One entry is folded, or dropped. -/
theorem ordered_singleton : ordered P now cfg [o] = [o].filter (authentic P now cfg) := by
  have hcf : CollisionFree P now cfg [o] := fun a ha b hb _ _ _ => by
    rw [List.mem_singleton.mp ha, List.mem_singleton.mp hb]
  have hs : StrictBy (orderKey P) [o] := List.pairwise_singleton _ o
  refine (strictBy_ordered [o]).ext (hs.filter _) fun e => ?_
  rw [mem_ordered hcf, List.mem_filter]

/-- The fold of `E` and an entry behind all of `E`. -/
theorem foldAll_behind (hcf : CollisionFree P now cfg (E ++ [o]))
    (hlate : ∀ e ∈ E, orderKey P e < orderKey P o) :
    foldAll P now cfg (E ++ [o]) =
      if authentic P now cfg o = true then foldEntry cfg (foldAll P now cfg E) o
      else foldAll P now cfg E := by
  have hlt : ∀ a ∈ E, ∀ b ∈ [o], orderKey P a < orderKey P b := fun a ha b hb => by
    rw [List.mem_singleton.mp hb]
    exact hlate a ha
  rw [foldAll_append hcf hlt]
  split
  · rename_i ha
    rw [ordered_singleton, List.filter_cons_of_pos ha]
    rfl
  · rename_i ha
    rw [ordered_singleton, List.filter_cons_of_neg ha]
    rfl

/-! ## 2. Taking effect -/

/-- The roster holds what the op of `e` sets. -/
def TakesEffect (r : Roster) (e : Entry) : Prop :=
  match e.op with
  | .add nodeId hostname role _ _ _ =>
    r.members[nodeId]?.map (fun m => (m.hostname, m.role, m.addedBy)) =
      some (hostname, role, e.signer)
  | .remove nodeId _ => r.isMember nodeId = false
  | .setRole nodeId role _ => ∀ t, r.tier? nodeId = some t → t = role
  | .setInvite .peer nonce singleUse _ => r.currentInvite .peer = some (nonce, singleUse)
  | .setInvite .controller nonce _ _ => r.currentInvite .controller = some (nonce, true)
  | .freeze frozen _ => r.frozen = frozen
  | .setName name _ => r.name = some name

theorem takesEffect_finish {s : FoldState} {e : Entry} :
    TakesEffect (finish cfg s) e ↔ TakesEffect s.roster e := by
  unfold TakesEffect
  cases e.op with
  | add nodeId hostname role virtualIp inviteNonce ts =>
    have hmap := assignIps_map (fun m => (m.hostname, m.role, m.addedBy)) (fun _ _ => rfl)
      s.roster.members s.admittedTs cfg.subnet nodeId
    show (assignIps _ _ _)[nodeId]?.map _ = _ ↔ _
    rw [hmap]
  | remove nodeId ts =>
    show (finish cfg s).isMember nodeId = false ↔ _
    rw [finish_isMember]
  | setRole nodeId role ts =>
    show (∀ t, (finish cfg s).tier? nodeId = some t → t = role) ↔ _
    rw [finish_tier?]
  | setInvite kind nonce singleUse ts => cases kind <;> exact Iff.rfl
  | freeze frozen ts => exact Iff.rfl
  | setName name ts => exact Iff.rfl

/-- What has the authority takes effect where it lands. -/
theorem takesEffect_effect (s : FoldState) (e : Entry) :
    TakesEffect (effect cfg s e).roster e := by
  unfold TakesEffect effect
  cases e.op with
  | add nodeId hostname role virtualIp inviteNonce ts => simp
  | remove nodeId ts => simp [Roster.isMember]
  | setRole nodeId role ts =>
    intro t ht
    have hself : compare nodeId nodeId = .eq := compare_eq_iff_eq.mpr rfl
    rw [Roster.tier?, Std.ExtTreeMap.getElem?_modify, if_pos hself, Option.map_map] at ht
    obtain ⟨m, -, hm⟩ := Option.map_eq_some_iff.mp ht
    exact hm.symm
  | setInvite kind nonce singleUse ts => cases kind <;> rfl
  | freeze frozen ts => rfl
  | setName name ts => rfl

/-- **When an entry behind all others takes effect.** -/
theorem takesEffect_iff (hcf : CollisionFree P now cfg (E ++ [o]))
    (hlate : ∀ e ∈ E, orderKey P e < orderKey P o) :
    TakesEffect (Roster.build P now cfg (E ++ [o])) o ↔
      (authentic P now cfg o = true ∧ authorised cfg (foldAll P now cfg E) o = true) ∨
        TakesEffect (Roster.build P now cfg E) o := by
  have hfold := foldAll_behind hcf hlate
  unfold Roster.build
  rw [takesEffect_finish, takesEffect_finish, hfold]
  by_cases ha : authentic P now cfg o = true
  · rw [if_pos ha, foldEntry_eq]
    by_cases hauth : authorised cfg (foldAll P now cfg E) o = true
    · rw [if_pos hauth]
      exact iff_of_true (takesEffect_effect _ o) (Or.inl ⟨ha, hauth⟩)
    · rw [if_neg hauth]
      exact (or_iff_right fun h => hauth h.2).symm
  · rw [if_neg ha]
    exact (or_iff_right fun h => ha h.1).symm

/-! ## 3. The rule of an `add` behind `E` -/

/-- Every admission time is the timestamp of an entry of the run. -/
theorem admittedTs_mem (l : List Entry) {id : Id} {t : UInt64}
    (h : (foldFrom cfg .init l).admittedTs[id]? = some t) : ∃ e ∈ l, e.op.ts = t := by
  have hinv : ∀ (id : Id) (t : UInt64), (foldFrom cfg .init l).admittedTs[id]? = some t →
      ∃ e ∈ l, e.op.ts = t := by
    refine run_invariant (I := fun s : FoldState => ∀ (id : Id) (t : UInt64),
      s.admittedTs[id]? = some t → ∃ e ∈ l, e.op.ts = t) (fun s e he hs id t ht => ?_)
      (fun id t ht => ?_)
    · rw [foldEntry_eq] at ht
      split at ht
      · unfold effect at ht
        cases hop : e.op with
        | add nodeId hostname role virtualIp inviteNonce ts =>
          simp only [hop, Std.ExtTreeMap.getElem?_insert] at ht
          split at ht
          · obtain rfl := Option.some.inj ht
            exact ⟨e, he, by rw [hop]; rfl⟩
          · exact hs id t ht
        | remove nodeId ts =>
          simp only [hop, Std.ExtTreeMap.getElem?_erase] at ht
          split at ht
          · cases ht
          · exact hs id t ht
        | setRole nodeId role ts => exact hs id t (by simpa only [hop] using ht)
        | setInvite kind nonce singleUse ts =>
          cases kind <;> exact hs id t (by simpa only [hop] using ht)
        | freeze frozen ts => exact hs id t (by simpa only [hop] using ht)
        | setName name ts => exact hs id t (by simpa only [hop] using ht)
      · exact hs id t ht
    · simp [FoldState.init] at ht
  exact hinv id t h

/-- Behind `E`, a Controller was admitted before. -/
theorem approverOk_behind (hlate : ∀ e ∈ E, orderKey P e < orderKey P o) :
    approverOk cfg (foldAll P now cfg E) o = true ↔
      isOrig cfg o = true ∨ isController (foldAll P now cfg E) o = true := by
  unfold approverOk
  rw [Bool.or_eq_true, Bool.and_eq_true]
  refine or_congr_right ⟨And.left, fun hc => ⟨hc, ?_⟩⟩
  have hmember : (foldAll P now cfg E).roster.members[o.signer]? ≠ none := by
    intro hnone
    have htier := of_decide_eq_true hc
    rw [Roster.tier?, hnone] at htier
    cases htier
  have hts : (foldAll P now cfg E).admittedTs[o.signer]? ≠ none := fun hnone =>
    hmember ((coherent_foldFrom _ coherent_init o.signer).mp hnone)
  obtain ⟨t, ht⟩ := Option.ne_none_iff_exists'.mp hts
  obtain ⟨e, he, rfl⟩ := admittedTs_mem _ ht
  have hlt := hlate e (ordered_sub he).1
  rw [ht, Option.any_some, decide_eq_true_eq]
  rcases Prod.Lex.toLex_lt_toLex.mp hlt with h | h
  · exact le_of_lt h
  · exact h.1.le

/-- The finished roster knows whether the invite in force is spent. -/
theorem finish_inviteSpent (s : FoldState) (kind : InviteKind) :
    (finish cfg s).inviteSpent kind =
      (s.roster.currentInvite kind).any fun (n, _) => s.consumed.contains n := by
  cases kind <;> rfl

/-- The invite `n` is not the one in force, or it is, and may be spent. -/
theorem checkInvite_cases (r : Roster) (kind : InviteKind) (n : Nonce) :
    ((∀ su, r.currentInvite kind ≠ some (n, su)) ∧ r.checkInvite kind n = .stale) ∨
    ∃ su, r.currentInvite kind = some (n, su) ∧
      r.checkInvite kind n = if su && r.inviteSpent kind then .spent else .ok := by
  unfold Roster.checkInvite
  rcases Option.eq_none_or_eq_some (r.currentInvite kind) with hc | ⟨⟨cur, su⟩, hc⟩
  · exact Or.inl (by simp [hc])
  · by_cases hn : n = cur
    · subst hn
      exact Or.inr ⟨su, hc, by simp [hc]⟩
    · exact Or.inl (by simp [hc, hn, Ne.symm hn])

theorem checkInvite_eq_ok {r : Roster} {kind : InviteKind} {n : Nonce} :
    r.checkInvite kind n = .ok ↔
      ∃ su, r.currentInvite kind = some (n, su) ∧ (su && r.inviteSpent kind) = false := by
  rcases checkInvite_cases r kind n with ⟨hne, he⟩ | ⟨su, hc, he⟩
  · simp [he, hne]
  · cases su <;> simp [he, hc]

/-- **The gate behind `E` is what `check_invite` says** of the finished roster. -/
theorem inviteGate_behind {s : FoldState} {role : Role} {inv : Nonce}
    (ho : isOrig cfg o = false) :
    (∃ c, inviteGate cfg s o role inv = some c) ↔
      (finish cfg s).checkInvite role.kind inv = .ok := by
  rw [checkInvite_eq_ok, finish_inviteSpent, finish_currentInvite]
  refine ⟨?_, ?_⟩
  · intro h'
    obtain ⟨c, hg⟩ := h'
    rcases inviteGate_eq_some.mp hg with ⟨h, -⟩ | ⟨-, hc, -⟩ | ⟨-, hc, hn, -⟩
    · rw [ho] at h
      cases h
    · exact ⟨false, hc, rfl⟩
    · exact ⟨true, hc, by simp [hc, hn]⟩
  · intro h'
    obtain ⟨su, hc, hs⟩ := h'
    cases su with
    | false => exact ⟨none, inviteGate_eq_some.mpr (Or.inr (Or.inl ⟨ho, hc, rfl⟩))⟩
    | true =>
      have hn : s.consumed.contains inv = false := by simpa [hc] using hs
      exact ⟨some inv, inviteGate_eq_some.mpr (Or.inr (Or.inr ⟨ho, hc, hn, rfl⟩))⟩

/-- **The rule of an `add` behind `E`**, on an open roll: the originator's passes; a member's
    passes when the member is a Controller and the invite it cites is good. -/
theorem authorised_add_iff {nodeId : Id} {hostname : String} {role : Role} {ip : Octets}
    {inv : Nonce} {ts : UInt64} (hop : o.op = .add nodeId hostname role ip inv ts)
    (hlate : ∀ e ∈ E, orderKey P e < orderKey P o)
    (hopen : (Roster.build P now cfg E).frozen = false) :
    authorised cfg (foldAll P now cfg E) o = true ↔ isOrig cfg o = true ∨
      ((Roster.build P now cfg E).tier? o.signer = some .controller ∧
        (Roster.build P now cfg E).checkInvite role.kind inv = .ok) := by
  have hfrozen : (foldAll P now cfg E).roster.frozen = false := hopen
  have htier : isController (foldAll P now cfg E) o = true ↔
      (Roster.build P now cfg E).tier? o.signer = some .controller := by
    rw [Roster.build, finish_tier?, isController, decide_eq_true_eq]
  rw [authorised_add hop, approverOk_behind hlate, htier, Roster.build]
  cases ho : isOrig cfg o with
  | true =>
    have hgate : inviteGate cfg (foldAll P now cfg E) o role inv = some none :=
      inviteGate_eq_some.mpr (Or.inl ⟨ho, rfl⟩)
    exact iff_of_true ⟨hfrozen, Or.inl rfl, none, hgate⟩ (Or.inl rfl)
  | false =>
    rw [inviteGate_behind ho]
    simp [hfrozen]

/-! ## 4. What `check_invite` predicts -/

theorem checkInvite_eq_spent {r : Roster} {kind : InviteKind} {n : Nonce} :
    r.checkInvite kind n = .spent ↔
      r.currentInvite kind = some (n, true) ∧ r.inviteSpent kind = true := by
  rcases checkInvite_cases r kind n with ⟨hne, he⟩ | ⟨su, hc, he⟩
  · simp [he, hne]
  · cases su <;> simp [he, hc]

theorem checkInvite_eq_stale {r : Roster} {kind : InviteKind} {n : Nonce} :
    r.checkInvite kind n = .stale ↔ ∀ su, r.currentInvite kind ≠ some (n, su) := by
  rcases checkInvite_cases r kind n with ⟨hne, he⟩ | ⟨su, hc, he⟩
  · exact iff_of_true he hne
  · refine iff_of_false ?_ fun hne => hne su hc
    rw [he]
    split <;> simp

/-- **The fold rejects `o` because `n` is spent**: with `n` unspent it would let `o` in. -/
def RejectedAsSpent (cfg : Config) (s : FoldState) (o : Entry) (n : Nonce) : Prop :=
  authorised cfg s o = false ∧ authorised cfg { s with consumed := s.consumed.erase n } o = true

/-- A Controller's `add` on an open roll is let in exactly when the gate passes. -/
theorem authorised_add_of_controller {s : FoldState} {nodeId : Id} {hostname : String}
    {role : Role} {ip : Octets} {inv : Nonce} {ts : UInt64}
    (hop : o.op = .add nodeId hostname role ip inv ts) (hopen : s.roster.frozen = false)
    (happrover : approverOk cfg s o = true) (ho : isOrig cfg o = false) :
    authorised cfg s o = true ↔ (finish cfg s).checkInvite role.kind inv = .ok := by
  rw [authorised_add hop, inviteGate_behind ho]
  simp [hopen, happrover]

/-- Whether a nonce is the current one does not depend on what is spent. -/
theorem rejectedAsSpent_iff {s : FoldState} {nodeId : Id} {hostname : String} {role : Role}
    {ip : Octets} {inv : Nonce} {ts : UInt64} (hop : o.op = .add nodeId hostname role ip inv ts)
    (hopen : s.roster.frozen = false) (happrover : approverOk cfg s o = true)
    (ho : isOrig cfg o = false) :
    RejectedAsSpent cfg s o inv ↔ (finish cfg s).checkInvite role.kind inv = .spent := by
  have hfull := authorised_add_of_controller hop hopen happrover ho
  have herased := authorised_add_of_controller (s := { s with consumed := s.consumed.erase inv })
    hop hopen happrover ho
  rw [RejectedAsSpent, ← Bool.not_eq_true, hfull, herased, checkInvite_eq_spent, checkInvite_eq_ok,
    checkInvite_eq_ok, finish_inviteSpent, finish_inviteSpent, finish_currentInvite,
    finish_currentInvite]
  show (¬ ∃ su, s.roster.currentInvite role.kind = some (inv, su) ∧ _) ∧
    (∃ su, s.roster.currentInvite role.kind = some (inv, su) ∧ _) ↔ _
  rcases Option.eq_none_or_eq_some (s.roster.currentInvite role.kind) with hc | ⟨⟨cur, su⟩, hc⟩
  · simp [hc]
  · by_cases hn : cur = inv
    · subst hn
      cases su <;> simp [hc]
    · simp [hc, hn]

/-- **`check_invite` predicts the fold.** Behind `E`, on an open roll, an authentic `add` of a
    new node by a Controller other than the originator is accepted exactly when `check_invite`
    says `ok` of the nonce it cites; `spent` says that the nonce is the current one and the
    `add` fails for its being spent, `stale` that the nonce is not the current one. -/
theorem checkInvite_predicts {E' : List Entry} {nodeId : Id} {hostname : String} {role : Role}
    {ip : Octets} {inv : Nonce} {ts : UInt64} (hop : o.op = .add nodeId hostname role ip inv ts)
    (hcf : CollisionFree P now cfg (E ++ [o])) (hset : ∀ e, e ∈ E' ↔ e ∈ E ∨ e = o)
    (hlate : ∀ e ∈ E, orderKey P e < orderKey P o) (hauth : authentic P now cfg o = true)
    (hne : o.signer ≠ cfg.originatorId) (hopen : (Roster.build P now cfg E).frozen = false)
    (hcontroller : (Roster.build P now cfg E).tier? o.signer = some .controller)
    (hnew : (Roster.build P now cfg E).isMember nodeId = false) :
    ((Roster.build P now cfg E').isMember nodeId = true ↔
      (Roster.build P now cfg E).checkInvite role.kind inv = .ok) ∧
    ((Roster.build P now cfg E).checkInvite role.kind inv = .ok →
      TakesEffect (Roster.build P now cfg E') o) ∧
    ((Roster.build P now cfg E).checkInvite role.kind inv = .spent ↔
      (Roster.build P now cfg E).currentInvite role.kind = some (inv, true) ∧
        RejectedAsSpent cfg (foldAll P now cfg E) o inv) ∧
    ((Roster.build P now cfg E).checkInvite role.kind inv = .stale ↔
      ∀ su, (Roster.build P now cfg E).currentInvite role.kind ≠ some (inv, su)) := by
  have ho : isOrig cfg o = false := decide_eq_false hne
  have hE' : Roster.build P now cfg E' = Roster.build P now cfg (E ++ [o]) := by
    refine (build_congr hcf fun e _ => ?_).symm
    rw [hset, List.mem_append, List.mem_singleton]
  have happrover : approverOk cfg (foldAll P now cfg E) o = true := by
    rw [approverOk_behind hlate]
    exact Or.inr (by rwa [isController, decide_eq_true_eq, ← @finish_tier? cfg])
  have hok := authorised_add_of_controller hop hopen happrover ho
  have hbuild : Roster.build P now cfg (E ++ [o]) =
      finish cfg (foldEntry cfg (foldAll P now cfg E) o) := by
    rw [Roster.build, foldAll_behind hcf hlate, if_pos hauth]
  rw [hE']
  refine ⟨?_, ?_, ?_, checkInvite_eq_stale⟩
  · rw [hbuild, foldEntry_eq, finish_isMember]
    split
    · rename_i h
      refine iff_of_true ?_ (hok.mp h)
      simp [effect, hop, Roster.isMember]
    · rename_i h
      refine iff_of_false ?_ fun hgood => h (hok.mpr hgood)
      rw [← @finish_isMember cfg]
      exact fun hm => Bool.false_ne_true (hnew.symm.trans hm)
  · intro hgood
    exact (takesEffect_iff hcf hlate).mpr (Or.inl ⟨hauth, hok.mpr hgood⟩)
  · rw [rejectedAsSpent_iff hop hopen happrover ho]
    exact ⟨fun h => ⟨(checkInvite_eq_spent.mp h).1, h⟩, And.right⟩

namespace Sample

/-- The single-use invite 8 has replaced the first one, and device 3 has joined with it. -/
def used : List Entry := setup ++ [signed 1 (.setInvite .peer (nonce 8) true 2), add 2 3 .peer 8 3]

/-- The originator has made itself a Controller. -/
def selfAdmitted : List Entry := [add 1 1 .controller 0 1]

end Sample

/-- The second device that cites a single-use invite is turned away, as `check_invite` says. -/
theorem checkInvite_predicts_spent :
    (Roster.build .plain 100 Sample.config
      (Sample.add 2 4 .peer 8 4 :: Sample.used)).isMember (Sample.key 4) = false ∧
    RejectedAsSpent Sample.config (foldAll .plain 100 Sample.config Sample.used)
      (Sample.add 2 4 .peer 8 4) (Sample.nonce 8) := by
  have hset : ∀ e, e ∈ Sample.add 2 4 .peer 8 4 :: Sample.used ↔
      e ∈ Sample.used ∨ e = Sample.add 2 4 .peer 8 4 := fun e => by
    rw [List.mem_cons, or_comm]
  obtain ⟨hmember, -, hspent, -⟩ := @checkInvite_predicts .plain 100 Sample.config
    Sample.used (Sample.add 2 4 .peer 8 4) _ _ _ _ _ _ _ rfl (by decide +kernel) hset
    (by decide +kernel) (by decide +kernel) (by decide +kernel) (by decide +kernel)
    (by decide +kernel) (by decide +kernel)
  refine ⟨?_, (hspent.mp (by decide +kernel)).2⟩
  rw [← Bool.not_eq_true, hmember]
  decide +kernel

/-- Where the prediction fails: the originator is a Controller by its own `add`, and its next
    one cites a stale nonce and is accepted; and an `add` of a Controller that cites the
    current one is dropped for a timestamp more than a day ahead. -/
theorem checkInvite_mispredicts :
    ((Roster.build .plain 100 Sample.config Sample.selfAdmitted).frozen = false ∧
      (Roster.build .plain 100 Sample.config Sample.selfAdmitted).tier? (Sample.key 1) =
        some .controller ∧
      (Roster.build .plain 100 Sample.config Sample.selfAdmitted).isMember (Sample.key 3) = false ∧
      (∀ e ∈ Sample.selfAdmitted, orderKey .plain e <
        orderKey .plain (Sample.add 1 3 .peer 0 2)) ∧
      (Roster.build .plain 100 Sample.config Sample.selfAdmitted).checkInvite .peer
        (Sample.nonce 0) = .stale ∧
      (Roster.build .plain 100 Sample.config
        (Sample.selfAdmitted ++ [Sample.add 1 3 .peer 0 2])).isMember (Sample.key 3) = true) ∧
    ((Roster.build .plain 100 Sample.config Sample.setup).frozen = false ∧
      (Roster.build .plain 100 Sample.config Sample.setup).tier? (Sample.key 2) =
        some .controller ∧
      (Roster.build .plain 100 Sample.config Sample.setup).isMember (Sample.key 3) = false ∧
      (∀ e ∈ Sample.setup, orderKey .plain e <
        orderKey .plain (Sample.add 2 3 .peer 7 86400101)) ∧
      (Roster.build .plain 100 Sample.config Sample.setup).checkInvite .peer
        (Sample.nonce 7) = .ok ∧
      (Roster.build .plain 100 Sample.config
        (Sample.setup ++ [Sample.add 2 3 .peer 7 86400101])).isMember (Sample.key 3) = false) := by
  decide +kernel

end Nullgate

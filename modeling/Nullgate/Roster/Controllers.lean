/-
  File:      Nullgate/Roster/Controllers.lean
  Subject:   WHAT COLLUDING CONTROLLERS CAN DO TO A CONTROLLER.

  Two of the three ops that could cost a Controller its role are barred to non-originators:
  `setRole` is the originator's, and a Controller's `remove` reaches Peers only. The third,
  an `add`, replaces the record of a member it names. So a Controller that cites the current
  Peer invite demotes another one by admitting it again as a Peer, and may then evict it
  (`controller_not_kept`).

  `controller_kept_iff` says exactly when a Controller keeps its role through later entries
  of non-originators: when every `add` that has the authority to admit it as a Peer is
  followed by one that has the authority to admit it as a Controller. So the demotion by a
  second admission is the only door; the removal comes behind it.
-/
import Nullgate.Roster.Order
import Nullgate.Roster.Rules

namespace Nullgate

open Nullgate.Lib

variable {P : Primitives} {now : UInt64} {cfg : Config}

/-! ## 1. What a non-originator writes to a tier -/

/-- In the state `s` the entry has the authority to admit `c` at `role`. -/
def Admits (cfg : Config) (s : FoldState) (e : Entry) (c : Id) (role : Role) : Prop :=
  authorised cfg s e = true ∧ ∃ hostname ip inv ts, e.op = .add c hostname role ip inv ts

theorem Admits.writes {s : FoldState} {e : Entry} {c : Id} {role : Role}
    (h : Admits cfg s e c role) : (tierReg cfg c).writes s e = some (some role) := by
  obtain ⟨hauth, hostname, ip, inv, ts, hop⟩ := h
  simp [tierReg, tierWrite, hauth, hop]

/-- A non-originator writes a tier by an `add`, or by the `remove` of a Peer. -/
theorem tierReg_writes_of_not_orig {s : FoldState} {e : Entry} {id : Id} {w : Option Role}
    (hw : (tierReg cfg id).writes s e = some w) (hne : e.signer ≠ cfg.originatorId) :
    (∃ role, w = some role ∧ Admits cfg s e id role) ∨
      (w = none ∧ e.op.about = some id ∧ e.admits? = none ∧ s.roster.tier? id = some .peer) := by
  simp only [tierReg] at hw
  split at hw
  · rename_i hauth
    unfold tierWrite at hw
    cases hop : e.op with
    | add nodeId hostname role virtualIp inviteNonce ts =>
      simp only [hop] at hw
      split at hw
      · rename_i hid
        subst hid
        exact Or.inl ⟨role, (Option.some.inj hw).symm, hauth, hostname, virtualIp, inviteNonce, ts,
          hop⟩
      · cases hw
    | remove nodeId ts =>
      simp only [hop] at hw
      split at hw
      · rename_i hid
        subst hid
        simp only [authorised, hop, isOrig, hne, decide_false, Bool.false_or, Bool.and_eq_true,
          decide_eq_true_eq] at hauth
        exact Or.inr ⟨(Option.some.inj hw).symm, rfl, by simp [Entry.admits?, hop], hauth.2⟩
      · cases hw
    | setRole nodeId role ts =>
      simp only [authorised, hop] at hauth
      exact absurd (of_decide_eq_true hauth) hne
    | setInvite kind nonce singleUse ts => simp [hop] at hw
    | freeze frozen ts => simp [hop] at hw
    | setName name ts => simp [hop] at hw
  · cases hw

/-! ## 2. When a Controller keeps its role -/

/-- Behind the last write to a tier nothing admits. -/
theorem not_admits_behind {s : FoldState} {l pre post mid post' : List Entry} {f f' : Entry}
    {c : Id} {w : Option Role} {role : Role}
    (hw : (tierReg cfg c).LastWriteAt s l pre f post w) (hp : post = mid ++ f' :: post') :
    ¬ Admits cfg (foldFrom cfg s (pre ++ f :: mid)) f' c role := by
  intro ha
  have hn := hw.quiet mid f' post' hp
  rw [← run_append, List.append_assoc, List.singleton_append, ha.writes] at hn
  cases hn

/-- **Who is a Controller at the end was admitted as one** behind every admission as a Peer. -/
theorem readmitted_of_controller {s : FoldState} {l pre post : List Entry} {f : Entry} {c : Id}
    (hl : ∀ f ∈ l, f.signer ≠ cfg.originatorId)
    (h : (foldFrom cfg s l).roster.tier? c = some .controller) (hsplit : l = pre ++ f :: post)
    (hf : Admits cfg (foldFrom cfg s pre) f c .peer) :
    ∃ mid f' post', post = mid ++ f' :: post' ∧
      Admits cfg (foldFrom cfg s (pre ++ f :: mid)) f' c .controller := by
  -- behind `f` the tier is `peer`, so the rest of the run has a last write to `controller`
  have hpeer : (tierReg cfg c).obs (foldFrom cfg s (pre ++ [f])) = some .peer := by
    rw [foldFrom, run_append, run_cons, run_nil, (tierReg cfg c).law, hf.writes,
      Option.getD_some]
  have hrest : (tierReg cfg c).obs (run (foldEntry cfg) (foldFrom cfg s (pre ++ [f])) post) =
      some .controller := by
    rw [← run_append, List.append_assoc, List.singleton_append, ← hsplit]
    exact h
  obtain ⟨mid, f', post', hw⟩ := (tierReg cfg c).lastWrite_of_ne hrest (by rw [hpeer]; decide)
  have hmem : f' ∈ l := by
    rw [hsplit, hw.split]
    simp
  have hstate : run (foldEntry cfg) (foldFrom cfg s (pre ++ [f])) mid =
      foldFrom cfg s (pre ++ f :: mid) := by simp [foldFrom]
  rcases tierReg_writes_of_not_orig hw.writes (hl f' hmem) with ⟨role, hr, ha⟩ | ⟨hr, -⟩
  · obtain rfl := Option.some.inj hr
    exact ⟨mid, f', post', hw.split, hstate ▸ ha⟩
  · cases hr

/-- **The last write makes it a Controller**, where every admission as a Peer is followed by one
    as a Controller. -/
theorem lastWrite_controller {s : FoldState} {l pre post : List Entry} {f : Entry} {c : Id}
    {w : Option Role} (hl : ∀ f ∈ l, f.signer ≠ cfg.originatorId)
    (hc : s.roster.tier? c = some .controller)
    (h : ∀ pre f post, l = pre ++ f :: post → Admits cfg (foldFrom cfg s pre) f c .peer →
      ∃ mid f' post', post = mid ++ f' :: post' ∧
        Admits cfg (foldFrom cfg s (pre ++ f :: mid)) f' c .controller)
    (hw : (tierReg cfg c).LastWriteAt s l pre f post w) : w = some .controller := by
  have hmem : f ∈ l := by
    rw [hw.split]
    exact List.mem_append_right _ List.mem_cons_self
  rcases tierReg_writes_of_not_orig hw.writes (hl f hmem) with ⟨role, rfl, ha⟩ | ⟨-, -, hna, ht⟩
  · cases role with
    | controller => rfl
    | peer =>
      obtain ⟨mid, f', post', hp, ha'⟩ := h pre f post hw.split ha
      exact absurd ha' (not_admits_behind hw hp)
  · -- `f` removes a Peer: an entry before it made `c` one, and none in between undid that
    obtain ⟨p, g, q, hg⟩ := (tierReg cfg c).lastWrite_of_ne ht (by simp [tierReg, hc])
    have hgl : l = p ++ g :: (q ++ f :: post) := by rw [hw.split, hg.split]; simp
    have hgm : g ∈ l := by
      rw [hgl]
      exact List.mem_append_right _ List.mem_cons_self
    rcases tierReg_writes_of_not_orig hg.writes (hl g hgm) with ⟨role, hr, ha⟩ | ⟨hr, -⟩
    · obtain rfl := Option.some.inj hr
      obtain ⟨mid, f', post', hp, ha'⟩ := h p g _ hgl ha
      rcases split_trichotomy hp rfl with ⟨-, rfl, -⟩ | ⟨mid', -, hq⟩ | ⟨mid', hq, rfl⟩
      · obtain ⟨-, _, _, _, _, hop⟩ := ha'
        simp [Entry.admits?, hop] at hna
      · exact absurd ha' (not_admits_behind hg hq)
      · have hlate : Admits cfg (foldFrom cfg s (pre ++ f :: mid')) f' c .controller := by
          rw [hg.split]
          simpa using ha'
        exact absurd hlate (not_admits_behind hw hq)
    · cases hr

/-- **A run of non-originators' entries leaves a Controller one** exactly when every entry
    that admits it as a Peer is followed by one that admits it as a Controller. -/
theorem controller_run_iff {s : FoldState} {l : List Entry} {c : Id}
    (hl : ∀ f ∈ l, f.signer ≠ cfg.originatorId) (hc : s.roster.tier? c = some .controller) :
    (foldFrom cfg s l).roster.tier? c = some .controller ↔
      ∀ pre f post, l = pre ++ f :: post → Admits cfg (foldFrom cfg s pre) f c .peer →
        ∃ mid f' post', post = mid ++ f' :: post' ∧
          Admits cfg (foldFrom cfg s (pre ++ f :: mid)) f' c .controller := by
  constructor
  · intro h pre f post hsplit hf
    exact readmitted_of_controller hl h hsplit hf
  · intro h
    refine ((tierReg cfg c).obs_run_eq_iff hc).mpr fun w hlast => ?_
    obtain ⟨pre, f, post, hw⟩ := hlast
    exact lastWrite_controller hl hc h hw

/-- **When a Controller survives non-originators.** Let `c` be a Controller of `E`, and let
    every entry of `F` sort behind `E` and be signed by a key other than the originator's.
    Then `c` is a Controller of `E ∪ F` exactly when every entry of `F` with the authority to
    admit it as a Peer is followed by one with the authority to admit it as a Controller. -/
theorem controller_kept_iff {E F : List Entry} (hcf : CollisionFree P now cfg (E ++ F))
    (hlate : ∀ e ∈ E, ∀ f ∈ F, orderKey P e < orderKey P f)
    (hF : ∀ f ∈ F, f.signer ≠ cfg.originatorId) {c : Id}
    (hc : (Roster.build P now cfg E).tier? c = some .controller) :
    (Roster.build P now cfg (E ++ F)).tier? c = some .controller ↔
      ∀ pre f post, ordered P now cfg F = pre ++ f :: post →
        Admits cfg (foldFrom cfg (foldAll P now cfg E) pre) f c .peer →
        ∃ mid f' post', post = mid ++ f' :: post' ∧
          Admits cfg (foldFrom cfg (foldAll P now cfg E) (pre ++ f :: mid)) f' c .controller := by
  unfold Roster.build at hc ⊢
  rw [finish_tier?] at hc ⊢
  rw [foldAll_append hcf hlate]
  exact controller_run_iff (fun f hf => hF f (ordered_sub hf).1) hc

/-- Two Controllers, 2 and 3, under the Peer invite of the setup. -/
def Sample.controllers : List Entry := Sample.setup ++ [Sample.add 1 3 .controller 0 2]

/-- Controller 3 cannot remove Controller 2: its `remove` has no authority. -/
theorem controller_kept_sample :
    (Roster.build .plain 100 Sample.config (Sample.controllers ++
      [Sample.signed 3 (.remove (Sample.key 2) 5)])).tier? (Sample.key 2) = some .controller := by
  refine (controller_kept_iff (by decide) (by decide) (by decide) (by decide)).mpr ?_
  intro pre f post hsplit h'
  obtain ⟨-, hostname, ip, inv, ts, hop⟩ := h'
  have hord : ordered .plain 100 Sample.config [Sample.signed 3 (.remove (Sample.key 2) 5)] =
      [Sample.signed 3 (.remove (Sample.key 2) 5)] := by decide
  rw [hord] at hsplit
  obtain ⟨-, rfl, -⟩ := split_singleton hsplit
  cases hop

/-- **A Controller evicts a Controller**: admitted again as a Peer, it can be removed. -/
theorem controller_not_kept :
    ¬ ∀ (E F : List Entry) (c : Id), CollisionFree .plain 100 Sample.config (E ++ F) →
      (∀ f ∈ F, authentic .plain 100 Sample.config f = true ∧
        f.signer ≠ Sample.config.originatorId) →
      (∀ e ∈ E, ∀ f ∈ F, orderKey .plain e < orderKey .plain f) →
      (Roster.build .plain 100 Sample.config E).tier? c = some .controller →
      (Roster.build .plain 100 Sample.config (E ++ F)).tier? c = some .controller := by
  intro h
  have := h Sample.controllers
    [Sample.add 3 2 .peer 7 5, Sample.signed 3 (.remove (Sample.key 2) 6)] (Sample.key 2)
    (by decide) (by decide) (by decide) (by decide)
  revert this
  decide

end Nullgate

/-
  File:      Nullgate/Roster/Inert.lean
  Subject:   ENTRIES THAT CHANGE NOTHING: signers without authority, and removed members.

  Entries arrive in any order and land anywhere in the fold. `stateAt E f` is the state an
  entry `f` meets when it is folded into the entries `E`. Where it changes nothing there,
  adding it changes nothing at all (`build_append_of_inert`).

  * `Changes` says op by op when an entry changes the state it meets; `changes_iff` ties it
    to `foldEntry`.
  * `unauthorised_inert`: entries of keys that are neither the originator's nor, at any
    point of the fold of `E`, a Controller's, leave the roster alone.
  * `removed_inert_iff`: for arbitrary entries, the fold goes on as if they were not there,
    at every point, exactly when none of them changes the state it meets. A device that was
    a Controller before its removal can date an entry back to that time, so a removed
    member's entries are inert only under that condition (`removed_not_inert`); those that
    land behind the removal always are (`removed_inert_behind`).
-/
import Nullgate.Roster.Order
import Nullgate.Roster.Rules
import Mathlib.Data.List.Infix

namespace Nullgate

open Nullgate.Lib

variable {P : Primitives} {now : UInt64} {cfg : Config} {E F : List Entry}

/-! ## 1. What changes the state -/

/-- The admission times are kept for exactly the members. -/
def FoldState.Coherent (s : FoldState) : Prop :=
  ∀ id : Id, s.admittedTs[id]? = none ↔ s.roster.members[id]? = none

theorem coherent_effect {s : FoldState} (e : Entry) (hs : s.Coherent) :
    (effect cfg s e).Coherent := by
  intro id
  cases hop : e.op with
  | add nodeId hostname role virtualIp inviteNonce ts =>
    simp only [effect, hop, Std.ExtTreeMap.getElem?_insert]
    split
    · simp
    · exact hs id
  | remove nodeId ts =>
    simp only [effect, hop, Std.ExtTreeMap.getElem?_erase]
    split
    · simp
    · exact hs id
  | setRole nodeId role ts =>
    simp only [effect, hop, Std.ExtTreeMap.getElem?_modify]
    split
    · rename_i h
      rw [compare_eq_iff_eq.mp h, Option.map_eq_none_iff]
      exact hs id
    · exact hs id
  | setInvite kind nonce singleUse ts =>
    cases kind <;> simpa only [effect, hop] using hs id
  | freeze frozen ts => simpa only [effect, hop] using hs id
  | setName name ts => simpa only [effect, hop] using hs id

theorem coherent_foldFrom {s : FoldState} (l : List Entry) (hs : s.Coherent) :
    (foldFrom cfg s l).Coherent := by
  refine run_invariant (fun s e _ hs => ?_) hs
  rw [foldEntry_eq]
  split
  · exact coherent_effect e hs
  · exact hs

theorem coherent_init : FoldState.init.Coherent := fun id => by
  simp [FoldState.init, Roster.default]

/-- **When an entry changes the state it meets**: it has the authority, and what it sets is
    not set already. -/
def Changes (cfg : Config) (s : FoldState) (e : Entry) : Prop :=
  authorised cfg s e = true ∧
    match e.op with
    | .add nodeId hostname role virtualIp inviteNonce ts =>
      s.roster.members[nodeId]? ≠ some ⟨hostname, role, ⟨virtualIp⟩, e.signer⟩ ∨
        s.admittedTs[nodeId]? ≠ some ts ∨ ∃ n, inviteGate cfg s e role inviteNonce = some (some n)
    | .remove nodeId _ => s.roster.members[nodeId]? ≠ none
    | .setRole nodeId role _ => ∃ m, s.roster.members[nodeId]? = some m ∧ m.role ≠ role
    | .setInvite .peer nonce singleUse _ => s.roster.peerInvite ≠ some (nonce, singleUse)
    | .setInvite .controller nonce _ _ => s.roster.controllerInvite ≠ some (nonce, true)
    | .freeze frozen _ => s.roster.frozen ≠ frozen
    | .setName name _ => s.roster.name ≠ some name

/-- Inserting what is there already is no change. -/
theorem insert_of_getElem? {β : Type} {m : Std.ExtTreeMap Id β} {k : Id} {v : β}
    (h : m[k]? = some v) : m.insert k v = m := by
  refine Std.ExtTreeMap.ext_getElem? fun a => ?_
  rw [Std.ExtTreeMap.getElem?_insert]
  split
  · rename_i hk
    rw [← compare_eq_iff_eq.mp hk, h]
  · rfl

/-- Erasing what is not there is no change. -/
theorem erase_of_getElem? {β : Type} {m : Std.ExtTreeMap Id β} {k : Id}
    (h : m[k]? = none) : m.erase k = m := by
  refine Std.ExtTreeMap.ext_getElem? fun a => ?_
  rw [Std.ExtTreeMap.getElem?_erase]
  split
  · rename_i hk
    rw [← compare_eq_iff_eq.mp hk, h]
  · rfl

/-- A nonce the gate spends was not spent before. -/
theorem not_consumed_of_gate {s : FoldState} {e : Entry} {role : Role} {inv n : Nonce}
    (h : inviteGate cfg s e role inv = some (some n)) : s.consumed.contains n = false := by
  rcases inviteGate_eq_some.mp h with ⟨-, hc⟩ | ⟨-, -, hc⟩ | ⟨-, -, hn, hc⟩
  · cases hc
  · cases hc
  · rw [Option.some.inj hc]
    exact hn

/-- The effect of an authorised entry that sets what is set already is no change. -/
theorem effect_of_not_changes {s : FoldState} {e : Entry} (hs : s.Coherent)
    (ha : authorised cfg s e = true) (h : ¬ Changes cfg s e) : effect cfg s e = s := by
  simp only [Changes, ha, true_and] at h
  cases hop : e.op with
  | add nodeId hostname role virtualIp inviteNonce ts =>
    simp only [hop, not_or, not_not, not_exists] at h
    obtain ⟨hm, ht, hn⟩ := h
    simp only [effect, hop]
    rw [insert_of_getElem? hm, insert_of_getElem? ht]
  | remove nodeId ts =>
    simp only [hop, not_not] at h
    simp only [effect, hop]
    rw [erase_of_getElem? h, erase_of_getElem? ((hs nodeId).mpr h)]
  | setRole nodeId role ts =>
    simp only [hop, not_exists, not_and, not_not] at h
    have hmod : s.roster.members.modify nodeId (fun m => { m with role }) = s.roster.members := by
      refine Std.ExtTreeMap.ext_getElem? fun a => ?_
      rw [Std.ExtTreeMap.getElem?_modify]
      split
      · rename_i hk
        obtain rfl := compare_eq_iff_eq.mp hk
        rcases Option.eq_none_or_eq_some s.roster.members[nodeId]? with hm | ⟨m, hm⟩
        · rw [hm, Option.map_none]
        · rw [hm, Option.map_some, ← h m hm]
      · rfl
    simp only [effect, hop]
    rw [hmod]
  | setInvite kind nonce singleUse ts =>
    cases kind <;> simp only [hop, not_not] at h <;> simp only [effect, hop] <;> rw [← h]
  | freeze frozen ts =>
    simp only [hop, not_not] at h
    simp only [effect, hop]
    rw [← h]
  | setName name ts =>
    simp only [hop, not_not] at h
    simp only [effect, hop]
    rw [← h]

/-- The effect of an entry that changes something is a change. -/
theorem effect_ne_of_changes {s : FoldState} {e : Entry} (h : Changes cfg s e) :
    effect cfg s e ≠ s := by
  obtain ⟨-, h⟩ := h
  intro he
  cases hop : e.op with
  | add nodeId hostname role virtualIp inviteNonce ts =>
    simp only [hop] at h
    simp only [effect, hop] at he
    rcases h with h | h | ⟨n, hn⟩
    · refine h ?_
      rw [← congrArg (fun s => s.roster.members[nodeId]?) he]
      simp
    · refine h ?_
      rw [← congrArg (fun s => s.admittedTs[nodeId]?) he]
      simp
    · have hc := congrArg (fun s => s.consumed.contains n) he
      simp only [hn, Std.ExtTreeSet.contains_insert, not_consumed_of_gate hn] at hc
      simp at hc
  | remove nodeId ts =>
    simp only [hop] at h
    simp only [effect, hop] at he
    refine h ?_
    rw [← congrArg (fun s => s.roster.members[nodeId]?) he]
    simp
  | setRole nodeId role ts =>
    simp only [hop] at h
    simp only [effect, hop] at he
    obtain ⟨m, hm, hne⟩ := h
    refine hne ?_
    have hr := congrArg (fun s => s.roster.members[nodeId]?.map Member.role) he
    simpa [Std.ExtTreeMap.getElem?_modify, hm] using hr.symm
  | setInvite kind nonce singleUse ts =>
    cases kind with
    | peer =>
      simp only [hop] at h
      simp only [effect, hop] at he
      exact h (congrArg (fun s => s.roster.peerInvite) he).symm
    | controller =>
      simp only [hop] at h
      simp only [effect, hop] at he
      exact h (congrArg (fun s => s.roster.controllerInvite) he).symm
  | freeze frozen ts =>
    simp only [hop] at h
    simp only [effect, hop] at he
    exact h (congrArg (fun s => s.roster.frozen) he).symm
  | setName name ts =>
    simp only [hop] at h
    simp only [effect, hop] at he
    exact h (congrArg (fun s => s.roster.name) he).symm

/-- **Exactly the entries that change the state are the ones the fold does not pass over.** -/
theorem changes_iff {s : FoldState} {e : Entry} (hs : s.Coherent) :
    Changes cfg s e ↔ foldEntry cfg s e ≠ s := by
  rw [foldEntry_eq]
  refine ⟨?_, ?_⟩
  · intro h
    rw [if_pos h.1]
    exact effect_ne_of_changes h
  · intro h
    by_cases ha : authorised cfg s e = true
    · rw [if_pos ha] at h
      exact Classical.byContradiction fun hc => h (effect_of_not_changes hs ha hc)
    · rw [if_neg ha] at h
      exact absurd rfl h

/-! ## 2. Where an entry lands -/

/-- What `E ∪ F` folds of `E` before `f` is what `E` folds below `f`. -/
theorem filter_before {pre post : List Entry} {f : Entry} (hcf : CollisionFree P now cfg (E ++ F))
    (hsplit : ordered P now cfg (E ++ F) = pre ++ f :: post) :
    pre.filter (fun e => decide (e ∈ E)) =
      (ordered P now cfg E).filter fun e => decide (orderKey P e < orderKey P f) := by
  have hE : CollisionFree P now cfg E := hcf.mono fun e he _ => List.mem_append_left _ he
  have hs : StrictBy (orderKey P) (pre ++ f :: post) := hsplit ▸ strictBy_ordered _
  have hpre := (StrictBy.append_iff.mp hs).1
  refine (hpre.filter _).ext ((strictBy_ordered E).filter _) fun a => ?_
  rw [List.mem_filter, List.mem_filter, hs.mem_before, ← hsplit, mem_ordered hcf, mem_ordered hE,
    List.mem_append, decide_eq_true_eq, decide_eq_true_eq]
  constructor
  · exact fun ⟨⟨⟨_, ha⟩, hlt⟩, he⟩ => ⟨⟨he, ha⟩, hlt⟩
  · exact fun ⟨⟨he, ha⟩, hlt⟩ => ⟨⟨⟨Or.inl he, ha⟩, hlt⟩, he⟩

/-- An entry of the fold of `E ∪ F` that is not of `E` is an authentic entry of `F`. -/
theorem mem_right_of_split {pre post : List Entry} {f : Entry}
    (hsplit : ordered P now cfg (E ++ F) = pre ++ f :: post) (hf : decide (f ∈ E) = false) :
    f ∈ F ∧ authentic P now cfg f = true := by
  have hm : f ∈ ordered P now cfg (E ++ F) := by
    rw [hsplit]
    exact List.mem_append_right _ List.mem_cons_self
  obtain ⟨hm', ha⟩ := ordered_sub hm
  exact ⟨(List.mem_append.mp hm').resolve_left (of_decide_eq_false hf), ha⟩

/-- `E` is folded as the entries of `E` within the fold of `E ∪ F`. -/
theorem ordered_left (hcf : CollisionFree P now cfg (E ++ F)) :
    ordered P now cfg E = (ordered P now cfg (E ++ F)).filter fun e => decide (e ∈ E) :=
  ordered_filter hcf fun _ he => List.mem_append_left _ he

/-- **Entries that change nothing where they land change nothing.** -/
theorem build_append_of_inert (hcf : CollisionFree P now cfg (E ++ F))
    (h : ∀ f ∈ F, f ∉ E → authentic P now cfg f = true →
      foldEntry cfg (stateAt P now cfg E f) f = stateAt P now cfg E f) :
    Roster.build P now cfg (E ++ F) = Roster.build P now cfg E := by
  unfold Roster.build foldAll
  rw [ordered_left hcf]
  refine congrArg (finish cfg) (run_filter_of_inert _ fun pre f post hsplit hf => ?_)
  obtain ⟨hF, ha⟩ := mem_right_of_split hsplit hf
  rw [filter_before hcf hsplit]
  exact h f hF (of_decide_eq_false hf) ha

/-! ## 3. Signers without authority -/

/-- **Noninterference.** Let none of the keys `H` be the originator's, and none be a
    Controller's at any prefix of the fold of `E`. Entries signed by keys of `H`, of any kind
    and with any timestamps, leave the roster of `E` as it is. -/
theorem unauthorised_inert (hcf : CollisionFree P now cfg (E ++ F)) (H : Set Id)
    (horig : cfg.originatorId ∉ H)
    (hctrl : ∀ k ∈ H, ∀ pre, pre <+: ordered P now cfg E →
      (foldFrom cfg .init pre).roster.tier? k ≠ some .controller)
    (hF : ∀ f ∈ F, f.signer ∈ H) :
    Roster.build P now cfg (E ++ F) = Roster.build P now cfg E := by
  refine build_append_of_inert hcf fun f hf _ _ => foldEntry_of_not_authorised ?_
  refine Bool.eq_false_iff.mpr fun hauth => ?_
  rcases Bool.or_eq_true_iff.mp (isAdmin_of_authorised hauth) with ho | hc
  · refine horig ?_
    rw [← of_decide_eq_true ho]
    exact hF f hf
  · exact hctrl f.signer (hF f hf) _ ((strictBy_ordered E).isPrefix_filter_lt (orderKey P f))
      (of_decide_eq_true hc)

/-- A Peer and a stranger write into the setup, and nothing happens. -/
theorem unauthorised_inert_sample :
    Roster.build .plain 100 Sample.config ((Sample.setup ++ [Sample.add 2 3 .peer 7 2]) ++
        [Sample.add 3 4 .peer 7 3, Sample.signed 50 (.setName "Hacked" 1)]) =
      Roster.build .plain 100 Sample.config (Sample.setup ++ [Sample.add 2 3 .peer 7 2]) := by
  refine unauthorised_inert (by decide) {Sample.key 3, Sample.key 50} (by decide) ?_ ?_
  · intro k hk pre hpre
    have h : ∀ k ∈ [Sample.key 3, Sample.key 50], ∀ pre ∈ (ordered .plain 100 Sample.config
        (Sample.setup ++ [Sample.add 2 3 .peer 7 2])).inits,
        (foldFrom Sample.config .init pre).roster.tier? k ≠ some .controller := by decide
    exact h k (by simpa using hk) pre ((List.mem_inits _ _).mpr hpre)
  · simp [Sample.add, Sample.signed, signOp, Primitives.plain]

/-! ## 4. Removed members -/

/-- The originator's removal of `X` is the last entry about `X` in the fold of `E`. -/
def RemovedLast (P : Primitives) (now : UInt64) (cfg : Config) (E : List Entry) (X : Id) : Prop :=
  ∃ pre r post, ordered P now cfg E = pre ++ r :: post ∧ r.signer = cfg.originatorId ∧
    (∃ ts, r.op = .remove X ts) ∧ ∀ e ∈ post, e.op.about ≠ some X

/-- Behind its removal a device is no Controller. -/
theorem tier_behind_removal {pre post : List Entry} {r : Entry} {X : Id} {ts : UInt64}
    (hr : r.signer = cfg.originatorId) (hop : r.op = .remove X ts)
    (hpost : ∀ e ∈ post, e.op.about ≠ some X) :
    (foldFrom cfg .init (pre ++ r :: post)).roster.tier? X = none := by
  refine (tierReg cfg X).obs_of_lastWrite ⟨pre, r, post, rfl, ?_, fun p e q hsplit => ?_⟩
  · simp [tierReg, tierWrite, authorised, isOrig, hop, hr]
  · have he : e.op.about ≠ some X := hpost e (by rw [hsplit]; simp)
    simp [tierReg, tierWrite_of_not_about he]

/-- **What a removed device signs and what sorts behind its removal changes nothing.** -/
theorem removed_inert_behind {pre post : List Entry} {r f : Entry} {X : Id} {ts : UInt64}
    (hsplit : ordered P now cfg E = pre ++ r :: post) (hr : r.signer = cfg.originatorId)
    (hop : r.op = .remove X ts) (hpost : ∀ e ∈ post, e.op.about ≠ some X)
    (hX : X ≠ cfg.originatorId) (hf : f.signer = X) (hlt : orderKey P r < orderKey P f) :
    ¬ Changes cfg (stateAt P now cfg E f) f := by
  intro h'
  obtain ⟨hauth, -⟩ := h'
  have hpre : pre.filter (fun e => decide (orderKey P e < orderKey P f)) = pre := by
    refine List.filter_eq_self.mpr fun a ha => decide_eq_true (lt_trans ?_ hlt)
    exact ((hsplit ▸ strictBy_ordered E : StrictBy _ (pre ++ r :: post)).mem_before.mp ha).2
  have htier : (stateAt P now cfg E f).roster.tier? X = none := by
    unfold stateAt landing
    rw [hsplit, List.filter_append, hpre, List.filter_cons_of_pos (by simpa using hlt)]
    exact tier_behind_removal hr hop fun e he => hpost e (List.mem_of_mem_filter he)
  rcases Bool.or_eq_true_iff.mp (isAdmin_of_authorised hauth) with ho | hc
  · exact hX (hf ▸ of_decide_eq_true ho)
  · have hc' := of_decide_eq_true hc
    rw [hf, htier] at hc'
    cases hc'

/-- **When the entries `F` are inert in `E`.** The fold of `E ∪ F` agrees with the fold of
    `E` at every point exactly when no entry of `F` changes the state it meets where it
    lands; and then both rosters are equal. No entry does that the removed device has signed
    and that lands behind its removal. -/
theorem removed_inert_iff (hcf : CollisionFree P now cfg (E ++ F)) :
    ((∀ pre post, ordered P now cfg (E ++ F) = pre ++ post →
        foldFrom cfg .init pre = foldFrom cfg .init (pre.filter fun e => decide (e ∈ E))) ↔
      ∀ f ∈ F, f ∉ E → authentic P now cfg f = true → ¬ Changes cfg (stateAt P now cfg E f) f) ∧
    ((∀ f ∈ F, f ∉ E → authentic P now cfg f = true → ¬ Changes cfg (stateAt P now cfg E f) f) →
      Roster.build P now cfg (E ++ F) = Roster.build P now cfg E) ∧
    ∀ pre r post X ts, ordered P now cfg E = pre ++ r :: post → r.signer = cfg.originatorId →
      r.op = .remove X ts → (∀ e ∈ post, e.op.about ≠ some X) → X ≠ cfg.originatorId →
      ∀ f ∈ F, f.signer = X → orderKey P r < orderKey P f →
        ¬ Changes cfg (stateAt P now cfg E f) f := by
  have hstep : ∀ f, ¬ Changes cfg (stateAt P now cfg E f) f ↔
      foldEntry cfg (stateAt P now cfg E f) f = stateAt P now cfg E f := fun f => by
    have hco : (stateAt P now cfg E f).Coherent := coherent_foldFrom _ coherent_init
    rw [changes_iff hco, not_not]
  simp only [hstep]
  refine ⟨?_, build_append_of_inert hcf, fun pre r post X ts hsplit hr hop hpost hX f _ hf hlt =>
    (hstep f).mp (removed_inert_behind hsplit hr hop hpost hX hf hlt)⟩
  rw [run_prefixes_iff]
  refine ⟨?_, ?_⟩
  · intro h f hf hnE ha
    obtain ⟨pre, post, hsplit⟩ :=
      List.append_of_mem ((mem_ordered hcf).mpr ⟨List.mem_append_right _ hf, ha⟩)
    have := h pre f post hsplit (decide_eq_false hnE)
    rwa [filter_before hcf hsplit] at this
  · intro h pre f post hsplit hf
    obtain ⟨hF, ha⟩ := mem_right_of_split hsplit hf
    rw [filter_before hcf hsplit]
    exact h f hF (of_decide_eq_false hf) ha

/-- A former Controller's network: device 3 was a Controller from time 3 to 8. -/
def Sample.evicted : List Entry :=
  Sample.setup ++ [Sample.add 1 3 .controller 0 3, Sample.add 2 4 .peer 7 4,
    Sample.signed 1 (.remove (Sample.key 3) 8)]

/-- Dated behind its removal, device 3's `remove` of Peer 4 is inert. -/
theorem removed_inert_sample :
    Roster.build .plain 100 Sample.config
        (Sample.evicted ++ [Sample.signed 3 (.remove (Sample.key 4) 9)]) =
      Roster.build .plain 100 Sample.config Sample.evicted := by
  have h := removed_inert_iff (by decide : CollisionFree .plain 100 Sample.config
    (Sample.evicted ++ [Sample.signed 3 (.remove (Sample.key 4) 9)]))
  refine h.2.1 fun f hf _ _ => ?_
  refine h.2.2 (Sample.setup ++ [Sample.add 1 3 .controller 0 3, Sample.add 2 4 .peer 7 4])
    (Sample.signed 1 (.remove (Sample.key 3) 8)) [] (Sample.key 3) 8 (by decide) rfl rfl
    (List.forall_mem_nil _) (by decide) f hf ?_ ?_
  · obtain rfl := List.mem_singleton.mp hf
    rfl
  · obtain rfl := List.mem_singleton.mp hf
    decide

/-- What device 3 publishes after its removal, dated back to its time as a Controller. -/
def Sample.backdated : List Entry := [Sample.signed 3 (.remove (Sample.key 4) 5)]

/-- **A removed Controller still evicts Peers**: not every set of entries it signs after its
    removal leaves the roster alone. -/
theorem removed_not_inert :
    ¬ ∀ (E F : List Entry) (X : Id), CollisionFree .plain 100 Sample.config (E ++ F) →
      (∀ e ∈ E ++ F, authentic .plain 100 Sample.config e = true) →
      RemovedLast .plain 100 Sample.config E X → (∀ f ∈ F, f.signer = X ∧ f ∉ E) →
      Roster.build .plain 100 Sample.config (E ++ F) = Roster.build .plain 100 Sample.config E := by
  intro h
  have hlast : RemovedLast .plain 100 Sample.config Sample.evicted (Sample.key 3) :=
    ⟨_, Sample.signed 1 (.remove (Sample.key 3) 8), [], (by decide : _ = Sample.setup ++
      [Sample.add 1 3 .controller 0 3, Sample.add 2 4 .peer 7 4] ++ _), rfl, ⟨8, rfl⟩, by simp⟩
  have hb := h Sample.evicted Sample.backdated (Sample.key 3) (by decide) (by decide) hlast
    (by decide)
  have hm := congrArg (fun r => r.isMember (Sample.key 4)) hb
  revert hm
  decide

end Nullgate

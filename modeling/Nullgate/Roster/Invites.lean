/-
  File:      Nullgate/Roster/Invites.lean
  Subject:   SINGLE-USE INVITES AND THE NUMBER OF CONTROLLERS.

  1. A nonce is spent when a non-originator's `add` cites it while it is the single-use
     invite in force for the role's kind (`Spends`). Spent nonces are only ever added, so no
     nonce is spent twice (`single_use_once`), whatever is re-issued in between.
  2. A Controller owes its role to the last entry that wrote its tier: an originator's `add`
     or `setRole` that names it, or a Controller's `add` that spends a Controller invite,
     which only the originator issues. By 1. no two Controllers owe it to the same nonce, so
     there are at most as many Controllers as grants (`controllers_granted`).
-/
import Nullgate.Roster.Order
import Nullgate.Roster.Rules
import Mathlib.Data.Set.Card

namespace Nullgate

open Nullgate.Lib

variable {P : Primitives} {now : UInt64} {cfg : Config}

/-! ## 1. Spending a nonce -/

/-- In the state `s` the fold lets in a non-originator's `add` citing `n`, while `n` is the
    single-use invite in force for the kind of the role it grants. -/
def Spends (cfg : Config) (s : FoldState) (e : Entry) (n : Nonce) : Prop :=
  e.signer ≠ cfg.originatorId ∧ authorised cfg s e = true ∧
    ∃ nodeId hostname role ip ts, e.op = .add nodeId hostname role ip n ts ∧
      s.roster.currentInvite role.kind = some (n, true)

/-- A nonce that is spent passes the gate unspent. -/
theorem gate_of_spends {s : FoldState} {e : Entry} {n : Nonce} (h : Spends cfg s e n) :
    ∃ nodeId hostname role ip ts, e.op = .add nodeId hostname role ip n ts ∧
      inviteGate cfg s e role n = some (some n) ∧ s.consumed.contains n = false := by
  obtain ⟨hne, hauth, nodeId, hostname, role, ip, ts, hop, hcur⟩ := h
  obtain ⟨-, -, c, hg⟩ := (authorised_add hop).mp hauth
  refine ⟨nodeId, hostname, role, ip, ts, hop, ?_⟩
  rcases inviteGate_eq_some.mp hg with ⟨ho, -⟩ | ⟨-, hc, -⟩ | ⟨-, -, hn, rfl⟩
  · exact absurd (of_decide_eq_true ho) hne
  · rw [hcur] at hc
    cases hc
  · exact ⟨hg, hn⟩

/-- Spending a nonce puts it among the spent ones. -/
theorem consumed_of_spends {s : FoldState} {e : Entry} {n : Nonce} (h : Spends cfg s e n) :
    (foldEntry cfg s e).consumed.contains n = true := by
  obtain ⟨nodeId, hostname, role, ip, ts, hop, hg, -⟩ := gate_of_spends h
  rw [foldEntry_of_authorised h.2.1]
  simp [effect, hop, hg]

/-- A spent nonce stays spent over a step. -/
theorem consumed_foldEntry {s : FoldState} {n : Nonce} (e : Entry)
    (h : s.consumed.contains n = true) : (foldEntry cfg s e).consumed.contains n = true := by
  rw [foldEntry_eq]
  split
  · cases hop : e.op with
    | add nodeId hostname role ip inv ts =>
      simp only [effect, hop]
      split
      · rw [Std.ExtTreeSet.contains_insert, h, Bool.or_true]
      · exact h
    | setInvite kind nonce su ts => cases kind <;> simpa only [effect, hop] using h
    | _ => simpa only [effect, hop] using h
  · exact h

/-- A spent nonce stays spent for the rest of the fold. -/
theorem consumed_foldFrom {s : FoldState} {n : Nonce} (l : List Entry)
    (h : s.consumed.contains n = true) : (foldFrom cfg s l).consumed.contains n = true :=
  run_invariant (I := fun s : FoldState => s.consumed.contains n = true)
    (fun _ e _ hs => consumed_foldEntry e hs) h

theorem not_spends_of_consumed {s : FoldState} {e : Entry} {n : Nonce}
    (h : s.consumed.contains n = true) : ¬ Spends cfg s e n := fun hs => by
  obtain ⟨_, _, _, _, _, -, -, hn⟩ := gate_of_spends hs
  rw [h] at hn
  cases hn

/-- After an entry that spends `n`, no later entry of the run does. -/
theorem spends_once {s : FoldState} {a b : Entry} {n : Nonce} {pre mid : List Entry}
    (ha : Spends cfg (foldFrom cfg s pre) a n) :
    ¬ Spends cfg (foldFrom cfg s (pre ++ a :: mid)) b n := by
  refine not_spends_of_consumed ?_
  rw [foldFrom, run_append, run_cons]
  exact consumed_foldFrom mid (consumed_of_spends ha)

/-- **A single-use nonce admits once.** In the fold of `E`, of two entries at most one spends
    `n`; spending it puts `n` among the spent nonces; and a spent nonce is never spent again. -/
theorem single_use_once (E : List Entry) (n : Nonce) :
    (∀ pre a mid b post, ordered P now cfg E = pre ++ a :: (mid ++ b :: post) →
      Spends cfg (foldFrom cfg .init pre) a n →
      ¬ Spends cfg (foldFrom cfg .init (pre ++ a :: mid)) b n) ∧
    (∀ pre a post, ordered P now cfg E = pre ++ a :: post →
      Spends cfg (foldFrom cfg .init pre) a n →
      (foldFrom cfg .init (pre ++ [a])).consumed.contains n = true) ∧
    (∀ pre mid b post, ordered P now cfg E = pre ++ (mid ++ b :: post) →
      (foldFrom cfg .init pre).consumed.contains n = true →
      ¬ Spends cfg (foldFrom cfg .init (pre ++ mid)) b n) := by
  refine ⟨fun pre a mid b post _ ha => spends_once ha, fun pre a post _ ha => ?_,
    fun pre mid b post _ hn => not_spends_of_consumed ?_⟩
  · rw [foldFrom, run_append]
    exact consumed_of_spends ha
  · rw [foldFrom, run_append]
    exact consumed_foldFrom mid hn

/-! ## 2. Grants -/

/-- What a Controller can owe its role to: an `add`, a `setRole`, or an invite nonce. -/
inductive Grant where
  | add (e : Entry)
  | setRole (e : Entry)
  | invite (n : Nonce)

/-- The originator issued the grant in an entry of `l`. -/
def Grant.Issued (cfg : Config) (l : List Entry) : Grant → Prop
  | .add e => e ∈ l ∧ e.signer = cfg.originatorId ∧
      ∃ id hostname ip inv ts, e.op = .add id hostname .controller ip inv ts
  | .setRole e => e ∈ l ∧ e.signer = cfg.originatorId ∧ ∃ id ts, e.op = .setRole id .controller ts
  | .invite n => ∃ e ∈ l, e.signer = cfg.originatorId ∧
      ∃ su ts, e.op = .setInvite .controller n su ts

/-- The grant is `c`'s: it names `c`, or it is the nonce cited by an accepted `add` of `c` at
    role Controller that the originator did not sign. -/
def Grant.Matches (cfg : Config) (l : List Entry) : Grant → Id → Prop
  | .add e, c => e.admits? = some c
  | .setRole e, c => e.op.about = some c
  | .invite n, c => ∃ pre a post, l = pre ++ a :: post ∧ a.signer ≠ cfg.originatorId ∧
      authorised cfg (foldFrom cfg .init pre) a = true ∧
      ∃ hostname ip ts, a.op = .add c hostname .controller ip n ts

theorem Grant.Issued.mono {l l' : List Entry} (hs : ∀ e ∈ l, e ∈ l') {g : Grant}
    (h : g.Issued cfg l) : g.Issued cfg l' := by
  cases g with
  | add e => exact ⟨hs e h.1, h.2⟩
  | setRole e => exact ⟨hs e h.1, h.2⟩
  | invite n =>
    obtain ⟨e, he, h⟩ := h
    exact ⟨e, hs e he, h⟩

/-- The Controller invite in force is single-use, and the originator issued it. -/
theorem controllerInvite_issued {l : List Entry} {n : Nonce} {su : Bool}
    (h : (foldFrom cfg .init l).roster.currentInvite .controller = some (n, su)) :
    su = true ∧ (Grant.invite n).Issued cfg l := by
  have h0 : (inviteReg cfg .controller).obs .init ≠ some (n, su) := by
    simp [inviteReg, FoldState.init, Roster.default, Roster.currentInvite]
  obtain ⟨pre, e, post, hw⟩ := (inviteReg cfg .controller).lastWrite_of_ne h h0
  have hwr := hw.writes
  simp only [inviteReg] at hwr
  split at hwr
  · rename_i hauth
    obtain ⟨n', su', ts, hop, hv⟩ := inviteWrite_some hwr
    obtain ⟨rfl, rfl⟩ := Prod.mk.inj (Option.some.inj hv)
    simp only [authorised, hop] at hauth
    refine ⟨by simp, e, ?_, of_decide_eq_true hauth, su', ts, hop⟩
    rw [hw.split]
    exact List.mem_append_right _ List.mem_cons_self
  · cases hwr

/-- A Controller's accepted `add` at role Controller spends the nonce it cites. -/
theorem spends_of_controller_add {l : List Entry} {a : Entry} {c : Id} {hostname : String}
    {ip : Octets} {n : Nonce} {ts : UInt64} (hop : a.op = .add c hostname .controller ip n ts)
    (hne : a.signer ≠ cfg.originatorId)
    (hauth : authorised cfg (foldFrom cfg .init l) a = true) :
    Spends cfg (foldFrom cfg .init l) a n ∧ (Grant.invite n).Issued cfg l := by
  obtain ⟨-, -, su, hcur⟩ := vouch_of_authorised hop hauth hne
  obtain ⟨rfl, hiss⟩ := controllerInvite_issued hcur
  exact ⟨⟨hne, hauth, c, hostname, .controller, ip, ts, hop, hcur⟩, hiss⟩

/-- **A grant is at most one node's.** -/
theorem Grant.Matches.unique {l : List Entry} {g : Grant} {c c' : Id} (h : g.Matches cfg l c)
    (h' : g.Matches cfg l c') : c = c' := by
  cases g with
  | add e => exact Option.some.inj (h.symm.trans h')
  | setRole e => exact Option.some.inj (h.symm.trans h')
  | invite n =>
    obtain ⟨pre, a, post, hl, hne, hauth, hostname, ip, ts, hop⟩ := h
    obtain ⟨pre', a', post', hl', hne', hauth', hostname', ip', ts', hop'⟩ := h'
    have hs := (spends_of_controller_add hop hne hauth).1
    have hs' := (spends_of_controller_add hop' hne' hauth').1
    rcases split_trichotomy hl hl' with ⟨rfl, rfl, -⟩ | ⟨mid, -, rfl⟩ | ⟨mid, -, rfl⟩
    · rw [hop] at hop'
      cases hop'
      rfl
    · exact absurd hs' (spends_once hs)
    · exact absurd hs (spends_once hs')

/-- **Every Controller of a fold has a grant**: the last entry that wrote its tier. -/
theorem exists_grant {l : List Entry} {c : Id}
    (h : (foldFrom cfg .init l).roster.tier? c = some .controller) :
    ∃ g : Grant, g.Issued cfg l ∧ g.Matches cfg l c := by
  have h0 : (tierReg cfg c).obs .init ≠ some .controller := by
    simp [tierReg, FoldState.init, Roster.default, Roster.tier?]
  obtain ⟨pre, e, post, hw⟩ := (tierReg cfg c).lastWrite_of_ne h h0
  have hmem : e ∈ l := by
    rw [hw.split]
    exact List.mem_append_right _ List.mem_cons_self
  have hwr := hw.writes
  simp only [tierReg] at hwr
  split at hwr
  · rename_i hauth
    unfold tierWrite at hwr
    cases hop : e.op with
    | add nodeId hostname role ip inv ts =>
      simp only [hop] at hwr
      split at hwr
      · rename_i hid
        subst hid
        obtain rfl : role = .controller := Option.some.inj (Option.some.inj hwr)
        by_cases ho : e.signer = cfg.originatorId
        · exact ⟨.add e, ⟨hmem, ho, nodeId, hostname, ip, inv, ts, hop⟩,
            by simp [Grant.Matches, Entry.admits?, hop]⟩
        · have hiss := (spends_of_controller_add hop ho hauth).2
          refine ⟨.invite inv, hiss.mono fun x hx => ?_, pre, e, post, hw.split, ho, hauth,
            hostname, ip, ts, hop⟩
          rw [hw.split]
          exact List.mem_append_left _ hx
      · cases hwr
    | setRole nodeId role ts =>
      simp only [hop] at hwr
      split at hwr
      · rename_i hid
        obtain ⟨rfl, -⟩ := hid
        obtain rfl : role = .controller := Option.some.inj (Option.some.inj hwr)
        simp only [authorised, hop] at hauth
        exact ⟨.setRole e, ⟨hmem, of_decide_eq_true hauth, nodeId, ts, hop⟩,
          by simp [Grant.Matches, Op.about, hop]⟩
      · cases hwr
    | remove nodeId ts =>
      simp only [hop] at hwr
      split at hwr <;> simp at hwr
    | _ => simp [hop] at hwr
  · cases hwr

/-- What an entry may be a grant as. -/
def Entry.grants (e : Entry) : List Grant :=
  match e.op with
  | .setInvite _ n _ _ => [.invite n]
  | _ => [.add e, .setRole e]

/-- The grants in a list are finitely many. -/
theorem finite_issued (l : List Entry) : {g : Grant | g.Issued cfg l}.Finite := by
  refine Set.Finite.subset (l.flatMap Entry.grants).finite_toSet fun g hg => ?_
  refine List.mem_flatMap.mpr ?_
  cases g with
  | add e =>
    obtain ⟨he, -, id, hostname, ip, inv, ts, hop⟩ := hg
    exact ⟨e, he, by simp [Entry.grants, hop]⟩
  | setRole e =>
    obtain ⟨he, -, id, ts, hop⟩ := hg
    exact ⟨e, he, by simp [Entry.grants, hop]⟩
  | invite n =>
    obtain ⟨e, he, -, su, ts, hop⟩ := hg
    exact ⟨e, he, by simp [Entry.grants, hop]⟩

/-- **No privilege escalation.** There is an injection from the Controllers of `E` into the
    grants the originator issued in authentic entries of `E`, each grant being its
    Controller's; so there are at most as many Controllers as grants. -/
theorem controllers_granted (E : List Entry) :
    (∃ grant : Id → Grant,
      (∀ c, (Roster.build P now cfg E).tier? c = some .controller →
        (grant c).Issued cfg (E.filter (authentic P now cfg)) ∧
          (grant c).Matches cfg (ordered P now cfg E) c) ∧
      Set.InjOn grant {c | (Roster.build P now cfg E).tier? c = some .controller}) ∧
    {c | (Roster.build P now cfg E).tier? c = some .controller}.ncard ≤
      {g : Grant | g.Issued cfg (E.filter (authentic P now cfg))}.ncard := by
  have hex : ∀ c, ∃ g : Grant, (Roster.build P now cfg E).tier? c = some .controller →
      g.Issued cfg (E.filter (authentic P now cfg)) ∧ g.Matches cfg (ordered P now cfg E) c := by
    intro c
    by_cases hc : (Roster.build P now cfg E).tier? c = some .controller
    · obtain ⟨g, hi, hm⟩ := exists_grant (l := ordered P now cfg E) (c := c) (by
        rw [← finish_tier?]
        exact hc)
      exact ⟨g, fun _ => ⟨hi.mono fun e he => List.mem_filter.mpr (ordered_sub he), hm⟩⟩
    · exact ⟨.invite (Bytes.fill 16 0), fun h => absurd h hc⟩
  choose grant hgrant using hex
  have hinj : Set.InjOn grant {c | (Roster.build P now cfg E).tier? c = some .controller} :=
    fun c hc c' hc' he => (hgrant c hc).2.unique (he ▸ (hgrant c' hc').2)
  refine ⟨⟨grant, hgrant, hinj⟩, ?_⟩
  exact Set.ncard_le_ncard_of_injOn grant (fun c hc => (hgrant c hc).1) hinj (finite_issued _)

end Nullgate
